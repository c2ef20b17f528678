import Mathlib.Data.BitVec
/-!
# Asynchronous serial lines

Frames of a start bit, eight data bits, the least significant first, and a stop bit, on a
line that is high between them.
-/

namespace SerialLine

/-- Bit `k` of the frame of a byte. -/
def frameBit (b : BitVec 8) (k : ℕ) : Bool :=
  if k = 0 then false else if k < 9 then b.getLsbD (k - 1) else true

@[simp] theorem frameBit_start (b : BitVec 8) : frameBit b 0 = false := rfl

theorem frameBit_data (b : BitVec 8) {k : ℕ} (hk : k < 8) : frameBit b (k + 1) = b.getLsbD k := by
  simp [frameBit, hk]

@[simp] theorem frameBit_stop (b : BitVec 8) : frameBit b 9 = true := rfl

theorem frameBit_inj {b b' : BitVec 8} (h : ∀ k < 10, frameBit b k = frameBit b' k) : b = b' := by
  refine BitVec.eq_of_getLsbD_eq fun k hk => ?_
  rw [← frameBit_data b hk, ← frameBit_data b' hk]
  exact h (k + 1) (by omega)

variable {c : ℕ} {line : ℕ → Bool} {p q s : ℕ} {b : BitVec 8} {bs bs' : List (BitVec 8)}

/-- From cycle `p` on the line shows the frame of `b`, each bit for `c` cycles. -/
def IsFrame (c : ℕ) (line : ℕ → Bool) (p : ℕ) (b : BitVec 8) : Prop :=
  ∀ k < 10, ∀ j < c, line (p + (k * c + j)) = frameBit b k

/-- From cycle `p` to before cycle `q` the line shows the frames of `bs`, and is high
before, between and after them. -/
inductive Shows (c : ℕ) (line : ℕ → Bool) : ℕ → ℕ → List (BitVec 8) → Prop
  | nil (p : ℕ) : Shows c line p p []
  | high {p q : ℕ} {bs : List (BitVec 8)} (h : line p = true) (hs : Shows c line (p + 1) q bs) : Shows c line p q bs
  | frame {p q : ℕ} {bs : List (BitVec 8)} (b : BitVec 8) (h : IsFrame c line p b)
      (hs : Shows c line (p + 10 * c) q bs) : Shows c line p q (b :: bs)

theorem Shows.le (h : Shows c line p q bs) : p ≤ q := by
  induction h with
  | nil => exact le_rfl
  | high _ _ ih => omega
  | frame _ _ _ ih => omega

theorem Shows.append (h : Shows c line p q bs) (h' : Shows c line q s bs') : Shows c line p s (bs ++ bs') := by
  induction h with
  | nil => exact h'
  | high hp _ ih => exact .high hp (ih h')
  | frame b hf _ ih => exact .frame b hf (ih h')

theorem Shows.single_high (h : line p = true) : Shows c line p (p + 1) [] := .high h (.nil _)

theorem Shows.single_frame (h : IsFrame c line p b) : Shows c line p (p + 10 * c) [b] := .frame b h (.nil _)

theorem IsFrame.low (hc : 0 < c) (h : IsFrame c line p b) : line p = false := by
  simpa using h 0 (by omega) 0 hc

theorem IsFrame.byte_unique (hc : 0 < c) {b' : BitVec 8} (h : IsFrame c line p b) (h' : IsFrame c line p b') : b = b' :=
  frameBit_inj fun k hk => (h k hk 0 hc).symm.trans (h' k hk 0 hc)

/-- A line shows one list of bytes at most. -/
theorem Shows.unique (hc : 0 < c) (h : Shows c line p q bs) (h' : Shows c line p q bs') : bs = bs' := by
  induction h generalizing bs' with
  | nil =>
    cases h' with
    | nil => rfl
    | high _ hs => exact absurd hs.le (by omega)
    | frame _ _ hs => exact absurd hs.le (by omega)
  | high hp hs ih =>
    cases h' with
    | nil => exact absurd hs.le (by omega)
    | high _ hs' => exact ih hs'
    | frame _ hf _ => exact absurd (hf.low hc) (by simp [hp])
  | frame b hf hs ih =>
    cases h' with
    | nil => exact absurd hs.le (by omega)
    | high hp _ => exact absurd (hf.low hc) (by simp [hp])
    | frame b' hf' hs' => rw [hf.byte_unique hc hf', ih hs']

end SerialLine
