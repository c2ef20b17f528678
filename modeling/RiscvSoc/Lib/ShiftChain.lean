import Mathlib.Data.BitVec
import Mathlib.Data.List.Basic
/-!
# Shift registers

A register that takes one bit in and gives one bit out in some of the steps of a machine
and is left alone in the others. Over any steps it gives out what it held, then what it
took in, and keeps the rest.
-/

namespace ShiftChain

/-- The bits of a word, the least significant first. -/
def bits {w : ℕ} (v : BitVec w) : List Bool := (List.range w).map v.getLsbD

@[simp] theorem bits_length {w : ℕ} (v : BitVec w) : (bits v).length = w := by simp [bits]

/-- The word moves down by one bit and `b` comes in on top. -/
theorem bits_shift {w : ℕ} (v : BitVec (w + 1)) (b : Bool) :
    bits (BitVec.ofBool b ++ v.extractLsb' 1 w) = (bits v).tail ++ [b] := by
  refine List.ext_getElem (by simp; omega) fun k h1 h2 => ?_
  have hk : k < 1 + w := by simpa using h1
  rw [List.getElem_append]
  by_cases hw : k < w
  · have ht : k < (bits v).tail.length := by simpa using hw
    rw [dif_pos ht]
    simp [bits, BitVec.getLsbD_append, hw, Nat.add_comm]
  · obtain rfl : k = w := by omega
    simp [bits, BitVec.getElem_append]

section Machine

variable {σ ι : Type*} (step : σ → ι → σ) (shifting : σ → Bool) (tdi : ι → Bool) (tdo : σ → Bool)

/-- The bits that come in at the steps that shift. -/
def scanIn : σ → List ι → List Bool
  | _, [] => []
  | s, i :: is => if shifting s then tdi i :: scanIn (step s i) is else scanIn (step s i) is

/-- The bits that are out before the steps that shift. -/
def scanOut : σ → List ι → List Bool
  | _, [] => []
  | s, i :: is => if shifting s then tdo s :: scanOut (step s i) is else scanOut (step s i) is

/-- Every step starts from a state in `I`. -/
def Within (I : σ → Prop) : σ → List ι → Prop
  | _, [] => True
  | s, i :: is => I s ∧ Within I (step s i) is

/-- In the states of `I` the list `reg` is a shift register. -/
structure Serial (reg : σ → List Bool) (I : σ → Prop) : Prop where
  shift : ∀ s i, I s → shifting s = true → reg (step s i) = (reg s).tail ++ [tdi i]
  hold : ∀ s i, I s → shifting s = false → reg (step s i) = reg s

variable {step shifting tdi tdo} {reg : σ → List Bool} {I : σ → Prop}

/-- What is left is the end of what was held and what came in. -/
theorem Serial.reg_run (h : Serial step shifting tdi reg I) {s : σ} {is : List ι} (hr : reg s ≠ [])
    (hw : Within step I s is) :
    reg (is.foldl step s) = (reg s ++ scanIn step shifting tdi s is).drop (scanIn step shifting tdi s is).length := by
  induction is generalizing s with
  | nil => simp [scanIn]
  | cons i is ih =>
    obtain ⟨hI, hw⟩ := hw
    rw [List.foldl_cons, scanIn]
    cases hs : shifting s with
    | false =>
      rw [ih (by rwa [h.hold s i hI hs]) hw, h.hold s i hI hs]
      rfl
    | true =>
      rw [ih (by simp [h.shift s i hI hs]) hw, h.shift s i hI hs]
      cases hreg : reg s with
      | nil => exact absurd hreg hr
      | cons b q => simp

/-- What is given out is the beginning. -/
theorem Serial.out_run (h : Serial step shifting tdi reg I)
    (hout : ∀ s, I s → shifting s = true → (reg s).head? = some (tdo s)) {s : σ} {is : List ι} (hr : reg s ≠ [])
    (hw : Within step I s is) :
    scanOut step shifting tdo s is =
      (reg s ++ scanIn step shifting tdi s is).take (scanIn step shifting tdi s is).length := by
  induction is generalizing s with
  | nil => simp [scanIn, scanOut]
  | cons i is ih =>
    obtain ⟨hI, hw⟩ := hw
    rw [scanOut, scanIn]
    cases hs : shifting s with
    | false =>
      rw [if_neg Bool.false_ne_true, if_neg Bool.false_ne_true, ih (by rwa [h.hold s i hI hs]) hw, h.hold s i hI hs]
    | true =>
      rw [if_pos rfl, if_pos rfl, ih (by simp [h.shift s i hI hs]) hw, h.shift s i hI hs]
      have hhead := hout s hI hs
      cases hreg : reg s with
      | nil => exact absurd hreg hr
      | cons b q =>
        obtain rfl : b = tdo s := by simpa [hreg] using hhead
        simp

end Machine

end ShiftChain
