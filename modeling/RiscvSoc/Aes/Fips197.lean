import RiscvSoc.Lib.Gf256
/-!
# FIPS-197 for 128-bit keys

The standard's own definition of AES-128, with nothing taken from the RTL: the
S-box is the field inverse followed by the affine map, the state is a 4×4 array
of bytes and the key schedule is the recurrence on 4-byte words. The RTL is
compared with `encrypt128` and `decrypt128`.
-/

namespace Fips197

open Gf256

/-- Four bytes `[b0, b1, b2, b3]`: a column of the state, or a word of the key. -/
@[ext] structure Word where
  b0 : BitVec 8
  b1 : BitVec 8
  b2 : BitVec 8
  b3 : BitVec 8
  deriving DecidableEq, Repr

/-- The 4×4 state by columns; row `r` is the bytes `b_r`. -/
@[ext] structure State where
  c0 : Word
  c1 : Word
  c2 : Word
  c3 : Word
  deriving DecidableEq, Repr

def Word.map (f : BitVec 8 → BitVec 8) (w : Word) : Word := ⟨f w.b0, f w.b1, f w.b2, f w.b3⟩

def Word.add (v w : Word) : Word := ⟨v.b0 ^^^ w.b0, v.b1 ^^^ w.b1, v.b2 ^^^ w.b2, v.b3 ^^^ w.b3⟩

def State.map (f : Word → Word) (s : State) : State := ⟨f s.c0, f s.c1, f s.c2, f s.c3⟩

/-! ## SubBytes -/

/-- Bit `i` of the result is `b_i + b_(i+4) + b_(i+5) + b_(i+6) + b_(i+7) + c_i`, `c = 0x63`. -/
def affine (b : BitVec 8) : BitVec 8 :=
  b ^^^ b.rotateLeft 1 ^^^ b.rotateLeft 2 ^^^ b.rotateLeft 3 ^^^ b.rotateLeft 4 ^^^ 0x63#8

def sbox (a : BitVec 8) : BitVec 8 := affine (inv a)

/-- The inverse affine map, then the field inverse. -/
def invSbox (a : BitVec 8) : BitVec 8 :=
  inv (a.rotateLeft 1 ^^^ a.rotateLeft 3 ^^^ a.rotateLeft 6 ^^^ 0x05#8)

def subBytes : State → State := State.map (Word.map sbox)

def invSubBytes : State → State := State.map (Word.map invSbox)

/-! ## ShiftRows: row `r` moves `r` columns to the left -/

def shiftRows (s : State) : State where
  c0 := ⟨s.c0.b0, s.c1.b1, s.c2.b2, s.c3.b3⟩
  c1 := ⟨s.c1.b0, s.c2.b1, s.c3.b2, s.c0.b3⟩
  c2 := ⟨s.c2.b0, s.c3.b1, s.c0.b2, s.c1.b3⟩
  c3 := ⟨s.c3.b0, s.c0.b1, s.c1.b2, s.c2.b3⟩

def invShiftRows (s : State) : State where
  c0 := ⟨s.c0.b0, s.c3.b1, s.c2.b2, s.c1.b3⟩
  c1 := ⟨s.c1.b0, s.c0.b1, s.c3.b2, s.c2.b3⟩
  c2 := ⟨s.c2.b0, s.c1.b1, s.c0.b2, s.c3.b3⟩
  c3 := ⟨s.c3.b0, s.c2.b1, s.c1.b2, s.c0.b3⟩

/-! ## MixColumns: every column times a circulant matrix -/

/-- `⟨m0, m1, m2, m3⟩` is the first row of the matrix; each row is the one above moved right. -/
def mulColumn (m : Word) (v : Word) : Word where
  b0 := mul m.b0 v.b0 ^^^ mul m.b1 v.b1 ^^^ mul m.b2 v.b2 ^^^ mul m.b3 v.b3
  b1 := mul m.b3 v.b0 ^^^ mul m.b0 v.b1 ^^^ mul m.b1 v.b2 ^^^ mul m.b2 v.b3
  b2 := mul m.b2 v.b0 ^^^ mul m.b3 v.b1 ^^^ mul m.b0 v.b2 ^^^ mul m.b1 v.b3
  b3 := mul m.b1 v.b0 ^^^ mul m.b2 v.b1 ^^^ mul m.b3 v.b2 ^^^ mul m.b0 v.b3

def mixColumns : State → State := State.map (mulColumn ⟨0x02, 0x03, 0x01, 0x01⟩)

def invMixColumns : State → State := State.map (mulColumn ⟨0x0e, 0x0b, 0x0d, 0x09⟩)

/-! ## Key schedule -/

def rotWord (w : Word) : Word := ⟨w.b1, w.b2, w.b3, w.b0⟩

def subWord : Word → Word := Word.map sbox

/-- `[x^(j-1), 0, 0, 0]`, for `j ≥ 1`. -/
def rcon (j : ℕ) : Word := ⟨(mul 2)^[j - 1] 1, 0, 0, 0⟩

/-- The standard's `temp` for word `i`, `prev` being word `i - 1`. -/
def temp (i : ℕ) (prev : Word) : Word :=
  if i % 4 = 0 then (subWord (rotWord prev)).add (rcon (i / 4)) else prev

/-- Words `i .. i + 3` of the expanded key; the key itself is words `0 .. 3`. -/
def window (key : State) : ℕ → State
  | 0 => key
  | i + 1 =>
    let w := window key i
    ⟨w.c1, w.c2, w.c3, w.c0.add (temp (i + 4) w.c3)⟩

/-- Word `i` of the expanded key. -/
def expandedKey (key : State) (i : ℕ) : Word := (window key i).c0

/-- The standard's recurrence. -/
theorem expandedKey_add_four (key : State) (i : ℕ) :
    expandedKey key (i + 4) = (expandedKey key i).add (temp (i + 4) (expandedKey key (i + 3))) := rfl

/-- The round key of round `r`: words `4r .. 4r + 3`. -/
def roundKey (key : State) (r : ℕ) : State :=
  ⟨expandedKey key (4 * r), expandedKey key (4 * r + 1), expandedKey key (4 * r + 2),
    expandedKey key (4 * r + 3)⟩

theorem Word.add_comm (v w : Word) : v.add w = w.add v := by
  simp [Word.add, BitVec.xor_comm]

theorem Word.add_assoc (u v w : Word) : (u.add v).add w = u.add (v.add w) := by
  simp [Word.add, BitVec.xor_assoc]

/-- Four steps of the recurrence, with a round key as one state. -/
theorem roundKey_succ (key : State) (r : ℕ) :
    let k := roundKey key r
    let w0 := k.c0.add ((subWord (rotWord k.c3)).add (rcon (r + 1)))
    let w1 := w0.add k.c1
    let w2 := w1.add k.c2
    roundKey key (r + 1) = ⟨w0, w1, w2, w2.add k.c3⟩ := by
  have h0 (w : Word) : temp (4 * r + 4) w = (subWord (rotWord w)).add (rcon (r + 1)) := by
    rw [temp, if_pos (by omega), show (4 * r + 4) / 4 = r + 1 by omega]
  have h1 (j : ℕ) (hj : j = 1 ∨ j = 2 ∨ j = 3) (w : Word) : temp (4 * r + j + 4) w = w :=
    if_neg (by omega)
  have e (j : ℕ) := expandedKey_add_four key (4 * r + j)
  have e0 := (e 0).trans (by rw [Nat.add_zero, h0])
  have e1 := (e 1).trans (by rw [h1 1 (by omega), Word.add_comm])
  have e2 := (e 2).trans (by rw [h1 2 (by omega), Word.add_comm])
  have e3 := (e 3).trans (by rw [h1 3 (by omega), Word.add_comm])
  simp only [Nat.add_zero, Nat.add_assoc, Nat.reduceAdd] at e0 e1 e2 e3
  simp only [roundKey, Nat.mul_add, Nat.mul_one, Nat.add_assoc, Nat.reduceAdd, e3, e2, e1, e0]

def addRoundKey (k s : State) : State := ⟨s.c0.add k.c0, s.c1.add k.c1, s.c2.add k.c2, s.c3.add k.c3⟩

/-! ## Cipher and InvCipher -/

/-- Rounds `1 .. n`. -/
def rounds (k : ℕ → State) (s : State) : ℕ → State
  | 0 => s
  | n + 1 => addRoundKey (k (n + 1)) (mixColumns (shiftRows (subBytes (rounds k s n))))

def cipher (k : ℕ → State) (s : State) : State :=
  addRoundKey (k 10) (shiftRows (subBytes (rounds k (addRoundKey (k 0) s) 9)))

/-- The first `n` of the rounds `9, 8, .., 1`. -/
def invRounds (k : ℕ → State) (s : State) : ℕ → State
  | 0 => s
  | n + 1 => invMixColumns (addRoundKey (k (9 - n)) (invSubBytes (invShiftRows (invRounds k s n))))

def invCipher (k : ℕ → State) (s : State) : State :=
  addRoundKey (k 0) (invSubBytes (invShiftRows (invRounds k (addRoundKey (k 10) s) 9)))

/-! ## Blocks: byte 0 is the most significant, byte `r + 4c` is row `r` of column `c` -/

def Word.ofBits (w : BitVec 32) : Word :=
  ⟨w.extractLsb' 24 8, w.extractLsb' 16 8, w.extractLsb' 8 8, w.extractLsb' 0 8⟩

def Word.toBits (w : Word) : BitVec 32 := w.b0 ++ w.b1 ++ w.b2 ++ w.b3

def State.ofBits (b : BitVec 128) : State :=
  ⟨.ofBits (b.extractLsb' 96 32), .ofBits (b.extractLsb' 64 32), .ofBits (b.extractLsb' 32 32),
    .ofBits (b.extractLsb' 0 32)⟩

def State.toBits (s : State) : BitVec 128 := s.c0.toBits ++ s.c1.toBits ++ s.c2.toBits ++ s.c3.toBits

def encrypt128 (key block : BitVec 128) : BitVec 128 :=
  (cipher (roundKey (.ofBits key)) (.ofBits block)).toBits

def decrypt128 (key block : BitVec 128) : BitVec 128 :=
  (invCipher (roundKey (.ofBits key)) (.ofBits block)).toBits

end Fips197
