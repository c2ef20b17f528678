import Mathlib.Data.BitVec
import Mathlib.Data.List.Basic
/-!
# Modes of operation

ECB, CBC and CTR of SP 800-38A over whole messages, for any block width and any
block cipher. CTR counts with the whole block, modulo `2^w`. `blockOut` and
`blockNext` are the same modes block by block, from a running chaining value;
`message_snoc` and `nextIv_snoc` connect the two.
-/

namespace Modes

variable {w : ℕ}

inductive Mode
  | ecb
  | cbc
  | ctr
  deriving DecidableEq, Repr

/-- A block cipher under one key. -/
structure Cipher (w : ℕ) where
  enc : BitVec w → BitVec w
  dec : BitVec w → BitVec w

/-! ## Messages -/

/-- `C_j = E(P_j ⊕ C_{j-1})`, with `C_0` the IV. -/
def cbcEncrypt (c : Cipher w) : BitVec w → List (BitVec w) → List (BitVec w)
  | _, [] => []
  | v, p :: ps => c.enc (p ^^^ v) :: cbcEncrypt c (c.enc (p ^^^ v)) ps

/-- `P_j = D(C_j) ⊕ C_{j-1}`, with `C_0` the IV. -/
def cbcDecrypt (c : Cipher w) : BitVec w → List (BitVec w) → List (BitVec w)
  | _, [] => []
  | v, x :: xs => (c.dec x ^^^ v) :: cbcDecrypt c x xs

/-- `C_j = P_j ⊕ E(T_j)`, the counter `T_j` starting from the IV. -/
def ctr (c : Cipher w) : BitVec w → List (BitVec w) → List (BitVec w)
  | _, [] => []
  | v, p :: ps => (p ^^^ c.enc v) :: ctr c (v + 1#w) ps

/-- The message `bs` encrypted, or decrypted if `dec`. -/
def message (c : Cipher w) (m : Mode) (dec : Bool) (iv : BitVec w) (bs : List (BitVec w)) : List (BitVec w) :=
  match m with
  | .ecb => bs.map (if dec then c.dec else c.enc)
  | .cbc => if dec then cbcDecrypt c iv bs else cbcEncrypt c iv bs
  | .ctr => ctr c iv bs

/-- The chaining value after `bs`: the last block of ciphertext, or the next counter. -/
def nextIv (c : Cipher w) (m : Mode) (dec : Bool) (iv : BitVec w) (bs : List (BitVec w)) : BitVec w :=
  match m with
  | .ecb => iv
  | .cbc => (if dec then bs else cbcEncrypt c iv bs).getLastD iv
  | .ctr => iv + BitVec.ofNat w bs.length

/-! ## Block by block -/

def blockOut (c : Cipher w) (m : Mode) (dec : Bool) (v b : BitVec w) : BitVec w :=
  match m with
  | .ecb => if dec then c.dec b else c.enc b
  | .cbc => if dec then c.dec b ^^^ v else c.enc (b ^^^ v)
  | .ctr => b ^^^ c.enc v

def blockNext (c : Cipher w) (m : Mode) (dec : Bool) (v b : BitVec w) : BitVec w :=
  match m with
  | .ecb => v
  | .cbc => if dec then b else c.enc (b ^^^ v)
  | .ctr => v + 1#w

section Snoc

variable (c : Cipher w) (b : BitVec w) (bs : List (BitVec w))

theorem cbcEncrypt_snoc (v : BitVec w) :
    cbcEncrypt c v (bs ++ [b]) = cbcEncrypt c v bs ++ [c.enc (b ^^^ (cbcEncrypt c v bs).getLastD v)] := by
  induction bs generalizing v with
  | nil => rfl
  | cons p ps ih => simp only [List.cons_append, cbcEncrypt, ih, List.getLastD_cons]

theorem cbcDecrypt_snoc (v : BitVec w) :
    cbcDecrypt c v (bs ++ [b]) = cbcDecrypt c v bs ++ [c.dec b ^^^ bs.getLastD v] := by
  induction bs generalizing v with
  | nil => rfl
  | cons x xs ih => simp only [List.cons_append, cbcDecrypt, ih, List.getLastD_cons]

theorem ctr_snoc (v : BitVec w) :
    ctr c v (bs ++ [b]) = ctr c v bs ++ [b ^^^ c.enc (v + BitVec.ofNat w bs.length)] := by
  induction bs generalizing v with
  | nil => simp [ctr]
  | cons p ps ih =>
    simp only [List.cons_append, ctr, ih, List.length_cons, BitVec.ofNat_add, BitVec.add_assoc]
    rw [BitVec.add_comm 1#w]

variable (m : Mode) (dec : Bool) (iv : BitVec w)

theorem message_snoc :
    message c m dec iv (bs ++ [b]) = message c m dec iv bs ++ [blockOut c m dec (nextIv c m dec iv bs) b] := by
  cases m <;> cases dec <;> simp [message, blockOut, nextIv, cbcEncrypt_snoc, cbcDecrypt_snoc, ctr_snoc]

theorem nextIv_snoc :
    nextIv c m dec iv (bs ++ [b]) = blockNext c m dec (nextIv c m dec iv bs) b := by
  cases m <;> cases dec <;>
    simp [blockNext, nextIv, cbcEncrypt_snoc, BitVec.ofNat_add, BitVec.add_assoc]

theorem message_length : (message c m dec iv bs).length = bs.length := by
  induction bs using List.reverseRecOn generalizing iv with
  | nil => cases m <;> cases dec <;> rfl
  | append_singleton bs b ih => simp [message_snoc, ih]

@[simp] theorem message_nil : message c m dec iv [] = [] := by
  cases m <;> cases dec <;> rfl

@[simp] theorem nextIv_nil : nextIv c m dec iv [] = iv := by
  cases m <;> cases dec <;> simp [nextIv, cbcEncrypt]

end Snoc

/-! ## Round trip -/

section RoundTrip

variable {c : Cipher w} (hc : ∀ x, c.dec (c.enc x) = x)
include hc

theorem cbcDecrypt_cbcEncrypt (v : BitVec w) (ps : List (BitVec w)) :
    cbcDecrypt c v (cbcEncrypt c v ps) = ps := by
  induction ps generalizing v with
  | nil => rfl
  | cons p ps ih =>
    rw [cbcEncrypt, cbcDecrypt, ih, hc, BitVec.xor_assoc, BitVec.xor_self, BitVec.xor_zero]

omit hc in
theorem ctr_ctr (v : BitVec w) (ps : List (BitVec w)) : ctr c v (ctr c v ps) = ps := by
  induction ps generalizing v with
  | nil => rfl
  | cons p ps ih => rw [ctr, ctr, ih, BitVec.xor_assoc, BitVec.xor_self, BitVec.xor_zero]

theorem message_message (m : Mode) (iv : BitVec w) (ps : List (BitVec w)) :
    message c m true iv (message c m false iv ps) = ps := by
  cases m with
  | ecb => simp [message, Function.comp_def, hc]
  | cbc => exact cbcDecrypt_cbcEncrypt hc iv ps
  | ctr => exact ctr_ctr iv ps

end RoundTrip

end Modes
