import RiscvSoc.Lib.Concat
/-!
# Words written under byte strobes, blocks written by words
-/

namespace Bytes

/-- Byte `k` of a word. -/
def byteOf (x : BitVec 32) (k : Fin 4) : BitVec 8 := x.extractLsb' (8 * k) 8

/-- `old` with byte `k` taken from `new` where bit `k` of `strb` is set. -/
def merge (strb : BitVec 4) (old new : BitVec 32) : BitVec 32 :=
  let byte (k : Fin 4) := if strb.getLsbD k then byteOf new k else byteOf old k
  byte 3 ++ byte 2 ++ byte 1 ++ byte 0

theorem byteOf_merge (strb : BitVec 4) (old new : BitVec 32) (k : Fin 4) :
    byteOf (merge strb old new) k = if strb.getLsbD k then byteOf new k else byteOf old k := by
  obtain ⟨h3, h2, h1, h0⟩ := Concat.extract_append4 (w := 8)
    (if strb.getLsbD 3 then byteOf new 3 else byteOf old 3) (if strb.getLsbD 2 then byteOf new 2 else byteOf old 2)
    (if strb.getLsbD 1 then byteOf new 1 else byteOf old 1) (if strb.getLsbD 0 then byteOf new 0 else byteOf old 0)
  match k with
  | 0 => exact h0
  | 1 => exact h1
  | 2 => exact h2
  | 3 => exact h3

/-- With all strobes set a write replaces the word. -/
theorem merge_all (old new : BitVec 32) : merge 0xF old new = new :=
  Concat.append4_extract (w := 8) new

/-- `block` with its `n`-th word, counted from the least significant, replaced. -/
def setWord (block : BitVec 128) (n : ℕ) (word : BitVec 32) : BitVec 128 :=
  let w (m : ℕ) := if m = n then word else block.extractLsb' (32 * m) 32
  w 3 ++ w 2 ++ w 1 ++ w 0

/-- Word `n` of a block, counted from the least significant. -/
def wordOf (block : BitVec 128) (n : Fin 4) : BitVec 32 := block.extractLsb' (32 * n) 32

theorem wordOf_setWord (block : BitVec 128) (m n : Fin 4) (word : BitVec 32) :
    wordOf (setWord block m word) n = if n = m then word else wordOf block n := by
  let w (n : ℕ) : BitVec 32 := if n = m then word else block.extractLsb' (32 * n) 32
  obtain ⟨h3, h2, h1, h0⟩ := Concat.extract_append4 (w 3) (w 2) (w 1) (w 0)
  simp only [Fin.ext_iff]
  match n with
  | 0 => exact h0
  | 1 => exact h1
  | 2 => exact h2
  | 3 => exact h3

end Bytes
