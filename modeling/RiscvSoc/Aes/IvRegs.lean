import RiscvSoc.Aes.InFlight
/-!
# The IV registers of `aes.v`

They have two writers: the bus, and the copy of the running IV at every `done`. What
LOAD_IV takes is what was last written, as long as no copy comes in between.
-/

open Fips197 Sync Modes

namespace RiscvSoc.Aes

namespace AesRegs

/-- The register of word `n` of the IV. -/
def regIv : Fin 4 → BitVec 7
  | 3 => regIv0
  | 2 => regIv1
  | 1 => regIv2
  | 0 => regIv3

theorem regIv_inj : ∀ m n : Fin 4, regIv m = regIv n ↔ n = m := by decide

theorem wordOf_writeIv (b : Block) (offset : BitVec 7) (wdata : Word32) (n : Fin 4) :
    Bytes.wordOf (writeIv b offset wdata) n = if offset = regIv n then wdata else Bytes.wordOf b n := by
  by_cases h : ∃ m, offset = regIv m
  · obtain ⟨m, rfl⟩ := h
    have hw : writeIv b (regIv m) wdata = Bytes.setWord b m wdata := by
      match m with
      | 0 | 1 | 2 | 3 => rfl
    rw [hw, Bytes.wordOf_setWord]
    simp only [regIv_inj]
  · have hne (m : Fin 4) : offset ≠ regIv m := fun hm => h ⟨m, hm⟩
    have h0 : offset ≠ regIv3 := hne 0
    have h1 : offset ≠ regIv2 := hne 1
    have h2 : offset ≠ regIv1 := hne 2
    have h3 : offset ≠ regIv0 := hne 3
    rw [if_neg (hne n), writeIv, writeBlock, if_neg h3, if_neg h2, if_neg h1, if_neg h0]

theorem edge_ivReg (s : AesRegs) (i : LiteReq) (n : Fin 4) :
    Bytes.wordOf (edge true s i).ivReg n =
      if i.writes (regIv n) then i.wdata else Bytes.wordOf (if s.uChain.doneReg then s.uChain.ivReg else s.ivReg) n := by
  rw [edge_eq]
  cases hw : i.doWrite <;> simp [LiteReq.writes, hw, wordOf_writeIv, awOffset]

/-- A CTRL write is not one to the IV. -/
theorem writes_of_doLoadIv {s : AesRegs} {i : LiteReq} (h : s.doLoadIv i = true) (n : Fin 4) :
    i.writes (regIv n) = false := by
  simp only [doLoadIv, LiteReq.writes, Bool.and_eq_true, decide_eq_true_eq] at h
  have hne : regCtrl ≠ regIv n := by
    revert n
    decide
  simp [LiteReq.writes, h.1.1.2, hne]

end AesRegs

section Runs

variable (r : Run AesRegs.edge)

/-- What was last written to word `m` of the IV before cycle `n`, since the LOAD_IV or the
reset before it. -/
def ivWritten : ℕ → Fin 4 → Option Word32
  | 0, _ => none
  | n + 1, m =>
    if (r.st n).doLoadIv (r.inp n) then none
    else if (r.inp n).writes (AesRegs.regIv m) then some (r.inp n).wdata
    else ivWritten n m

/-- LOAD_IV gives the chain what was last written, word by word, and leaves the words
that were not written. -/
def LoadsWritten : Prop :=
  ∀ n, (r.st n).doLoadIv (r.inp n) = true → ∀ m,
    Bytes.wordOf (r.st (n + 1)).uChain.ivReg m =
      (ivWritten r n m).getD (Bytes.wordOf (r.st n).uChain.ivReg m)

/-- In cycle `n` the copy of the running IV changes no word that was written, and it is
not too late for a LOAD_IV. -/
structure CopiesNothing (n : ℕ) : Prop where
  load : (r.st n).doLoadIv (r.inp n) = true → (r.st n).ivReg = (r.st n).uChain.ivReg
  written : ∀ m v, ivWritten r n m = some v →
    (r.inp n).writes (AesRegs.regIv m) = true ∨ Bytes.wordOf (r.st n).uChain.ivReg m = v

/-- The registers hold what was written, and the running IV elsewhere. -/
structure IvKept (n : ℕ) (m : Fin 4) : Prop where
  written : ∀ v, ivWritten r n m = some v → Bytes.wordOf (r.st n).ivReg m = v
  running : ivWritten r n m = none → (r.st n).uChain.doneReg = false →
    Bytes.wordOf (r.st n).ivReg m = Bytes.wordOf (r.st n).uChain.ivReg m

variable {r} {n : ℕ}

/-- But for the edge that completes a block, only LOAD_IV writes the running IV. -/
theorem chainIv_succ (h : (r.st (n + 1)).uChain.doneReg = false) :
    (r.st (n + 1)).uChain.ivReg =
      if (r.st n).doLoadIv (r.inp n) then (r.st n).ivReg else (r.st n).uChain.ivReg := by
  rw [Run.st_succ, AesRegs.edge_uChain] at h ⊢
  refine ivReg_step ?_
  have hd := AesChain.doneReg_step (r.st n).uChain ((r.st n).chainIn (r.inp n))
  cases hs : (r.st n).uChain.state <;> simp_all

theorem ivKept_succ (hcopy : (r.st n).uChain.doneReg = true → CopiesNothing r n) {m : Fin 4} (h : IvKept r n m) :
    IvKept r (n + 1) m := by
  have hiv : Bytes.wordOf (r.st (n + 1)).ivReg m = _ := AesRegs.edge_ivReg (r.st n) (r.inp n) m
  cases hl : (r.st n).doLoadIv (r.inp n) with
  | true =>
    have hnone : ivWritten r (n + 1) m = none := by simp [ivWritten, hl]
    refine ⟨fun v hv => by simp [hnone] at hv, fun _ hd => ?_⟩
    rw [hiv, AesRegs.writes_of_doLoadIv hl, chainIv_succ hd, hl]
    cases hdone : (r.st n).uChain.doneReg with
    | true => simp [(hcopy hdone).load hl]
    | false => simp
  | false =>
    cases hw : (r.inp n).writes (AesRegs.regIv m) with
    | true =>
      have hsome : ivWritten r (n + 1) m = some (r.inp n).wdata := by simp [ivWritten, hl, hw]
      rw [if_pos hw] at hiv
      exact ⟨fun v hv => hiv.trans (Option.some.inj (hsome.symm.trans hv)), fun hv => by simp [hsome] at hv⟩
    | false =>
      have hsame : ivWritten r (n + 1) m = ivWritten r n m := by simp [ivWritten, hl, hw]
      rw [hw] at hiv
      refine ⟨fun v hv => ?_, fun hv hd => ?_⟩
      · rw [hsame] at hv
        rw [hiv]
        cases hdone : (r.st n).uChain.doneReg with
        | true => simpa [hw] using (hcopy hdone).written m v hv
        | false => simpa using h.written v hv
      · rw [hsame] at hv
        rw [hiv, chainIv_succ hd, hl]
        cases hdone : (r.st n).uChain.doneReg with
        | true => simp
        | false => simpa using h.running hv hdone

theorem ivKept (hcopy : ∀ n, (r.st n).uChain.doneReg = true → CopiesNothing r n) (n : ℕ) (m : Fin 4) : IvKept r n m := by
  induction n with
  | zero => exact ⟨fun _ hv => (nomatch hv), fun _ _ => rfl⟩
  | succ n ih => exact ivKept_succ (hcopy n) ih

/-- If the copy at each `done` overwrites nothing that was written and no LOAD_IV is
accepted in the cycle of the copy, no write to the IV is lost. -/
theorem loads_written (r : Run AesRegs.edge) (hcopy : ∀ n, (r.st n).uChain.doneReg = true → CopiesNothing r n) :
    LoadsWritten r := by
  intro n hl m
  have hidle := AesRegs.idle_of_doLoadIv hl
  have hload : (r.st (n + 1)).uChain.ivReg = (r.st n).ivReg := by
    rw [Run.st_succ, AesRegs.edge_uChain, ivReg_step (.inl hidle)]
    simp [AesRegs.chainIn, hl]
  have hk := ivKept hcopy n m
  rw [hload]
  cases hv : ivWritten r n m with
  | some v => exact hk.written v hv
  | none =>
    cases hd : (r.st n).uChain.doneReg with
    | true => rw [(hcopy n hd).load hl]; rfl
    | false => exact hk.running hv hd

end Runs

/-- A block in ECB mode, a write to IV0 in cycle `a`, and LOAD_IV in cycle 25. -/
def ivRun (a : ℕ) : Run AesRegs.edge :=
  startRun fun n => if n = a then startRun.regWrite 0x40 1 else if n = 25 then startRun.regWrite 0x00 0x10 else
    startRun.regWrite 0x30 0

/-- The block starts in cycle 0 only. -/
theorem ivRun_done {a n : ℕ} (h : ((ivRun a).st n).uChain.doneReg = true) : n = 23 := by
  obtain ⟨t, rfl, hst⟩ := doneReg_iff.1 h
  cases t with
  | zero => rfl
  | succ t =>
    simp only [StartsAt, AesRegs.doStart, Bool.and_eq_true] at hst
    obtain ⟨⟨hw, hb⟩, -⟩ := hst
    simp only [ivRun, startRun, Nat.succ_ne_zero, if_false, LiteReq.writes, startRun.regWrite] at hw hb
    split at hb
    · simp_all [AesRegs.regCtrl]
    · split at hb <;> simp_all

/-- Written after the copy. -/
theorem loads_written_ivRun : Bytes.wordOf ((ivRun 24).st 26).uChain.ivReg 3 = 1 := by
  have hnone : ∀ m, ivWritten (ivRun 24) 23 m = none := by decide +kernel
  refine (loads_written (ivRun 24) (fun n hd => ?_) 25 (by decide +kernel) 3).trans (by decide +kernel)
  obtain rfl := ivRun_done hd
  exact ⟨fun hl => absurd hl (by decide +kernel), fun m v hv => by simp [hnone m] at hv⟩

/-- Written while BUSY, and overwritten by the copy. -/
theorem ivRun_loses : ¬ LoadsWritten (ivRun 1) := by
  intro h
  have h3 := h 25 (by decide +kernel) 3
  revert h3
  decide +kernel

end RiscvSoc.Aes
