import RiscvSoc.Cpu.FetchUnit
/-!
# The fetch behind a branch

The instruction behind a branch is fetched while the condition is computed. If the branch is
taken its word comes in all the same and is thrown away, and then the interface is at rest.
-/

namespace RiscvSoc.Cpu

open Rv32

namespace Core

variable {code : Word32 → Word32} {T U : Word32} {s : Core} {i : CoreIn}

/-- The fetch of the next instruction in memory, after its first cycle. -/
inductive Sequel (code : Word32 → Word32) (T : Word32) (s : Core) : Prop
  | first (h : First T true s) (hT : T.getLsbD 1 = false)
  | high (h : High code T s)
  | second (h : Second code T true s)
  | prefetched (h : Prefetched code T s)

theorem Sequel.fetching (h : Sequel code T s) (hj : s.jumps = false) : Fetching code T true s := by
  cases h with
  | first h => exact .first h hj
  | high h => exact .high h hj
  | second h => exact .second h hj
  | prefetched h => exact .prefetched h hj

theorem Fetching.sequel (h : Fetching code T false s) (ha : Asks T s) (hc : Answers code s i) (hi : s.memDoRinst = false) :
    s.memDone true i = false ∧ Sequel code T (s.step true i) := by
  cases h with
  | idle h _ hp =>
    obtain ⟨hj, hb⟩ := hp rfl
    have huse := h.usePrefetched ha hb hj
    cases hT : T.getLsbD 1 with
    | true => exact ⟨h.done, .high (h.high ha hb hj (huse.trans hT))⟩
    | false => exact ⟨h.done, .first (h.first ha (huse.trans hT) fun _ => rfl) hT⟩
  | first h hj =>
    have hT : T.getLsbD 1 = false := by
      cases hT : T.getLsbD 1 with
      | false => rfl
      | true => cases (h.high hT).1
    rw [← hi] at h
    cases hready : i.memReady with
    | false =>
      obtain ⟨hd, hf⟩ := h.wait (q := true) ha hj hready fun _ => rfl
      exact ⟨hd, .first hf hT⟩
    | true =>
      obtain ⟨hd, hf⟩ := h.prefetched ha hj hready hc hi
      exact ⟨hd, .prefetched hf⟩
  | high h hj =>
    obtain ⟨hd, hf⟩ := h.wait ha hj hi
    exact ⟨hd, .high hf⟩
  | second h _ => cases h.request
  | prefetched h hj =>
    obtain ⟨hd, hf⟩ := h.wait ha hj hi
    exact ⟨hd, .prefetched hf⟩

/-- A read whose word is not used; `U` is where the branch goes. -/
structure Stray (U : Word32) (s : Core) : Prop where
  state : s.memState = 1
  valid : s.memValid = true
  instr : s.memInstr = true
  reg : s.memLaSecondword = false → s.lastMemValid = true → s.memLaFirstwordReg = true → U.getLsbD 1 = true

theorem First.stray {r : Bool} (h : First T r s) (hT : T.getLsbD 1 = false) : Stray U s := by
  refine ⟨h.state, h.valid, h.instr, fun _ hl hreg => ?_⟩
  rw [h.reg hl, hT] at hreg
  cases hreg

theorem Second.stray {r : Bool} (h : Second code T r s) : Stray U s := by
  refine ⟨h.state, h.valid, h.instr, fun h2 => ?_⟩
  rw [h.second] at h2
  cases h2

/-- The first cycle of a branch: the instruction behind it comes in or its read is stray. -/
theorem Sequel.step (h : Sequel code T s) (ha : Asks T s) (hj : s.jumps = false) (hc : Answers code s i) (hi : s.memDoRinst = true) :
    (s.memDone true i = false ∧ Stray U (s.step true i)) ∨ Fetched code T s i := by
  cases h with
  | first h hT =>
    rw [← hi] at h
    cases hready : i.memReady with
    | false =>
      obtain ⟨hd, hf⟩ := h.wait (q := true) ha hj hready fun _ => rfl
      exact .inl ⟨hd, hf.stray hT⟩
    | true => exact .inr (h.fetched_low ha hj hready hc hi hT)
  | high h =>
    cases hfull : isFull (s.memRdataLatched true i) with
    | false => exact .inr (h.fetched ha hj hi hfull)
    | true =>
      obtain ⟨hd, hf⟩ := h.goesOn (q := true) ha hj hi hfull fun _ => rfl
      exact .inl ⟨hd, hf.stray⟩
  | second h =>
    rw [← hi] at h
    cases hready : i.memReady with
    | false =>
      obtain ⟨hd, hf⟩ := h.wait (q := true) ha hj hready fun _ => rfl
      exact .inl ⟨hd, hf.stray⟩
    | true => exact .inr (h.fetched ha hj hready hc)
  | prefetched h => exact .inr (h.fetched ha hj hi)

/-! ## A branch is taken -/

section Taken

variable (ha : Asks U s) (hj : s.jumps = true) (hi : s.memDoRinst = true)

include hj in
theorem usePrefetched_of_jumps : s.memLaUsePrefetchedHighWord true = false := by
  rw [memLaUsePrefetchedHighWord, clearPrefetched_of_jumps hj]
  exact Bool.and_false _

include ha hj in
theorem Idle.strays (h : Idle s) : s.memDone true i = false ∧ Stray U (s.step true i) := by
  have hf : First U true (s.step true i) := h.first ha (usePrefetched_of_jumps hj) fun _ => rfl
  exact ⟨h.done, hf.state, hf.valid, hf.instr, fun _ hl hreg => (hf.reg hl).symm.trans hreg⟩

include ha hj hi in
/-- A read goes on, gives up for another one, or is the last. -/
theorem Stray.step (h : Stray U s) : (s.memDone true i = false ∧ (Stray U (s.step true i) ∨ Idle (s.step true i))) ∨
    (s.memDone true i = true ∧ Idle (s.step true i)) := by
  have hx : s.memXfer true i = i.memReady := by
    rw [memXfer, usePrefetched_of_jumps hj, h.valid, Bool.false_and, Bool.or_false, Bool.true_and]
  cases hready : i.memReady with
  | false =>
    rw [hready] at hx
    have hm := memFsm_wait ha.trap h.state hx
    refine .inl ⟨by rw [memDone_of_busy (.inl h.state), hx, Bool.false_and, Bool.false_and], .inl ⟨congrArg MemFsm.memState hm ▸ h.state,
      congrArg MemFsm.memValid hm ▸ h.valid, congrArg MemFsm.memInstr hm ▸ h.instr, fun h2 _ hreg => ?_⟩⟩
    have h2' : s.memLaSecondword = false := (congrArg MemFsm.memLaSecondword hm).symm.trans h2
    rw [memLaFirstwordReg_step, ha.firstword, h2'] at hreg
    cases hl : s.lastMemValid with
    | false => simpa [hl] using hreg
    | true => exact h.reg h2' hl (by simpa [hl] using hreg)
  | true =>
    rw [hready] at hx
    cases hread : s.memLaRead true i with
    | false =>
      have hm := memFsm_last ha.trap h.state hx hread
      have hidle : Idle (s.step true i) := by
        refine ⟨(congrArg MemFsm.memState hm).trans ?_, congrArg MemFsm.memValid hm, congrArg MemFsm.memLaSecondword hm, ?_⟩
        · rw [hi]
          rfl
        · rw [lastMemValid_step, hready]
          exact Bool.and_false _
      cases hd : s.memDone true i with
      | false => exact .inl ⟨rfl, .inr hidle⟩
      | true => exact .inr ⟨rfl, hidle⟩
    | true =>
      have hm := memFsm_again ha.trap h.state hx hread
      rw [memLaRead, h.state] at hread
      have hbits : s.memLaFirstwordXfer true i = true ∧ s.memLaSecondword = false ∧ isFull (s.memRdataLatched true i) = true := by
        simpa [and_assoc] using hread
      obtain ⟨hfx, h2, hfull⟩ := hbits
      rw [memLaFirstwordXfer, hx, ha.firstword, h2] at hfx
      have hU : U.getLsbD 1 = true := by
        cases hl : s.lastMemValid with
        | false => simpa [hl] using hfx
        | true => exact h.reg h2 hl (by simpa [hl] using hfx)
      refine .inl ⟨?_, .inl ⟨congrArg MemFsm.memState hm ▸ h.state, congrArg MemFsm.memValid hm, congrArg MemFsm.memInstr hm ▸ h.instr,
        fun h2' => ?_⟩⟩
      · rw [memDone_of_busy (.inl h.state), ha.firstword, h2, hU, hfull]
        simp
      · rw [show (s.step true i).memLaSecondword = true from congrArg MemFsm.memLaSecondword hm] at h2'
        cases h2'

end Taken

end Core

end RiscvSoc.Cpu
