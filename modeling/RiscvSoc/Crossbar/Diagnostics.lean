import RiscvSoc.Crossbar.Stable
/-!
# The diagnostic history

The interrupt line and the two words of the diagnostic CSR, against the misses in
the logs: the addresses of the accepted beats that decode to nothing.
-/

namespace RiscvSoc.Crossbar

open Sync

/-! ## Misses -/

section Run

variable (r : Run AxiLiteXbar.step) (n : ℕ)

/-- In cycle `n` a write address that decodes to nothing is accepted. -/
def MissesW : Prop := ∃ m a, WEvent.aw m a ∈ wEvents (r.st n) (r.inp n) ∧ decodeAddr a = .err

def MissesR : Prop := ∃ m a, REvent.ar m a ∈ rEvents (r.st n) (r.inp n) ∧ decodeAddr a = .err

end Run

/-! ## The interrupt -/

section Irq

variable {s : AxiLiteXbar} {i : XbarIn}

theorem mem_aw {m : Master} {a : Word32} :
    WEvent.aw m a ∈ wEvents s i ↔ granted (s.w.wGrantEff i) = m ∧ s.w.awFire i = true ∧ a = (s.w.cur i).awaddr := by
  simp only [wEvents, masters, slaves, AxiLiteXbar.rsp, WritePath.awFire, WritePath.cur, List.mem_append,
    List.mem_flatMap, mem_whenFire]
  rcases master_cases (granted (s.w.wGrantEff i)) with hg | hg <;> cases m <;> simp [hg]

theorem mem_ar {m : Master} {a : Word32} :
    REvent.ar m a ∈ rEvents s i ↔
      granted (s.r.rGrantEff i) = m ∧ (s.r.rState = .idle ∧ (s.r.cur i).arvalid = true) ∧ a = (s.r.cur i).araddr := by
  simp only [rEvents, masters, slaves, AxiLiteXbar.rsp, ReadPath.cur, List.mem_append, List.mem_flatMap, mem_whenFire]
  rcases master_cases (granted (s.r.rGrantEff i)) with hg | hg <;> cases m <;> simp [hg] <;> grind

theorem decerrIrqW_step :
    (s.step true i).w.decerrIrqW = true ↔ ∃ m a, WEvent.aw m a ∈ wEvents s i ∧ decodeAddr a = .err := by
  have hidle : s.w.awFire i = true → s.w.wState = .idle := by
    intro h
    simp only [WritePath.awFire, WritePath.curAwready, Bool.and_eq_true, decide_eq_true_eq] at h
    exact h.2.1
  constructor
  · intro h
    simp only [AxiLiteXbar.step, WritePath.step, Bool.not_true, Bool.false_eq_true, if_false, Bool.and_eq_true,
      decide_eq_true_eq] at h
    exact ⟨_, _, mem_aw.2 ⟨rfl, h.1.2, rfl⟩, h.2⟩
  · rintro ⟨m, a, hm, ha⟩
    obtain ⟨-, hf, rfl⟩ := mem_aw.1 hm
    simp [AxiLiteXbar.step, WritePath.step, hidle hf, hf, ha]

theorem decerrIrqR_step :
    (s.step true i).r.decerrIrqR = true ↔ ∃ m a, REvent.ar m a ∈ rEvents s i ∧ decodeAddr a = .err := by
  constructor
  · intro h
    simp only [AxiLiteXbar.step, ReadPath.step, Bool.not_true, Bool.false_eq_true, if_false, Bool.and_eq_true,
      decide_eq_true_eq] at h
    exact ⟨_, _, mem_ar.2 ⟨rfl, h.1, rfl⟩, h.2⟩
  · rintro ⟨m, a, hm, ha⟩
    obtain ⟨-, ⟨hs, hv⟩, rfl⟩ := mem_ar.1 hm
    simp [AxiLiteXbar.step, ReadPath.step, hs, hv, ha]

variable (r : Run AxiLiteXbar.step)

theorem decerrIrq_succ (n : ℕ) : (r.st (n + 1)).decerrIrq = true ↔ MissesW r n ∨ MissesR r n := by
  rw [AxiLiteXbar.decerrIrq, Bool.or_eq_true, Run.st_succ, decerrIrqW_step, decerrIrqR_step]
  rfl

end Irq

/-! ## The history keeps -/

section Keeps

variable (r : Run AxiLiteXbar.step) {n : ℕ}

end Keeps

/-! ## Reads of the CSR -/

section Csr

variable {diag : ℕ → Word32 → Word32}

end Csr

end RiscvSoc.Crossbar
