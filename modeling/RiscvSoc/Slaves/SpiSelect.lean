import Mathlib.Data.Nat.Count
import RiscvSoc.Slaves.SpiTransfer
/-!
# SCLK when the slave is selected

START brings SCLK to its CPOL on the edge that selects the slave, so the level that the
transfer before left decides whether the slave sees an edge more.
-/

namespace RiscvSoc.SpiMaster

open Sync Pacing

variable {r : Run edge} {n : ℕ}

/-- CPOL of the last START before cycle `n`, and 0 if there was none. -/
def prevCpol (r : Run edge) : ℕ → Bool
  | 0 => false
  | n + 1 => if (r.st n).doStart (r.inp n).cpu then cpol r n else prevCpol r n

/-- The changes of SCLK on the edges out of the cycles `a, .., a + m - 1`. -/
def sclkChanges (r : Run edge) (a m : ℕ) : ℕ := Nat.count (fun k => (r.st (a + k + 1)).sclk ≠ (r.st (a + k)).sclk) m

/-- SCLK is at CPOL before the slave is selected, and the slave sees the 16 edges of a
byte and no other. -/
structure LevelFirst (r : Run edge) : Prop where
  level : ∀ n, (r.st n).doStart (r.inp n).cpu = true → (r.st n).sclk = cpol r n
  apart : ∀ n, (r.st (n + 1)).csN ≠ (r.st n).csN → (r.st (n + 1)).sclk = (r.st n).sclk
  sixteen : ∀ a m, (r.st a).csN = true → (∀ k ≤ m, (r.st (a + 1 + k)).csN = false) → (r.st (a + 1 + m + 1)).csN = true →
    sclkChanges r a (m + 2) = 16

/-- SCLK is at the CPOL of the last START, but for the edges of a transfer. -/
structure Level (pol : Bool) (s : SpiMaster) : Prop where
  idle : s.state = .idle → s.sclk = pol
  run : s.state = .run → s.sclk = (pol ^^ s.edgeCnt.getLsbD 0)

theorem getLsbD_succ_zero (x : BitVec 5) : (x + 1).getLsbD 0 = !x.getLsbD 0 := by
  have hx : (x + 1).toNat = (x.toNat + 1) % 32 := BitVec.toNat_add x 1
  rw [BitVec.getLsbD, BitVec.getLsbD, Nat.testBit_zero, Nat.testBit_zero, hx]
  by_cases hp : x.toNat % 2 = 1
  · simp [hp, show (x.toNat + 1) % 32 % 2 = 0 by omega]
  · simp [hp, show (x.toNat + 1) % 32 % 2 = 1 by omega]

theorem level_run (r : Run edge) (n : ℕ) : Level (prevCpol r n) (r.st n) := by
  induction n with
  | zero => exact ⟨fun _ => rfl, fun h => by simp [r.st_zero, edge, step] at h⟩
  | succ n ih =>
    rw [prevCpol, r.st_succ]
    cases hs : (r.st n).state with
    | idle =>
      cases hst : (r.st n).doStart (r.inp n).cpu with
      | true => exact ⟨by simp [fsm_start hs hst], by simp [fsm_start hs hst, cpol]⟩
      | false => exact ⟨by simp [fsm_idle hs hst, pre, ih.idle hs], by simp [fsm_idle hs hst, pre, hs]⟩
    | run =>
      have hno : (r.st n).doStart (r.inp n).cpu = false := by
        simp [doStart, (ok_run r n).busy.2 hs]
      have hlevel := ih.run hs
      rw [hno, if_neg Bool.false_ne_true]
      cases ht : (r.st n).tick with
      | false => exact ⟨by simp [fsm_wait hs ht, pre, hs], by simp [fsm_wait hs ht, pre, hlevel]⟩
      | true =>
        by_cases he : (r.st n).edgeCnt = 16
        · exact ⟨by simp [fsm_finish hs ht he, pre, hlevel, he], by simp [fsm_finish hs ht he]⟩
        · refine ⟨by simp [fsm_edge hs ht he, pre, hs], fun _ => ?_⟩
          have hpar := getLsbD_succ_zero (r.st n).edgeCnt
          rw [edge_sclk, edge_edgeCnt, fsm_edge hs ht he]
          dsimp only
          rw [hpar, hlevel, Bool.xor_not]

theorem sclkChanges_succ (r : Run edge) (a m : ℕ) :
    sclkChanges r a (m + 1) =
      sclkChanges r a m + if (r.st (a + m + 1)).sclk ≠ (r.st (a + m)).sclk then 1 else 0 := Nat.count_succ _ m

/-- In a period of a transfer that is not the last SCLK changes as often as `edge_cnt` is
counted up. -/
theorem edges_step {s : SpiMaster} {i : SpiIn} (hs : s.state = .run) (hrun : (s.edge true i).state = .run)
    (hle : s.edgeCnt.toNat ≤ 16) :
    (s.edge true i).edgeCnt.toNat = (s.edgeCnt.toNat + if (s.edge true i).sclk ≠ s.sclk then 1 else 0) ∧
      (s.edge true i).edgeCnt.toNat ≤ 16 := by
  cases ht : s.tick with
  | false =>
    simp only [edge_edgeCnt, edge_sclk, fsm_wait hs ht]
    simpa [pre] using hle
  | true =>
    by_cases he : s.edgeCnt = 16
    · simp [fsm_finish hs ht he] at hrun
    · have hne : s.edgeCnt.toNat ≠ 16 := fun h => he (BitVec.eq_of_toNat_eq h)
      have hsucc : (s.edgeCnt + 1).toNat = s.edgeCnt.toNat + 1 := Counters.toNat_succ (by omega)
      simp only [edge_edgeCnt, edge_sclk, fsm_edge hs ht he, hsucc]
      simp
      omega

/-- The edges of SCLK in a transfer so far, the one on which it starts included. -/
theorem sclkChanges_run {a : ℕ} (hst : (r.st a).doStart (r.inp a).cpu = true) {m : ℕ}
    (hlow : ∀ k ≤ m, (r.st (a + 1 + k)).state = .run) :
    sclkChanges r a (m + 1) = sclkChanges r a 1 + (r.st (a + 1 + m)).edgeCnt.toNat ∧
      (r.st (a + 1 + m)).edgeCnt.toNat ≤ 16 := by
  induction m with
  | zero =>
    have hs := (ok_run r a).idle_of_doStart hst
    have h0 : (r.st (a + 1 + 0)).edgeCnt = 0 := by
      rw [Nat.add_zero, r.st_succ, edge_edgeCnt, fsm_start hs hst]
    simp [h0]
  | succ m ih =>
    obtain ⟨hcount, hle⟩ := ih fun k hk => hlow k (by omega)
    obtain ⟨hedges, hle'⟩ := edges_step (i := r.inp (a + 1 + m)) (hlow m (by omega)) (hlow (m + 1) le_rfl) hle
    rw [sclkChanges_succ, hcount, show a + (m + 1) = a + 1 + m by omega, Nat.add_assoc (sclkChanges r a 1)]
    exact ⟨congrArg _ hedges.symm, hle'⟩

/-- The last edge of a transfer. -/
theorem finish_edge {s : SpiMaster} {i : SpiIn} (hs : s.state = .run) (hidle : (s.edge true i).state = .idle) :
    s.edgeCnt = 16 ∧ (s.edge true i).sclk = s.sclk := by
  cases ht : s.tick with
  | false => simp [fsm_wait hs ht, pre, hs] at hidle
  | true =>
    by_cases he : s.edgeCnt = 16
    · exact ⟨he, by simp [fsm_finish hs ht he, pre]⟩
    · simp [fsm_edge hs ht he, pre, hs] at hidle

theorem start_edge {s : SpiMaster} {i : SpiIn} (hs : s.state = .idle) (hrun : (s.edge true i).state = .run) :
    s.doStart i.cpu = true ∧ (s.edge true i).sclk = i.cpu.wdata.getLsbD 1 := by
  cases hst : s.doStart i.cpu with
  | true => exact ⟨rfl, by simp [fsm_start hs hst]⟩
  | false => simp [fsm_idle hs hst, pre, hs] at hrun

theorem run_of_low (h : (r.st n).csN = false) : (r.st n).state = .run := by
  have hne : ¬ (r.st n).state = .idle := by
    rw [← (ok_run r n).csN, h]
    simp
  cases hs : (r.st n).state with
  | idle => exact absurd hs hne
  | run => rfl

theorem low_of_run (h : (r.st n).state = .run) : (r.st n).csN = false := by
  rw [← Bool.not_eq_true, (ok_run r n).csN, h]
  simp

section Level

variable (hpol : ∀ n, (r.st n).doStart (r.inp n).cpu = true → (r.st n).sclk = cpol r n)

include hpol

theorem apart_of_level (hn : (r.st (n + 1)).csN ≠ (r.st n).csN) : (r.st (n + 1)).sclk = (r.st n).sclk := by
  cases hs : (r.st n).state with
  | idle =>
    have hlow : (r.st (n + 1)).csN = false := by
      rw [(ok_run r n).csN.2 hs] at hn
      simpa using hn
    obtain ⟨hst, hsclk⟩ := start_edge hs (run_of_low hlow)
    exact hsclk.trans (hpol n hst).symm
  | run =>
    cases hs' : (r.st (n + 1)).state with
    | idle => exact (finish_edge hs hs').2
    | run => exact absurd ((low_of_run hs').trans (low_of_run hs).symm) hn

theorem sixteen_of_level {a m : ℕ} (hhigh : (r.st a).csN = true) (hlow : ∀ k ≤ m, (r.st (a + 1 + k)).csN = false)
    (hend : (r.st (a + 1 + m + 1)).csN = true) : sclkChanges r a (m + 2) = 16 := by
  have hidle := (ok_run r a).csN.1 hhigh
  obtain ⟨hst, hsclk⟩ := start_edge hidle (run_of_low (hlow 0 (by omega)))
  obtain ⟨hcount, -⟩ := sclkChanges_run hst fun k hk => run_of_low (hlow k hk)
  obtain ⟨h16, hlast⟩ := finish_edge (run_of_low (hlow m le_rfl)) ((ok_run r _).csN.1 hend)
  rw [← r.st_succ, show a + 1 + m = a + (m + 1) by omega] at hlast
  have hfirst : sclkChanges r a 1 = 0 := by
    have hno : (r.st (a + 0 + 1)).sclk = (r.st (a + 0)).sclk := hsclk.trans (hpol a hst).symm
    rw [sclkChanges_succ, if_neg (not_not_intro hno)]
    rfl
  rw [sclkChanges_succ, hcount, hfirst, h16, if_neg (not_not_intro hlast)]
  rfl

end Level

/-- SCLK is at rest while the slave is selected and deselected, and the slave sees 16 edges,
if every START brings the CPOL that the one before left, and only then. -/
theorem levelFirst_iff (r : Run edge) :
    LevelFirst r ↔ ∀ n, (r.st n).doStart (r.inp n).cpu = true → cpol r n = prevCpol r n := by
  have hlevel (n : ℕ) (hst : (r.st n).doStart (r.inp n).cpu = true) : (r.st n).sclk = prevCpol r n :=
    (level_run r n).idle ((ok_run r n).idle_of_doStart hst)
  constructor
  · intro h n hst
    exact (h.level n hst).symm.trans (hlevel n hst)
  · intro h
    have hpol (n : ℕ) (hst : (r.st n).doStart (r.inp n).cpu = true) : (r.st n).sclk = cpol r n :=
      (hlevel n hst).trans (h n hst).symm
    exact ⟨hpol, fun n => apart_of_level hpol, fun a m => sixteen_of_level hpol⟩

/-- The first transfer after a reset, with CPOL = 1: SCLK rises on the edge on which the
slave is selected. -/
theorem levelFirst_broken : ¬ LevelFirst (runOf [.writeReg regCtrl 3]) :=
  fun h => absurd (h.apart 0 (by decide)) (by decide)

end RiscvSoc.SpiMaster
