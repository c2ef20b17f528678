import RiscvSoc.Lib.Countdown
import RiscvSoc.Lib.Counters
import RiscvSoc.Lib.Sticky
import RiscvSoc.Lib.Sync
import RiscvSoc.Slaves.Timers
/-!
# The period of the timer

From an edge that loads `count` to the next expiry, whatever is written meanwhile.
-/

namespace RiscvSoc.Timer

open Sync Countdown Sticky

/-! ## One edge -/

section Edge

variable (s : Timer) (i : LiteReq)

theorem expires_eq_true {s : Timer} {i : LiteReq} :
    s.expires i = true ↔ s.ctrlEn = true ∧ s.count = 0#32 ∧ writeCtrlEn i = false := by
  simp [expires, and_assoc]

theorem count_load (h : writeCtrlEn i = true ∨ s.expires i = true) : (s.step true i).count = s.reloadReg := by
  rcases h with hw | he
  · simp [step, hw]
  · obtain ⟨hen, h0, -⟩ := expires_eq_true.1 he
    simp [step, hen, h0]

/-- Without a load the counter goes down if EN is 1, and stays if it is 0. -/
theorem count_run (hw : writeCtrlEn i = false) (he : s.expires i = false) :
    (s.step true i).count.toNat = s.count.toNat - s.ctrlEn.toNat := by
  rw [← Counters.toNat_down]
  congr 1
  cases hen : s.ctrlEn with
  | false => simp [step, hw, hen]
  | true =>
    have hne : s.count ≠ 0#32 := fun h0 => by simp [expires, hen, hw, h0] at he
    simp [step, hw, hen, hne]

theorem ctrlEn_rises (h : s.ctrlEn = false) (h' : (s.step true i).ctrlEn = true) : writeCtrlEn i = true := by
  have hstep : (s.step true i).ctrlEn = if i.writes regCtrl then i.wdata.getLsbD 0 else s.ctrlEn := rfl
  rw [hstep, h] at h'
  cases hw : i.writes regCtrl with
  | false => simp [hw] at h'
  | true => simpa [writeCtrlEn, hw] using h'

end Edge

/-! ## The law -/

section Law

variable (r : Run step)

/-- Edge `n` brings a write of 1 to CTRL.EN. -/
def Enables (n : ℕ) : Prop := writeCtrlEn (r.inp n) = true

/-- `count` runs out at edge `n`. -/
def Expires (n : ℕ) : Prop := (r.st n).expires (r.inp n) = true

/-- Edge `n` loads `count`. -/
def Loads (n : ℕ) : Prop := Enables r n ∨ Expires r n

/-- Edge `n` brings a write of 1 to STATUS.EXPIRED. -/
def ClearsExpired (n : ℕ) : Prop := (r.inp n).writes regStatus = true ∧ (r.inp n).wdata.getLsbD 0 = true

/-- EN at edge `n`, and the RELOAD value just before it. -/
def en (n : ℕ) : Bool := (r.st n).ctrlEn
def reload (n : ℕ) : ℕ := (r.st n).reloadReg.toNat

/-- When the timer expires in a run. -/
structure PeriodLaw : Prop where
  /-- EN and RELOAD are what CTRL and RELOAD were last written with, 0 and all ones at first. -/
  enWritten : Written (fun n => (r.inp n).writes regCtrl = true) (fun n => (r.inp n).wdata.getLsbD 0) false (en r)
  reloadWritten : Written (fun n => (r.inp n).writes regReload = true) (fun n => (r.inp n).wdata) 0xFFFFFFFF
    fun n => (r.st n).reloadReg
  loads : ∀ n, Loads r n → (r.st (n + 1)).count = (r.st n).reloadReg
  frozen : ∀ n, ¬ Loads r n → en r n = false → (r.st (n + 1)).count = (r.st n).count
  /-- No expiry without a load before it. -/
  loaded : ∀ m, Expires r m → ∃ n, Last (Loads r) n m
  /-- Without another enabling write, edge `m` is the first expiry after the load at `n`
  exactly if EN is 1 at it for the `R + 1`st time. -/
  period : ∀ n m, Loads r n → n < m → (∀ k, n < k → k ≤ m → ¬ Enables r k) →
    ((Expires r m ∧ ∀ k, n < k → k < m → ¬ Expires r k) ↔
      en r m = true ∧ enabled (en r) (n + 1) (m + 1) = reload r n + 1)
  /-- On its edge an enabling write takes the place of an expiry. -/
  suppressed : ∀ n, Enables r n →
    ¬ Expires r n ∧ (r.st (n + 1)).irqPulse = false ∧ ((r.st (n + 1)).statusExpired = true → (r.st n).statusExpired = true)
  irq : ∀ n, (r.st n).irqPulse = true ↔ ∃ e, n = e + 1 ∧ Expires r e
  expired : ∀ n, (r.st n).statusExpired = true ↔
    ∃ e < n, Expires r e ∧ ∀ m, e < m → m < n → ¬ ClearsExpired r m

variable {r} {n m : ℕ}

theorem not_loads : ¬ Loads r n ↔ writeCtrlEn (r.inp n) = false ∧ (r.st n).expires (r.inp n) = false := by
  simp [Loads, Enables, Expires]

theorem expires_iff : Expires r n ↔ en r n = true ∧ (r.st n).count.toNat = 0 ∧ ¬ Enables r n := by
  rw [Expires, expires_eq_true, Enables, Bool.not_eq_true, Counters.toNat_eq_zero_iff, en]

theorem counts (r : Run step) : Counts (en r) (Loads r) (reload r) fun n => (r.st n).count.toNat where
  loads n h := by rw [r.st_succ, count_load _ _ h, reload]
  runs n h := by
    obtain ⟨hw, he⟩ := not_loads.1 h
    rw [r.st_succ, count_run _ _ hw he, en]

theorem last_loads (hl : Loads r n) (hm : n < m) (hno : ∀ k, n < k → k < m → ¬ Enables r k)
    (hfirst : ∀ k, n < k → k < m → ¬ Expires r k) : Last (Loads r) n m := by
  refine ⟨hm, hl, fun k h1 h2 => ?_⟩
  rintro (hw | he)
  · exact hno k h1 h2 hw
  · exact hfirst k h1 h2 he

/-- The first expiry after a load comes once EN was 1 at as many edges as were loaded. -/
theorem enabled_expires (h : Last (Loads r) n m) (he : Expires r m) : enabled (en r) (n + 1) m = reload r n := by
  have hval := (counts r).value h
  have hle := (counts r).enabled_le_top h fun k h1 h2 hen hk =>
    h.since k h1 h2 (.inr (expires_iff.2 ⟨hen, hk, fun hw => h.since k h1 h2 (.inl hw)⟩))
  rw [(expires_iff.1 he).2.1] at hval
  omega

theorem no_expiry (hl : Loads r n) (hno : ∀ k, n < k → k ≤ m → ¬ Enables r k)
    (hle : enabled (en r) (n + 1) m ≤ reload r n) (k : ℕ) : n < k → k < m → ¬ Expires r k := by
  induction k using Nat.strong_induction_on with
  | _ k ih =>
    intro h1 h2 he
    have hfirst := last_loads hl h1 (fun j h3 h4 => hno j h3 (by omega)) fun j h3 h4 => ih j h4 h3 (by omega)
    have hall := enabled_expires hfirst he
    have hmono : enabled (en r) (n + 1) (k + 1) ≤ enabled (en r) (n + 1) m := enabled_mono h2
    rw [enabled_succ (a := n + 1) h1, (expires_iff.1 he).1, Bool.toNat_true] at hmono
    omega

theorem first_expiry_iff (hl : Loads r n) (hm : n < m) (hno : ∀ k, n < k → k ≤ m → ¬ Enables r k) :
    (Expires r m ∧ ∀ k, n < k → k < m → ¬ Expires r k) ↔
      en r m = true ∧ enabled (en r) (n + 1) (m + 1) = reload r n + 1 := by
  constructor
  · rintro ⟨he, hfirst⟩
    have hlast := last_loads hl hm (fun j h1 h2 => hno j h1 (Nat.le_of_lt h2)) hfirst
    have hen := (expires_iff.1 he).1
    rw [enabled_succ (a := n + 1) hm, enabled_expires hlast he, hen, Bool.toNat_true]
    exact ⟨rfl, rfl⟩
  · rintro ⟨hen, hall⟩
    rw [enabled_succ (a := n + 1) hm, hen, Bool.toNat_true] at hall
    have hfirst := no_expiry hl hno (by omega)
    have hlast := last_loads hl hm (fun j h1 h2 => hno j h1 (Nat.le_of_lt h2)) hfirst
    have hval := (counts r).value hlast
    exact ⟨expires_iff.2 ⟨hen, by omega, hno m hm le_rfl⟩, hfirst⟩

theorem exists_enabling (r : Run step) (hm : en r m = true) : ∃ n, Last (Enables r) n m :=
  exists_load (en r) rfl (fun _ h h' => ctrlEn_rises _ _ h h') hm

theorem statusExpired_succ (r : Run step) (n : ℕ) : (r.st (n + 1)).statusExpired = true ↔
    Expires r n ∨ ((r.st n).statusExpired = true ∧ ¬ ClearsExpired r n) := by
  have hstep : (r.st (n + 1)).statusExpired =
      if (r.st n).expires (r.inp n) then true
      else if (r.inp n).writes regStatus && (r.inp n).wdata.getLsbD 0 then false
      else (r.st n).statusExpired := rfl
  rw [hstep, Expires, ClearsExpired]
  split_ifs with he hcl
  · simp [he]
  · simpa [he] using fun _ => hcl
  · simpa [he] using fun _ => hcl

theorem periodLaw (r : Run step) : PeriodLaw r where
  enWritten := .of_edge rfl fun _ => rfl
  reloadWritten := .of_edge rfl fun _ => rfl
  loads _ h := count_load _ _ h
  frozen n h hen := by
    obtain ⟨hw, he⟩ := not_loads.1 h
    apply BitVec.eq_of_toNat_eq
    have hen' : (r.st n).ctrlEn = false := hen
    rw [r.st_succ, count_run _ _ hw he, hen', Bool.toNat_false, Nat.sub_zero]
  loaded m he := by
    obtain ⟨k, hk⟩ := exists_enabling r (expires_iff.1 he).1
    exact exists_last ⟨k, hk.before, .inl hk.here⟩
  period _ _ hl hm hno := first_expiry_iff hl hm hno
  suppressed n hw := by
    have he : (r.st n).expires (r.inp n) = false := by
      rw [← Bool.not_eq_true]
      exact fun h => (expires_iff.1 h).2.2 hw
    have hno : ¬ Expires r n := by simp [Expires, he]
    refine ⟨hno, he, fun h => ?_⟩
    exact (((statusExpired_succ r n).1 h).resolve_left hno).1
  irq n := by
    cases n with
    | zero => simp [show (r.st 0).irqPulse = false from rfl]
    | succ n =>
      constructor
      · intro h
        exact ⟨n, rfl, h⟩
      · rintro ⟨e, he, h⟩
        cases he
        exact h
  expired n := latched (fun n => (r.st n).statusExpired) rfl (statusExpired_succ r) n

end Law

/-- A timer that is started with RELOAD at 2 and then left alone. -/
def ticking : Run step where
  powerUp := ⟨true, 0, 0, true, true, ⟨false, axiRespOkay, false, 0, axiRespOkay⟩⟩
  resetInp := .noReq
  inp n := [.writeReg regReload 2, .writeReg regCtrl 1].getD n .noReq

theorem enables_ticking {n : ℕ} (hn : 1 < n) : ¬ Enables ticking n := by
  obtain ⟨m, rfl⟩ : ∃ m, n = m + 2 := ⟨n - 2, by omega⟩
  have h : writeCtrlEn .noReq = false := rfl
  simp [Enables, ticking, h]

/-- It expires at the third edge after it was started, and again at the third after that. -/
theorem periodLaw_ticking :
    (Expires ticking 4 ∧ ∀ k, 1 < k → k < 4 → ¬ Expires ticking k) ∧ (ticking.st 5).irqPulse = true ∧
      Expires ticking 7 ∧ ∀ k, 4 < k → k < 7 → ¬ Expires ticking k := by
  have law := periodLaw ticking
  have hfirst := (law.period 1 4 (.inl (rfl : writeCtrlEn _ = true)) (by decide) fun k h1 _ => enables_ticking h1).2 (by decide)
  have hnext := (law.period 4 7 (.inr hfirst.1) (by decide) fun k h1 _ => enables_ticking (by omega)).2 (by decide)
  exact ⟨hfirst, (law.irq 5).2 ⟨4, rfl, hfirst.1⟩, hnext⟩

end RiscvSoc.Timer
