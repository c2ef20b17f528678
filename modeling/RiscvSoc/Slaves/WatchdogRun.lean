import RiscvSoc.Lib.Countdown
import RiscvSoc.Lib.Counters
import RiscvSoc.Lib.Sync
import RiscvSoc.Slaves.Timers
/-!
# The deadline of the watchdog

When `wdog_reset_req` comes up, and whether there was a WARNING before. The warning is an
equality with `WARN_MARGIN`, which a count that starts below it does not meet.
-/

namespace RiscvSoc.Watchdog

open Sync Countdown

variable {warnMargin : ℕ}

/-! ## One edge -/

section Edge

variable (s : Watchdog) (i : LiteReq)

theorem count_run (h : restart i = false) :
    (s.step warnMargin true i).count.toNat = s.count.toNat - s.ctrlEn.toNat := by
  rw [← Counters.toNat_down]
  simp [step, h]

theorem statusResetReq_run (h : restart i = false) : (s.step warnMargin true i).statusResetReq = true ↔
    (s.ctrlEn = true ∧ s.count.toNat = 0) ∨ s.statusResetReq = true := by
  rw [Counters.toNat_eq_zero_iff]
  simp only [step, h]
  cases s.ctrlEn <;> simp

theorem ctrlEn_rises (h : s.ctrlEn = false) (h' : (s.step warnMargin true i).ctrlEn = true) : restart i = true := by
  have hstep : (s.step warnMargin true i).ctrlEn = if i.writes regCtrl then i.wdata.getLsbD 0 else s.ctrlEn := rfl
  rw [hstep, h] at h'
  cases hw : i.writes regCtrl with
  | false => simp [hw] at h'
  | true =>
    rw [hw, if_pos rfl] at h'
    rw [restart, hw, h']
    rfl

end Edge

/-! ## The deadline -/

section Law

variable (r : Run (step warnMargin))

/-- Edge `n` brings a kick or an enabling write to CTRL. -/
def Restarts (n : ℕ) : Prop := restart (r.inp n) = true

/-- EN at edge `n`, and the TIMEOUT value just before it. -/
def en (n : ℕ) : Bool := (r.st n).ctrlEn
def timeout (n : ℕ) : ℕ := (r.st n).timeoutReg.toNat

/-- When `wdog_reset_req` is up in a run. -/
structure DeadlineLaw : Prop where
  /-- EN and TIMEOUT are what CTRL and TIMEOUT were last written with, 0 and all ones at first. -/
  enWritten : Written (fun n => (r.inp n).writes regCtrl = true) (fun n => (r.inp n).wdata.getLsbD 0) false (en r)
  timeoutWritten : Written (fun n => (r.inp n).writes regTimeout = true) (fun n => (r.inp n).wdata) 0xFFFFFFFF
    fun n => (r.st n).timeoutReg
  loads : ∀ n, Restarts r n → (r.st (n + 1)).count = (r.st n).timeoutReg ∧ (r.st (n + 1)).statusResetReq = false
  /-- From a restart on it is down as long as each next restart is at most `T + 1` edges later. -/
  quiet : ∀ a m, Restarts r a →
    (∀ n, a ≤ n → n + timeout r n + 1 < m → Restarts r n →
      ∃ k, n < k ∧ k ≤ n + timeout r n + 1 ∧ Restarts r k) →
    ∀ k, a < k → k ≤ m → (r.st k).statusResetReq = false
  /-- With EN at 1 it comes up at the `T + 1`st edge after the last restart, and stays up. -/
  rises : ∀ n m, Last (Restarts r) n m → (∀ k, n < k → k < m → en r k = true) →
    ((r.st m).statusResetReq = true ↔ n + timeout r n + 1 < m)
  /-- Edges with EN at 0 do not count. -/
  paused : ∀ n m, Last (Restarts r) n m → ((r.st m).statusResetReq = true ↔ timeout r n < enabled (en r) (n + 1) m)
  notEarly : ∀ m, (r.st m).statusResetReq = true → ∃ n, Last (Restarts r) n m ∧ n + timeout r n + 1 < m

variable {r} {n m : ℕ}

theorem counts (r : Run (step warnMargin)) :
    Counts (en r) (Restarts r) (timeout r) fun n => (r.st n).count.toNat where
  loads n h := by
    have hr : restart (r.inp n) = true := h
    rw [r.st_succ, timeout]
    simp [step, hr]
  runs n h := count_run _ _ (Bool.eq_false_iff.2 h)

theorem statusResetReq_restart (h : Restarts r n) : (r.st (n + 1)).statusResetReq = false := by
  have hr : restart (r.inp n) = true := h
  rw [r.st_succ]
  simp [step, hr]

/-- It is up once EN was 1 at more edges than were loaded. -/
theorem resetReq_iff (h : Last (Restarts r) n m) :
    (r.st m).statusResetReq = true ↔ timeout r n < enabled (en r) (n + 1) m :=
  (counts r).spent (fun n => (r.st n).statusResetReq) (fun _ => statusResetReq_restart)
    (fun _ hno => statusResetReq_run _ _ (Bool.eq_false_iff.2 hno)) h

theorem exists_restart (hm : en r m = true) : ∃ n, Last (Restarts r) n m :=
  exists_load (en r) rfl (fun _ h h' => ctrlEn_rises _ _ h h') hm

/-- The edge that raises it finds the count at 0. -/
theorem rise_edge (h : (r.st n).statusResetReq = false) (h' : (r.st (n + 1)).statusResetReq = true) :
    ¬ Restarts r n ∧ en r n = true ∧ (r.st n).count.toNat = 0 := by
  have hno : ¬ Restarts r n := by
    intro hr
    rw [statusResetReq_restart hr] at h'
    cases h'
  rw [r.st_succ, statusResetReq_run _ _ (Bool.eq_false_iff.2 hno), h] at h'
  obtain ⟨hen, h0⟩ := h'.resolve_right (by simp)
  exact ⟨hno, hen, h0⟩

theorem exists_restart_of_resetReq (h : (r.st m).statusResetReq = true) : ∃ n, Last (Restarts r) n m := by
  obtain ⟨e, -, hem, hlow, hhigh⟩ := exists_rise (Nat.zero_le m) (f := fun n => (r.st n).statusResetReq) rfl h
  obtain ⟨n, hn⟩ := exists_restart (rise_edge hlow hhigh).2.1
  exact exists_last ⟨n, hn.before.trans hem, hn.here⟩

theorem late_of_resetReq (h : Last (Restarts r) n m) (hup : (r.st m).statusResetReq = true) :
    n + timeout r n + 1 < m := by
  have hlt := (resetReq_iff h).1 hup
  have hle : enabled (en r) (n + 1) m ≤ m - (n + 1) := enabled_le
  have hnm := h.before
  omega

theorem deadlineLaw (r : Run (step warnMargin)) : DeadlineLaw r where
  enWritten := .of_edge rfl fun _ => rfl
  timeoutWritten := .of_edge rfl fun _ => rfl
  loads n h := by
    have hr : restart (r.inp n) = true := h
    refine ⟨?_, statusResetReq_restart h⟩
    rw [r.st_succ]
    simp [step, hr]
  quiet a m ha hnext k hak hkm := by
    by_contra hup
    rw [Bool.not_eq_false] at hup
    obtain ⟨n, hn⟩ := exists_restart_of_resetReq hup
    have hlate := late_of_resetReq hn hup
    have han : a ≤ n := by
      by_contra hlt
      exact hn.since a (by omega) hak ha
    obtain ⟨j, h1, h2, hj⟩ := hnext n han (by omega) hn.here
    exact hn.since j h1 (by omega) hj
  rises n m h hen := by
    rw [resetReq_iff h, enabled_of_forall fun k h1 h2 => hen k h1 h2]
    have hnm := h.before
    omega
  paused _ _ h := resetReq_iff h
  notEarly m hup := by
    obtain ⟨n, hn⟩ := exists_restart_of_resetReq hup
    exact ⟨n, hn, late_of_resetReq hn hup⟩

end Law

/-- A watchdog that is started with TIMEOUT at `v` and then left alone. -/
def started (v : Word32) : Run (step 4) where
  powerUp := ⟨false, 0, 0, false, false, false, ⟨false, axiRespOkay, false, 0, axiRespOkay⟩⟩
  resetInp := .noReq
  inp n := [.writeReg regTimeout v, .writeReg regCtrl 1].getD n .noReq

theorem restarts_started {v : Word32} : Restarts (started v) n ↔ n = 1 := by
  rcases n with _ | _ | n
  · have hctrl : (LiteReq.writeReg regTimeout v).writes regCtrl = false := rfl
    have hkick : (LiteReq.writeReg regTimeout v).writes regKick = false := rfl
    simp [Restarts, started, restart, hctrl, hkick]
  · have h : restart (.writeReg regCtrl 1#32) = true := rfl
    simp [Restarts, started, h]
  · have h : restart .noReq = false := rfl
    simp [Restarts, started, h]

/-- With TIMEOUT at 6 it bites at the seventh edge after it was started. -/
theorem deadlineLaw_started : ((started 6).st 8).statusResetReq = false ∧ ((started 6).st 9).statusResetReq = true := by
  have hlast {m : ℕ} (hm : 1 < m) : Last (Restarts (started 6)) 1 m := by
    refine ⟨hm, restarts_started.2 rfl, fun k h1 _ h => ?_⟩
    have hk := restarts_started.1 h
    omega
  have hen : ∀ k < 9, 1 < k → en (started 6) k = true := by decide
  have hrises {m : ℕ} (hm : 1 < m) (hm' : m ≤ 9) : ((started 6).st m).statusResetReq = true ↔ 1 + 6 + 1 < m :=
    (deadlineLaw (started 6)).rises 1 m (hlast hm) fun k h1 h2 => hen k (by omega) h1
  constructor
  · rw [← Bool.not_eq_true, hrises (by omega) (by omega)]
    omega
  · exact (hrises (by omega) le_rfl).2 (by omega)

/-! ## The warning -/

section Warning

/-- Whenever `wdog_reset_req` rises, `irq` has pulsed since the last restart, in an earlier cycle. -/
def WarnsFirst (r : Run (step warnMargin)) : Prop :=
  ∀ e, (r.st e).statusResetReq = false → (r.st (e + 1)).statusResetReq = true →
    ∃ n k, Last (Restarts r) n (e + 1) ∧ n < k ∧ k ≤ e ∧ (r.st k).irqPulse = true

/-- A restart with a TIMEOUT below the margin is followed by at most TIMEOUT edges with EN
at 1 before the next. -/
def ShortInTime (r : Run (step warnMargin)) : Prop :=
  ∀ n m, Last (Restarts r) n m → timeout r n < warnMargin → enabled (en r) (n + 1) m ≤ timeout r n

variable {r : Run (step warnMargin)} {n m : ℕ}

theorem irqPulse_succ : (r.st (n + 1)).irqPulse = true ↔
    ¬ Restarts r n ∧ en r n = true ∧ (r.st n).count.toNat = warnMargin := by
  have hstep : (r.st (n + 1)).irqPulse =
      (!restart (r.inp n) && (r.st n).ctrlEn && decide ((r.st n).count.toNat = warnMargin)) := rfl
  simp [hstep, Restarts, en, and_assoc]

/-- A count that starts below the margin never meets it. -/
theorem margin_le (h : Last (Restarts r) n m) {k : ℕ} (hnk : n < k) (hkm : k ≤ m) (hirq : (r.st k).irqPulse = true) :
    warnMargin ≤ timeout r n := by
  cases k with
  | zero => omega
  | succ k =>
    obtain ⟨hno, -, hk⟩ := irqPulse_succ.1 hirq
    have hne : n ≠ k := by
      rintro rfl
      exact hno h.here
    have hval := (counts r).value (h.of_le (show n < k by omega) (by omega))
    omega

theorem warns_of_margin_le (hpos : 1 ≤ warnMargin) (h : Last (Restarts r) n m) (hle : warnMargin ≤ timeout r n)
    (hlt : timeout r n ≤ enabled (en r) (n + 1) m) : ∃ k, n < k ∧ k ≤ m ∧ (r.st k).irqPulse = true := by
  obtain ⟨k, h1, h2, hen, hk⟩ := (counts r).passes h hle (by omega)
  exact ⟨k + 1, by omega, h2, irqPulse_succ.2 ⟨h.since k h1 h2, hen, hk⟩⟩

/-- The warning comes first exactly if no restart below the margin is left to reach its
deadline. -/
theorem warnsFirst_iff (r : Run (step warnMargin)) (hpos : 1 ≤ warnMargin) : WarnsFirst r ↔ ShortInTime r := by
  constructor
  · intro hw n m h hshort
    by_contra hlt
    have hup : (r.st m).statusResetReq = true := (resetReq_iff h).2 (by omega)
    obtain ⟨e, hne, hem, hlow, hhigh⟩ :=
      exists_rise h.before (f := fun n => (r.st n).statusResetReq) (statusResetReq_restart h.here) hup
    have he : Last (Restarts r) n (e + 1) := h.of_le (by omega) hem
    obtain ⟨n', k, hn', h1, h2, hirq⟩ := hw e hlow hhigh
    obtain rfl := hn'.unique he
    have hle := margin_le he h1 (by omega) hirq
    omega
  · intro hshort e hlow hhigh
    obtain ⟨hno, hen, -⟩ := rise_edge hlow hhigh
    obtain ⟨n, hn⟩ := exists_restart hen
    have hspent := (resetReq_iff (hn.succ hno)).1 hhigh
    have hle : warnMargin ≤ timeout r n := by
      by_contra hlt
      have hin := hshort n (e + 1) (hn.succ hno) (by omega)
      omega
    rw [enabled_succ (a := n + 1) hn.before, hen, Bool.toNat_true] at hspent
    obtain ⟨k, h1, h2, hirq⟩ := warns_of_margin_le hpos hn hle (by omega)
    exact ⟨n, k, hn.succ hno, h1, h2, hirq⟩

theorem warnsFirst_started : WarnsFirst (started 6) := by
  refine (warnsFirst_iff (started 6) (by decide)).2 fun n m h hshort => ?_
  obtain rfl := restarts_started.1 h.here
  exact absurd hshort (by decide)

theorem started_unwarned : ¬ WarnsFirst (started 2) := by
  intro h
  obtain ⟨n, k, -, -, hk, hirq⟩ := h 4 (by decide) (by decide)
  have hnone : ∀ k < 5, ((started 2).st k).irqPulse = false := by decide
  rw [hnone k (by omega)] at hirq
  cases hirq

end Warning

end RiscvSoc.Watchdog
