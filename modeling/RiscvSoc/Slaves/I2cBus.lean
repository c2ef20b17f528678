import RiscvSoc.Slaves.I2cRun
/-!
# What is seen on the bus

A device on the bus takes a change of SDA with SCL high for a START or a STOP. The master
gives one of each in a transfer, the one before SCL has fallen and the other on the edge
that ends the transfer.
-/

namespace RiscvSoc.I2cMaster

open Sync

inductive BusEvent
  /-- A START bit written to CTRL is accepted. -/
  | accept
  /-- SDA is pulled low between two cycles with SCL high. -/
  | start
  /-- SCL falls. -/
  | clock
  /-- SDA is released between two cycles with SCL high. -/
  | stop
  deriving DecidableEq, Repr

/-- What is seen of the levels of SCL and of the master's drive of SDA in two cycles. -/
def lineEvents (scl low scl' low' : Bool) : List BusEvent :=
  if scl then
    if scl' then (if low = low' then [] else if low' then [.start] else [.stop]) else [.clock]
  else []

/-- The events of one edge. -/
def busEvents (s : I2cMaster) (i : I2cIn) : List BusEvent :=
  (if s.doStart i.cpu then [.accept] else []) ++
    lineEvents s.scl s.sdaDriveLow (s.edge true i).scl (s.edge true i).sdaDriveLow

/-- A transfer: one START before SCL falls and one STOP after. -/
def IsTransfer (es : List BusEvent) : Prop := ∃ k, es = [.accept, .start] ++ List.replicate k .clock ++ [.stop]

/-- The events since the last transfer, with what the wires show in the state they lead to. -/
inductive Since : I2cMaster → List BusEvent → Prop
  | rest {s : I2cMaster} (hs : s.state = .idle) (hscl : s.scl = true) (hd : s.sdaDriveLow = false) : Since s []
  | accepted {s : I2cMaster} (hs : s.state = .start) (hp : s.phase = false) (hscl : s.scl = true)
    (hd : s.sdaDriveLow = false) : Since s [.accept]
  | started {s : I2cMaster} (hs : s.state = .start) (hp : s.phase = true) (hscl : s.scl = true)
    (hd : s.sdaDriveLow = true) : Since s [.accept, .start]
  | clocked {s : I2cMaster} (k : ℕ) (hs : s.state ≠ .idle) (hs' : s.state ≠ .start)
    (hd : s.state = .stop → s.phase = true → s.sdaDriveLow = true) :
    Since s ([.accept, .start] ++ List.replicate k .clock)

variable {s t : I2cMaster} {i : I2cIn} {pulled : Bool} {cur : List BusEvent}

theorem Since.nil_iff (h : Since s cur) : cur = [] ↔ s.state = .idle := by
  cases h with
  | rest hs => simp [hs]
  | accepted hs | started hs => simp [hs]
  | clocked k hs => simp [hs]

/-- After START a tick that is not the last takes SCL down or leaves SDA alone. -/
theorem tickStep_lines (pulled : Bool) (hs : s.state ≠ .idle) (hs' : s.state ≠ .start) (hl : s.lastTick = false)
    (hd : s.state = .stop → s.phase = true → s.sdaDriveLow = true) (ht : t.state = s.state)
    (htd : t.sdaDriveLow = s.sdaDriveLow) :
    ((s.tickStep pulled t).scl = false ∨ (s.tickStep pulled t).sdaDriveLow = s.sdaDriveLow) ∧
      (s.tickStep pulled t).state ≠ .start ∧
      ((s.tickStep pulled t).state = .stop → (s.tickStep pulled t).phase = true →
        (s.tickStep pulled t).sdaDriveLow = true) := by
  unfold tickStep
  split
  case h_1 hst => exact absurd hst hs
  case h_2 hst => exact absurd hst hs'
  case h_9 hst =>
    split_ifs with hp hscl
    · exact ⟨.inl rfl, by simp [lowPhase, ht, hst], fun _ _ => rfl⟩
    · exact ⟨.inr htd, by simp [ht, hst], fun _ _ => htd.trans (hd hst (by simpa using hp))⟩
    · simp [lastTick, hst, hp, hscl] at hl
  all_goals
    rename_i hst
    split_ifs <;> refine ⟨?_, ?_, ?_⟩ <;> simp [lowPhase, highPhase, ht, htd, hst]

/-- SDA left alone or SCL taken down: the one event there can be is that SCL falls. -/
theorem lineEvents_quiet (scl : Bool) {low scl' low' : Bool} (h : scl' = false ∨ low' = low) :
    lineEvents scl low scl' low' = [] ∨ lineEvents scl low scl' low' = [.clock] := by
  rcases h with rfl | rfl <;> cases scl <;> simp [lineEvents]

theorem lineEvents_same (scl low : Bool) : lineEvents scl low scl low = [] := by
  cases scl <;> simp [lineEvents]

theorem busEvents_busy (h : Ok s) (hs : s.state ≠ .idle) :
    busEvents s i = lineEvents s.scl s.sdaDriveLow (s.edge true i).scl (s.edge true i).sdaDriveLow := by
  have hno : s.doStart i.cpu = false := by simp [doStart, h.busy.2 hs]
  simp [busEvents, hno]

theorem busEvents_wait (h : Ok s) (hs : s.state ≠ .idle) (ht : s.tick = false) : busEvents s i = [] := by
  rw [busEvents_busy h hs, edge_scl, edge_sdaDriveLow, fsm_wait hs ht]
  exact lineEvents_same _ _

theorem Since.wait (h : Since s cur) (hs : s.state ≠ .idle) (ht : s.tick = false) : Since (s.edge true i) cur := by
  cases h with
  | rest hidle => exact absurd hidle hs
  | accepted hst hp hscl hd =>
    refine .accepted ?_ ?_ ?_ ?_ <;> simp [fsm_wait hs ht, pre, hst, hp, hscl, hd]
  | started hst hp hscl hd =>
    refine .started ?_ ?_ ?_ ?_ <;> simp [fsm_wait hs ht, pre, hst, hp, hscl, hd]
  | clocked k _ hs' hd =>
    refine .clocked k ?_ ?_ fun h1 h2 => ?_
    · simpa [fsm_wait hs ht, pre] using hs
    · simpa [fsm_wait hs ht, pre] using hs'
    · simp only [edge_state, edge_phase, edge_sdaDriveLow, fsm_wait hs ht] at h1 h2 ⊢
      exact hd h1 h2

theorem Since.idle_edge (h : Since s cur) (hok : Ok s) (hs : s.state = .idle) :
    Since (s.edge true i) (cur ++ busEvents s i) := by
  obtain rfl := h.nil_iff.2 hs
  obtain ⟨hscl, hd⟩ := hok.released hs
  cases hst : s.doStart i.cpu with
  | true =>
    have hev : busEvents s i = [.accept] := by simp [busEvents, hst, fsm_start hs hst, hscl, hd, lineEvents]
    rw [hev]
    refine .accepted ?_ ?_ ?_ ?_ <;> simp [fsm_start hs hst]
  | false =>
    have hev : busEvents s i = [] := by simp [busEvents, hst, fsm_idle hs hst, hscl, hd, lineEvents]
    rw [hev]
    refine .rest ?_ ?_ ?_ <;> simp [fsm_idle hs hst, pre, hs]

theorem Since.last_edge (h : Since s cur) (hok : Ok s) (ht : s.tick = true) (hl : s.lastTick = true) :
    IsTransfer (cur ++ busEvents s i) ∧ Since (s.edge true i) [] := by
  obtain ⟨hstop, hp, hscl⟩ := lastTick_iff.1 hl
  have hs : s.state ≠ .idle := by simp [hstop]
  obtain ⟨hidle, hscl', hd', -⟩ := edge_last (i := i) ht hl
  rw [busEvents_busy hok hs, hscl, hscl', hd']
  refine ⟨?_, .rest hidle hscl' hd'⟩
  cases h with
  | rest hst | accepted hst | started hst =>
    rw [hstop] at hst
    cases hst
  | clocked k _ _ hd =>
    rw [hd hstop hp]
    exact ⟨k, rfl⟩

theorem Since.tick_edge (h : Since s cur) (hok : Ok s) (hs : s.state ≠ .idle) (ht : s.tick = true)
    (hl : s.lastTick = false) : Since (s.edge true i) (cur ++ busEvents s i) := by
  rw [busEvents_busy hok hs]
  cases h with
  | rest hidle => exact absurd hidle hs
  | accepted hst hp hscl hd =>
    have hev : lineEvents s.scl s.sdaDriveLow (s.edge true i).scl (s.edge true i).sdaDriveLow = [.start] := by
      simp [fsm_tick hs ht, tickStep, hst, hp, hscl, hd, pre, lineEvents]
    rw [hev]
    refine .started ?_ ?_ ?_ ?_ <;> simp [fsm_tick hs ht, tickStep, hst, hp, hscl, pre]
  | started hst hp hscl hd =>
    have hev : lineEvents s.scl s.sdaDriveLow (s.edge true i).scl (s.edge true i).sdaDriveLow = [.clock] := by
      simp [fsm_tick hs ht, tickStep, hst, hp, hscl, lineEvents]
    rw [hev]
    refine .clocked 1 ?_ ?_ ?_ <;> simp [fsm_tick hs ht, tickStep, hst, hp]
  | clocked k _ hs' hd =>
    have hstay := (tickStep_not_last i.pulled (t := { s.pre i.cpu with divCnt := 0 }) hs hl rfl).1
    obtain ⟨hline, hns, hdrive⟩ :=
      tickStep_lines i.pulled (t := { s.pre i.cpu with divCnt := 0 }) hs hs' hl hd rfl rfl
    rw [← fsm_tick (j := i.cpu) hs ht] at hstay hline hns hdrive
    rw [edge_scl, edge_sdaDriveLow]
    rcases lineEvents_quiet s.scl hline with hev | hev
    · rw [hev, List.append_nil]
      exact .clocked k hstay hns hdrive
    · rw [hev, List.append_assoc, ← List.replicate_succ']
      exact .clocked (k + 1) hstay hns hdrive

/-- An edge adds its events, and the last one of a transfer completes it. -/
theorem Since.edge (h : Since s cur) (hok : Ok s) :
    Since (s.edge true i) (cur ++ busEvents s i) ∨
      (s.state ≠ .idle ∧ IsTransfer (cur ++ busEvents s i) ∧ Since (s.edge true i) []) := by
  by_cases hs : s.state = .idle
  · exact .inl (h.idle_edge hok hs)
  · cases ht : s.tick with
    | false =>
      rw [busEvents_wait hok hs ht, List.append_nil]
      exact .inl (h.wait hs ht)
    | true =>
      cases hl : s.lastTick with
      | true => exact .inr ⟨hs, h.last_edge hok ht hl⟩
      | false => exact .inl (h.tick_edge hok hs ht hl)

theorem Since.no_stop (h : Since s cur) : .stop ∉ cur := by
  cases h with
  | rest | accepted | started => simp
  | clocked k => simp

/-- STOP is on the edge that ends the transfer. -/
theorem Since.stop_iff (h : Since s cur) (hok : Ok s) :
    .stop ∈ busEvents s i ↔ s.state ≠ .idle ∧ (s.edge true i).state = .idle := by
  constructor
  · intro hmem
    rcases h.edge (i := i) hok with hnext | ⟨hs, -, hrest⟩
    · exact absurd (List.mem_append_right cur hmem) hnext.no_stop
    · exact ⟨hs, hrest.nil_iff.1 rfl⟩
  · rintro ⟨hs, hidle⟩
    rcases h.edge (i := i) hok with hnext | ⟨-, ⟨k, htr⟩, -⟩
    · have hnil := hnext.nil_iff.2 hidle
      exact absurd (h.nil_iff.1 (List.append_eq_nil_iff.1 hnil).1) hs
    · have hmem : .stop ∈ cur ++ busEvents s i := by simp [htr]
      exact (List.mem_append.1 hmem).resolve_left h.no_stop

/-! ## A run -/

/-- What a device on the bus sees in a run. -/
structure BusLaw (r : Run edge) : Prop where
  /-- The events are those of whole transfers and of the first part of the one in flight. -/
  transfers : ∀ n, ∃ cur, Parses IsTransfer (r.span busEvents 0 n) cur ∧ (cur = [] ↔ (r.st n).busy = false) ∧
    (cur = [] ∨ cur = [.accept] ∨ ∃ k, cur = [.accept, .start] ++ List.replicate k .clock)
  /-- STOP is on the edge that ends the transfer. -/
  last : ∀ n, .stop ∈ busEvents (r.st n) (r.inp n) ↔ (r.st n).busy = true ∧ (r.st (n + 1)).busy = false
  released : ∀ n, (r.st n).busy = false → (r.st n).scl = true ∧ (r.st n).sdaDriveLow = false

theorem since_run (r : Run edge) (n : ℕ) :
    ∃ cur, Parses IsTransfer (r.span busEvents 0 n) cur ∧ Since (r.st n) cur := by
  induction n with
  | zero => exact ⟨[], .nil, .rest rfl rfl rfl⟩
  | succ n ih =>
    obtain ⟨cur, hparse, hcur⟩ := ih
    have hspan : r.span busEvents 0 (n + 1) = r.span busEvents 0 n ++ busEvents (r.st n) (r.inp n) := by
      rw [r.span_succ, Nat.zero_add]
    rw [hspan]
    rcases hcur.edge (i := r.inp n) (ok_run r n) with hnext | ⟨-, htr, hrest⟩
    · exact ⟨_, hparse.append _, hnext⟩
    · exact ⟨[], (hparse.append _).close htr, hrest⟩

theorem busLaw (r : Run edge) : BusLaw r := by
  have hfree (n : ℕ) : (r.st n).busy = false ↔ (r.st n).state = .idle := by
    rw [← Bool.not_eq_true, (ok_run r n).busy, not_not]
  refine ⟨fun n => ?_, fun n => ?_, fun n hn => (ok_run r n).released ((hfree n).1 hn)⟩
  · obtain ⟨cur, hparse, hcur⟩ := since_run r n
    refine ⟨cur, hparse, hcur.nil_iff.trans (hfree n).symm, ?_⟩
    cases hcur with
    | rest => exact .inl rfl
    | accepted => exact .inr (.inl rfl)
    | started => exact .inr (.inr ⟨0, rfl⟩)
    | clocked k => exact .inr (.inr ⟨k, rfl⟩)
  · obtain ⟨cur, -, hcur⟩ := since_run r n
    rw [hcur.stop_iff (ok_run r n), (ok_run r n).busy, hfree (n + 1)]
    rfl

end RiscvSoc.I2cMaster
