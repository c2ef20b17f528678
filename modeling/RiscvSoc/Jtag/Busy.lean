import RiscvSoc.Jtag.TrackRun
/-!
# BUSY, and the result that crosses with it

Every run whose host waits for a response before its next START is followed by the
monitor, and each START of it is answered. A START before that takes the toggle back,
and a first flop that takes the new toggle with an old result gives the host a stale
word.
-/

namespace RiscvSoc.Jtag

open Monitor Sync

/-! ## A START is answered -/

/-- What is left of a transaction. -/
def Progress.rank : Progress → ℕ
  | .write true true | .answered _ _ => 0
  | .write true false => 1
  | .write false _ => 2
  | .read true => 3
  | .read false => 4

/-- The channel that a transaction of rank `k` waits for. -/
def awaits : ℕ → LiteRsp → Bool
  | 0, i => i.bvalid
  | 1, i => i.wready
  | 2, i => i.awready
  | 3, i => i.rvalid
  | 4, i => i.arready
  | _, _ => true

theorem Progress.rank_next {p : Progress} (hp : ∀ d r, p ≠ .answered d r) (i : LiteRsp) :
    if awaits p.rank i then (∃ d r, p.next i = .answered d r) ∨ (p.next i).rank < p.rank
    else (p.next i).rank = p.rank := by
  cases p with
  | write aw w =>
    cases aw <;> cases w <;> cases ha : i.awready <;> cases hw : i.wready <;> cases hb : i.bvalid <;>
      simp [Progress.next, Progress.rank, awaits, ha, hw, hb]
  | read ar =>
    cases ar <;> cases ha : i.arready <;> cases hr : i.rvalid <;>
      simp [Progress.next, Progress.rank, awaits, ha, hr]
  | answered d r => exact absurd rfl (hp d r)

/-- How far the transaction of the last START is from its response; a START whose
toggle has not changed is apart. -/
def Pending : ℕ → JtagChain → Track → Prop
  | k, s, q => (∃ j, k = j + 5 ∧ TrackWaking s q j) ∨ ∃ p, p.rank = k ∧ TrackBus s q p

section Live

variable {r : JtagRun}

/-- Before instant `n` the monitor has followed and `T` holds. -/
def JtagRun.TrackAt (r : JtagRun) (T : JtagChain → Track → Prop) (n : ℕ) : Prop :=
  ∃ q, follow Track.step Track.init (r.trackLog n) = some q ∧ Crossed (r.st n) q.last ∧ T (r.st n) q

theorem JtagRun.TrackAt.mono {T T' : JtagChain → Track → Prop} {n : ℕ} (h : r.TrackAt T n)
    (hT : ∀ s q, T s q → T' s q) : r.TrackAt T' n := by
  obtain ⟨q, hfol, hcr, ht⟩ := h
  exact ⟨q, hfol, hcr, hT _ _ ht⟩

theorem JtagRun.TrackAt.or {T T' : JtagChain → Track → Prop} {n : ℕ} (h : r.TrackAt (fun s q => T s q ∨ T' s q) n) :
    r.TrackAt T n ∨ r.TrackAt T' n := by
  obtain ⟨q, hfol, hcr, ht | ht⟩ := h
  · exact .inl ⟨q, hfol, hcr, ht⟩
  · exact .inr ⟨q, hfol, hcr, ht⟩

variable (hk : ∀ n, Keeps Track.step (startRule · · = true) Track.init (r.trackLog n))
include hk

theorem JtagRun.TrackAt.edge {T T' : JtagChain → Track → Prop} {n : ℕ} (h : r.TrackAt T n)
    (step : ∀ q, T (r.st n) q → Crossed (r.st n) q.last →
      Keeps Track.step (startRule · · = true) q ((r.st n).trackEvents (r.edge n)) →
      TrackNext (r.st n) (r.edge n) .old q T') : r.TrackAt T' (n + 1) := by
  obtain ⟨q, hfol, hcr, ht⟩ := h
  obtain ⟨q', hfol', hcr', ht'⟩ := step q ht hcr ((hk (n + 1)).of_append_right hfol)
  rw [stepMixed_old] at hcr' ht'
  refine ⟨q', ?_, hcr', ht'⟩
  rw [JtagRun.trackLog, follow_append, hfol]
  exact hfol'

theorem waking_edge {j n : ℕ} (h : r.TrackAt (TrackWaking · · j) n) :
    (r.TrackAt (TrackWaking · · j) (n + 1) ∧ (r.edge n).clk = none) ∨
      (∃ j' < j, r.TrackAt (TrackWaking · · j') (n + 1)) ∨
        r.TrackAt (fun s q => ∃ rw, TrackBus s q (.start rw)) (n + 1) := by
  obtain ⟨q, hfol, hcr, ht⟩ := h.edge hk fun _ hq hcr hkq =>
    hq.step (x := .old) hcr (r.running n) (starts_of_keeps hkq (r.running n) ⟨_, hq.wait⟩)
  rcases ht with ⟨j', ⟨hle, hlt⟩, ht⟩ | ht
  · have hj' : r.TrackAt (TrackWaking · · j') (n + 1) := ⟨q, hfol, hcr, ht⟩
    rcases Nat.lt_or_eq_of_le hle with hlt' | rfl
    · exact .inr (.inl ⟨j', hlt', hj'⟩)
    · refine .inl ⟨hj', ?_⟩
      cases hc : (r.edge n).clk with
      | none => rfl
      | some i => exact absurd (hlt (by simp [hc])) (lt_irrefl _)
  · exact .inr (.inr ⟨q, hfol, hcr, ht⟩)

theorem bus_edge {p : Progress} {n : ℕ} (h : r.TrackAt (TrackBus · · p) n) :
    r.TrackAt (TrackBus · · ((r.edge n).progress p)) (n + 1) ∨ r.TrackAt (TrackPassing · · false) (n + 1) :=
  JtagRun.TrackAt.or (h.edge hk fun _ hq hcr hkq =>
    hq.step (x := .old) hcr (r.running n) (coherent_old _ _)
      (starts_of_keeps hkq (r.running n) hq.wait.outstanding))

omit hk in
theorem TrackBus.not_answered {s : JtagChain} {q : Track} {p : Progress} (h : TrackBus s q p) (d : Option Word32)
    (resp : Resp) : p ≠ .answered d resp := by
  obtain ⟨addr, data, hclk⟩ := h.clk
  exact hclk.here.offers.2.2.2.2.2 d resp

omit hk in
theorem JtagRun.TrackAt.pending {k n : ℕ} (h : r.TrackAt (Pending k) n) :
    (∃ j, k = j + 5 ∧ r.TrackAt (TrackWaking · · j) n) ∨ ∃ p, p.rank = k ∧ r.TrackAt (TrackBus · · p) n := by
  obtain ⟨q, hfol, hcr, ⟨j, hj, ht⟩ | ⟨p, hp, ht⟩⟩ := h
  · exact .inl ⟨j, hj, q, hfol, hcr, ht⟩
  · exact .inr ⟨p, hp, q, hfol, hcr, ht⟩

/-- An instant of a pending transaction: it keeps its rank only where what it waits
for does not come. -/
theorem pending_edge {k n : ℕ} (h : r.TrackAt (Pending k) n) :
    (r.TrackAt (Pending k) (n + 1) ∧ ¬ ∃ i, (r.edge n).clk = some i ∧ awaits k i.rsp = true) ∨
      (∃ j < k, r.TrackAt (Pending j) (n + 1)) ∨ r.TrackAt (TrackPassing · · false) (n + 1) := by
  rcases h.pending with ⟨j, rfl, hj⟩ | ⟨p, rfl, hp⟩
  · rcases waking_edge hk hj with ⟨hj, hc⟩ | ⟨j', hlt, hj⟩ | hb
    · exact .inl ⟨hj.mono fun s q ht => .inl ⟨j, rfl, ht⟩, by simp [hc]⟩
    · exact .inr (.inl ⟨j' + 5, by omega, hj.mono fun s q ht => .inl ⟨j', rfl, ht⟩⟩)
    · obtain ⟨q, hfol, hcr, rw, ht⟩ := hb
      have hrank : (Progress.start rw).rank < j + 5 := by cases rw <;> simp [Progress.start, Progress.rank]
      exact .inr (.inl ⟨_, hrank, q, hfol, hcr, .inr ⟨_, rfl, ht⟩⟩)
  · have hopen : ∀ d resp, p ≠ .answered d resp := by
      obtain ⟨q, -, -, ht⟩ := hp
      exact ht.not_answered
    rcases bus_edge hk hp with hb | hpass
    · cases hc : (r.edge n).clk with
      | none =>
        rw [Edge.progress, hc, Option.elim_none] at hb
        exact .inl ⟨hb.mono fun s q ht => .inr ⟨p, rfl, ht⟩, by simp⟩
      | some i =>
        rw [Edge.progress, hc, Option.elim_some] at hb
        have hnext := Progress.rank_next hopen i.rsp
        split at hnext
        · rcases hnext with ⟨d, resp, hans⟩ | hlt
          · obtain ⟨q, -, -, ht⟩ := hb
            exact absurd hans (ht.not_answered d resp)
          · exact .inr (.inl ⟨_, hlt, hb.mono fun s q ht => .inr ⟨_, rfl, ht⟩⟩)
        · next haw =>
          refine .inl ⟨hb.mono fun s q ht => .inr ⟨_, hnext, ht⟩, ?_⟩
          rintro ⟨j, hj, hj'⟩
          obtain rfl := Option.some.inj hj
          exact haw hj'
    · exact .inr (.inr hpass)

variable (hf : r.Fair)
include hf

omit hk in
/-- A fair slave brings what a pending transaction waits for. -/
theorem pending_event {k n : ℕ} (h : r.TrackAt (Pending k) n) : r.Taken (awaits k) n := by
  obtain ⟨q, -, -, ⟨j, rfl, ht⟩ | ⟨p, rfl, ht⟩⟩ := h
  · obtain ⟨m, hnm, hm⟩ := hf.clk n
    obtain ⟨i, hi⟩ := Option.isSome_iff_exists.1 hm
    exact ⟨m, hnm, i, hi, rfl⟩
  · obtain ⟨addr, data, hclk⟩ := ht.clk
    obtain ⟨haw, hw, hb, har, hr, hans⟩ := hclk.here.offers
    cases p with
    | write aw w =>
      cases aw with
      | false => exact hf.aw n (haw w rfl)
      | true =>
        cases w with
        | false => exact hf.w n (hw true rfl)
        | true => exact hf.b n (hb rfl)
    | read ar =>
      cases ar with
      | false => exact hf.ar n (har rfl)
      | true => exact hf.r n (hr rfl)
    | answered d resp => exact absurd rfl (hans d resp)

theorem pending_passes {k n : ℕ} (h : r.TrackAt (Pending k) n) : ∃ m, n < m ∧ r.TrackAt (TrackPassing · · false) m :=
  leadsTo_of_rank id (E := fun k n => ∃ i, (r.edge n).clk = some i ∧ awaits k i.rsp = true)
    (fun _ _ h => pending_event hf h) (fun _ _ h => pending_edge hk h) h

/-- In a fair run an outstanding START comes to its response. -/
theorem outstanding_passes {n : ℕ} {q : Track} {w : Option Progress}
    (hq : follow Track.step Track.init (r.trackLog n) = some q) (ht : Tracked (r.st n) q)
    (hw : q.wait = .outstanding w) : ∃ m, n < m ∧ r.TrackAt (TrackPassing · · false) m := by
  obtain ⟨hcr, hstage⟩ := ht
  cases hstage with
  | quiet h => simp [h.wait] at hw
  | passing h => simp [h.wait] at hw
  | waking h => exact pending_passes hk hf ⟨q, hq, hcr, .inl ⟨_, rfl, h⟩⟩
  | bus h => exact pending_passes hk hf ⟨q, hq, hcr, .inr ⟨_, rfl, h⟩⟩
  | pulse h =>
    suffices hedge : _ by
      obtain ⟨m, hnm, q', hfol, hcr', j, ht⟩ := leadsTo_of_event (P := r.TrackAt TrackPulse)
        (Q := r.TrackAt fun s q => ∃ j, TrackWaking s q j) ⟨q, hq, hcr, h⟩ (hf.tck n) hedge
      obtain ⟨l, hml, hl⟩ := pending_passes hk hf ⟨q', hfol, hcr', .inl ⟨j, rfl, ht⟩⟩
      exact ⟨l, by omega, hl⟩
    intro m hm
    obtain ⟨q', hfol, hcr', ⟨htck, ht⟩ | ht⟩ := hm.edge hk fun _ hq hcr _ => hq.step (x := .old) hcr (r.running m)
    · exact .inl ⟨⟨q', hfol, hcr', ht⟩, by simp [htck]⟩
    · exact .inr ⟨q', hfol, hcr', ht⟩

end Live

/-! ## Scripts with a choice of samples -/

/-- A script in which the first flops take what `x` says. -/
def MixedRun.script (xs : List Instant) (last : Instant) (x : Resolve) : MixedRun := ⟨JtagRun.script xs last, fun _ => x⟩

def JtagChain.trackFrom (x : Resolve) (s : JtagChain) : List Edge → List TrackEvent
  | [] => []
  | e :: es => s.trackEvents e ++ trackFrom x (s.stepMixed e x) es

theorem trackFrom_concat (x : Resolve) (s : JtagChain) (es : List Edge) (e : Edge) :
    s.trackFrom x (es ++ [e]) = s.trackFrom x es ++ (es.foldl (·.stepMixed · x) s).trackEvents e := by
  induction es generalizing s with
  | nil => simp [JtagChain.trackFrom]
  | cons e' es ih => simp [JtagChain.trackFrom, ih]

section Script

variable (r : JtagRun) (x : Resolve)

theorem mixed_st_eq (n : ℕ) :
    MixedRun.st ⟨r, fun _ => x⟩ n = ((List.range n).map r.edge).foldl (·.stepMixed · x) (r.st 0) := by
  induction n with
  | zero => rfl
  | succ n ih => simp [List.range_succ, MixedRun.st, ih]

theorem mixed_trackLog_eq (n : ℕ) :
    MixedRun.trackLog ⟨r, fun _ => x⟩ n = (r.st 0).trackFrom x ((List.range n).map r.edge) := by
  induction n with
  | zero => rfl
  | succ n ih =>
    rw [List.range_succ, List.map_append, MixedRun.trackLog, ih, mixed_st_eq]
    exact (trackFrom_concat _ _ _ _).symm

end Script

theorem trackEvents_runTestIdle {s : JtagChain} {edge : Edge} (he : edge.ResetIs true) (h : s.dtm.tap = .runTestIdle)
    {ev : TrackEvent} (hev : ev ∈ s.trackEvents edge) (q : Track) : startRule q ev = true := by
  rcases List.mem_append.1 hev with hev | hev
  · cases ht : edge.tck with
    | none => simp [ht] at hev
    | some i =>
      obtain rfl : ev = _ := by simpa [ht] using hev
      rw [tckTrack_eq (he.1 i ht)]
      simp [startRule, JtagChain.starts, JtagDtm.updates, h]
  · obtain ⟨e, -, rfl⟩ := List.mem_map.1 hev
    rfl

/-- A script that keeps the rule and leaves the TAP in Run-Test/Idle, where it stays,
keeps it for ever. -/
theorem script_startRule {xs : List Instant} {last : Instant} {x : Resolve}
    (check : Monitor.keepsFrom Track.step startRule Track.init
      (((JtagRun.script xs last).st 0).trackFrom x (xs.map Instant.edge)) = true)
    (rti : ((xs.map Instant.edge).foldl (·.stepMixed · x) ((JtagRun.script xs last).st 0)).dtm.tap = .runTestIdle)
    (tms : ∀ p, last.tck = some p → p.1 = false) (n : ℕ) :
    Keeps Track.step (startRule · · = true) Track.init ((MixedRun.script xs last x).trackLog n) := by
  have hlate (m : ℕ) (hm : xs.length ≤ m) : ((MixedRun.script xs last x).st m).dtm.tap = .runTestIdle := by
    induction m, hm using Nat.le_induction with
    | base => rw [MixedRun.script, mixed_st_eq, script_edges, rti]
    | succ m hm ih =>
      rw [MixedRun.st, stepMixed_dtm, MixedRun.script, JtagRun.script_late hm]
      exact JtagChain.step_runTestIdle ih tms
  have hkeeps : Keeps Track.step (startRule · · = true) Track.init ((MixedRun.script xs last x).trackLog xs.length) := by
    rw [MixedRun.script, mixed_trackLog_eq, script_edges]
    exact Monitor.keepsFrom_sound (fun _ _ h => h) check
  exact hkeeps.of_late (fun _ => rfl)
    (fun m hm ev hev q => trackEvents_runTestIdle (JtagRun.running _ m) (hlate m hm) hev q) n

/-! ## BUSY -/

/-- Where no AXI_CTRL update with START = 1 comes before the response to the last
START, every capture reads BUSY = 1 from a START to its response and BUSY = 0 once that
is through the synchroniser, each START has exactly one transaction, and a fair run
brings it. -/
theorem busy_truthful (r : JtagRun) (hk : ∀ n, Keeps Track.step (startRule · · = true) Track.init (r.trackLog n))
    (n : ℕ) :
    ∃ q, follow Track.step Track.init (r.trackLog n) = some q ∧
      (r.Fair → q.wait.isOutstanding = true →
        ∃ m q', n < m ∧ follow Track.step Track.init (r.trackLog m) = some q' ∧ q'.wait = .passing false) := by
  obtain ⟨q, hfol, ht⟩ := MixedRun.follow_trackLog ⟨r, fun _ => .old⟩ (fun n => coherent_old _ _) n
    (by rw [JtagRun.toMixed_trackLog]; exact hk n)
  rw [JtagRun.toMixed_trackLog] at hfol
  rw [JtagRun.toMixed_st] at ht
  refine ⟨q, hfol, fun hf hw => ?_⟩
  cases hwait : q.wait with
  | outstanding w =>
    obtain ⟨m, hnm, q', hfol', -, hp⟩ := outstanding_passes hk hf hfol ht hwait
    exact ⟨m, q', hnm, hfol', hp.wait⟩
  | quiet | passing => simp [hwait, Wait.isOutstanding] at hw

/-- A read, with polls that repeat its RW bit. -/
def pollPins : List (Bool × Bool) := readPins.take 95 ++ drScan 2 ++ drScan 2

def pollRun : JtagRun := JtagRun.script (lockstep pollPins) restInstant

set_option maxRecDepth 100000 in
theorem pollRun_rule (n : ℕ) : Keeps Track.step (startRule · · = true) Track.init (pollRun.trackLog n) := by
  rw [← JtagRun.toMixed_trackLog]
  exact script_startRule (by decide +kernel) (by decide +kernel) (by simp [restInstant]) n

set_option maxRecDepth 100000 in
/-- The START of instant 94 comes to its response. -/
theorem busy_truthful_pollRun :
    ∃ m q, 95 < m ∧ follow Track.step Track.init (pollRun.trackLog m) = some q ∧ q.wait = .passing false := by
  obtain ⟨q, hq, hend⟩ := busy_truthful pollRun pollRun_rule 95
  have hwait : (follow Track.step Track.init (pollRun.trackLog 95)).map (·.wait) = some (.outstanding none) := by
    rw [← JtagRun.toMixed_trackLog, mixed_trackLog_eq]
    decide +kernel
  rw [hq, Option.map_some, Option.some.injEq] at hwait
  exact hend (fair_script _) (by rw [hwait]; rfl)

/-- The slave takes nothing. -/
def stallSlave : LiteRsp := ⟨false, false, false, 0, false, false, 0, 0⟩

/-- Two scans of AXI_CTRL with START = 1 and a poll, while the slave takes nothing. -/
def twoStartsPins : List (Bool × Bool) := (false, false) :: irScan irAxiCtrl ++ drScan 1 ++ drScan 1 ++ drScan 0

def twoStartsRun : JtagRun := JtagRun.script (twoStartsPins.map fun p => ⟨some p, some stallSlave⟩) restInstant

set_option maxRecDepth 100000 in
/-- The poll reads BUSY = 0 before the transaction has had a handshake. -/
theorem twoStartsRun_idle :
    follow Track.step Track.init (twoStartsRun.trackLog 87) = some ⟨none, .outstanding none⟩ ∧
      (twoStartsRun.st 87).trackEvents (twoStartsRun.edge 87) = [.tck (some (false, false)) none false] ∧
      follow Track.step Track.init (twoStartsRun.trackLog 88) = none := by
  rw [← JtagRun.toMixed_trackLog, ← JtagRun.toMixed_trackLog, ← JtagRun.toMixed_st, mixed_trackLog_eq,
    mixed_trackLog_eq, mixed_st_eq]
  decide +kernel

/-! ## The result -/

/-- Where no START comes before the response to the last, and a first flop that takes
the toggle of a response takes its result too, the word latched when BUSY falls after a
read is its RDATA, and a capture that reads BUSY = 0 carries RESP_OK of its response. -/
theorem result_coherent (r : MixedRun) (hk : ∀ n, Keeps Track.step (startRule · · = true) Track.init (r.trackLog n))
    (hco : ∀ n, (r.st n).Coherent (r.edge n) (r.resolve n)) (n : ℕ) :
    ∃ q, follow Track.step Track.init (r.trackLog n) = some q := by
  obtain ⟨q, hfol, -⟩ := r.follow_trackLog hco n (hk n)
  exact ⟨q, hfol⟩

/-- Every first flop takes the new value. -/
def Resolve.new : Resolve := ⟨true, true, true, BitVec.allOnes 32⟩

theorem mix_allOnes (old new : Word32) : mix (BitVec.allOnes 32) old new = new := by
  refine BitVec.eq_of_getLsbD_eq fun k hk => ?_
  rw [mix_getLsbD, BitVec.getLsbD_allOnes, decide_eq_true hk, if_pos rfl]

theorem coherent_new (s : JtagChain) (e : Edge) : s.Coherent e .new := by
  intro i _ _ _
  exact ⟨fun _ _ => .inl rfl, fun _ _ => ⟨.inl rfl, mix_allOnes _ _⟩⟩

/-- The read with every sample new. -/
def newRun : MixedRun := MixedRun.script (lockstep pollPins) restInstant .new

set_option maxRecDepth 100000 in
theorem newRun_rule (n : ℕ) : Keeps Track.step (startRule · · = true) Track.init (newRun.trackLog n) :=
  script_startRule (by decide +kernel) (by decide +kernel) (by simp [restInstant]) n

set_option maxRecDepth 100000 in
theorem result_coherent_newRun :
    (∃ q, follow Track.step Track.init (newRun.trackLog 137) = some q) ∧
      TrackEvent.tck none (some 0x12345678) false ∈ newRun.trackLog 137 := by
  refine ⟨result_coherent newRun newRun_rule (fun _ => coherent_new _ _) 137, ?_⟩
  rw [newRun, MixedRun.script, mixed_trackLog_eq]
  decide +kernel

/-- The done toggle is sampled new, the result old. -/
def staleRun : MixedRun := MixedRun.script (lockstep pollPins) restInstant ⟨false, true, false, 0⟩

set_option maxRecDepth 100000 in
/-- The response has brought 0x12345678, the DTM latches 0. -/
theorem staleRun_latches :
    (∀ n, Keeps Track.step (startRule · · = true) Track.init (staleRun.trackLog n)) ∧
      follow Track.step Track.init (staleRun.trackLog 102) = some ⟨some (some 0x12345678, axiRespOkay), .passing true⟩ ∧
      (staleRun.st 102).trackEvents (staleRun.edge 102) = [.tck none (some 0) false] ∧
      follow Track.step Track.init (staleRun.trackLog 103) = none := by
  refine ⟨script_startRule (by decide +kernel) (by decide +kernel) (by simp [restInstant]), ?_⟩
  rw [staleRun, MixedRun.script, mixed_trackLog_eq, mixed_trackLog_eq, mixed_st_eq]
  decide +kernel

end RiscvSoc.Jtag
