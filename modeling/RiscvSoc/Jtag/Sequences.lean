import RiscvSoc.Jtag.Transactions
/-!
# The host's sequences

Polls that repeat the RW bit of the transaction, and the read sequence of the
documentation, whose polls are all 0.
-/

namespace RiscvSoc.Jtag

/-! ## Scripts -/

/-- An instant outside reset: `tms` and `tdi` at an edge of `tck`, the slave's
answers at an edge of `clk`. -/
structure Instant where
  tck : Option (Bool × Bool)
  clk : Option LiteRsp

def Instant.edge (x : Instant) : Edge := ⟨x.tck.map fun p => ⟨true, p.1, p.2⟩, x.clk.map fun rsp => ⟨true, rsp⟩⟩

theorem Instant.resetIs (x : Instant) : x.edge.ResetIs true := by
  constructor
  · intro i hi
    obtain ⟨p, -, rfl⟩ := Option.map_eq_some_iff.1 hi
    rfl
  · intro i hi
    obtain ⟨rsp, -, rfl⟩ := Option.map_eq_some_iff.1 hi
    rfl

/-- The instants of `xs`, then `last` for ever. -/
def JtagRun.script (xs : List Instant) (last : Instant) : JtagRun where
  powerUp :=
    { dtm := ⟨.testLogicReset, 0, irIdcode, 0, false, 0, 0, false, false, false⟩
      tckSide := ⟨false, false, false, false, false, 0, 0⟩
      clkSide := ⟨false, false, false, .idle, 0, 0, 0, false, false, false, false⟩ }
  resetEdges := [⟨some ⟨false, true, false⟩, some ⟨false, ⟨false, false, false, 0, false, false, 0, 0⟩⟩⟩]
  inReset e he := by
    obtain rfl := List.mem_singleton.1 he
    constructor <;> (intro i hi; cases hi; rfl)
  tckReset := ⟨_, List.mem_singleton_self _, rfl⟩
  clkReset := ⟨_, List.mem_singleton_self _, rfl⟩
  edge n := (xs.getD n last).edge
  running n := (xs.getD n last).resetIs

theorem JtagRun.script_late {xs : List Instant} {last : Instant} {n : ℕ} (hn : xs.length ≤ n) :
    (JtagRun.script xs last).edge n = last.edge := by
  simp [JtagRun.script, hn]

/-- The events of the instants of `es`. -/
def JtagChain.logFrom (s : JtagChain) : List Edge → List JEvent
  | [] => []
  | e :: es => s.events e ++ logFrom (s.step e) es

theorem JtagChain.logFrom_concat (s : JtagChain) (es : List Edge) (e : Edge) :
    s.logFrom (es ++ [e]) = s.logFrom es ++ (es.foldl JtagChain.step s).events e := by
  induction es generalizing s with
  | nil => simp [JtagChain.logFrom]
  | cons e' es ih => simp [JtagChain.logFrom, ih]

theorem JtagRun.st_eq (r : JtagRun) (n : ℕ) : r.st n = ((List.range n).map r.edge).foldl JtagChain.step (r.st 0) := by
  induction n with
  | zero => rfl
  | succ n ih => simp [List.range_succ, JtagRun.st, ih]

theorem JtagRun.log_eq (r : JtagRun) (n : ℕ) : r.log n = (r.st 0).logFrom ((List.range n).map r.edge) := by
  induction n with
  | zero => rfl
  | succ n ih =>
    rw [List.range_succ, List.map_append, JtagRun.log, ih, r.st_eq n]
    exact (JtagChain.logFrom_concat _ _ _).symm

theorem script_edges (xs : List Instant) (last : Instant) :
    (List.range xs.length).map (JtagRun.script xs last).edge = xs.map Instant.edge := by
  refine List.ext_getElem (by simp) fun n h₁ h₂ => ?_
  have hn : n < xs.length := by simpa using h₁
  simp [JtagRun.script, hn]

/-! ## Checking a script -/

/-- `rule` is kept at every event, from `s` on. -/
def keepsFrom (rule : Spec → JEvent → Prop) [∀ s e, Decidable (rule s e)] (s : Spec) : List JEvent → Bool
  | [] => true
  | e :: l => decide (rule s e) && (s.specStep e).elim true fun s' => keepsFrom rule s' l

theorem keepsFrom_eq (rule : Spec → JEvent → Prop) [∀ s e, Decidable (rule s e)] (s : Spec) (l : List JEvent) :
    keepsFrom rule s l = Monitor.keepsFrom Spec.specStep (fun s e => decide (rule s e)) s l := by
  induction l generalizing s with
  | nil => rfl
  | cons e l ih => simp only [keepsFrom, Monitor.keepsFrom, ih]

/-- A handshake of the master port. -/
def JEvent.isAxi : JEvent → Bool
  | .aw _ | .w _ _ | .b _ | .ar _ | .r _ _ => true
  | _ => false

theorem clkEvents_isAxi {s : JtagChain} {i : ClkIn} {e : JEvent} (h : e ∈ s.clkEvents i) : e.isAxi = true := by
  simp only [JtagChain.clkEvents, List.mem_append, mem_whenFire] at h
  rcases h with (((⟨-, -, rfl⟩ | ⟨-, -, rfl⟩) | ⟨-, -, rfl⟩) | ⟨-, -, rfl⟩) | ⟨-, -, rfl⟩ <;> rfl

theorem JtagChain.step_runTestIdle {s : JtagChain} {x : Instant} (h : s.dtm.tap = .runTestIdle)
    (tms : ∀ p, x.tck = some p → p.1 = false) : (s.step x.edge).dtm.tap = .runTestIdle := by
  cases ht : x.tck with
  | none => rwa [(tck_none (by simp [Instant.edge, ht])).1]
  | some p =>
    have hi : x.edge.tck = some ⟨true, p.1, p.2⟩ := by simp [Instant.edge, ht]
    rw [(tck_some hi x.resetIs).1]
    simp [JtagDtm.step, h, nextState, JtagChain.dtmIn, tms p ht]

theorem events_runTestIdle {s : JtagChain} {edge : Edge} (h : s.dtm.tap = .runTestIdle) {e : JEvent}
    (he : e ∈ s.events edge) : e.isAxi = true := by
  rcases List.mem_append.1 he with he | he
  · cases ht : edge.tck with
    | none => simp [ht] at he
    | some i => simp [ht, JtagChain.tckEvents, h] at he
  · cases hc : edge.clk with
    | none => simp [hc] at he
    | some i => exact clkEvents_isAxi (by simpa [hc] using he)

/-- A script that keeps the rule and leaves the TAP in Run-Test/Idle, where it stays,
keeps it for ever. -/
theorem script_keeps {rule : Spec → JEvent → Prop} [∀ s e, Decidable (rule s e)]
    (axi : ∀ s e, e.isAxi = true → rule s e) {xs : List Instant} {last : Instant}
    (check : keepsFrom rule Spec.init (((JtagRun.script xs last).st 0).logFrom (xs.map Instant.edge)) = true)
    (rti : ((xs.map Instant.edge).foldl JtagChain.step ((JtagRun.script xs last).st 0)).dtm.tap = .runTestIdle)
    (tms : ∀ p, last.tck = some p → p.1 = false) (n : ℕ) : HostKeeps rule ((JtagRun.script xs last).log n) := by
  have hlate (m : ℕ) (hm : xs.length ≤ m) : ((JtagRun.script xs last).st m).dtm.tap = .runTestIdle := by
    induction m, hm using Nat.le_induction with
    | base => rw [JtagRun.st_eq, script_edges, rti]
    | succ m hm ih =>
      rw [JtagRun.st, JtagRun.script_late hm]
      exact JtagChain.step_runTestIdle ih tms
  have hkeeps : Monitor.Keeps Spec.specStep rule Spec.init ((JtagRun.script xs last).log xs.length) := by
    rw [JtagRun.log_eq, script_edges]
    rw [keepsFrom_eq] at check
    exact Monitor.keepsFrom_sound (fun _ _ h => of_decide_eq_true h) check
  exact hostKeeps_iff.2 (hkeeps.of_late (fun _ => rfl) (fun m hm e he q => axi q e (events_runTestIdle (hlate m hm) he)) n)

/-- The bits of `v` in Shift-DR or Shift-IR, the last with `tms`. -/
def shiftBits {w : ℕ} (v : BitVec w) : List (Bool × Bool) := (List.range w).map fun k => (k + 1 = w, v.getLsbD k)

/-- From Run-Test/Idle and back. -/
def irScan (ir : BitVec 4) : List (Bool × Bool) :=
  [(true, false), (true, false), (false, false), (false, false)] ++ shiftBits ir ++ [(true, false), (false, false)]

def drScan (word : Word32) : List (Bool × Bool) :=
  [(true, false), (false, false), (false, false)] ++ shiftBits word ++ [(true, false), (false, false)]

/-- A slave that is always ready and always answers. -/
def readySlave : LiteRsp := ⟨true, true, true, axiRespOkay, true, true, 0x12345678, axiRespOkay⟩

/-- Both clocks, with the TAP in Run-Test/Idle. -/
def restInstant : Instant := ⟨some (false, false), some readySlave⟩

theorem fair_script (xs : List Instant) : (JtagRun.script xs restInstant).Fair := by
  have hedge (n : ℕ) : (JtagRun.script xs restInstant).edge (max n xs.length) = restInstant.edge := by
    simp [JtagRun.script]
  have htaken (ready : LiteRsp → Bool) (n : ℕ) (h : ready readySlave = true) :
      (JtagRun.script xs restInstant).Taken ready n :=
    ⟨max n xs.length, Nat.le_max_left _ _, ⟨true, readySlave⟩, by rw [hedge]; rfl, h⟩
  constructor
  · exact fun n => ⟨max n xs.length, Nat.le_max_left _ _, by rw [hedge]; rfl⟩
  · exact fun n => ⟨max n xs.length, Nat.le_max_left _ _, by rw [hedge]; rfl⟩
  all_goals exact fun n _ => htaken _ n rfl

/-! ## Polls with the RW bit of the transaction -/

def sameRw (rw _busy rw' : Bool) : Prop := rw' = rw

/-- At every edge of either clock the events so far are those of the spec: each
scan with START brings one AXI transaction of its kind, with the scanned address and
data, a capture reads BUSY = 0 only after its response and then RESP_OK as it was,
AXI_DATA reads what the transaction left there, and nothing else is on the bus. A
fair run brings each transaction to its end. -/
theorem jtag_transactions (r : JtagRun) (hk : ∀ n, HostKeeps (hostRule sameRw) (r.log n)) (n : ℕ) :
    ∃ q, Spec.init.follow (r.log n) = some q ∧ (r.Fair → ∀ rw p, q.phase = .waiting rw p → r.Ends n rw) := by
  have hok : ∀ rw rw', sameRw rw true rw' → rw' = rw := fun _ _ h => h
  obtain ⟨q, hfol, -⟩ := r.follow_log hok n (hk n)
  exact ⟨q, hfol, fun hf rw p hq => waiting_ends hok hk hf hfol hq⟩

instance (s : Spec) (e : JEvent) : Decidable (hostRule sameRw s e) :=
  match s, e with
  | ⟨_, _, _, _, .idle⟩, .update _ _ => inferInstanceAs (Decidable (_ → _ ∧ (_ → _ → _ ∧ (_ → _))))
  | ⟨_, _, _, _, .waiting _ _⟩, .update _ _ => inferInstanceAs (Decidable (_ → _ ∧ _ ∧ _ ∧ _ = _))
  | s, .testLogicReset => inferInstanceAs (Decidable (s.phase = .idle))
  | _, .capture _ _ | _, .shift _ | _, .aw _ | _, .w _ _ | _, .b _ | _, .ar _ | _, .r _ _ => isTrue trivial

/-- Both clocks tick together. -/
def lockstep (pins : List (Bool × Bool)) : List Instant := pins.map fun p => ⟨some p, some readySlave⟩

/-- A write with its polls. -/
def writeRun : JtagRun :=
  JtagRun.script (lockstep ((false, false) :: irScan irAxiAddr ++ drScan 0x10000000 ++ irScan irAxiData ++
    drScan 0xCAFE ++ irScan irAxiCtrl ++ drScan 1 ++ drScan 0 ++ drScan 0)) restInstant

set_option maxRecDepth 100000 in
theorem writeRun_keeps (n : ℕ) : HostKeeps (hostRule sameRw) (writeRun.log n) := by
  refine script_keeps (fun s e he => ?_) (by decide +kernel) (by decide +kernel) (by simp [restInstant]) n
  cases e <;> simp_all [JEvent.isAxi, hostRule]

set_option maxRecDepth 100000 in
/-- The write that instant 142 finds begun comes to its end. -/
theorem jtag_transactions_writeRun : writeRun.Ends 142 false := by
  have hfol : (Spec.init.follow (writeRun.log 142)).map (·.phase) = some (.waiting false (.start false)) := by
    rw [JtagRun.log_eq]
    decide +kernel
  obtain ⟨q, hq, hend⟩ := jtag_transactions writeRun writeRun_keeps 142
  rw [hq, Option.map_some, Option.some.injEq] at hfol
  exact hend (fair_script _) false _ hfol

/-! ## The documented read -/

/-- What the documented read sequence does at `e`: full scans only, START with
RW = 1 after the address, polls of AXI_CTRL with 0 while it waits. -/
def readRule (s : Spec) : JEvent → Prop
  | .update ir _ =>
    isAxiReg ir = true → s.bits.length = 32 ∧
      match s.phase with
      | .idle => ir = irAxiCtrl → (wordOf s.bits).getLsbD 0 = true → (wordOf s.bits).getLsbD 1 = true ∧ s.addr ≠ none
      | .waiting _ _ => ir = irAxiCtrl ∧ wordOf s.bits = 0
  | .testLogicReset => s.phase = .idle
  | _ => True

/-- A poll is in Update-DR only after BUSY has fallen. -/
def pollsLate (s : Spec) : JEvent → Prop
  | .update ir busy => isAxiReg ir = true → s.phase ≠ .idle → busy = false
  | _ => True

/-- A handshake of the write channels. -/
def JEvent.isWrite : JEvent → Bool
  | .aw _ | .w _ _ | .b _ => true
  | _ => false

theorem readRule.hostRule {s : Spec} {e : JEvent} (h : readRule s e) (hp : pollsLate s e) :
    hostRule (fun _ busy _ => busy = false) s e := by
  cases e with
  | update ir busy =>
    intro hax
    obtain ⟨hlen, hrule⟩ := h hax
    refine ⟨hlen, ?_⟩
    cases hs : s.phase with
    | idle =>
      rw [hs] at hrule
      intro hir h0
      obtain ⟨h1, ha⟩ := hrule hir h0
      exact ⟨ha, by simp [h1]⟩
    | waiting rw p =>
      rw [hs] at hrule
      exact ⟨hrule.1, by rw [hrule.2]; decide, hp hax (by simp [hs])⟩
  | testLogicReset => exact h
  | capture | shift | aw | w | b | ar | r => trivial

/-- A wait of the read sequence is for a read. -/
def OnlyReads (q : Spec) : Prop := ∀ rw p, q.phase = .waiting rw p → rw = true ∧ p.isRead = true

theorem OnlyReads.of_phase {q q' : Spec} (h : OnlyReads q) (hp : q'.phase = q.phase ∨ q'.phase = .idle) :
    OnlyReads q' := by
  intro rw p hq
  rcases hp with hp | hp
  · exact h rw p (hp ▸ hq)
  · simp [hp] at hq

theorem captureCtrl_phase {q q' : Spec} {busy ok : Bool} (h : q.captureCtrl busy ok = some q') :
    q'.phase = q.phase ∨ q'.phase = .idle := by
  unfold Spec.captureCtrl at h
  split at h
  · split at h
    · obtain rfl := Option.some.inj h
      exact .inl rfl
    · cases h
  · cases h
  · obtain rfl := Option.some.inj h
    exact .inl rfl
  · split at h
    · obtain rfl := Option.some.inj h
      exact .inr rfl
    · cases h
  · cases h

theorem updateReg_waiting {q : Spec} (h : q.phase ≠ .idle) (ir : BitVec 4) : (q.updateReg ir).phase = q.phase := by
  unfold Spec.updateReg
  simp only [h, and_false, if_false]
  split
  · rfl
  · split <;> rfl

/-- A handshake is of the kind of the transaction. -/
theorem axi_phase {q : Spec} {e : JEvent} {ph : HostPhase} (h : q.axi e = some ph) :
    ∃ rw p p', q.phase = .waiting rw p ∧ ph = .waiting rw p' ∧ p'.isRead = p.isRead ∧ p.isRead = !e.isWrite := by
  unfold Spec.axi at h
  split at h
  · next rw w a hq =>
    split at h
    · exact ⟨rw, _, _, hq, (Option.some.inj h).symm, rfl, rfl⟩
    · cases h
  · next rw aw d strb hq =>
    split at h
    · exact ⟨rw, _, _, hq, (Option.some.inj h).symm, rfl, rfl⟩
    · cases h
  · next rw resp hq => exact ⟨rw, _, _, hq, (Option.some.inj h).symm, rfl, rfl⟩
  · next rw a hq =>
    split at h
    · exact ⟨rw, _, _, hq, (Option.some.inj h).symm, rfl, rfl⟩
    · cases h
  · next rw d resp hq => exact ⟨rw, _, _, hq, (Option.some.inj h).symm, rfl, rfl⟩
  · cases h

/-- One event of the read sequence, a write on the bus not among them. -/
theorem OnlyReads.step {q q' : Spec} {e : JEvent} (h : OnlyReads q) (hr : readRule q e) (hs : q.specStep e = some q') :
    OnlyReads q' ∧ e.isWrite = false := by
  cases e with
  | capture ir word =>
    rw [Spec.specStep_capture] at hs
    refine ⟨h.of_phase ?_, rfl⟩
    split at hs
    · exact captureCtrl_phase (q := { q with bits := [] }) hs
    · split at hs
      · cases hs
      · obtain rfl := Option.some.inj hs
        exact .inl rfl
  | shift tdi =>
    obtain rfl := Option.some.inj hs
    exact ⟨h.of_phase (.inl rfl), rfl⟩
  | update ir busy =>
    obtain rfl := Option.some.inj hs
    refine ⟨?_, rfl⟩
    by_cases hq : q.phase = .idle
    · intro rw p hp
      rw [Spec.updateReg_idle hq] at hp
      simp only at hp
      split at hp
      · next hstart =>
        obtain ⟨hir, h0⟩ := hstart
        have hrule := (hr (by rw [hir]; decide)).2
        rw [hq] at hrule
        obtain ⟨h1, -⟩ := hrule hir h0
        obtain ⟨rfl, rfl⟩ := HostPhase.waiting.inj hp
        rw [Progress.isRead_start, h1]
        exact ⟨rfl, rfl⟩
      · cases hp
    · exact h.of_phase (.inl (updateReg_waiting hq ir))
  | testLogicReset =>
    obtain rfl := Option.some.inj hs
    exact ⟨h, rfl⟩
  | aw | w | b | ar | r =>
    obtain ⟨ph, hax, rfl⟩ := Option.map_eq_some_iff.1 hs
    obtain ⟨rw, p, p', hq, rfl, hp', hp⟩ := axi_phase hax
    obtain ⟨rfl, hread⟩ := h rw p hq
    refine ⟨fun rw' p'' hq' => ?_, by simpa [hread] using hp⟩
    obtain ⟨rfl, rfl⟩ := HostPhase.waiting.inj hq'
    exact ⟨rfl, hp'.trans hread⟩

/-- Under the read rule nothing is written. -/
theorem readRule.onlyReads {l : List JEvent} (hk : HostKeeps readRule l) {q : Spec} (hq : Spec.init.follow l = some q) :
    OnlyReads q ∧ ∀ e ∈ l, e.isWrite = false := by
  induction l using List.reverseRecOn generalizing q with
  | nil =>
    obtain rfl := Option.some.inj hq
    exact ⟨fun rw p hp => by simp [Spec.init] at hp, by simp⟩
  | append_singleton l e ih =>
    rw [Spec.follow_append] at hq
    obtain ⟨q₁, hq₁, hs⟩ := Option.bind_eq_some_iff.1 hq
    obtain ⟨hread, hall⟩ := ih (hostKeeps_iff.1 hk).of_append hq₁
    rw [Spec.follow_singleton] at hs
    obtain ⟨hread', hw⟩ := hread.step (hk l e [] rfl q₁ hq₁) hs
    refine ⟨hread', fun e' he' => ?_⟩
    rcases List.mem_append.1 he' with he' | he'
    · exact hall e' he'
    · rwa [List.mem_singleton.1 he']

/-- Where every poll is in Update-DR after BUSY has fallen, each scan of the
documented read sequence with START brings one AXI read of the scanned address,
AXI_DATA then reads its data, and nothing is written. -/
theorem read_sequence (r : JtagRun) (hk : ∀ n, HostKeeps readRule (r.log n)) (hp : ∀ n, HostKeeps pollsLate (r.log n))
    (n : ℕ) :
    ∃ q, Spec.init.follow (r.log n) = some q ∧ (∀ e ∈ r.log n, e.isWrite = false) ∧
      ∀ rw p, q.phase = .waiting rw p → rw = true ∧ (r.Fair → r.Ends n true) := by
  have hok : ∀ rw rw', (fun _ busy _ => busy = false : Bool → Bool → Bool → Prop) rw true rw' → rw' = rw := by simp
  have hkeeps (n : ℕ) : HostKeeps (hostRule fun _ busy _ => busy = false) (r.log n) := fun pre e post hl s hs =>
    (hk n pre e post hl s hs).hostRule (hp n pre e post hl s hs)
  obtain ⟨q, hfol, -⟩ := r.follow_log hok n (hkeeps n)
  obtain ⟨hread, hall⟩ := readRule.onlyReads (hk n) hfol
  refine ⟨q, hfol, hall, fun rw p hq => ?_⟩
  obtain ⟨rfl, -⟩ := hread rw p hq
  exact ⟨rfl, fun hf => waiting_ends hok hkeeps hf hfol hq⟩

instance (s : Spec) (e : JEvent) : Decidable (readRule s e) :=
  match s, e with
  | ⟨_, _, _, _, .idle⟩, .update _ _ => inferInstanceAs (Decidable (_ → _ ∧ (_ → _ → _ ∧ _)))
  | ⟨_, _, _, _, .waiting _ _⟩, .update _ _ => inferInstanceAs (Decidable (_ → _ ∧ _ ∧ _ = _))
  | s, .testLogicReset => inferInstanceAs (Decidable (s.phase = .idle))
  | _, .capture _ _ | _, .shift _ | _, .aw _ | _, .w _ _ | _, .b _ | _, .ar _ | _, .r _ _ => isTrue trivial

instance (s : Spec) (e : JEvent) : Decidable (pollsLate s e) :=
  match e with
  | .update _ _ => inferInstanceAs (Decidable (_ → _ ≠ _ → _ = _))
  | .testLogicReset | .capture _ _ | .shift _ | .aw _ | .w _ _ | .b _ | .ar _ | .r _ _ => isTrue trivial

/-- The scans of the address, of START with RW = 1 and of the first poll. -/
def readPins : List (Bool × Bool) :=
  (false, false) :: irScan irAxiAddr ++ drScan 0x10000000 ++ irScan irAxiCtrl ++ drScan 3 ++ drScan 0

/-- The read with both clocks at the same rate, a second poll and the scan of AXI_DATA. -/
def readRun : JtagRun :=
  JtagRun.script (lockstep (readPins ++ drScan 0 ++ irScan irAxiData ++ drScan 0)) restInstant

set_option maxRecDepth 100000 in
theorem readRun_keeps (n : ℕ) : HostKeeps readRule (readRun.log n) := by
  refine script_keeps (fun s e he => ?_) (by decide +kernel) (by decide +kernel) (by simp [restInstant]) n
  cases e <;> simp_all [JEvent.isAxi, readRule]

set_option maxRecDepth 100000 in
theorem readRun_late (n : ℕ) : HostKeeps pollsLate (readRun.log n) := by
  refine script_keeps (fun s e he => ?_) (by decide +kernel) (by decide +kernel) (by simp [restInstant]) n
  cases e <;> simp_all [JEvent.isAxi, pollsLate]

set_option maxRecDepth 100000 in
theorem read_sequence_readRun :
    (∀ e ∈ readRun.log 220, e.isWrite = false) ∧ JEvent.capture irAxiData 0x12345678 ∈ readRun.log 220 ∧
      readRun.Ends 95 true := by
  obtain ⟨-, -, hall, -⟩ := read_sequence readRun readRun_keeps readRun_late 220
  obtain ⟨q, hq, -, hend⟩ := read_sequence readRun readRun_keeps readRun_late 95
  have hfol : (Spec.init.follow (readRun.log 95)).map (·.phase) = some (.waiting true (.start true)) := by
    rw [JtagRun.log_eq]
    decide +kernel
  rw [hq, Option.map_some, Option.some.injEq] at hfol
  refine ⟨hall, ?_, (hend true _ hfol).2 (fair_script _)⟩
  rw [JtagRun.log_eq]
  decide +kernel

/-- The read with `tck` so fast that `clk` has no edge before the first poll is done. -/
def fastTckRun : JtagRun :=
  JtagRun.script (readPins.map (fun p => ⟨some p, none⟩) ++ List.replicate 8 restInstant) restInstant

set_option maxRecDepth 100000 in
/-- The poll turns the read into a write. -/
theorem fastTckRun_writes :
    (∀ n, HostKeeps readRule (fastTckRun.log n)) ∧ fastTckRun.Fair ∧
      JEvent.aw 0x10000000 ∈ fastTckRun.log (readPins.length + 8) := by
  refine ⟨script_keeps (fun s e he => ?_) (by decide +kernel) (by decide +kernel) (by simp [restInstant]),
    fair_script _, ?_⟩
  · cases e <;> simp_all [JEvent.isAxi, readRule]
  · rw [JtagRun.log_eq]
    decide +kernel

end RiscvSoc.Jtag
