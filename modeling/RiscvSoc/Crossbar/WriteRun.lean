import RiscvSoc.Crossbar.Write
/-!
# Runs of the write path

The log of a run is whole write transactions and one open part. Where slaves and
masters answer in the end, an open part with both beats in becomes whole.
-/

namespace RiscvSoc.Crossbar

open Sync

/-! ## Runs -/

section Safety

variable (r : Run AxiLiteXbar.step)

theorem phase_reset (s : AxiLiteXbar) (i : XbarIn) : (s.step false i).w.Phase [] :=
  .closed rfl rfl rfl rfl

/-- The log of any run is whole transactions and the open part the registers stand for. -/
theorem wLog_phase (n : ℕ) : ∃ cur, Parses WriteTxn (r.log wEvents n) cur ∧ (r.st n).w.Phase cur := by
  induction n with
  | zero => exact ⟨[], .nil, phase_reset _ _⟩
  | succ n ih =>
    obtain ⟨cur, hl, hp⟩ := ih
    rw [Run.log_succ]
    rcases phase_step (r.inp n) n hp with h | ⟨ht, h⟩
    · exact ⟨_, hl.append _, h⟩
    · exact ⟨[], (hl.append _).close ht, h⟩

end Safety


/-! ## Fairness -/

def isSlaveAw (p : Slave) : ℕ × WEvent → Bool
  | (_, .slaveAw q _) => p = q
  | _ => false

def isSlaveW (p : Slave) : ℕ × WEvent → Bool
  | (_, .slaveW q _ _) => p = q
  | _ => false

def isSlaveB (p : Slave) : ℕ × WEvent → Bool
  | (_, .slaveB q _) => p = q
  | _ => false

/-- Slave `p` has taken both beats of a write that it has not answered. -/
def OwesB (p : Slave) (l : List (ℕ × WEvent)) : Prop :=
  l.countP (isSlaveB p) < l.countP (isSlaveAw p) ∧ l.countP (isSlaveB p) < l.countP (isSlaveW p)

/-- Slaves take what they are offered and answer what they owe, and masters take
responses, each at some time. -/
structure WFair (r : Run AxiLiteXbar.step) : Prop where
  aw (n : ℕ) (p : Slave) (h : ((r.st n).req p).awvalid = true) : ∃ k, n ≤ k ∧ ((r.inp k).down p).awready = true
  w (n : ℕ) (p : Slave) (h : ((r.st n).req p).wvalid = true) : ∃ k, n ≤ k ∧ ((r.inp k).down p).wready = true
  slaveB (n : ℕ) (p : Slave) (h : OwesB p (r.log wEvents n)) : ∃ k, n ≤ k ∧ ((r.inp k).down p).bvalid = true
  b (n : ℕ) (m : Master) (h : ((r.st n).rsp (r.inp n) m).bvalid = true) : ∃ k, n ≤ k ∧ ((r.inp k).up m).bready = true

/-! ## What slaves owe -/

section Owes

variable {m : Master} {a d : Word32} {sb : BitVec 4} {p : Slave} {l : List (ℕ × WEvent)}

theorem UpBeats.length (h : UpBeats m a d sb l) : l.length = 2 := by
  cases h <;> rfl

theorem UpBeats.counts (h : UpBeats m a d sb l) (q : Slave) :
    l.countP (isSlaveAw q) = 0 ∧ l.countP (isSlaveW q) = 0 ∧ l.countP (isSlaveB q) = 0 := by
  cases h <;> simp [isSlaveAw, isSlaveW, isSlaveB]

theorem DownBeats.counts (h : DownBeats p a d sb l) (q : Slave) :
    l.countP (isSlaveAw q) = (if q = p then 1 else 0) ∧ l.countP (isSlaveW q) = (if q = p then 1 else 0) ∧
      l.countP (isSlaveB q) = 0 := by
  cases h <;> simp [isSlaveAw, isSlaveW, isSlaveB, List.countP_cons]

/-- After a whole transaction no slave owes more than before it. -/
theorem WriteTxn.balanced (h : WriteTxn l) (q : Slave) :
    l.countP (isSlaveAw q) = l.countP (isSlaveB q) ∧ l.countP (isSlaveW q) = l.countP (isSlaveB q) := by
  cases h with
  | slave hup _ hdown =>
    obtain ⟨h1, h2, h3⟩ := hup.counts q
    obtain ⟨g1, g2, g3⟩ := hdown.counts q
    simp only [List.countP_append, h1, h2, h3, g1, g2, g3]
    simp [isSlaveAw, isSlaveW, isSlaveB, List.countP_cons]
  | err hup | csr hup =>
    obtain ⟨h1, h2, h3⟩ := hup.counts q
    simp [List.countP_append, h1, h2, h3, isSlaveAw, isSlaveW, isSlaveB]

theorem owesB_of_parses {cur : List (ℕ × WEvent)} (h : Parses WriteTxn l cur) (hc : OwesB p cur) : OwesB p l := by
  obtain ⟨done, rfl, hd⟩ := h
  have hbal : done.flatten.countP (isSlaveAw p) = done.flatten.countP (isSlaveB p) ∧
      done.flatten.countP (isSlaveW p) = done.flatten.countP (isSlaveB p) := by
    induction done with
    | nil => simp
    | cons t ts ih =>
      obtain ⟨i1, i2⟩ := ih fun t' ht' => hd t' (List.mem_cons_of_mem _ ht')
      obtain ⟨b1, b2⟩ := (hd t List.mem_cons_self).balanced p
      simp [List.countP_append, i1, i2, b1, b2]
  obtain ⟨h1, h2⟩ := hc
  constructor <;> rw [List.countP_append, List.countP_append] <;> omega

end Owes

/-! ## Progress -/

section Progress

variable {r : Run AxiLiteXbar.step} {a : ℕ} {cur : List (ℕ × WEvent)}

/-- Since cycle `a` the open part `cur` has grown, is still open, and the registers satisfy `P`. -/
def Grown (r : Run AxiLiteXbar.step) (a : ℕ) (cur : List (ℕ × WEvent)) (P : WritePath → Prop) (k : ℕ) : Prop :=
  ∃ rest, r.log wEvents k = r.log wEvents a ++ rest ∧ (r.st k).w.Phase (cur ++ rest) ∧ P (r.st k).w

/-- Since cycle `a` the open part `cur` has become whole. -/
def Finished (r : Run AxiLiteXbar.step) (a : ℕ) (cur : List (ℕ × WEvent)) (k : ℕ) : Prop :=
  ∃ rest, r.log wEvents k = r.log wEvents a ++ rest ∧ WriteTxn (cur ++ rest)

theorem Grown.edge {P Q : WritePath → Prop} {k : ℕ} (h : Grown r a cur P k)
    (hq : P (r.st k).w → Q ((r.st k).w.step (r.inp k) true)) :
    Grown r a cur Q (k + 1) ∨ Finished r a cur (k + 1) := by
  obtain ⟨rest, hl, hp, hP⟩ := h
  have hlog : r.log wEvents (k + 1) = r.log wEvents a ++ (rest ++ r.eventsAt wEvents k) := by
    rw [Run.log_succ, hl, List.append_assoc]
  rcases phase_step (r.inp k) k hp with hn | ⟨ht, -⟩
  · exact .inl ⟨_, hlog, by rw [← List.append_assoc]; exact hn, hq hP⟩
  · exact .inr ⟨_, hlog, by rw [← List.append_assoc]; exact ht⟩

variable (hf : WFair r)
include hf

theorem resp_finishes {n : ℕ} (h : Grown r a cur (fun s => s.wState = .resp ∧ s.sBvalid = true) n) :
    ∃ k, Finished r a cur k := by
  obtain ⟨rest, hl, hp, hs, hb⟩ := h
  generalize hm : granted (r.st n).w.wGrant = m
  have hP : Grown r a cur (fun s => s.wState = .resp ∧ s.sBvalid = true ∧ granted s.wGrant = m) n :=
    ⟨rest, hl, hp, hs, hb, hm⟩
  have hE := hf.b n m (by simp [AxiLiteXbar.rsp, hm, hb])
  suffices hedge : _ by
    obtain ⟨k, -, hk⟩ := leadsTo_of_event (Q := Finished r a cur) hP hE hedge
    exact ⟨k, hk⟩
  rintro k ⟨rest, hl, hp, hs, hb, hm⟩
  cases hr : ((r.inp k).up m).bready with
  | true =>
    right
    refine ⟨rest ++ r.eventsAt wEvents k, by rw [Run.log_succ, hl, List.append_assoc], ?_⟩
    rw [Run.eventsAt, wEvents_resp hs, ← List.append_assoc]
    simpa [WritePath.curBready, hb, hm, hr] using Phase_bvalid hp hb k
  | false =>
    have hnf : (r.st k).w.curBready (r.inp k) = false := by rw [WritePath.curBready, hm, hr]
    have hk : Grown r a cur (fun s => s.wState = .resp ∧ s.sBvalid = true ∧ granted s.wGrant = m) k :=
      ⟨rest, hl, hp, hs, hb, hm⟩
    refine (hk.edge fun _ => ?_).imp (fun h => ⟨h, by simp⟩) id
    obtain ⟨hst, -⟩ := WritePath.resp_held (r.inp k) hs (by rw [hnf, Bool.and_false])
    obtain ⟨-, -, hg, -⟩ := WritePath.latch_next (r.inp k) (s := (r.st k).w) (by simp [hs])
    exact ⟨hst.1, hst.2, by rw [hg, hm]⟩

/-- `W_RESP` presents the response from its second cycle on. -/
theorem resp_finishes' {n : ℕ} (h : Grown r a cur (fun s => s.wState = .resp) n) : ∃ k, Finished r a cur k := by
  cases hb : (r.st n).w.sBvalid with
  | true =>
    obtain ⟨rest, hl, hp, hs⟩ := h
    exact resp_finishes hf ⟨rest, hl, hp, hs, hb⟩
  | false =>
    refine (h.edge (Q := fun s => s.wState = .resp ∧ s.sBvalid = true) fun hs => ?_).elim
      (resp_finishes hf) fun h => ⟨_, h⟩
    exact (WritePath.resp_held (r.inp n) hs (by rw [hb, Bool.false_and])).1

theorem wait_finishes (hl : Parses WriteTxn (r.log wEvents a) cur) {n : ℕ} {p : Slave}
    (h : Grown r a cur (fun s => s.wState = .wait ∧ s.wSel = .dev p) n) : ∃ k, Finished r a cur k := by
  -- the slave owes a response: it has had one more AW and W than it has sent B
  have hE : ∃ k, n ≤ k ∧ ((r.inp k).down p).bvalid = true := by
    obtain ⟨rest, hg, hp, hs, hsel⟩ := h
    have hpar := hl.append rest
    rw [← hg] at hpar
    refine hf.slaveB n p (owesB_of_parses hpar ?_)
    generalize cur ++ rest = l at hp
    cases hp with
    | wait _ _ hlat hp' hd =>
      obtain rfl : p = _ := by simpa using hsel.symm.trans hp'
      obtain ⟨h1, h2, h3⟩ := hlat.beats.counts p
      obtain ⟨g1, g2, g3⟩ := hd.counts p
      constructor <;> simp [List.countP_append, *]
    | closed h | gotAw h | gotW h | issueSlave h | issueNone h | resp h => simp [h] at hs
  suffices hedge : _ by
    obtain ⟨k, -, hk⟩ := leadsTo_of_event
      (Q := fun k => Grown r a cur (fun s => s.wState = .resp) k ∨ Finished r a cur k) h hE hedge
    exact hk.elim (resp_finishes' hf) fun h => ⟨k, h⟩
  intro k hk
  have hk' := hk
  obtain ⟨_, _, _, hs, hsel⟩ := hk'
  obtain ⟨⟨-, hsel'⟩, -⟩ := WritePath.latch_next (r.inp k) (s := (r.st k).w) (by simp [hs])
  obtain ⟨hst, -⟩ := WritePath.wait_next (r.inp k) hs
  simp only [WritePath.slaveBvalid, hsel] at hst
  cases hv : ((r.inp k).down p).bvalid with
  | true => exact .inr (hk.edge fun _ => by simpa [hv] using hst)
  | false =>
    refine (hk.edge (Q := fun s => s.wState = .wait ∧ s.wSel = .dev p) fun _ => ?_).imp (fun h => ⟨h, by simp⟩) .inr
    exact ⟨by simpa [hv] using hst, hsel'.trans hsel⟩

theorem issuedAw_finishes (hl : Parses WriteTxn (r.log wEvents a) cur) {n : ℕ} {p : Slave}
    (h : Grown r a cur (fun s => s.wState = .issue ∧ s.wSel = .dev p ∧ s.wIssuedAw = true) n) :
    ∃ k, Finished r a cur k := by
  have hE : ∃ k, n ≤ k ∧ ((r.st k).w.wIssuedW = true ∨ ((r.inp k).down p).wready = true) := by
    obtain ⟨-, -, -, hs, hsel, -⟩ := h
    cases hw : (r.st n).w.wIssuedW with
    | true => exact ⟨n, le_rfl, .inl hw⟩
    | false =>
      obtain ⟨k, hk, hr⟩ := hf.w n p (by simp [AxiLiteXbar.req, hs, hsel, hw])
      exact ⟨k, hk, .inr hr⟩
  suffices hedge : _ by
    obtain ⟨k, -, hk⟩ := leadsTo_of_event
      (Q := fun k => Grown r a cur (fun s => s.wState = .wait ∧ s.wSel = .dev p) k ∨ Finished r a cur k) h hE hedge
    exact hk.elim (wait_finishes hf hl) fun h => ⟨k, h⟩
  -- AW has been taken, so W alone decides
  intro k hk
  have hk' := hk
  obtain ⟨_, _, _, hs, hsel, ha⟩ := hk'
  obtain ⟨⟨-, hsel'⟩, -⟩ := WritePath.latch_next (r.inp k) (s := (r.st k).w) (by simp [hs])
  obtain ⟨hst, ⟨hia, hiw⟩, -⟩ := WritePath.issue_next (r.inp k) hs (by simp [WritePath.noSlave, hsel])
  simp only [WritePath.slaveWready, hsel, ha, Bool.true_or, Bool.true_and] at hst hia hiw
  cases hv : (r.st k).w.wIssuedW || ((r.inp k).down p).wready with
  | true => exact .inr (hk.edge fun _ => ⟨by simpa [hv] using hst, hsel'.trans hsel⟩)
  | false =>
    refine (hk.edge fun _ => ⟨by simpa [hv] using hst, hsel'.trans hsel, hia⟩).imp (fun h => ⟨h, ?_⟩) .inr
    simpa using hv

theorem issue_finishes (hl : Parses WriteTxn (r.log wEvents a) cur) {n : ℕ} {p : Slave}
    (h : Grown r a cur (fun s => s.wState = .issue ∧ s.wSel = .dev p) n) : ∃ k, Finished r a cur k := by
  have hE : ∃ k, n ≤ k ∧ ((r.st k).w.wIssuedAw = true ∨ ((r.inp k).down p).awready = true) := by
    obtain ⟨-, -, -, hs, hsel⟩ := h
    cases ha : (r.st n).w.wIssuedAw with
    | true => exact ⟨n, le_rfl, .inl ha⟩
    | false =>
      obtain ⟨k, hk, hr⟩ := hf.aw n p (by simp [AxiLiteXbar.req, hs, hsel, ha])
      exact ⟨k, hk, .inr hr⟩
  suffices hedge : _ by
    obtain ⟨k, -, hk⟩ := leadsTo_of_event
      (Q := fun k => Grown r a cur (fun s => s.wSel = .dev p ∧
        ((s.wState = .issue ∧ s.wIssuedAw = true) ∨ s.wState = .wait)) k ∨ Finished r a cur k) h hE hedge
    -- W may have been taken before AW, or with it
    rcases hk with ⟨rest, hg, hp, hsel, ⟨hs, ha⟩ | hs⟩ | hk
    · exact issuedAw_finishes hf hl ⟨rest, hg, hp, hs, hsel, ha⟩
    · exact wait_finishes hf hl ⟨rest, hg, hp, hs, hsel⟩
    · exact ⟨k, hk⟩
  intro k hk
  have hk' := hk
  obtain ⟨_, _, _, hs, hsel⟩ := hk'
  obtain ⟨⟨-, hsel'⟩, -⟩ := WritePath.latch_next (r.inp k) (s := (r.st k).w) (by simp [hs])
  obtain ⟨hst, ⟨hia, hiw⟩, -⟩ := WritePath.issue_next (r.inp k) hs (by simp [WritePath.noSlave, hsel])
  simp only [WritePath.slaveAwready, WritePath.slaveWready, hsel] at hst hia hiw
  cases hv : (r.st k).w.wIssuedAw || ((r.inp k).down p).awready with
  | true =>
    rw [hv, Bool.true_and] at hst
    refine .inr (hk.edge fun _ => ⟨hsel'.trans hsel, ?_⟩)
    rw [hst, hia, hv]
    cases (r.st k).w.wIssuedW || ((r.inp k).down p).wready <;> simp
  | false =>
    refine (hk.edge fun _ => ⟨by simpa [hv] using hst, hsel'.trans hsel⟩).imp (fun h => ⟨h, ?_⟩) .inr
    simpa using hv

/-- With both beats in, a fair run finishes the transaction. -/
theorem write_finishes (hl : Parses WriteTxn (r.log wEvents a) cur) (hp : (r.st a).w.Phase cur)
    (hc : 2 ≤ cur.length) : ∃ k, Finished r a cur k := by
  have grown {P : WritePath → Prop} (h : P (r.st a).w) : Grown r a cur P a :=
    ⟨[], by simp, by simpa using hp, h⟩
  cases hp with
  | closed | gotAw | gotW => simp at hc
  | issueSlave h _ _ hsel => exact issue_finishes hf hl (grown ⟨h, hsel⟩)
  | issueNone h _ _ hno =>
    refine ((grown (P := fun s => s.wState = .issue ∧ s.noSlave = true) ⟨h, hno⟩).edge
      (Q := fun s => s.wState = .resp) fun _ => ?_).elim (resp_finishes' hf) fun h => ⟨_, h⟩
    exact (WritePath.issueNone_next (r.inp a) h hno).1
  | wait h _ _ hsel => exact wait_finishes hf hl (grown ⟨h, hsel⟩)
  | resp h => exact resp_finishes' hf (grown h)

end Progress

/-- At any time of any run, the log of the write handshakes is whole transactions
and the first part `cur` of one more. A response on offer ends that one, so it goes
to its master, and in a fair run it comes once both beats are in. -/
theorem xbar_write_transactions (r : Run AxiLiteXbar.step) (n : ℕ) :
    ∃ cur, Parses WriteTxn (r.log wEvents n) cur ∧ (∃ rest, WriteTxn (cur ++ rest)) ∧
      (∀ m, ((r.st n).rsp (r.inp n) m).bvalid = true →
        WriteTxn (cur ++ [(n, .b m ((r.st n).rsp (r.inp n) m).bresp)])) ∧
      (WFair r → (∃ m a d sb, UpBeats m a d sb (cur.take 2)) →
        ∃ k rest, r.log wEvents k = r.log wEvents n ++ rest ∧ WriteTxn (cur ++ rest)) := by
  obtain ⟨cur, hl, hp⟩ := wLog_phase r n
  refine ⟨cur, hl, Phase_exists_txn hp, fun m hb => ?_, fun hf hup => ?_⟩
  · simp only [AxiLiteXbar.rsp, Bool.and_eq_true, decide_eq_true_eq] at hb ⊢
    obtain ⟨rfl, hb⟩ := hb
    exact Phase_bvalid hp hb n
  · obtain ⟨m, x, d, sb, hup⟩ := hup
    refine write_finishes hf hl hp ?_
    have hlen := hup.length
    rw [List.length_take] at hlen
    omega

/-! ## A fair run -/

theorem WriteTxn.three_le {l : List (ℕ × WEvent)} (h : WriteTxn l) : 3 ≤ l.length := by
  cases h with
  | slave hup _ hdown =>
    simp [hup.length]
    omega
  | err hup | csr hup => simp [hup.length]

/-- The CPU writes to the SRAM and reads it, for ever, and every slave is always
ready and always answers. -/
def fairIn : XbarIn where
  up
    | .s0 => ⟨true, 0x10000008, true, 0x12345678, 0b0011, true, true, 0x10000008, true⟩
    | .s1 => ⟨false, 0, false, 0, 0, false, false, 0, false⟩
  down _ := ⟨true, true, true, axiRespOkay, true, true, 0x12345678, axiRespOkay⟩

def fairRun : Run AxiLiteXbar.step where
  powerUp :=
    { w := ⟨.wait, .err, 0, 0, 0, true, true, true, true, true, 0, false, 0, true⟩
      r := ⟨.wait, .err, 0, true, true, 0, 0, false, 0, true⟩ }
  resetInp := fairIn
  inp _ := fairIn

theorem wFair_fairRun : WFair fairRun where
  aw n _ _ := ⟨n, le_rfl, rfl⟩
  w n _ _ := ⟨n, le_rfl, rfl⟩
  slaveB n _ _ := ⟨n, le_rfl, rfl⟩
  b n m h := by
    cases m with
    | s0 => exact ⟨n, le_rfl, rfl⟩
    | s1 =>
      have hg (n : ℕ) : (fairRun.st n).w.wGrant = true := by
        induction n with
        | zero => rfl
        | succ n ih =>
          have harb : WritePath.wArbS0 (fairRun.inp n) = true := rfl
          simp [Run.st_succ, AxiLiteXbar.step, WritePath.step, ih, harb]
      simp [AxiLiteXbar.rsp, hg, granted] at h

/-- The first write of the fair run, whose beats are in after one cycle, is finished. -/
theorem xbar_write_transactions_fairRun :
    ∃ k rest, fairRun.log wEvents k = fairRun.log wEvents 1 ++ rest ∧
      WriteTxn ([(0, .aw .s0 0x10000008), (0, .w .s0 0x12345678 0b0011)] ++ rest) := by
  obtain ⟨cur, ⟨done, hlog, hd⟩, -, -, hlive⟩ := xbar_write_transactions fairRun 1
  have hone : fairRun.log wEvents 1 = [(0, .aw .s0 0x10000008), (0, .w .s0 0x12345678 0b0011)] := by decide
  rw [hone] at hlog
  cases done with
  | cons t ts =>
    have ht := (hd t List.mem_cons_self).three_le
    have hlen := congrArg List.length hlog
    simp only [List.length_cons, List.length_nil, List.flatten_cons, List.length_append] at hlen
    omega
  | nil =>
    obtain rfl : [(0, WEvent.aw .s0 0x10000008), (0, .w .s0 0x12345678 0b0011)] = cur := hlog
    exact hlive wFair_fairRun ⟨_, _, _, _, .awFirst 0 0⟩

end RiscvSoc.Crossbar
