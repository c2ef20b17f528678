import RiscvSoc.Crossbar.Read
/-!
# Runs of the read path

The two diagnostic words are the last undecoded addresses of the two logs. With
them the read log of a run is whole transactions and one open part, which becomes
whole where slaves and masters answer in the end.
-/

namespace RiscvSoc.Crossbar

open Sync

/-! ## The diagnostic words -/

/-- `last`, or the address of `e` if that is a write address that decodes to nothing. -/
def noteAw (last : Word32) : ℕ × WEvent → Word32
  | (_, .aw _ a) => if decodeAddr a = .err then a else last
  | _ => last

def noteAr (last : Word32) : ℕ × REvent → Word32
  | (_, .ar _ a) => if decodeAddr a = .err then a else last
  | _ => last

def lastErrAw (l : List (ℕ × WEvent)) : Word32 := l.foldl noteAw 0

def lastErrAr (l : List (ℕ × REvent)) : Word32 := l.foldl noteAr 0

/-- What the diagnostic CSR reads in cycle `n`: bit 2 of the address picks the channel. -/
def diagValue (r : Run AxiLiteXbar.step) (n : ℕ) (a : Word32) : Word32 :=
  if a.getLsbD 2 then lastErrAr (r.log rEvents n) else lastErrAw (r.log wEvents n)

section Diagnostic

variable {s : AxiLiteXbar} (i : XbarIn) (n : ℕ)

/-- Outside `W_IDLE` there is no write address, and the diagnostic word keeps. -/
theorem lastDecerrWaddr_step {cur : List (ℕ × WEvent)} (h : s.w.Phase cur) :
    (s.step true i).w.lastDecerrWaddr = ((wEvents s i).map (n, ·)).foldl noteAw s.w.lastDecerrWaddr := by
  cases h with
  | closed h _ _ hb | gotAw h _ _ hb | gotW h _ _ hb =>
    rw [wEvents_idle h hb]
    simp only [AxiLiteXbar.step, WritePath.step, h, WritePath.idleStep]
    cases s.w.awFire i <;> cases s.w.wFire i <;> cases s.w.awReadyC i && s.w.wReadyC i <;> simp [noteAw]
  | issueSlave h hb _ hp =>
    rw [wEvents_issue h hb hp]
    simp only [AxiLiteXbar.step, WritePath.step, h, WritePath.issueStep]
    cases !s.w.wIssuedAw && s.w.slaveAwready i <;> cases !s.w.wIssuedW && s.w.slaveWready i <;>
      simp [noteAw, WritePath.noSlave, hp]
  | issueNone h hb _ hp =>
    rw [wEvents_issueNone h hb hp]
    simp [AxiLiteXbar.step, WritePath.step, h, WritePath.issueStep, hp]
  | wait h hb _ hp =>
    rw [wEvents_wait h hb hp]
    cases hv : s.w.slaveBvalid i <;> simp [AxiLiteXbar.step, WritePath.step, h, WritePath.waitStep, hv, noteAw]
  | resp h =>
    rw [wEvents_resp h]
    cases hf : s.w.sBvalid && s.w.curBready i <;>
      simp [AxiLiteXbar.step, WritePath.step, h, WritePath.respStep, hf, noteAw]

theorem lastDecerrRaddr_step {diag : ℕ → Word32 → Word32} {cur : List (ℕ × REvent)} (h : RPhase diag s n cur) :
    (s.step true i).r.lastDecerrRaddr = ((rEvents s i).map (n, ·)).foldl noteAr s.r.lastDecerrRaddr := by
  cases h with
  | closed h hv =>
    rw [rEvents_idle h hv]
    cases ha : (s.r.cur i).arvalid <;>
      simp [AxiLiteXbar.step, ReadPath.step, h, ReadPath.idleStep, ha, noteAr]
  | issue h hv _ _ _ hp =>
    rw [rEvents_issueNone h hv hp]
    simp [AxiLiteXbar.step, ReadPath.step, h, ReadPath.issueStep, hp]
  | issueSlave h hv _ _ _ hp =>
    rw [rEvents_issue h hv hp]
    cases !s.r.rIssuedAr && s.r.slaveArready i <;>
      simp [AxiLiteXbar.step, ReadPath.step, h, ReadPath.issueStep, ReadPath.noSlave, hp, noteAr]
  | wait h hv _ hp =>
    rw [rEvents_wait h hv hp]
    cases hr : s.r.slaveRvalid i <;> simp [AxiLiteXbar.step, ReadPath.step, h, ReadPath.waitStep, hr, noteAr]
  | resp h =>
    rw [rEvents_resp h]
    simp only [AxiLiteXbar.step, ReadPath.step, h, ReadPath.respStep]
    cases s.r.sRvalid && s.r.curRready i <;> simp [noteAr] <;> grind

end Diagnostic

/-! ## Runs -/

section Safety

variable (r : Run AxiLiteXbar.step)

theorem lastDecerrWaddr_eq (n : ℕ) : (r.st n).w.lastDecerrWaddr = lastErrAw (r.log wEvents n) := by
  induction n with
  | zero => rfl
  | succ n ih =>
    obtain ⟨cur, -, hp⟩ := wLog_phase r n
    rw [Run.st_succ, lastDecerrWaddr_step (r.inp n) n hp, ih, Run.log_succ, lastErrAw, lastErrAw, List.foldl_append]
    rfl

theorem rphase_reset (diag : ℕ → Word32 → Word32) (s : AxiLiteXbar) (i : XbarIn) : RPhase diag (s.step false i) 0 [] :=
  .closed rfl rfl

/-- The read log is whole transactions and the open part the registers stand for;
with it goes the diagnostic word of the read channel. -/
theorem rLog_phase (n : ℕ) :
    (∃ cur, Parses (ReadTxn (diagValue r)) (r.log rEvents n) cur ∧ RPhase (diagValue r) (r.st n) n cur) ∧
      (r.st n).r.lastDecerrRaddr = lastErrAr (r.log rEvents n) := by
  induction n with
  | zero => exact ⟨⟨[], .nil, rphase_reset _ _ _⟩, rfl⟩
  | succ n ih =>
    obtain ⟨⟨cur, hl, hp⟩, hlast⟩ := ih
    have hlast' : (r.st (n + 1)).r.lastDecerrRaddr = lastErrAr (r.log rEvents (n + 1)) := by
      rw [Run.st_succ, lastDecerrRaddr_step (r.inp n) n hp, hlast, Run.log_succ, lastErrAr, lastErrAr, List.foldl_append]
      rfl
    have hdiag (a : Word32) : diagValue r (n + 1) a = (r.st (n + 1)).r.diagCsr (r.st (n + 1)).w.lastDecerrWaddr a := by
      rw [lastDecerrWaddr_eq, ReadPath.diagCsr, hlast', diagValue]
    refine ⟨?_, hlast'⟩
    rw [Run.log_succ]
    rcases hp.step (r.inp n) n hdiag with h | ⟨ht, h⟩
    · exact ⟨_, hl.append _, h⟩
    · exact ⟨[], (hl.append _).close ht, h⟩

end Safety

section Open

variable {diag : ℕ → Word32 → Word32} {s : AxiLiteXbar} {n : ℕ} {cur : List (ℕ × REvent)}

/-- Read data are on offer only at the end of a transaction of the granted master. -/
theorem RPhase.rvalid (h : RPhase diag s n cur) (hv : s.r.sRvalid = true) (t : ℕ) :
    ReadTxn diag (cur ++ [(t, .r (granted s.r.rGrant) s.r.sRdata s.r.sRresp)]) := by
  cases h with
  | closed _ h | issue _ h | issueSlave _ h | wait _ h => simp [h] at hv
  | resp _ txn => simpa [AxiLiteXbar.finalR, hv] using txn t

/-- The open part can always become a whole transaction. -/
theorem RPhase.exists_txn (h : RPhase diag s n cur) : ∃ rest, ReadTxn diag (cur ++ rest) := by
  cases h with
  | closed => exact ⟨[_, _], .err (a := 0xffffffff) .s0 (by decide) 0 0⟩
  | issue _ _ _ sel _ hp =>
    simp only [ReadPath.noSlave, Bool.or_eq_true, decide_eq_true_eq] at hp
    rcases hp with hp | hp
    · exact ⟨[_], .err _ (sel.symm.trans hp) _ 0⟩
    · exact ⟨[_], .csr _ (sel.symm.trans hp) _ 0⟩
  | issueSlave _ _ _ sel t hp => exact ⟨[_, _, _], .slave _ (sel.symm.trans hp) t 0 0 0 0 axiRespOkay⟩
  | wait _ _ sel hp t t' => exact ⟨[_, _], .slave _ (sel.symm.trans hp) t t' 0 0 0 axiRespOkay⟩
  | resp _ txn => exact ⟨[_], txn 0⟩

end Open

/-! ## Progress -/

def isSlaveAr (p : Slave) : ℕ × REvent → Bool
  | (_, .slaveAr q _) => p = q
  | _ => false

def isSlaveR (p : Slave) : ℕ × REvent → Bool
  | (_, .slaveR q _ _) => p = q
  | _ => false

/-- Slave `p` has taken an address that it has not answered. -/
def OwesR (p : Slave) (l : List (ℕ × REvent)) : Prop := l.countP (isSlaveR p) < l.countP (isSlaveAr p)

/-- Slaves take what they are offered and answer what they owe, and masters take
read data, each at some time. -/
structure RFair (r : Run AxiLiteXbar.step) : Prop where
  ar (n : ℕ) (p : Slave) (h : ((r.st n).req p).arvalid = true) : ∃ k, n ≤ k ∧ ((r.inp k).down p).arready = true
  slaveR (n : ℕ) (p : Slave) (h : OwesR p (r.log rEvents n)) : ∃ k, n ≤ k ∧ ((r.inp k).down p).rvalid = true
  r (n : ℕ) (m : Master) (h : ((r.st n).rsp (r.inp n) m).rvalid = true) : ∃ k, n ≤ k ∧ ((r.inp k).up m).rready = true

theorem ReadTxn.balanced {diag : ℕ → Word32 → Word32} {l : List (ℕ × REvent)} (h : ReadTxn diag l) (q : Slave) :
    l.countP (isSlaveAr q) = l.countP (isSlaveR q) := by
  cases h <;> simp [isSlaveAr, isSlaveR, List.countP_cons]

theorem owesR_of_parses {diag : ℕ → Word32 → Word32} {p : Slave} {l cur : List (ℕ × REvent)}
    (h : Parses (ReadTxn diag) l cur) (hc : OwesR p cur) : OwesR p l := by
  obtain ⟨done, rfl, hd⟩ := h
  have hbal : done.flatten.countP (isSlaveAr p) = done.flatten.countP (isSlaveR p) := by
    induction done with
    | nil => simp
    | cons t ts ih =>
      have hrest := ih fun t' ht' => hd t' (List.mem_cons_of_mem _ ht')
      have ht := (hd t List.mem_cons_self).balanced p
      simp [List.countP_append, hrest, ht]
  simp only [OwesR, List.countP_append] at hc ⊢
  omega

section Progress

variable {r : Run AxiLiteXbar.step} {a : ℕ} {cur : List (ℕ × REvent)}

/-- Since cycle `a` the open part `cur` has grown, is still open, and the registers satisfy `P`. -/
def RGrown (r : Run AxiLiteXbar.step) (a : ℕ) (cur : List (ℕ × REvent)) (P : ReadPath → Prop) (k : ℕ) : Prop :=
  ∃ rest, r.log rEvents k = r.log rEvents a ++ rest ∧ RPhase (diagValue r) (r.st k) k (cur ++ rest) ∧ P (r.st k).r

/-- Since cycle `a` the open part `cur` has become whole. -/
def RFinished (r : Run AxiLiteXbar.step) (a : ℕ) (cur : List (ℕ × REvent)) (k : ℕ) : Prop :=
  ∃ rest, r.log rEvents k = r.log rEvents a ++ rest ∧ ReadTxn (diagValue r) (cur ++ rest)

theorem diagValue_eq (n : ℕ) (x : Word32) :
    diagValue r n x = (r.st n).r.diagCsr (r.st n).w.lastDecerrWaddr x := by
  rw [lastDecerrWaddr_eq, ReadPath.diagCsr, (rLog_phase r n).2, diagValue]

theorem RGrown.edge {P Q : ReadPath → Prop} {k : ℕ} (h : RGrown r a cur P k)
    (hq : P (r.st k).r → Q (r.st (k + 1)).r) : RGrown r a cur Q (k + 1) ∨ RFinished r a cur (k + 1) := by
  obtain ⟨rest, hl, hp, hP⟩ := h
  have hlog : r.log rEvents (k + 1) = r.log rEvents a ++ (rest ++ r.eventsAt rEvents k) := by
    rw [Run.log_succ, hl, List.append_assoc]
  rcases hp.step (r.inp k) k (diagValue_eq (k + 1)) with hn | ⟨ht, -⟩
  · exact .inl ⟨_, hlog, by rw [← List.append_assoc]; exact hn, hq hP⟩
  · exact .inr ⟨_, hlog, by rw [← List.append_assoc]; exact ht⟩

variable (hf : RFair r)
include hf

theorem rresp_finishes {n : ℕ} (h : RGrown r a cur (fun s => s.rState = .resp ∧ s.sRvalid = true) n) :
    ∃ k, RFinished r a cur k := by
  obtain ⟨rest, hl, hp, hs, hv⟩ := h
  generalize hm : granted (r.st n).r.rGrant = m
  have hP : RGrown r a cur (fun s => s.rState = .resp ∧ s.sRvalid = true ∧ granted s.rGrant = m) n :=
    ⟨rest, hl, hp, hs, hv, hm⟩
  have hE := hf.r n m (by simp [AxiLiteXbar.rsp, hm, hv])
  suffices hedge : _ by
    obtain ⟨k, -, hk⟩ := leadsTo_of_event (Q := RFinished r a cur) hP hE hedge
    exact ⟨k, hk⟩
  intro k hk
  have hk' := hk
  obtain ⟨rest, hl, hp, hs, hv, hm⟩ := hk'
  cases hr : ((r.inp k).up m).rready with
  | true =>
    right
    refine ⟨rest ++ r.eventsAt rEvents k, by rw [Run.log_succ, hl, List.append_assoc], ?_⟩
    rw [Run.eventsAt, rEvents_resp hs, ← List.append_assoc]
    simpa [ReadPath.curRready, hv, hm, hr] using hp.rvalid hv k
  | false =>
    have hnf : (r.st k).r.curRready (r.inp k) = false := by rw [ReadPath.curRready, hm, hr]
    refine (hk.edge fun _ => ?_).imp (fun h => ⟨h, by simp⟩) id
    obtain ⟨hst, -⟩ := rResp_held (r.inp k) hs (by rw [hnf, Bool.and_false])
    obtain ⟨-, hg⟩ := rLatch_next (r.inp k) (s := r.st k) (by simp [hs])
    rw [r.st_succ]
    exact ⟨hst.1, hst.2, by rw [hg, hm]⟩

/-- `R_RESP` presents the data from its second cycle on. -/
theorem rresp_finishes' {n : ℕ} (h : RGrown r a cur (fun s => s.rState = .resp) n) : ∃ k, RFinished r a cur k := by
  cases hv : (r.st n).r.sRvalid with
  | true =>
    obtain ⟨rest, hl, hp, hs⟩ := h
    exact rresp_finishes hf ⟨rest, hl, hp, hs, hv⟩
  | false =>
    refine (h.edge (Q := fun s => s.rState = .resp ∧ s.sRvalid = true) fun hs => ?_).elim
      (rresp_finishes hf) fun h => ⟨_, h⟩
    exact (rResp_held (r.inp n) hs (by rw [hv, Bool.false_and])).1

theorem rwait_finishes (hl : Parses (ReadTxn (diagValue r)) (r.log rEvents a) cur) {n : ℕ} {p : Slave}
    (h : RGrown r a cur (fun s => s.rState = .wait ∧ s.rSel = .dev p) n) : ∃ k, RFinished r a cur k := by
  have hE : ∃ k, n ≤ k ∧ ((r.inp k).down p).rvalid = true := by
    obtain ⟨rest, hg, hp, hs, hsel⟩ := h
    have hpar := hl.append rest
    rw [← hg] at hpar
    refine hf.slaveR n p (owesR_of_parses hpar ?_)
    generalize cur ++ rest = l at hp
    cases hp with
    | wait _ _ _ hp' =>
      obtain rfl : p = _ := by simpa using hsel.symm.trans hp'
      simp [OwesR, isSlaveAr, isSlaveR]
    | closed h | issue h | issueSlave h | resp h => simp [h] at hs
  suffices hedge : _ by
    obtain ⟨k, -, hk⟩ := leadsTo_of_event
      (Q := fun k => RGrown r a cur (fun s => s.rState = .resp) k ∨ RFinished r a cur k) h hE hedge
    exact hk.elim (rresp_finishes' hf) fun h => ⟨k, h⟩
  intro k hk
  have hk' := hk
  obtain ⟨_, _, _, hs, hsel⟩ := hk'
  obtain ⟨⟨-, hsel'⟩, -⟩ := rLatch_next (r.inp k) (s := r.st k) (by simp [hs])
  obtain ⟨hst, -⟩ := rWait_next (r.inp k) hs
  simp only [ReadPath.slaveRvalid, hsel] at hst
  cases hv : ((r.inp k).down p).rvalid with
  | true =>
    rw [hv] at hst
    exact .inr (hk.edge fun _ => hst)
  | false =>
    rw [hv] at hst
    refine (hk.edge (Q := fun s => s.rState = .wait ∧ s.rSel = .dev p) fun _ => ?_).imp (fun h => ⟨h, by simp⟩) .inr
    exact ⟨hst, hsel'.trans hsel⟩

theorem rissue_finishes (hl : Parses (ReadTxn (diagValue r)) (r.log rEvents a) cur) {n : ℕ} {p : Slave}
    (h : RGrown r a cur (fun s => s.rState = .issue ∧ s.rSel = .dev p ∧ s.rIssuedAr = false) n) :
    ∃ k, RFinished r a cur k := by
  have hE : ∃ k, n ≤ k ∧ ((r.inp k).down p).arready = true := by
    obtain ⟨-, -, -, hs, hsel, hi⟩ := h
    exact hf.ar n p (by simp [AxiLiteXbar.req, hs, hsel, hi])
  suffices hedge : _ by
    obtain ⟨k, -, hk⟩ := leadsTo_of_event
      (Q := fun k => RGrown r a cur (fun s => s.rState = .wait ∧ s.rSel = .dev p) k ∨ RFinished r a cur k) h hE hedge
    exact hk.elim (rwait_finishes hf hl) fun h => ⟨k, h⟩
  intro k hk
  have hk' := hk
  obtain ⟨_, _, _, hs, hsel, hi⟩ := hk'
  obtain ⟨⟨-, hsel'⟩, -⟩ := rLatch_next (r.inp k) (s := r.st k) (by simp [hs])
  obtain ⟨hst, his, -⟩ := rIssue_next (r.inp k) hs (by simp [ReadPath.noSlave, hsel])
  simp only [ReadPath.slaveArready, hsel, hi, Bool.false_or] at hst his
  cases hv : ((r.inp k).down p).arready with
  | true =>
    rw [hv] at hst
    exact .inr (hk.edge fun _ => ⟨hst, hsel'.trans hsel⟩)
  | false =>
    rw [hv] at hst
    refine (hk.edge (Q := fun s => s.rState = .issue ∧ s.rSel = .dev p ∧ s.rIssuedAr = false) fun _ => ?_).imp
      (fun h => ⟨h, by simp⟩) .inr
    exact ⟨hst, hsel'.trans hsel, his.trans hv⟩

/-- With the address in, a fair run finishes the transaction. -/
theorem read_finishes (hl : Parses (ReadTxn (diagValue r)) (r.log rEvents a) cur)
    (hp : RPhase (diagValue r) (r.st a) a cur) (hc : cur ≠ []) : ∃ k, RFinished r a cur k := by
  have grown {P : ReadPath → Prop} (h : P (r.st a).r) : RGrown r a cur P a :=
    ⟨[], by simp, by simpa using hp, h⟩
  cases hp with
  | closed => exact absurd rfl hc
  | issue h _ _ _ _ hno =>
    refine ((grown (P := fun s => s.rState = .issue ∧ s.noSlave = true) ⟨h, hno⟩).edge
      (Q := fun s => s.rState = .resp) fun _ => ?_).elim (rresp_finishes' hf) fun h => ⟨_, h⟩
    exact (rIssueNone_next (r.inp a) h hno).1
  | issueSlave h _ hi _ _ hsel => exact rissue_finishes hf hl (grown ⟨h, hsel, hi⟩)
  | wait h _ _ hsel => exact rwait_finishes hf hl (grown ⟨h, hsel⟩)
  | resp h => exact rresp_finishes' hf (grown h)

end Progress

/-- At any time of any run, the log of the read handshakes is whole transactions
and the first part `cur` of one more. Read data on offer end that one, so they go
to its master, and in a fair run they come once its address is in. -/
theorem xbar_read_transactions (r : Run AxiLiteXbar.step) (n : ℕ) :
    ∃ cur, Parses (ReadTxn (diagValue r)) (r.log rEvents n) cur ∧
      (∃ rest, ReadTxn (diagValue r) (cur ++ rest)) ∧
      (∀ m, ((r.st n).rsp (r.inp n) m).rvalid = true → ReadTxn (diagValue r)
        (cur ++ [(n, .r m ((r.st n).rsp (r.inp n) m).rdata ((r.st n).rsp (r.inp n) m).rresp)])) ∧
      (RFair r → cur ≠ [] →
        ∃ k rest, r.log rEvents k = r.log rEvents n ++ rest ∧ ReadTxn (diagValue r) (cur ++ rest)) := by
  obtain ⟨⟨cur, hl, hp⟩, -⟩ := rLog_phase r n
  refine ⟨cur, hl, hp.exists_txn, fun m hv => ?_, fun hf hc => read_finishes hf hl hp hc⟩
  simp only [AxiLiteXbar.rsp, Bool.and_eq_true, decide_eq_true_eq] at hv ⊢
  obtain ⟨rfl, hv⟩ := hv
  exact hp.rvalid hv n

theorem rFair_fairRun : RFair fairRun where
  ar n _ _ := ⟨n, le_rfl, rfl⟩
  slaveR n _ _ := ⟨n, le_rfl, rfl⟩
  r n m h := by
    cases m with
    | s0 => exact ⟨n, le_rfl, rfl⟩
    | s1 =>
      have hg (n : ℕ) : (fairRun.st n).r.rGrant = true := by
        induction n with
        | zero => rfl
        | succ n ih =>
          have harb : ReadPath.rArbS0 (fairRun.inp n) = true := rfl
          simp [Run.st_succ, AxiLiteXbar.step, ReadPath.step, ih, harb]
      simp [AxiLiteXbar.rsp, hg, granted] at h

/-- The first read of the fair run, whose address is in after one cycle, is finished. -/
theorem xbar_read_transactions_fairRun :
    ∃ k rest, fairRun.log rEvents k = fairRun.log rEvents 1 ++ rest ∧
      ReadTxn (diagValue fairRun) ([(0, .ar .s0 0x10000008)] ++ rest) := by
  obtain ⟨cur, ⟨done, hlog, hd⟩, -, -, hlive⟩ := xbar_read_transactions fairRun 1
  have hone : fairRun.log rEvents 1 = [(0, .ar .s0 0x10000008)] := by decide
  rw [hone] at hlog
  cases done with
  | cons t ts =>
    have ht : 2 ≤ t.length := by cases hd t List.mem_cons_self <;> simp
    have hlen := congrArg List.length hlog
    simp only [List.length_cons, List.length_nil, List.flatten_cons, List.length_append] at hlen
    omega
  | nil =>
    obtain rfl : [(0, REvent.ar .s0 0x10000008)] = cur := hlog
    exact hlive rFair_fairRun (by simp)

end RiscvSoc.Crossbar
