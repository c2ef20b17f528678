import RiscvSoc.Crossbar.ReadRun
/-!
# What the crossbar offers

Responses to the masters and beats to the slaves: once VALID, a channel stays as it
is, at the same port, until the handshake.
-/

namespace RiscvSoc.Crossbar

open Sync

section Offers

variable (r : Run AxiLiteXbar.step) (n : ℕ)

def offerB (m : Master) : Option Resp :=
  offered ((r.st n).rsp (r.inp n) m).bvalid ((r.st n).rsp (r.inp n) m).bresp

def offerR (m : Master) : Option (Word32 × Resp) :=
  offered ((r.st n).rsp (r.inp n) m).rvalid (((r.st n).rsp (r.inp n) m).rdata, ((r.st n).rsp (r.inp n) m).rresp)

def offerAw (p : Slave) : Option Word32 := offered ((r.st n).req p).awvalid ((r.st n).req p).awaddr

def offerW (p : Slave) : Option (Word32 × BitVec 4) :=
  offered ((r.st n).req p).wvalid (((r.st n).req p).wdata, ((r.st n).req p).wstrb)

def offerAr (p : Slave) : Option Word32 := offered ((r.st n).req p).arvalid ((r.st n).req p).araddr

end Offers

/-! ## One edge -/

section Edge

variable {s : AxiLiteXbar} {i : XbarIn}

/-- A response that is not taken stays in `W_RESP`. -/
theorem bresp_stays (hs : s.w.wState = .resp) (hv : s.w.sBvalid = true) (hr : s.w.curBready i = false) :
    (s.step true i).w.sBvalid = true ∧ (s.step true i).w.sBresp = s.w.sBresp := by
  simp [AxiLiteXbar.step, WritePath.step, hs, WritePath.respStep, hv, hr]

theorem rresp_stays (hs : s.r.rState = .resp) (hv : s.r.sRvalid = true) (hr : s.r.curRready i = false) :
    (s.step true i).r.sRvalid = true ∧ (s.step true i).r.sRdata = s.r.sRdata ∧
      (s.step true i).r.sRresp = s.r.sRresp := by
  simp [AxiLiteXbar.step, ReadPath.step, hs, ReadPath.respStep, hv, hr]

/-- An address that the slave does not take stays issued. -/
theorem aw_stays {p : Slave} (hs : s.w.wState = .issue) (hp : s.w.wSel = .dev p) (hi : s.w.wIssuedAw = false)
    (hr : (i.down p).awready = false) : (s.step true i).w.wState = .issue ∧ (s.step true i).w.wIssuedAw = false := by
  obtain ⟨hst, ⟨hia, -⟩, -⟩ := WritePath.issue_next i hs (by simp [WritePath.noSlave, hp])
  simp only [WritePath.slaveAwready, hp, hi, hr, Bool.or_self, Bool.false_and] at hst hia
  exact ⟨hst, hia⟩

theorem w_stays {p : Slave} (hs : s.w.wState = .issue) (hp : s.w.wSel = .dev p) (hi : s.w.wIssuedW = false)
    (hr : (i.down p).wready = false) : (s.step true i).w.wState = .issue ∧ (s.step true i).w.wIssuedW = false := by
  obtain ⟨hst, ⟨-, hiw⟩, -⟩ := WritePath.issue_next i hs (by simp [WritePath.noSlave, hp])
  simp only [WritePath.slaveWready, hp, hi, hr, Bool.or_self, Bool.and_false] at hst hiw
  exact ⟨hst, hiw⟩

theorem ar_stays {p : Slave} (hs : s.r.rState = .issue) (hp : s.r.rSel = .dev p) (hi : s.r.rIssuedAr = false)
    (hr : (i.down p).arready = false) : (s.step true i).r.rState = .issue ∧ (s.step true i).r.rIssuedAr = false := by
  obtain ⟨hst, his, -⟩ := rIssue_next i hs (by simp [ReadPath.noSlave, hp])
  simp only [ReadPath.slaveArready, hp, hi, hr, Bool.or_self] at hst his
  exact ⟨hst, his⟩

end Edge

/-! ## Runs -/

section Runs

variable (r : Run AxiLiteXbar.step)

/-- `s_bvalid` is up in `W_RESP` only. -/
theorem bvalid_resp {n : ℕ} (hv : (r.st n).w.sBvalid = true) : (r.st n).w.wState = .resp := by
  obtain ⟨cur, -, hp⟩ := wLog_phase r n
  cases hp with
  | closed _ _ _ hb | gotAw _ _ _ hb | gotW _ _ _ hb | issueSlave _ hb | issueNone _ hb | wait _ hb =>
    rw [hb] at hv
    cases hv
  | resp h => exact h

theorem rvalid_resp {n : ℕ} (hv : (r.st n).r.sRvalid = true) : (r.st n).r.rState = .resp := by
  obtain ⟨⟨cur, -, hp⟩, -⟩ := rLog_phase r n
  cases hp with
  | closed _ hb | issue _ hb | issueSlave _ hb | wait _ hb =>
    rw [hb] at hv
    cases hv
  | resp h => exact h

theorem held_b (m : Master) : Held (offerB r · m) fun n => ((r.inp n).up m).bready := by
  refine Held.of_valid fun n hv hr => ?_
  simp only [AxiLiteXbar.rsp, Bool.and_eq_true, decide_eq_true_eq] at hv
  obtain ⟨hm, hv⟩ := hv
  have hs := bvalid_resp r hv
  obtain ⟨hv', hresp⟩ := bresp_stays hs hv (i := r.inp n) (by rw [WritePath.curBready, hm, hr])
  obtain ⟨-, -, hg, -⟩ := WritePath.latch_next (r.inp n) (s := (r.st n).w) (by simp [hs])
  refine ⟨?_, hresp⟩
  have hg' : granted (r.st (n + 1)).w.wGrant = m := (congrArg granted hg).trans hm
  rw [Run.st_succ] at hg' ⊢
  simp [AxiLiteXbar.rsp, hg', hv']

theorem held_r (m : Master) : Held (offerR r · m) fun n => ((r.inp n).up m).rready := by
  refine Held.of_valid fun n hv hr => ?_
  simp only [AxiLiteXbar.rsp, Bool.and_eq_true, decide_eq_true_eq] at hv
  obtain ⟨hm, hv⟩ := hv
  have hs := rvalid_resp r hv
  obtain ⟨hv', hdata, hresp⟩ := rresp_stays hs hv (i := r.inp n) (by rw [ReadPath.curRready, hm, hr])
  obtain ⟨-, hg⟩ := rLatch_next (r.inp n) (s := r.st n) (by simp [hs])
  refine ⟨?_, Prod.ext hdata hresp⟩
  have hg' : granted (r.st (n + 1)).r.rGrant = m := (congrArg granted hg).trans hm
  rw [Run.st_succ] at hg' ⊢
  simp [AxiLiteXbar.rsp, hg', hv']

theorem held_aw (p : Slave) : Held (offerAw r · p) fun n => ((r.inp n).down p).awready := by
  refine Held.of_valid fun n hv hr => ?_
  simp only [AxiLiteXbar.req, Bool.and_eq_true, decide_eq_true_eq, Bool.not_eq_true'] at hv
  obtain ⟨⟨hs, hp⟩, hi⟩ := hv
  obtain ⟨hs', hi'⟩ := aw_stays hs hp hi hr
  obtain ⟨⟨haddr, hsel⟩, -⟩ := WritePath.latch_next (r.inp n) (s := (r.st n).w) (by simp [hs])
  refine ⟨?_, haddr⟩
  have hp' : (r.st (n + 1)).w.wSel = .dev p := hsel.trans hp
  rw [Run.st_succ] at hp' ⊢
  simp [AxiLiteXbar.req, hs', hp', hi']

theorem held_w (p : Slave) : Held (offerW r · p) fun n => ((r.inp n).down p).wready := by
  refine Held.of_valid fun n hv hr => ?_
  simp only [AxiLiteXbar.req, Bool.and_eq_true, decide_eq_true_eq, Bool.not_eq_true'] at hv
  obtain ⟨⟨hs, hp⟩, hi⟩ := hv
  obtain ⟨hs', hi'⟩ := w_stays hs hp hi hr
  obtain ⟨⟨-, hsel⟩, ⟨hdata, hstrb⟩, -⟩ := WritePath.latch_next (r.inp n) (s := (r.st n).w) (by simp [hs])
  refine ⟨?_, Prod.ext hdata hstrb⟩
  have hp' : (r.st (n + 1)).w.wSel = .dev p := hsel.trans hp
  rw [Run.st_succ] at hp' ⊢
  simp [AxiLiteXbar.req, hs', hp', hi']

theorem held_ar (p : Slave) : Held (offerAr r · p) fun n => ((r.inp n).down p).arready := by
  refine Held.of_valid fun n hv hr => ?_
  simp only [AxiLiteXbar.req, Bool.and_eq_true, decide_eq_true_eq, Bool.not_eq_true'] at hv
  obtain ⟨⟨hs, hp⟩, hi⟩ := hv
  obtain ⟨hs', hi'⟩ := ar_stays hs hp hi hr
  obtain ⟨⟨haddr, hsel⟩, -⟩ := rLatch_next (r.inp n) (s := r.st n) (by simp [hs])
  refine ⟨?_, haddr⟩
  have hp' : (r.st (n + 1)).r.rSel = .dev p := hsel.trans hp
  rw [Run.st_succ] at hp' ⊢
  simp [AxiLiteXbar.req, hs', hp', hi']

end Runs

/-- Every response to a master and every beat to a slave is held, at its port and with
its payload, until it is taken; whatever the masters and the slaves do. -/
theorem xbar_holds_offers (r : Run AxiLiteXbar.step) :
    (∀ m, Held (offerB r · m) (fun n => ((r.inp n).up m).bready) ∧
      Held (offerR r · m) fun n => ((r.inp n).up m).rready) ∧
      ∀ p, Held (offerAw r · p) (fun n => ((r.inp n).down p).awready) ∧
        Held (offerW r · p) (fun n => ((r.inp n).down p).wready) ∧
        Held (offerAr r · p) fun n => ((r.inp n).down p).arready :=
  ⟨fun m => ⟨held_b r m, held_r r m⟩, fun p => ⟨held_aw r p, held_w r p, held_ar r p⟩⟩

end RiscvSoc.Crossbar
