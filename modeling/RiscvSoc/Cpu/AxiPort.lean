import RiscvSoc.Cpu.AxiAdapter
/-!
# The program on the bus

The adapter's registers tell which beats of a transaction have been taken. So the bus carries
one transaction for each request of the core, and the program's accesses are among them.
-/

namespace RiscvSoc.Cpu

open Sync

/-! ## The adapter -/

/-- The beats of a write that have been taken, by the two `ack` registers. -/
inductive WriteBeats (m : MemFsm) : Bool → Bool → List BusEvent → Prop
  | none : WriteBeats m false false []
  | aw : WriteBeats m true false [.aw m.memAddr]
  | w : WriteBeats m false true [.w m.memWdata m.memWstrb]
  | awFirst : WriteBeats m true true [.aw m.memAddr, .w m.memWdata m.memWstrb]
  | wFirst : WriteBeats m true true [.w m.memWdata m.memWstrb, .aw m.memAddr]

/-- `l` has taken place for the request that is on the bus. -/
inductive Port (m : MemFsm) (s : AxiAdapter) : List BusEvent → Prop
  | free (hv : m.memValid = false) : Port m s []
  -- the second word of an instruction: the registers still have the first
  | again (hv : m.memValid = true) (hx : s.xferDone = true) (hw : m.memWstrb = 0) (ha : s.ackArvalid = true) : Port m s []
  | asks (hv : m.memValid = true) (hx : s.xferDone = false) (hw : m.memWstrb = 0) (ha : s.ackArvalid = false) : Port m s []
  | awaits (hv : m.memValid = true) (hx : s.xferDone = false) (hw : m.memWstrb = 0) (ha : s.ackArvalid = true) : Port m s [.ar m.memAddr]
  | writes {l : List BusEvent} (hv : m.memValid = true) (hx : s.xferDone = false) (hw : m.memWstrb ≠ 0)
      (hl : WriteBeats m s.ackAwvalid s.ackWvalid l) : Port m s l

/-- A request stays until it is answered, and the next one comes later unless both are reads. -/
structure Follows (m m' : MemFsm) (ready : Bool) : Prop where
  stays : m.memValid = true → ready = false → m'.request = m.request
  again : m.memValid = true → ready = true → m'.memValid = true → m.memWstrb = 0 ∧ m'.memWstrb = 0

variable {m m' : MemFsm} {s : AxiAdapter} {i : LiteRsp} {cur : List BusEvent}

theorem MemFsm.request_eq (hv : m.memValid = true) (h : m'.request = m.request) :
    m'.memValid = true ∧ m'.memAddr = m.memAddr ∧ m'.memWstrb = m.memWstrb ∧ m'.memWdata = m.memWdata := by
  rw [show m.request = some (m.memAddr, m.memInstr, m.memWstrb, m.memWdata) by rw [MemFsm.request, hv]; rfl] at h
  obtain ⟨hv', heq⟩ := offered_eq_some.1 h
  simp only [Prod.mk.injEq] at heq
  exact ⟨hv', heq.1, heq.2.2.1, heq.2.2.2⟩

theorem AxiAdapter.req_read (hv : m.memValid = true) (hw : m.memWstrb = 0) :
    s.req m = ⟨false, m.memAddr, false, m.memWdata, m.memWstrb, false, !s.ackArvalid, m.memAddr, true⟩ := by
  simp only [AxiAdapter.req, hv, hw, ne_eq, not_true_eq_false, decide_false, decide_true, Bool.and_false, Bool.false_and, Bool.true_and]

theorem AxiAdapter.req_write (hv : m.memValid = true) (hw : m.memWstrb ≠ 0) :
    s.req m = ⟨!s.ackAwvalid, m.memAddr, !s.ackWvalid, m.memWdata, m.memWstrb, true, false, m.memAddr, false⟩ := by
  simp only [AxiAdapter.req, hv, hw, ne_eq, not_false_eq_true, decide_false, decide_true, Bool.and_false, Bool.false_and, Bool.true_and]

theorem AxiAdapter.memReady_of_none (hb : i.bvalid = false) (hr : i.rvalid = false) : AxiAdapter.memReady i = false := by
  rw [AxiAdapter.memReady, hb, hr]
  rfl

/-- A new request, if there is one. -/
theorem Port.start (hx : s.xferDone = false) (haw : s.ackAwvalid = false) (hw : s.ackWvalid = false) (har : s.ackArvalid = false) :
    Port m s [] := by
  cases hv : m.memValid with
  | false => exact .free hv
  | true =>
    by_cases h0 : m.memWstrb = 0
    · exact .asks hv hx h0 har
    · refine .writes hv hx h0 ?_
      rw [haw, hw]
      exact .none

theorem Obeys.no_read (ho : Obeys cur i) (h : cur.countP BusEvent.isAr = 0) : i.rvalid = false :=
  Bool.eq_false_iff.2 fun hv => by
    have howes := ho.1 hv
    rw [OwesR, h] at howes
    omega

theorem Obeys.no_write (ho : Obeys cur i) (h : cur.countP BusEvent.isAw = 0 ∨ cur.countP BusEvent.isW = 0) : i.bvalid = false :=
  Bool.eq_false_iff.2 fun hv => by
    obtain ⟨haw, hw⟩ := ho.2 hv
    rcases h with h | h
    · rw [h] at haw
      omega
    · rw [h] at hw
      omega

/-- An edge on which the request is not answered. -/
theorem WriteBeats.step {aw w : Bool} (h : WriteBeats m aw w cur) (awready wready : Bool) :
    WriteBeats m (if awready && !aw then true else aw) (if wready && !w then true else w)
      (cur ++ whenFire (!aw) awready (.aw m.memAddr) ++ whenFire (!w) wready (.w m.memWdata m.memWstrb)) := by
  cases h with
  | none =>
    cases awready <;> cases wready
    · exact .none
    · exact .w
    · exact .aw
    · exact .awFirst
  | aw =>
    cases wready
    · simpa [whenFire] using WriteBeats.aw
    · simpa [whenFire] using WriteBeats.awFirst
  | w =>
    cases awready
    · simpa [whenFire] using WriteBeats.w
    · simpa [whenFire] using WriteBeats.wFirst
  | awFirst => simpa [whenFire] using WriteBeats.awFirst
  | wFirst => simpa [whenFire] using WriteBeats.wFirst

/-- The request being the same. -/
theorem WriteBeats.congr {aw w : Bool} (h : WriteBeats m aw w cur) (ha : m'.memAddr = m.memAddr) (hd : m'.memWdata = m.memWdata)
    (hs : m'.memWstrb = m.memWstrb) : WriteBeats m' aw w cur := by
  cases h with
  | none => exact .none
  | aw =>
    rw [← ha]
    exact .aw
  | w =>
    rw [← hd, ← hs]
    exact .w
  | awFirst =>
    rw [← ha, ← hd, ← hs]
    exact .awFirst
  | wFirst =>
    rw [← ha, ← hd, ← hs]
    exact .wFirst

theorem WriteBeats.no_read {aw w : Bool} (h : WriteBeats m aw w cur) : cur.countP BusEvent.isAr = 0 := by
  cases h <;> rfl

theorem WriteBeats.taken {aw w : Bool} (h : WriteBeats m aw w cur) (ho : OwesB cur) : aw = true ∧ w = true := by
  cases h with
  | none => exact absurd ho.1 (by decide)
  | aw => exact absurd ho.2 (by simp [BusEvent.isW])
  | w => exact absurd ho.1 (by simp [BusEvent.isAw])
  | awFirst => exact ⟨rfl, rfl⟩
  | wFirst => exact ⟨rfl, rfl⟩

theorem busEvents_eq (q : LiteReq) (hb : i.bvalid = false) (hr : i.rvalid = false) : busEvents q i =
    whenFire q.awvalid i.awready (.aw q.awaddr) ++ whenFire q.wvalid i.wready (.w q.wdata q.wstrb) ++
      whenFire q.arvalid i.arready (.ar q.araddr) := by
  simp [busEvents, whenFire, hb, hr]

/-- What is on offer is for a request that is not answered yet. -/
theorem Port.offering (h : Port m s cur) (ho : Obeys cur i)
    (hoffer : (s.req m).awvalid = true ∨ (s.req m).wvalid = true ∨ (s.req m).arvalid = true) :
    m.memValid = true ∧ s.xferDone = false ∧ AxiAdapter.memReady i = false := by
  cases h with
  | free hv => simp [AxiAdapter.req, hv] at hoffer
  | again hv hx hw ha => simp [AxiAdapter.req_read hv hw, ha] at hoffer
  | asks hv hx hw ha => exact ⟨hv, hx, AxiAdapter.memReady_of_none (ho.no_write (.inl rfl)) (ho.no_read rfl)⟩
  | awaits hv hx hw ha => simp [AxiAdapter.req_read hv hw, ha] at hoffer
  | writes hv hx hw hl =>
    refine ⟨hv, hx, AxiAdapter.memReady_of_none (Bool.eq_false_iff.2 fun hb => ?_) (ho.no_read hl.no_read)⟩
    obtain ⟨haw, hww⟩ := hl.taken (ho.2 hb)
    simp [AxiAdapter.req_write hv hw, haw, hww] at hoffer

/-! ### An edge -/

/-- The transaction for the request is complete, and the bus is ready for the next one. -/
structure Closes (m m' : MemFsm) (s : AxiAdapter) (i : LiteRsp) (cur : List BusEvent) : Prop where
  valid : m.memValid = true
  ready : AxiAdapter.memReady i = true
  carries : Carries ⟨m.memInstr, m.memAddr, m.memWdata, m.memWstrb, i.rdata⟩ (cur ++ busEvents (s.req m) i)
  port : Port m' (s.step m i true) []

/-- It goes on. -/
structure GoesOn (m m' : MemFsm) (s : AxiAdapter) (i : LiteRsp) (cur : List BusEvent) : Prop where
  waits : (m.memValid && AxiAdapter.memReady i) = false
  port : Port m' (s.step m i true) (cur ++ busEvents (s.req m) i)

/-- No request, or the registers have not been cleared since the last one. -/
theorem Port.clears (ho : Obeys cur i) (hempty : cur = []) (hx : m.memValid = false ∨ s.xferDone = true)
    (hevents : busEvents (s.req m) i = []) : GoesOn m m' s i cur := by
  subst hempty
  have hready := AxiAdapter.memReady_of_none (ho.no_write (.inl rfl)) (ho.no_read rfl)
  refine ⟨by rw [hready, Bool.and_false], ?_⟩
  rw [hevents]
  have hclear : (s.xferDone || !m.memValid) = true := by
    rcases hx with hv | hx
    · rw [hv, Bool.not_false, Bool.or_true]
    · rw [hx, Bool.true_or]
  exact .start (by simp [AxiAdapter.step, hready]) (by simp [AxiAdapter.step, hclear]) (by simp [AxiAdapter.step, hclear])
    (by simp [AxiAdapter.step, hclear])

section Edge

variable (hm : Follows m m' (AxiAdapter.memReady i)) (ho : Obeys cur i)

include hm ho

/-- The address beat of a read. -/
theorem Port.asks_step (hcur : cur = []) (hv : m.memValid = true) (hx : s.xferDone = false) (hw : m.memWstrb = 0) (ha : s.ackArvalid = false) :
    GoesOn m m' s i cur := by
  subst hcur
  have hr := ho.no_read rfl
  have hb := ho.no_write (.inl rfl)
  have hready := AxiAdapter.memReady_of_none hb hr
  obtain ⟨hv', haddr, hw', -⟩ := MemFsm.request_eq hv (hm.stays hv hready)
  have hx' : (s.step m i true).xferDone = false := by simp [AxiAdapter.step, hready]
  have ha' : (s.step m i true).ackArvalid = i.arready := by simp [AxiAdapter.step, AxiAdapter.req, hv, hx, hw, ha]
  have hevents : busEvents (s.req m) i = whenFire true i.arready (.ar m.memAddr) := by
    rw [busEvents_eq _ hb hr]
    simp [AxiAdapter.req_read hv hw, whenFire, ha]
  refine ⟨by rw [hready, Bool.and_false], ?_⟩
  rw [hevents]
  cases har : i.arready with
  | false => exact .asks hv' hx' (hw'.trans hw) (ha'.trans har)
  | true =>
    change Port m' _ [.ar m.memAddr]
    rw [← haddr]
    exact .awaits hv' hx' (hw'.trans hw) (ha'.trans har)

/-- The data of a read. -/
theorem Port.awaits_step (hcur : cur = [.ar m.memAddr]) (hv : m.memValid = true) (hx : s.xferDone = false) (hw : m.memWstrb = 0)
    (ha : s.ackArvalid = true) : GoesOn m m' s i cur ∨ Closes m m' s i cur := by
  subst hcur
  have hb := ho.no_write (.inl rfl)
  have ha' : (s.step m i true).ackArvalid = true := by simp [AxiAdapter.step, AxiAdapter.req, hv, hx, ha]
  cases hr : i.rvalid with
  | false =>
    have hready := AxiAdapter.memReady_of_none hb hr
    obtain ⟨hv', haddr, hw', -⟩ := MemFsm.request_eq hv (hm.stays hv hready)
    have hevents : busEvents (s.req m) i = [] := by
      rw [busEvents_eq _ hb hr]
      simp [AxiAdapter.req_read hv hw, whenFire, ha]
    refine .inl ⟨by rw [hready, Bool.and_false], ?_⟩
    rw [hevents, List.append_nil, ← haddr]
    exact .awaits hv' (by simp [AxiAdapter.step, hready]) (hw'.trans hw) ha'
  | true =>
    have hready : AxiAdapter.memReady i = true := by rw [AxiAdapter.memReady, hr, Bool.or_true]
    have hevents : busEvents (s.req m) i = [.r i.rdata] := by simp [busEvents, AxiAdapter.req_read hv hw, whenFire, ha, hb, hr]
    refine .inr ⟨hv, hready, ?_, ?_⟩
    · rw [hevents]
      exact .read hw
    · cases hv' : m'.memValid with
      | false => exact .free hv'
      | true => exact .again hv' (by simp [AxiAdapter.step, hv, hready]) (hm.again hv hready hv').2 ha'

/-- The beats of a write and its response. -/
theorem Port.writes_step (hv : m.memValid = true) (hx : s.xferDone = false) (hw : m.memWstrb ≠ 0)
    (hl : WriteBeats m s.ackAwvalid s.ackWvalid cur) : GoesOn m m' s i cur ∨ Closes m m' s i cur := by
  have hr := ho.no_read hl.no_read
  cases hb : i.bvalid with
  | false =>
    have hready := AxiAdapter.memReady_of_none hb hr
    obtain ⟨hv', haddr, hw', hdata⟩ := MemFsm.request_eq hv (hm.stays hv hready)
    have hevents : busEvents (s.req m) i =
        whenFire (!s.ackAwvalid) i.awready (.aw m.memAddr) ++ whenFire (!s.ackWvalid) i.wready (.w m.memWdata m.memWstrb) := by
      rw [busEvents_eq _ hb hr, AxiAdapter.req_write hv hw]
      exact List.append_nil _
    have haw : (s.step m i true).ackAwvalid = if i.awready && !s.ackAwvalid then true else s.ackAwvalid := by
      simp only [AxiAdapter.step, AxiAdapter.req_write hv hw, hx, hv, Bool.not_true, Bool.or_self, Bool.false_eq_true, ↓reduceIte]
    have hww : (s.step m i true).ackWvalid = if i.wready && !s.ackWvalid then true else s.ackWvalid := by
      simp only [AxiAdapter.step, AxiAdapter.req_write hv hw, hx, hv, Bool.not_true, Bool.or_self, Bool.false_eq_true, ↓reduceIte]
    refine .inl ⟨by rw [hready, Bool.and_false], .writes hv' (by simp [AxiAdapter.step, hready]) (hw' ▸ hw) ?_⟩
    rw [hevents, ← List.append_assoc, haw, hww]
    exact (hl.step i.awready i.wready).congr haddr hdata hw'
  | true =>
    obtain ⟨haw, hww⟩ := hl.taken (ho.2 hb)
    have hready : AxiAdapter.memReady i = true := by rw [AxiAdapter.memReady, hb, Bool.true_or]
    have hevents : busEvents (s.req m) i = [.b] := by simp [busEvents, AxiAdapter.req_write hv hw, whenFire, haw, hww, hb, hr]
    refine .inr ⟨hv, hready, ?_, ?_⟩
    · rw [hevents]
      rw [haw, hww] at hl
      cases hl with
      | awFirst => exact .awFirst hw
      | wFirst => exact .wFirst hw
    · cases hv' : m'.memValid with
      | false => exact .free hv'
      | true => exact absurd (hm.again hv hready hv').1 hw

theorem Port.step (h : Port m s cur) : GoesOn m m' s i cur ∨ Closes m m' s i cur := by
  cases h with
  | free hv => exact .inl (Port.clears ho rfl (.inl hv) (by simp [busEvents, AxiAdapter.req, whenFire, hv]))
  | again hv hx hw ha =>
    refine .inl (Port.clears ho rfl (.inr hx) ?_)
    rw [busEvents_eq _ (ho.no_write (.inl rfl)) (ho.no_read rfl)]
    simp [AxiAdapter.req_read hv hw, whenFire, ha]
  | asks hv hx hw ha => exact .inl (Port.asks_step hm ho rfl hv hx hw ha)
  | awaits hv hx hw ha => exact Port.awaits_step hm ho rfl hv hx hw ha
  | writes hv hx hw hl => exact Port.writes_step hm ho hv hx hw hl

theorem Port.aw_stays (h : Port m s cur) (hv : (s.req m).awvalid = true) (hr : i.awready = false) :
    ((s.step m i true).req m').awvalid = true ∧ m'.memAddr = m.memAddr := by
  obtain ⟨hvalid, hx, hready⟩ := h.offering ho (.inl hv)
  obtain ⟨hv', haddr, hw', -⟩ := MemFsm.request_eq hvalid (hm.stays hvalid hready)
  refine ⟨?_, haddr⟩
  simpa [AxiAdapter.req, AxiAdapter.step, hvalid, hx, hr, hv', hw'] using hv

theorem Port.w_stays (h : Port m s cur) (hv : (s.req m).wvalid = true) (hr : i.wready = false) :
    ((s.step m i true).req m').wvalid = true ∧ m'.memWdata = m.memWdata ∧ m'.memWstrb = m.memWstrb := by
  obtain ⟨hvalid, hx, hready⟩ := h.offering ho (.inr (.inl hv))
  obtain ⟨hv', -, hw', hdata⟩ := MemFsm.request_eq hvalid (hm.stays hvalid hready)
  refine ⟨?_, hdata, hw'⟩
  simpa [AxiAdapter.req, AxiAdapter.step, hvalid, hx, hr, hv', hw'] using hv

theorem Port.ar_stays (h : Port m s cur) (hv : (s.req m).arvalid = true) (hr : i.arready = false) :
    ((s.step m i true).req m').arvalid = true ∧ m'.memAddr = m.memAddr := by
  obtain ⟨hvalid, hx, hready⟩ := h.offering ho (.inr (.inr hv))
  obtain ⟨hv', haddr, hw', -⟩ := MemFsm.request_eq hvalid (hm.stays hvalid hready)
  refine ⟨?_, haddr⟩
  simpa [AxiAdapter.req, AxiAdapter.step, hvalid, hx, hr, hv', hw'] using hv

end Edge

/-- `cur` is the beginning of the transaction for the request that is on the bus. -/
def Begun (m : MemFsm) (cur : List BusEvent) : Prop :=
  cur = [] ∨ (m.memValid = true ∧
    ∃ rdata rest, Carries ⟨m.memInstr, m.memAddr, m.memWdata, m.memWstrb, rdata⟩ (cur ++ rest))

theorem Port.begun (h : Port m s cur) : Begun m cur := by
  cases h with
  | free | again | asks => exact .inl rfl
  | awaits hv hx hw => exact .inr ⟨hv, 0, [.r 0], .read hw⟩
  | writes hv hx hw hl =>
    generalize s.ackAwvalid = aw at hl
    generalize s.ackWvalid = w at hl
    refine .inr ⟨hv, 0, ?_⟩
    cases hl with
    | none => exact ⟨_, .awFirst hw⟩
    | aw => exact ⟨[.w m.memWdata m.memWstrb, .b], .awFirst hw⟩
    | w => exact ⟨[.aw m.memAddr, .b], .wFirst hw⟩
    | awFirst => exact ⟨[.b], .awFirst hw⟩
    | wFirst => exact ⟨[.b], .wFirst hw⟩

/-! ## The core -/

namespace Core

variable {code : Word32 → Word32} {a : Arch} {s : Core} {i : CoreIn}

theorem Phase.follows (h : Phase code a s) (hc : Cleared s) : Follows s.toMemFsm (s.step true i).toMemFsm i.memReady where
  stays hv hr := h.request_stays hv hr
  again hv hr hv' := by
    change (s.memFsm true i).memValid = true at hv'
    change s.memWstrb = 0 ∧ (s.memFsm true i).memWstrb = 0
    have hx : s.memXfer true i = true := by rw [memXfer, hv, hr, Bool.and_self, Bool.true_or]
    cases htrap : s.trap with
    | true =>
      rw [memFsm_trap htrap, hr] at hv'
      cases hv'
    | false =>
      have hact := h.activity htrap
      have hall : ∀ x : BitVec 2, x = 0 ∨ x = 1 ∨ x = 2 ∨ x = 3 := by decide
      rcases hall s.memState with h0 | h1 | h2 | h3
      · cases hv.symm.trans (hact.rests (.inl h0))
      · cases hread : s.memLaRead true i with
        | false =>
          rw [memFsm_last htrap h1 hx hread] at hv'
          cases hv'
        | true =>
          rw [memFsm_again htrap h1 hx hread]
          exact ⟨hc (.inl h1), rfl⟩
      · simp [memFsm, htrap, h2, hx] at hv'
      · cases hv.symm.trans (hact.rests (.inr h3))

theorem access_eq : s.access i = (s.toMemFsm.native i).bind Native.access := by
  rw [access, MemFsm.native]
  cases s.memValid <;> cases i.memReady <;> cases s.memInstr <;> simp [Native.access]

end Core

/-! ## Runs -/

namespace Picorv32Axi

/-- The handshakes of a cycle. -/
def handshakes (s : Picorv32Axi) (i : AxiIn) : List BusEvent := busEvents (s.adapter.req s.core.toMemFsm) i.rsp

variable (r : Run Picorv32Axi.step)

def coreRun : Run Core.step where
  powerUp := r.powerUp.core
  resetInp := coreIn r.resetInp
  inp n := coreIn (r.inp n)

theorem coreRun_st (n : ℕ) : (coreRun r).st n = (r.st n).core := by
  induction n with
  | zero => rfl
  | succ n ih =>
    rw [Run.st_succ, ih]
    rfl

/-- The requests that have been answered. -/
def natives (n : ℕ) : List Native := collect (fun k => (r.st k).core.native (coreIn (r.inp k))) 0 n

theorem collect_access (n : ℕ) :
    collect (fun k => ((coreRun r).st k).access ((coreRun r).inp k)) 0 n = (natives r n).filterMap Native.access := by
  simp only [coreRun_st, Core.access_eq, natives, collect, List.filterMap_filterMap]
  rfl

def busReq (n : ℕ) : LiteReq := (r.st n).adapter.req (r.st n).core.toMemFsm

section Slave

variable {code : Word32 → Word32} {arch : ℕ → Arch} (hphase : ∀ n, Core.Phase code (arch n) (r.st n).core)
  (hslave : ∀ n, Obeys (r.span handshakes 0 n) (r.inp n).rsp)

include hphase in
theorem follows (n : ℕ) : Follows (r.st n).core.toMemFsm (r.st (n + 1)).core.toMemFsm (AxiAdapter.memReady (r.inp n).rsp) := by
  have hc : Core.Cleared (r.st n).core := by
    rw [← coreRun_st]
    exact (coreRun r).invariant Core.cleared_reset (fun _ _ h => h.step) n
  exact (hphase n).follows hc (i := coreIn (r.inp n))

include hphase hslave in
theorem port_run (n : ℕ) : ∃ cur, Transacts (natives r n) (r.span handshakes 0 n) cur ∧ Port (r.st n).core.toMemFsm (r.st n).adapter cur := by
  induction n with
  | zero => exact ⟨[], ⟨[], rfl, .nil⟩, .free rfl⟩
  | succ n ih =>
    obtain ⟨cur, htxns, hport⟩ := ih
    rw [Run.span_succ, natives, collect_succ, Nat.zero_add]
    have happend := htxns.append (handshakes (r.st n) (r.inp n))
    rcases hport.step (follows r hphase n) (htxns.obeys (hslave n)) with ⟨hwaits, hport'⟩ | ⟨hv, hready, hcarries, hport'⟩
    · refine ⟨_, ?_, hport'⟩
      have hnone : (r.st n).core.native (coreIn (r.inp n)) = none :=
        if_neg (by rw [show (coreIn (r.inp n)).memReady = AxiAdapter.memReady (r.inp n).rsp from rfl, hwaits]; exact Bool.false_ne_true)
      rw [hnone, Option.toList_none, List.append_nil]
      exact happend
    · refine ⟨[], ?_, hport'⟩
      have hsome : (r.st n).core.native (coreIn (r.inp n)) = some _ := if_pos (by rw [hv]; exact hready)
      rw [hsome]
      exact happend.close hcarries

/-- The channels that the core drives. -/
structure HoldsOffers (r : Run Picorv32Axi.step) : Prop where
  aw : Held (fun n => offered (busReq r n).awvalid (busReq r n).awaddr) fun n => (r.inp n).rsp.awready
  w : Held (fun n => offered (busReq r n).wvalid ((busReq r n).wdata, (busReq r n).wstrb)) fun n => (r.inp n).rsp.wready
  ar : Held (fun n => offered (busReq r n).arvalid (busReq r n).araddr) fun n => (r.inp n).rsp.arready

include hphase hslave in
theorem holdsOffers : HoldsOffers r := by
  refine ⟨.of_valid fun n hv hr => ?_, .of_valid fun n hv hr => ?_, .of_valid fun n hv hr => ?_⟩
  · obtain ⟨cur, htxns, hport⟩ := port_run r hphase hslave n
    exact hport.aw_stays (follows r hphase n) (htxns.obeys (hslave n)) hv hr
  · obtain ⟨cur, htxns, hport⟩ := port_run r hphase hslave n
    obtain ⟨hv', hdata, hstrb⟩ := hport.w_stays (follows r hphase n) (htxns.obeys (hslave n)) hv hr
    exact ⟨hv', Prod.ext hdata hstrb⟩
  · obtain ⟨cur, htxns, hport⟩ := port_run r hphase hslave n
    exact hport.ar_stays (follows r hphase n) (htxns.obeys (hslave n)) hv hr

end Slave

/-- After a reset of two edges or more, with slaves that respond to what they have taken and
an instruction memory that answers with `code`: the bus carries whole transactions, one for
each request of the core that has been answered, in order, and the beginning of the one for
the request that has not; the accesses to data among the former are the program's. What a
channel offers stays until it is taken. -/
theorem program_on_bus (code : Word32 → Word32) (r : Run Picorv32Axi.step) (hreset : ∃ s i, r.powerUp.core = Core.step false s i)
    (hcode : ∀ n, Core.Answers code (r.st n).core (coreIn (r.inp n))) (hslave : ∀ n, Obeys (r.span handshakes 0 n) (r.inp n).rsp) :
    (∃ arch : ℕ → Arch, (arch 0).Initial ∧ ∀ n, Core.Shows (arch n) (r.st n).core ∧
      (∃ cur, Transacts (natives r n) (r.span handshakes 0 n) cur ∧ Begun (r.st n).core.toMemFsm cur) ∧
        Trace (Arch.Step code) (arch 0) ((natives r n).filterMap Native.access) (arch n)) ∧ HoldsOffers r := by
  have hrun (n : ℕ) : Core.Answers code ((coreRun r).st n) ((coreRun r).inp n) := by
    rw [coreRun_st]
    exact hcode n
  obtain ⟨arch, ha, hphase, -, htrace⟩ := Core.runs_phases code (coreRun r) hreset hrun
  simp only [coreRun_st] at hphase
  refine ⟨⟨arch, ha, fun n => ⟨(hphase n).shows, ?_, ?_⟩⟩, holdsOffers r hphase hslave⟩
  · obtain ⟨cur, htxns, hport⟩ := port_run r hphase hslave n
    exact ⟨cur, htxns, hport.begun⟩
  · rw [← collect_access]
    exact htrace n

/-- A memory of `sw x2, 0(x0)` that answers two fetches and the first store. -/
def storeRsp (n : ℕ) : LiteRsp := ⟨true, true, n = 13, axiRespOkay, true, n = 3 || n = 7, 0x00202023, axiRespOkay⟩

def storeBus : Run step where
  powerUp := ⟨Core.step false default (coreIn ⟨storeRsp 0, 0, default⟩), default⟩
  resetInp := ⟨storeRsp 0, 0, default⟩
  inp n := ⟨storeRsp n, 0, default⟩

theorem storeBus_obeys (n : ℕ) : Obeys (storeBus.span handshakes 0 n) (storeBus.inp n).rsp := by
  refine ⟨fun hr => ?_, fun hb => ?_⟩
  · have hn : n = 3 ∨ n = 7 := by simpa [storeBus, storeRsp] using hr
    rcases hn with rfl | rfl
    · decide +kernel
    · decide +kernel
  · have hn : n = 13 := by simpa [storeBus, storeRsp] using hb
    subst hn
    decide +kernel

/-- Three requests and their three transactions. -/
theorem store_on_bus : natives storeBus 14 =
      [⟨true, 0, 0, 0, 0x00202023⟩, ⟨true, 4, 0, 0, 0x00202023⟩, ⟨false, 0, 0x10020000, 0b1111, 0x00202023⟩] ∧
    storeBus.span handshakes 0 14 =
      [.ar 0, .r 0x00202023, .ar 4, .r 0x00202023, .aw 0, .w 0x10020000 0b1111, .b] ∧
    (∃ arch : ℕ → Arch, (arch 0).Initial ∧ ∀ n, Core.Shows (arch n) (storeBus.st n).core ∧
      (∃ cur, Transacts (natives storeBus n) (storeBus.span handshakes 0 n) cur ∧ Begun (storeBus.st n).core.toMemFsm cur) ∧
        Trace (Arch.Step Core.storeCode) (arch 0) ((natives storeBus n).filterMap Native.access) (arch n)) ∧ HoldsOffers storeBus :=
  ⟨by decide +kernel, by decide +kernel,
    program_on_bus Core.storeCode storeBus ⟨default, _, rfl⟩ (fun _ _ _ _ => rfl) storeBus_obeys⟩

end Picorv32Axi

end RiscvSoc.Cpu
