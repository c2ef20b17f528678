import RiscvSoc.Dma.RamBursts
/-!
# What holds of every operation

The bursts of the engine against any compliant slave, and their number.
-/

namespace RiscvSoc.Dma

open Sync Aes

/-! ## Order and data -/

/-- Against a compliant slave the engine holds its offers, every handshake is part of
an operation, and an operation is read bursts and write bursts in turn, as `events`
lists them. If no block is started with a key other than that of START, what is
transferred is fixed by the registers at START and the data returned, and so the same
against any two slaves, whenever they stall. -/
theorem engine_bursts (r : Run DmaEngine.step) (hcomp : Compliant r) :
    (Held (fun n => (r.st n).arOffer) (fun n => (r.inp n).ram.arready) ∧
      Held (fun n => (r.st n).awOffer) (fun n => (r.inp n).ram.awready) ∧
      Held (fun n => (r.st n).wOffer) (fun n => (r.inp n).ram.wready)) ∧
      (∀ n, (r.st n).busEvents (r.inp n) ≠ [] →
        ∃ t < n, (r.st t).doStart (r.inp t).cpu = true ∧ EngineBusyTo r t n) ∧
      ∀ t, (r.st t).doStart (r.inp t).cpu = true →
        (∀ n, EngineBusyTo r t (t + n) →
          ∃ x : Feed, Begins x.data (opData r t n) ∧ opLog r t n <+: (jobAt r t).events x (jobAt r t).blocks ∧
            ((r.st (t + 1 + n)).fsm.statusBusy = false → opLog r t n = (jobAt r t).events x (jobAt r t).blocks)) ∧
        (KeyKept r t → ∀ r' t', Compliant r' → (r'.st t').doStart (r'.inp t').cpu = true → KeyKept r' t' →
          jobAt r' t' = jobAt r t → ∀ n n' data, EngineBusyTo r t (t + n) → EngineBusyTo r' t' (t' + n') →
          Begins data (opData r t n) → Begins data (opData r' t' n') →
            (opLog r t n <+: idealLog (jobAt r t) data ∧ opLog r' t' n' <+: idealLog (jobAt r t) data) ∧
              ((r.st (t + 1 + n)).fsm.statusBusy = false → (r'.st (t' + 1 + n')).fsm.statusBusy = false →
                opLog r t n = opLog r' t' n')) := by
  refine ⟨engine_holds_offers r, fun n h => busy_started (busEvents_busy h), fun t hstart => ⟨fun n hb => ?_, ?_⟩⟩
  · have hd := begins_getD (opData r t n) 0
    exact ⟨⟨_, _⟩, hd, opLog_ideal hcomp hstart hb hd (begins_getD (opKeys r t n) 0)⟩
  · intro hkey r' t' hcomp' hstart' hkey' hjob n n' data hb hb' hd hd'
    obtain ⟨hpre, hend⟩ := opLog_idealLog hcomp hstart hkey hb hd
    obtain ⟨hpre', hend'⟩ := opLog_idealLog hcomp' hstart' hkey' hb' hd'
    rw [hjob] at hpre' hend'
    exact ⟨⟨hpre, hpre'⟩, fun h h' => (hend h).trans (hend' h').symm⟩

/-- The CPU starts an operation of one block in cycle 1 and writes KEY0 in cycle 10. -/
def lateKeyCpu : ℕ → LiteReq
  | 0 => writeReq 0x10 1
  | 1 => writeReq 0x00 1
  | 10 => writeReq 0x14 1
  | _ => idleReq

/-- A slave that takes the read address in cycle `ar` and then goes on at once. -/
def stalledRun (ar : ℕ) : Run DmaEngine.step where
  powerUp := dmaRun.powerUp.engine
  resetInp := ⟨idleReq, ⟨true, true, false, 0, true, false, 0, 0, false⟩, false⟩
  inp n :=
    { cpu := lateKeyCpu n
      ram :=
        { awready := true, wready := true, bvalid := n = ar + 35, bresp := axiRespOkay, arready := n = ar
          rvalid := ar < n ∧ n ≤ ar + 4, rdata := 0x11111111, rresp := axiRespOkay, rlast := n = ar + 4 }
      doneWins := false }

/-- Bursts of four beats, with RLAST at beat 3. -/
theorem compliant_of_beats {r : Run DmaEngine.step}
    (h : ∀ n, (r.inp n).ram.rvalid = true → ∃ k, ((r.inp n).ram.rlast = true ↔ k = 3) ∧
      (r.span DmaEngine.busEvents 0 n).foldl readPos (0, 0) = (3, k)) : Compliant r := by
  intro n hv _
  obtain ⟨k, hlast, hpos⟩ := h n hv
  rw [hlast, hpos]
  rfl

theorem stalledRun_compliant {ar : ℕ}
    (h : ∀ k < 4, ((stalledRun ar).span DmaEngine.busEvents 0 (ar + 1 + k)).foldl readPos (0, 0) = (3, k)) :
    Compliant (stalledRun ar) := by
  apply compliant_of_beats
  intro n hv
  obtain ⟨hlo, hhi⟩ : ar < n ∧ n ≤ ar + 4 := by simpa [stalledRun] using hv
  obtain ⟨k, rfl⟩ := Nat.exists_eq_add_of_le hlo
  refine ⟨k, ?_, h k (by omega)⟩
  simp only [stalledRun, decide_eq_true_eq]
  omega

/-- The CPU starts an operation of two blocks in CBC mode in cycle 1 and writes KEY0 in
cycle 60, when both are in the chain. -/
def twoBlockCpu : ℕ → LiteReq
  | 0 => writeReq 0x10 2
  | 1 => writeReq 0x00 5
  | 60 => writeReq 0x14 1
  | _ => idleReq

/-- A slave that takes the read addresses of the two blocks in cycles `a` and `b`. -/
def pacedRun (a b : ℕ) : Run DmaEngine.step :=
  { stalledRun a with inp := fun n => { (stalledRun (if n < b then a else b)).inp n with cpu := twoBlockCpu n } }

theorem pacedRun_compliant {a b : ℕ}
    (h : ∀ k < 4, ((pacedRun a b).span DmaEngine.busEvents 0 (a + 1 + k)).foldl readPos (0, 0) = (3, k) ∧
      ((pacedRun a b).span DmaEngine.busEvents 0 (b + 1 + k)).foldl readPos (0, 0) = (3, k)) :
    Compliant (pacedRun a b) := by
  apply compliant_of_beats
  intro n hv
  obtain ⟨hlo, hhi⟩ : (if n < b then a else b) < n ∧ n ≤ (if n < b then a else b) + 4 := by
    simpa [pacedRun, stalledRun] using hv
  have hlast : ((pacedRun a b).inp n).ram.rlast = true ↔ n = (if n < b then a else b) + 4 := by
    simp only [pacedRun, stalledRun, decide_eq_true_eq]
  have hblock : (if n < b then a else b) = a ∨ (if n < b then a else b) = b := by split <;> simp
  generalize (if n < b then a else b) = c at hlo hhi hlast hblock
  obtain ⟨k, rfl⟩ := Nat.exists_eq_add_of_le hlo
  refine ⟨k, hlast.trans (by omega), ?_⟩
  rcases hblock with rfl | rfl
  · exact (h k (by omega)).1
  · exact (h k (by omega)).2

theorem pacedRun_keyKept {a b : ℕ} (hidle : ((pacedRun a b).st (b + 37)).fsm.statusBusy = false)
    (h : ∀ n < b + 37, ((pacedRun a b).st n).fsm.chainStart = true →
      ((pacedRun a b).st n).regs.keyReg = ((pacedRun a b).st 1).regs.keyReg) (hb : 1 ≤ b) :
    KeyKept (pacedRun a b) 1 := by
  intro n _ hbusy hs
  have hn : n < b + 37 := by
    by_contra hge
    simp [hbusy (b + 37) (by omega) (by omega)] at hidle
  exact h n hn hs

theorem pacedRun_data {a b n : ℕ} (h : opData (pacedRun a b) 1 n = List.replicate 8 0x11111111) :
    Begins (fun _ => 0x11111111) (opData (pacedRun a b) 1 n) := by
  intro m w hw
  rw [h] at hw
  exact (List.eq_of_mem_replicate (List.mem_of_getElem? hw)).symm

set_option maxRecDepth 100000 in
/-- Slaves that stall each block differently get the same bursts. -/
theorem engine_bursts_pacedRun :
    opLog (pacedRun 3 40) 1 75 = opLog (pacedRun 5 50) 1 85 ∧
      opLog (pacedRun 3 40) 1 75 <+: idealLog (jobAt (pacedRun 3 40) 1) fun _ => 0x11111111 := by
  have hcomp : Compliant (pacedRun 3 40) := pacedRun_compliant (by decide +kernel)
  have hcomp' : Compliant (pacedRun 5 50) := pacedRun_compliant (by decide +kernel)
  have hkey : KeyKept (pacedRun 3 40) 1 := pacedRun_keyKept (by decide +kernel) (by decide +kernel) (by omega)
  have hkey' : KeyKept (pacedRun 5 50) 1 := pacedRun_keyKept (by decide +kernel) (by decide +kernel) (by omega)
  have hb : ∀ m < 77, 1 < m → ((pacedRun 3 40).st m).fsm.statusBusy = true := by decide +kernel
  have hb' : ∀ m < 87, 1 < m → ((pacedRun 5 50).st m).fsm.statusBusy = true := by decide +kernel
  obtain ⟨-, -, hop⟩ := engine_bursts (pacedRun 3 40) hcomp
  obtain ⟨-, htwo⟩ := hop 1 (by decide +kernel)
  obtain ⟨⟨hpre, -⟩, heq⟩ := htwo hkey (pacedRun 5 50) 1 hcomp' (by decide +kernel) hkey' rfl 75 85
    (fun _ => 0x11111111) (fun m h1 h2 => hb m (by omega) h1) (fun m h1 h2 => hb' m (by omega) h1)
    (pacedRun_data (by decide +kernel)) (pacedRun_data (by decide +kernel))
  exact ⟨heq (by decide +kernel) (by decide +kernel), hpre⟩

set_option maxRecDepth 100000 in
/-- A slave that takes the address 17 cycles later gets other data: by then KEY0 is written. -/
theorem stalledRun_differs :
    Compliant (stalledRun 3) ∧ Compliant (stalledRun 20) ∧
      ((stalledRun 3).st 1).doStart ((stalledRun 3).inp 1).cpu = true ∧
      ((stalledRun 20).st 1).doStart ((stalledRun 20).inp 1).cpu = true ∧
      jobAt (stalledRun 3) 1 = jobAt (stalledRun 20) 1 ∧ opData (stalledRun 3) 1 38 = opData (stalledRun 20) 1 55 ∧
      opLog (stalledRun 3) 1 38 ≠ opLog (stalledRun 20) 1 55 ∧
      ((stalledRun 3).st 40).fsm.statusBusy = false ∧ ((stalledRun 20).st 57).fsm.statusBusy = false :=
  ⟨stalledRun_compliant (by decide +kernel), stalledRun_compliant (by decide +kernel), by decide +kernel,
    by decide +kernel, rfl, by decide +kernel, by decide +kernel, by decide +kernel, by decide +kernel⟩

/-! ## The number of blocks -/

/-- Against a compliant slave that answers, an accepted START leads to state `done`
and the fall of BUSY after as many read bursts and write bursts as LEN says, 2^32 of
each for LEN = 0. From LEN ≥ 1 the counter stays between 1 and LEN and never goes up.
From LEN = 0 it wraps at the end of the first block, and from there on stays above 0
and never goes up. -/
theorem dma_block_count (r : Run DmaEngine.step) (hcomp : Compliant r) (hans : Answers r) (t : ℕ)
    (hstart : (r.st t).doStart (r.inp t).cpu = true) :
    let len := (r.st t).regs.lenReg
    let blocks := if len = 0 then 2 ^ 32 else len.toNat
    ∃ n, EngineBusyTo r t (t + 1 + n) ∧ (r.st (t + 1 + n)).fsm.state = .done ∧
      (r.st (t + 1 + n + 1)).fsm.statusBusy = false ∧
      (opLog r t (n + 1)).countP BurstEvent.isAr = blocks ∧ (opLog r t (n + 1)).countP BurstEvent.isAw = blocks ∧
      (len ≠ 0 → ∀ m ≤ n, 0 < (r.st (t + 1 + m)).fsm.blocksLeft.toNat ∧
        (r.st (t + 1 + m)).fsm.blocksLeft.toNat ≤ len.toNat ∧
        (r.st (t + 1 + m + 1)).fsm.blocksLeft.toNat ≤ (r.st (t + 1 + m)).fsm.blocksLeft.toNat) ∧
      (len = 0 → ∃ m < n, WrapsAt r t m ∧ ∀ p, m < p → p ≤ n → 0 < (r.st (t + 1 + p)).fsm.blocksLeft.toNat ∧
        (r.st (t + 1 + p + 1)).fsm.blocksLeft.toNat ≤ (r.st (t + 1 + p)).fsm.blocksLeft.toNat) := by
  intro len blocks
  obtain ⟨n, hb, hs⟩ := op_ends hcomp hans hstart
  have hfall := (done_falls hs).2
  obtain ⟨-, hall⟩ := opLog_ideal (x := ⟨_, _⟩) hcomp hstart (show EngineBusyTo r t (t + (n + 1)) from hb.le (by omega))
    (begins_getD (opData r t (n + 1)) 0) (begins_getD (opKeys r t (n + 1)) 0)
  have hlog := hall hfall
  have hblocks : (jobAt r t).blocks = blocks := rfl
  refine ⟨n, hb, hs, hfall, ?_, ?_, fun hlen m hm => ?_, fun hlen => ?_⟩
  · rw [hlog, (events_countP _ _ _).1, hblocks]
  · rw [hlog, (events_countP _ _ _).2, hblocks]
  · have hfirst := blocksLeft_start hstart
    have hpos : 0 < (r.st (t + 1)).fsm.blocksLeft.toNat := by
      rw [hfirst]
      exact Nat.pos_of_ne_zero (Counters.toNat_ne_zero hlen)
    have hrange := blocksLeft_range hpos (n := m) fun k hk => hb _ (by omega) (by omega)
    rwa [hfirst] at hrange
  · obtain ⟨m, hmn, hwraps⟩ := blocksLeft_wraps hcomp hstart hlen ⟨hb, hs⟩
    refine ⟨m, hmn, hwraps, fun p hmp hpn => ?_⟩
    have hpos : 0 < (r.st (t + 1 + m + 1)).fsm.blocksLeft.toNat := by
      rw [hwraps.wraps]
      decide
    obtain ⟨d, rfl⟩ := Nat.exists_eq_add_of_lt hmp
    obtain ⟨h1, -, h2⟩ := blocksLeft_range hpos (n := d) fun k hk => hb _ (by omega) (by omega)
    rw [show t + 1 + m + 1 + d = t + 1 + (m + d + 1) by omega] at h1 h2
    exact ⟨h1, h2⟩

/-- START in cycle 0, with LEN at its reset value. -/
def zeroLenRun : Run (DmaSys.step (k := 11)) :=
  { dmaRun with inp := fun n => ⟨if n = 0 then writeReq 0x00 1 else idleReq, false⟩ }

set_option maxRecDepth 100000 in
/-- Two blocks are two read bursts and two write bursts. With LEN = 0 the counter wraps. -/
theorem dma_block_count_cbcDmaRun :
    (∃ n, ((engineRun cbcDmaRun).st (11 + n)).fsm.state = .done ∧
      (opLog (engineRun cbcDmaRun) 10 (n + 1)).countP BurstEvent.isAr = 2 ∧
      (opLog (engineRun cbcDmaRun) 10 (n + 1)).countP BurstEvent.isAw = 2 ∧
      ∀ m ≤ n, ((engineRun cbcDmaRun).st (11 + m)).fsm.blocksLeft.toNat ≤ 2) ∧
      ∃ m, WrapsAt (engineRun zeroLenRun) 0 m := by
  have hstart : ((engineRun cbcDmaRun).st 10).doStart ((engineRun cbcDmaRun).inp 10).cpu = true := by decide +kernel
  have hstart0 : ((engineRun zeroLenRun).st 0).doStart ((engineRun zeroLenRun).inp 0).cpu = true := by decide +kernel
  have hlen : ((engineRun cbcDmaRun).st 10).regs.lenReg = 2 := by decide +kernel
  have hlen0 : ((engineRun zeroLenRun).st 0).regs.lenReg = 0 := by decide +kernel
  obtain ⟨n, -, hdone, -, har, haw, hleft, -⟩ :=
    dma_block_count _ (ram_compliant cbcDmaRun) (ram_answers cbcDmaRun) 10 hstart
  obtain ⟨n0, -, -, -, -, -, -, hwraps⟩ :=
    dma_block_count _ (ram_compliant zeroLenRun) (ram_answers zeroLenRun) 0 hstart0
  rw [hlen] at har haw hleft
  obtain ⟨m, -, hm, -⟩ := hwraps hlen0
  exact ⟨⟨n, hdone, har, haw, fun p hp => (hleft (by decide) p hp).2.1⟩, m, hm⟩

set_option maxRecDepth 100000 in
/-- LEN = 0 is accepted, a block is read all the same, and the counter wraps. -/
theorem zeroLenRun_wraps :
    (zeroLenRun.st 0).engine.doStart (zeroLenRun.inp 0).cpu = true ∧ (zeroLenRun.st 0).engine.regs.lenReg = 0 ∧
      (opLog (engineRun zeroLenRun) 0 38).countP BurstEvent.isAr = 1 ∧
      (zeroLenRun.st 38).engine.fsm.blocksLeft = 0 ∧ (zeroLenRun.st 39).engine.fsm.blocksLeft = 0xFFFFFFFF ∧
      (zeroLenRun.st 39).engine.fsm.statusBusy = true := by
  decide +kernel

end RiscvSoc.Dma
