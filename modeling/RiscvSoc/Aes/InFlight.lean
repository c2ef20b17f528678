import RiscvSoc.Aes.RegsRun
/-!
# A block in work

Two runs of `aes.v` that are the same up to an accepted START, whatever the bus does
after it, give the same block in the same cycle. A START that comes with LOAD_IV is
the exception to the modes: part of the block is worked on with the IV from before.
-/

open Fips197 Sync Modes

namespace RiscvSoc.Aes

section Runs

variable {r r' : Run AesRegs.edge} {t : ℕ}

/-- The runs are the same up to the edge that accepts a START in cycle `t`. -/
structure SameToStart (r r' : Run AesRegs.edge) (t : ℕ) : Prop where
  powerUp : r.powerUp = r'.powerUp
  resetInp : r.resetInp = r'.resetInp
  inp : ∀ n ≤ t, r.inp n = r'.inp n
  start : StartsAt r t

theorem SameToStart.st_eq (h : SameToStart r r' t) {n : ℕ} (hn : n ≤ t + 1) : r.st n = r'.st n :=
  Run.st_congr h.powerUp h.resetInp fun m hm => h.inp m (by omega)

theorem SameToStart.start' (h : SameToStart r r' t) : StartsAt r' t := by
  rw [StartsAt, ← h.st_eq (by omega), ← h.inp t le_rfl]
  exact h.start

/-- Up to `done` the two chains are the same. -/
theorem SameToStart.uChain_eq (h : SameToStart r r' t) {k : ℕ} (hk : k ≤ 22) :
    (r.st (t + 1 + k)).uChain = (r'.st (t + 1 + k)).uChain := by
  induction k with
  | zero => rw [Nat.add_zero, h.st_eq le_rfl]
  | succ k ih =>
    have hs := h.start.busy (k := k) (by omega)
    have hs' := h.start'.busy (k := k) (by omega)
    rw [← Nat.add_assoc, Run.st_succ, Run.st_succ, AesRegs.edge_uChain, AesRegs.edge_uChain, ← ih (by omega)]
    exact AesChain.step_congr hs (AesRegs.doLoadIv_of_core hs) (AesRegs.doLoadIv_of_core hs')

/-- No START and no LOAD_IV is accepted in the cycles `a .. b - 1`. -/
def Rests (r : Run AesRegs.edge) (a b : ℕ) : Prop :=
  ∀ m, a ≤ m → m < b → (r.st m).doStart (r.inp m) = false ∧ (r.st m).doLoadIv (r.inp m) = false

/-- A chain at rest keeps its result and its chaining value. -/
theorem Rests.keeps {a k : ℕ} (h : Rests r a (a + k)) (hs : (r.st a).uChain.state = .idle) :
    (r.st (a + k)).uChain.state = .idle ∧ (r.st (a + k)).uChain.dataOutReg = (r.st a).uChain.dataOutReg ∧
      (r.st (a + k)).uChain.ivReg = (r.st a).uChain.ivReg := by
  induction k with
  | zero => exact ⟨hs, rfl, rfl⟩
  | succ k ih =>
    obtain ⟨hs', hd, hv⟩ := ih fun m h1 h2 => h m h1 (by omega)
    obtain ⟨hstart, hload⟩ := h (a + k) (by omega) (by omega)
    have hi : ((r.st (a + k)).chainIn (r.inp (a + k))).start = false := hstart
    have hl : ((r.st (a + k)).chainIn (r.inp (a + k))).loadIv = false := hload
    rw [← Nat.add_assoc, Run.st_succ, AesRegs.edge_uChain, ← hd, ← hv]
    simp [AesChain.step, AesChain.fsm, hs', hi, hl]

theorem irqPulse_iff {n : ℕ} : (r.st n).irqPulse = true ↔ ∃ u, n = u + 24 ∧ StartsAt r u := by
  cases n with
  | zero =>
    have h : (r.st 0).irqPulse = false := rfl
    simp [h]
  | succ n =>
    rw [Run.st_succ, AesRegs.edge_eq, doneReg_iff]
    refine exists_congr fun u => and_congr_left fun _ => ?_
    omega

end Runs

/-- Nothing that the bus does after an accepted START reaches its block: BUSY falls and
`done` comes in the same cycle, RESULT and the running IV are the same until the next
START or LOAD_IV, and there is one pulse of `irq` for each START. -/
theorem aes_isolated (r r' : Run AesRegs.edge) (t : ℕ) (h : SameToStart r r' t) :
    (∀ n, t < n → n ≤ t + 23 →
      (r.st n).uChain = (r'.st n).uChain ∧ ((r.st n).uChain.busy = true ↔ n < t + 23) ∧
        ((r.st n).uChain.doneReg = true ↔ n = t + 23)) ∧
      (∀ n, t + 23 ≤ n → Rests r (t + 23) n → Rests r' (t + 23) n →
        (r.st n).result = (r'.st n).result ∧ (r.st n).uChain.ivReg = (r'.st n).uChain.ivReg) ∧
      (∀ n, (r.st n).irqPulse = true ↔ ∃ u, n = u + 24 ∧ StartsAt r u) ∧
      ∀ n, (r'.st n).irqPulse = true ↔ ∃ u, n = u + 24 ∧ StartsAt r' u := by
  refine ⟨fun n h1 h2 => ?_, fun n hn hr hr' => ?_, fun n => irqPulse_iff, fun n => irqPulse_iff⟩
  · obtain ⟨k, rfl⟩ := Nat.exists_eq_add_of_le (show t + 1 ≤ n from h1)
    refine ⟨h.uChain_eq (by omega), ?_, ?_⟩
    · rcases Nat.lt_or_eq_of_le (show k ≤ 22 by omega) with hlt | rfl
      · simp [AesChain.busy, h.start.busy (k := k) (by omega)]
        omega
      · simp [AesChain.busy, show t + 1 + 22 = t + 23 by omega, h.start.idle]
    · rw [h.start.doneReg (by omega), decide_eq_true_iff]
      omega
  · obtain ⟨k, rfl⟩ := Nat.exists_eq_add_of_le hn
    obtain ⟨-, hd, hv⟩ := hr.keeps h.start.idle
    obtain ⟨-, hd', hv'⟩ := hr'.keeps h.start'.idle
    have he : (r.st (t + 23)).uChain = (r'.st (t + 23)).uChain := by
      rw [show t + 23 = t + 1 + 22 by omega]
      exact h.uChain_eq le_rfl
    exact ⟨by rw [AesRegs.result_eq, AesRegs.result_eq, hd, hd', he], by rw [hv, hv', he]⟩

/-- The requests `cpu` after a START in cycle 0. -/
def startRun (cpu : ℕ → LiteReq) : Run AesRegs.edge where
  powerUp := ⟨1, 2, 3, true, 1, true, true, ⟨true, 0, true, 0, 0⟩, cbcRun.powerUp⟩
  resetInp := regWrite 0 0
  inp n := if n = 0 then regWrite 0x00 0x1 else cpu n
where
  /-- A write of `data`, and a read, at `offset`. -/
  regWrite (offset data : Word32) : LiteReq := ⟨true, offset, true, data, 0xF, true, true, offset, true⟩

/-- Nothing but accesses to RESULT0. -/
def resultTraffic (_ : ℕ) : LiteReq := startRun.regWrite 0x30 0

/-- Writes to KEY0, DATA0, IV0, STATUS and CTRL in turn. -/
def busyTraffic (n : ℕ) : LiteReq :=
  match n % 5 with
  | 0 => startRun.regWrite 0x10 0xFFFFFFFF
  | 1 => startRun.regWrite 0x20 0xFFFFFFFF
  | 2 => startRun.regWrite 0x40 0xFFFFFFFF
  | 3 => startRun.regWrite 0x04 0x2
  | _ => startRun.regWrite 0x00 0x1B

theorem aes_isolated_busyTraffic :
    ((startRun busyTraffic).st 23).uChain = ((startRun resultTraffic).st 23).uChain ∧
      ((startRun busyTraffic).st 24).irqPulse = true := by
  have hsame : SameToStart (startRun busyTraffic) (startRun resultTraffic) 0 := by
    refine ⟨rfl, rfl, fun n hn => ?_, rfl⟩
    obtain rfl : n = 0 := by omega
    rfl
  obtain ⟨hwork, -, hirq, -⟩ := aes_isolated _ _ 0 hsame
  exact ⟨(hwork 23 (by omega) le_rfl).1, (hirq 24).2 ⟨0, rfl, rfl⟩⟩

/-! ## START together with LOAD_IV -/

section Runs

variable {r r' : Run AesRegs.edge} {t t' u' : ℕ}

theorem StartsAt.block (h : StartsAt r t) :
    let i := (r.st t).chainIn (r.inp t)
    let m := chainMode i.mode
    let v := (r.st t).uChain.ivReg
    let w := if i.loadIv then i.ivIn else v
    (r.st (t + 23)).result = blockOut (aes i.keyIn) m i.encdec (if m = .cbc ∧ i.encdec = true then w else v) i.dataIn ∧
      (r.st (t + 23)).uChain.ivReg = blockNext (aes i.keyIn) m i.encdec (if m = .cbc then v else w) i.dataIn := by
  have hend := block_end (j := (r.st (t + 1 + 21)).chainIn (r.inp (t + 1 + 21))) (h.working le_rfl)
    (AesRegs.doLoadIv_of_core (h.busy le_rfl))
  rw [h.ivReg le_rfl] at hend
  rw [AesRegs.result_eq, show t + 23 = t + 1 + 21 + 1 by omega, Run.st_succ, AesRegs.edge_uChain]
  exact hend

/-- One write with LOAD_IV and START in cycle `t` of the one run, a write with LOAD_IV in
cycle `t'` and one with START in cycle `u'` of the other, for the same key, data, IV
registers, running IV, mode and direction. -/
structure Split (r r' : Run AesRegs.edge) (t t' u' : ℕ) : Prop where
  keyReg : (r.st t).keyReg = (r'.st t').keyReg
  dataReg : (r.st t).dataReg = (r'.st t').dataReg
  ivReg : (r.st t).ivReg = (r'.st t').ivReg
  chainIv : (r.st t).uChain.ivReg = (r'.st t').uChain.ivReg
  start : StartsAt r t
  load : (r.st t).doLoadIv (r.inp t) = true
  noStart' : (r'.st t').doStart (r'.inp t') = false
  load' : (r'.st t').doLoadIv (r'.inp t') = true
  lt : t' < u'
  quiet' : ∀ m, t' < m → m < u' → (r'.inp m).doWrite = false
  start' : StartsAt r' u'
  noLoad' : (r'.st u').doLoadIv (r'.inp u') = false
  mode : (r.inp t).wdata.extractLsb' 2 2 = (r'.inp u').wdata.extractLsb' 2 2
  encdec : (r.inp t).wdata.getLsbD 1 = (r'.inp u').wdata.getLsbD 1

/-- What the block of the second START finds. -/
theorem Split.at_start (h : Split r r' t t' u') :
    (r'.st u').keyReg = (r'.st t').keyReg ∧ (r'.st u').dataReg = (r'.st t').dataReg ∧
      (r'.st u').uChain.ivReg = (r'.st t').ivReg := by
  obtain ⟨k, rfl⟩ := Nat.exists_eq_add_of_lt h.lt
  have hctrl : (r'.inp t').doWrite = true ∧ AesRegs.awOffset (r'.inp t') = AesRegs.regCtrl := by
    have hload := h.load'
    simp only [AesRegs.doLoadIv, LiteReq.writes, Bool.and_eq_true, decide_eq_true_eq] at hload
    exact hload.1.1
  have hfirst : (r'.st (t' + 1)).keyReg = (r'.st t').keyReg ∧ (r'.st (t' + 1)).dataReg = (r'.st t').dataReg ∧
      (r'.st (t' + 1)).uChain.ivReg = (r'.st t').ivReg ∧ (r'.st (t' + 1)).uChain.state = .idle := by
    have hidle := AesRegs.idle_of_doLoadIv h.load'
    rw [Run.st_succ, AesRegs.edge_eq]
    simp only [hctrl.1, hctrl.2, if_true]
    refine ⟨rfl, rfl, ?_, ?_⟩ <;>
      simp [AesChain.step, AesChain.fsm, AesRegs.chainIn, hidle, h.load', h.noStart']
  have hrest : Rests r' (t' + 1) (t' + 1 + k) := by
    intro m h1 h2
    have hw := h.quiet' m (by omega) (by omega)
    simp [AesRegs.doStart, AesRegs.doLoadIv, LiteReq.writes, hw]
  obtain ⟨-, -, hiv⟩ := hrest.keeps hfirst.2.2.2
  have hquiet : ∀ j ≤ k, (r'.st (t' + 1 + j)).keyReg = (r'.st t').keyReg ∧
      (r'.st (t' + 1 + j)).dataReg = (r'.st t').dataReg := by
    intro j hj
    induction j with
    | zero => exact ⟨hfirst.1, hfirst.2.1⟩
    | succ j ih =>
      obtain ⟨hk, hd⟩ := ih (by omega)
      have hw := h.quiet' (t' + 1 + j) (by omega) (by omega)
      rw [← Nat.add_assoc, Run.st_succ, AesRegs.edge_eq]
      simp [hw, hk, hd]
  rw [show t' + k + 1 = t' + 1 + k by omega]
  exact ⟨(hquiet k le_rfl).1, (hquiet k le_rfl).2, hiv.trans hfirst.2.2.1⟩

theorem encrypt128_injective (key : Block) : Function.Injective (encrypt128 key) :=
  Function.LeftInverse.injective (decrypt128_encrypt128 key)

/-- Where a block that starts with `v` and ends with `w` is as if it had `w` all along. -/
theorem mixed_iff (key : Block) (m : Mode) (dec : Bool) (v w b : Block) :
    (blockOut (aes key) m dec (if m = .cbc ∧ dec = true then w else v) b = blockOut (aes key) m dec w b ∧
        blockNext (aes key) m dec (if m = .cbc then v else w) b = blockNext (aes key) m dec w b) ↔
      m = .ecb ∨ (m = .cbc ∧ dec = true) ∨ v = w := by
  cases m with
  | ecb => simp [blockOut, blockNext]
  | cbc =>
    cases dec with
    | true => simp [blockOut, blockNext]
    | false => simp [blockOut, blockNext, aes, (encrypt128_injective key).eq_iff]
  | ctr => simp [blockOut, blockNext, aes, (encrypt128_injective key).eq_iff]

/-- The blocks of the two runs: the one write starts with the IV from before. -/
theorem Split.blocks (h : Split r r' t t' u') :
    let c := aes (r.st t).keyReg
    let m := chainMode ((r.inp t).wdata.extractLsb' 2 2)
    let dec := (r.inp t).wdata.getLsbD 1
    let v := (r.st t).uChain.ivReg
    let w := (r.st t).ivReg
    let b := (r.st t).dataReg
    (r.st (t + 23)).result = blockOut c m dec (if m = .cbc ∧ dec = true then w else v) b ∧
      (r.st (t + 23)).uChain.ivReg = blockNext c m dec (if m = .cbc then v else w) b ∧
      (r'.st (u' + 23)).result = blockOut c m dec w b ∧ (r'.st (u' + 23)).uChain.ivReg = blockNext c m dec w b := by
  obtain ⟨hout, hnext⟩ := h.start.block
  obtain ⟨hout', hnext'⟩ := h.start'.block
  obtain ⟨hkey, hdata, hiv⟩ := h.at_start
  have hload : ((r.st t).chainIn (r.inp t)).loadIv = true := h.load
  have hload' : ((r'.st u').chainIn (r'.inp u')).loadIv = false := h.noLoad'
  rw [hload] at hout hnext
  rw [hload'] at hout' hnext'
  simp only [Bool.false_eq_true, if_false, ite_self, AesRegs.chainIn, hkey, hdata, hiv, ← h.keyReg, ← h.dataReg, ← h.ivReg,
    ← h.mode, ← h.encdec] at hout' hnext'
  exact ⟨hout, hnext, hout', hnext'⟩

/-- One write gives the block and the chaining value that two would have given exactly in
ECB, in CBC decryption, or if the IV was the running one already. -/
theorem combined_iff (h : Split r r' t t' u') :
    ((r.st (t + 23)).result = (r'.st (u' + 23)).result ∧
        (r.st (t + 23)).uChain.ivReg = (r'.st (u' + 23)).uChain.ivReg) ↔
      let m := chainMode ((r.inp t).wdata.extractLsb' 2 2)
      m = .ecb ∨ (m = .cbc ∧ (r.inp t).wdata.getLsbD 1 = true) ∨ (r.st t).uChain.ivReg = (r.st t).ivReg := by
  obtain ⟨hout, hnext, hout', hnext'⟩ := h.blocks
  rw [hout, hnext, hout', hnext']
  exact mixed_iff _ _ _ _ _ _

end Runs

/-- IV0 is written and then taken with a START whose mode and direction are in `ctrl`, by
one write or by two. -/
def pairRun (ctrl : Word32) (one : Bool) : Run AesRegs.edge where
  powerUp := (startRun busyTraffic).powerUp
  resetInp := startRun.regWrite 0 0
  inp
    | 0 => startRun.regWrite 0x40 1
    | 1 => startRun.regWrite 0x00 (if one then ctrl ||| 0x11 else 0x10)
    | _ => startRun.regWrite 0x00 (ctrl ||| 0x01)

theorem pairRun_split {ctrl : Word32} (h : ctrl = 0x06 ∨ ctrl = 0x08) :
    Split (pairRun ctrl true) (pairRun ctrl false) 1 1 2 := by
  rcases h with rfl | rfl <;>
    exact ⟨rfl, rfl, rfl, rfl, rfl, rfl, rfl, rfl, by omega, fun m h1 h2 => by omega, rfl, rfl, rfl, rfl⟩

/-- CBC decryption. -/
theorem combined_iff_cbc :
    ((pairRun 0x06 true).st (1 + 23)).result = ((pairRun 0x06 false).st (2 + 23)).result ∧
      ((pairRun 0x06 true).st (1 + 23)).uChain.ivReg = ((pairRun 0x06 false).st (2 + 23)).uChain.ivReg :=
  (combined_iff (pairRun_split (.inl rfl))).2 (.inr (.inl ⟨rfl, rfl⟩))

/-- In CTR mode the counter goes on from the new IV, but the keystream is that of the old
one. -/
theorem ctrRun_differs :
    Split (pairRun 0x08 true) (pairRun 0x08 false) 1 1 2 ∧
      ¬ (((pairRun 0x08 true).st (1 + 23)).result = ((pairRun 0x08 false).st (2 + 23)).result ∧
        ((pairRun 0x08 true).st (1 + 23)).uChain.ivReg = ((pairRun 0x08 false).st (2 + 23)).uChain.ivReg) := by
  have hs := pairRun_split (.inr rfl : (0x08 : Word32) = 0x06 ∨ (0x08 : Word32) = 0x08)
  refine ⟨hs, ?_⟩
  obtain ⟨hout, hnext, hout', hnext'⟩ := hs.blocks
  rw [hout, hnext, hout', hnext', mixed_iff]
  decide

end RiscvSoc.Aes
