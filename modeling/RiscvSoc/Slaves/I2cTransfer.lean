import RiscvSoc.Lib.Concat
import RiscvSoc.Slaves.I2cRun
/-!
# I2C transfers

After START every bit takes two periods of the divider, one with SCL low and one with SCL
high, and STOP takes three. The bits are the eight of the address, its acknowledgement and,
unless that is missing, those of the byte and its acknowledgement.
-/

namespace RiscvSoc.I2cMaster

open Sync Pacing

variable {s t : I2cMaster} {i : I2cIn} {pulled : Bool}

/-! ## The bits of a transfer -/

/-- The level that the master lets SDA have at bit `p`: those of the address and of a byte
it writes, and released for all else. -/
def driven (addrRw tx : BitVec 8) (rw : Bool) (p : ℕ) : Bool :=
  if p < 8 then addrRw.getLsbD (7 - p) else if p = 8 then true else if p < 17 && !rw then tx.getLsbD (16 - p) else true

/-- The state at bit `p`. -/
def bitState (rw : Bool) (p : ℕ) : I2cState :=
  if p < 8 then .addr else if p = 8 then .addrAck
  else if p < 17 then (if rw then .rdata else .wdata) else (if rw then .rdataAck else .wdataAck)

/-- `bit_idx` at bit `p`, which counts down in the address and in the byte. -/
def bitIndex (p : ℕ) : ℕ := if p < 8 then 7 - p else 16 - p

/-- What stays as START leaves it while a transfer is in flight. -/
structure InFlight (d : Word32) (addrRw tx : BitVec 8) (rw : Bool) (s : I2cMaster) : Prop where
  divider : s.dividerReg = d
  addrRw : s.addrRw = addrRw
  txShift : s.txShift = tx
  rwR : s.rwR = rw
  busy : s.busy = true
  done : s.done = false
  irq : s.irqPulse = false

section Flight

variable {d : Word32} {addrRw tx : BitVec 8} {rw : Bool}

theorem InFlight.wait (h : InFlight d addrRw tx rw s) (hs : s.state ≠ .idle) (ht : s.tick = false)
    (hw : i.cpu.writes regDivider = false) : InFlight d addrRw tx rw (s.edge true i) := by
  refine ⟨(edge_keeps_divider hw).trans h.divider, ?_, ?_, ?_, ?_, ?_, ?_⟩ <;>
    simp [fsm_wait hs ht, pre, h.addrRw, h.txShift, h.rwR, h.busy, h.done]

theorem InFlight.tick (h : InFlight d addrRw tx rw s) (hs : s.state ≠ .idle) (ht : s.tick = true)
    (hl : s.lastTick = false) (hw : i.cpu.writes regDivider = false) : InFlight d addrRw tx rw (s.edge true i) := by
  obtain ⟨-, hbusy, hdone, hirq⟩ :=
    tickStep_not_last i.pulled (t := { s.pre i.cpu with divCnt := 0 }) hs hl rfl
  obtain ⟨-, haddr, htx, hrw⟩ := tickStep_keeps s { s.pre i.cpu with divCnt := 0 } i.pulled
  refine ⟨(edge_keeps_divider hw).trans h.divider, ?_, ?_, ?_, ?_, ?_, ?_⟩
  · rw [edge_addrRw, fsm_tick hs ht, haddr]
    exact h.addrRw
  · rw [edge_txShift, fsm_tick hs ht, htx]
    exact h.txShift
  · rw [edge_rwR, fsm_tick hs ht, hrw]
    exact h.rwR
  · rw [edge_busy, fsm_tick hs ht, hbusy]
    exact h.busy
  · rw [edge_done, fsm_tick hs ht, hdone]
    simp [pre, h.done]
  · rw [edge_irqPulse, fsm_tick hs ht, hirq]
    rfl

end Flight

/-- In the first or the second half of bit `p`. -/
structure AtBit (bits : ℕ → Bool) (rw : Bool) (p : ℕ) (second : Bool) (s : I2cMaster) : Prop where
  state : s.state = bitState rw p
  phase : s.phase = second
  index : p ≠ 8 → p ≠ 17 → s.bitIdx.toNat = bitIndex p
  scl : s.scl = (!second && decide (p ≠ 0))
  drive : s.sdaDriveLow = if second then !bits p else if p = 0 then true else !bits (p - 1)

/-- In one of the three periods of STOP, where SDA was left at `last`. -/
structure AtStop (last : Bool) (k : ℕ) (s : I2cMaster) : Prop where
  state : s.state = .stop
  phase : s.phase = decide (k ≠ 0)
  scl : s.scl = decide (k ≠ 1)
  drive : s.sdaDriveLow = if k = 0 then last else true

theorem bitState_ne_idle (rw : Bool) (p : ℕ) : bitState rw p ≠ .idle ∧ bitState rw p ≠ .stop := by
  unfold bitState
  cases rw <;> split_ifs <;> simp

/-- The regions of a transfer: the address, its acknowledgement, the byte, its
acknowledgement. -/
theorem bit_cases {p : ℕ} (hp : p < 18) : p < 8 ∨ p = 8 ∨ (8 < p ∧ p < 17) ∨ p = 17 := by omega

section Tick

variable {addrRw tx : BitVec 8} {rw : Bool} {p : ℕ} (pulled : Bool) (hp : p < 18) (hs : s.state = bitState rw p)
  (hidx : p ≠ 8 → p ≠ 17 → s.bitIdx.toNat = bitIndex p)

include hp hs hidx

/-- The tick in the middle of a bit takes SCL down and puts the bit on SDA. -/
theorem tickStep_low (hph : s.phase = false) (haddr : s.addrRw = addrRw) (htx : s.txShift = tx) :
    s.tickStep pulled t = lowPhase (!driven addrRw tx rw p) t := by
  rcases bit_cases hp with h | rfl | ⟨h, h'⟩ | rfl
  · have hi := hidx (by omega) (by omega)
    simp only [bitState, bitIndex, h, if_true] at hs hi
    simp [tickStep, hs, hph, haddr, hi, driven, h]
  · simp only [bitState, Nat.lt_irrefl, if_false, if_true] at hs
    simp [tickStep, hs, hph, driven]
  · have hi := hidx (by omega) (by omega)
    have h8 : ¬ p < 8 := by omega
    have hne : p ≠ 8 := by omega
    simp only [bitState, bitIndex, h8, hne, h', if_false, if_true] at hs hi
    cases rw <;> simp only [Bool.false_eq_true, if_false, if_true] at hs <;>
      simp [tickStep, hs, hph, htx, hi, driven, h8, hne, h']
  · cases rw <;> simp [bitState] at hs <;> simp [tickStep, hs, hph, driven]

end Tick

/-- What the tick at the end of bit `p` does, with SDA at `sda`. -/
structure HighTick (rw : Bool) (p : ℕ) (sda : Bool) (s t s' : I2cMaster) : Prop where
  scl : s'.scl = true
  phase : s'.phase = false
  drive : s'.sdaDriveLow = t.sdaDriveLow
  state : s'.state = if p = 17 ∨ (p = 8 ∧ sda = true) then .stop else bitState rw (p + 1)
  index : p + 1 ≠ 8 → p + 1 ≠ 17 → p ≠ 17 → (p = 8 → sda = false) → s'.bitIdx.toNat = bitIndex (p + 1)
  nack : s'.nack = if (p = 8 ∨ (p = 17 ∧ rw = false)) ∧ sda = true then true else t.nack
  rxShift : s'.rxShift =
    if 8 < p ∧ p < 17 ∧ rw = true then s.rxShift.extractLsb' 0 7 ++ BitVec.ofBool sda else t.rxShift
  rxdata : s'.rxdataReg = if p = 17 ∧ rw = true then s.rxShift else t.rxdataReg

theorem toNat_pred_idx {x : BitVec 3} {m : ℕ} (hx : x.toNat = m + 1) : (x - 1#3).toNat = m := by
  have hne : x ≠ 0#3 := by
    rintro rfl
    simp at hx
  have hpred := Counters.toNat_pred hne
  omega

section Tick

variable {rw : Bool} {p : ℕ} (pulled : Bool) (hp : p < 18) (hs : s.state = bitState rw p)
  (hidx : p ≠ 8 → p ≠ 17 → s.bitIdx.toNat = bitIndex p) (hph : s.phase = true) (hrw : s.rwR = rw)
  (ht : t.state = s.state)

include hp hs hidx hph hrw ht

theorem tickStep_high : HighTick rw p (s.sda pulled) s t (s.tickStep pulled t) := by
  rcases bit_cases hp with h | rfl | ⟨h, h'⟩ | rfl
  · have hi := hidx (by omega) (by omega)
    simp only [bitState, bitIndex, h, if_true] at hs hi
    by_cases h7 : p = 7
    · subst h7
      have hz : s.bitIdx = 0#3 := BitVec.eq_of_toNat_eq hi
      constructor <;> simp [tickStep, hs, hph, hz, highPhase, bitState]
    · have hz : s.bitIdx ≠ 0#3 := by
        intro hz
        rw [hz] at hi
        simp at hi
        omega
      have hnext : (s.bitIdx - 1#3).toNat = 7 - (p + 1) := toNat_pred_idx (by omega)
      have hlt : p + 1 < 8 := by omega
      constructor <;> simp [tickStep, hs, hph, hz, highPhase, bitState, bitIndex, hlt, hnext, ht] <;> omega
  · simp only [bitState, Nat.lt_irrefl, if_false, if_true] at hs
    cases hsda : s.sda pulled with
    | true => constructor <;> simp [tickStep, hs, hph, hsda, highPhase]
    | false =>
      cases rw <;> constructor <;> simp [tickStep, hs, hph, hsda, hrw, highPhase, bitState, bitIndex]
  · have hi := hidx (by omega) (by omega)
    have h8 : ¬ p < 8 := by omega
    have hne : p ≠ 8 := by omega
    have hne' : p ≠ 17 := by omega
    simp only [bitState, bitIndex, h8, hne, h', if_false, if_true] at hs hi
    by_cases h16 : p = 16
    · subst h16
      have hz : s.bitIdx = 0#3 := BitVec.eq_of_toNat_eq hi
      cases rw <;> simp only [Bool.false_eq_true, if_false, if_true] at hs <;> constructor <;>
        simp [tickStep, hs, hph, hz, highPhase, bitState]
    · have hz : s.bitIdx ≠ 0#3 := by
        intro hz
        rw [hz] at hi
        simp at hi
        omega
      have hnext : (s.bitIdx - 1#3).toNat = 16 - (p + 1) := toNat_pred_idx (by omega)
      have hlt : p + 1 < 17 := by omega
      have hlt8 : ¬ p + 1 < 8 := by omega
      have hne8 : p ≠ 7 := by omega
      cases rw <;> simp only [Bool.false_eq_true, if_false, if_true] at hs <;> constructor <;>
        simp [tickStep, hs, hph, hz, highPhase, bitState, bitIndex, hlt, hlt8, hne8, hne, hne', h, h', hnext, ht]
  · cases rw with
    | true =>
      simp only [bitState] at hs
      constructor <;> simp [tickStep, hs, hph, highPhase]
    | false =>
      simp only [bitState] at hs
      cases hsda : s.sda pulled <;> constructor <;> simp [tickStep, hs, hph, hsda, highPhase]

end Tick

/-! ## A transfer, period by period -/

/-- A transfer of `n` bits in period `k`: START takes two, a bit two and STOP three. `line`
are the levels of SDA at the rises of SCL. -/
inductive Slot (d : Word32) (addrRw tx : BitVec 8) (rw : Bool) (line : ℕ → Bool) (n : ℕ) : ℕ → I2cMaster → Prop
  | start {k : ℕ} {s : I2cMaster} (second : Bool) (hk : k = second.toNat) (hf : InFlight d addrRw tx rw s)
    (hs : s.state = .start) (hph : s.phase = second) (hscl : s.scl = true) (hd : s.sdaDriveLow = second)
    (hn : s.nack = false) : Slot d addrRw tx rw line n k s
  | bit {k : ℕ} {s : I2cMaster} (p : ℕ) (second : Bool) (hk : k = 2 + 2 * p + second.toNat) (hp : p < n)
    (hf : InFlight d addrRw tx rw s) (h : AtBit (driven addrRw tx rw) rw p second s) (hn : s.nack = false)
    (hrx : rw = true → ∀ q, 8 < q → q < p → p ≤ 17 → s.rxShift.getLsbD (p - 1 - q) = line q) :
    Slot d addrRw tx rw line n k s
  | stop {k : ℕ} {s : I2cMaster} (j : ℕ) (hk : k = 2 + 2 * n + j) (hj : j < 3) (hf : InFlight d addrRw tx rw s)
    (h : AtStop (!driven addrRw tx rw (n - 1)) j s)
    (hrx : n = 18 → rw = true → ∀ j < 8, s.rxdataReg.getLsbD (7 - j) = line (9 + j)) : Slot d addrRw tx rw line n k s

/-- The number of bits: no more than the acknowledgement of the address, if SDA is high at
that. -/
def bitCount (line : ℕ → Bool) : ℕ := if line 8 then 9 else 18

theorem bitCount_cases (line : ℕ → Bool) :
    (line 8 = true ∧ bitCount line = 9) ∨ (line 8 = false ∧ bitCount line = 18) := by
  unfold bitCount
  cases line 8 <;> simp

section Slot

variable {d : Word32} {addrRw tx : BitVec 8} {rw : Bool} {line : ℕ → Bool} {k : ℕ}

theorem Slot.inFlight {n : ℕ} (h : Slot d addrRw tx rw line n k s) :
    InFlight d addrRw tx rw s ∧ s.state ≠ .idle ∧ (k < 2 * n + 4 → s.lastTick = false) := by
  cases h with
  | start second hk hf hs => exact ⟨hf, by simp [hs], by simp [lastTick, hs]⟩
  | bit p second hk hp hf h =>
    have hne := bitState_ne_idle rw p
    refine ⟨hf, h.state ▸ hne.1, fun _ => ?_⟩
    simp [lastTick, h.state, hne.2]
  | stop j hk hj hf h =>
    refine ⟨hf, by simp [h.state], fun hlt => ?_⟩
    have hj : j = 0 ∨ j = 1 := by omega
    rcases hj with rfl | rfl
    · simp [lastTick, h.phase]
    · simp [lastTick, h.scl]

theorem Slot.wait {n : ℕ} (h : Slot d addrRw tx rw line n k s) (ht : s.tick = false)
    (hw : i.cpu.writes regDivider = false) : Slot d addrRw tx rw line n k (s.edge true i) := by
  obtain ⟨hf, hs, -⟩ := h.inFlight
  have hf' := hf.wait hs ht hw
  cases h with
  | start second hk _ hs' hph hscl hd hn =>
    refine .start second hk hf' ?_ ?_ ?_ ?_ ?_ <;> simp [fsm_wait hs ht, pre, hs', hph, hscl, hd, hn]
  | bit p second hk hp _ h hn hrx =>
    refine .bit p second hk hp hf' ⟨?_, ?_, fun h8 h17 => ?_, ?_, ?_⟩ ?_ fun hrw => ?_
    · simpa [fsm_wait hs ht, pre] using h.state
    · simpa [fsm_wait hs ht, pre] using h.phase
    · simpa [fsm_wait hs ht, pre] using h.index h8 h17
    · simpa [fsm_wait hs ht, pre] using h.scl
    · simpa [fsm_wait hs ht, pre] using h.drive
    · simp [fsm_wait hs ht, pre, hn]
    · rw [edge_rxShift, fsm_wait hs ht]
      exact hrx hrw
  | stop j hk hj _ h hrx =>
    refine .stop j hk hj hf' ⟨?_, ?_, ?_, ?_⟩ fun hn hrw => ?_
    · simpa [fsm_wait hs ht, pre] using h.state
    · simpa [fsm_wait hs ht, pre] using h.phase
    · simpa [fsm_wait hs ht, pre] using h.scl
    · simpa [fsm_wait hs ht, pre] using h.drive
    · rw [edge_rxdataReg, fsm_wait hs ht]
      exact hrx hn hrw

theorem pre_nack {j : LiteReq} (h : s.nack = false) : (s.pre j).nack = false := by
  simp [pre, h]

/-- The middle of a bit. -/
theorem AtBit.low {p : ℕ} (h : AtBit (driven addrRw tx rw) rw p false s) (hf : InFlight d addrRw tx rw s) (hp : p < 18)
    (ht : s.tick = true) :
    AtBit (driven addrRw tx rw) rw p true (s.edge true i) ∧ (s.edge true i).nack = (s.pre i.cpu).nack ∧
      (s.edge true i).rxShift = s.rxShift := by
  have hs : s.state ≠ .idle := h.state ▸ (bitState_ne_idle rw p).1
  have hstep := tickStep_low i.pulled (t := { s.pre i.cpu with divCnt := 0 }) hp h.state h.index h.phase
    hf.addrRw hf.txShift
  have hfsm := (fsm_tick (j := i.cpu) hs ht).trans hstep
  refine ⟨⟨?_, ?_, fun h8 h17 => ?_, ?_, ?_⟩, ?_, ?_⟩
  · rw [edge_state, hfsm]
    exact h.state
  · rw [edge_phase, hfsm]
    rfl
  · rw [edge_bitIdx, hfsm]
    exact h.index h8 h17
  · rw [edge_scl, hfsm]
    rfl
  · rw [edge_sdaDriveLow, hfsm]
    rfl
  · rw [edge_nack, hfsm]
    rfl
  · rw [edge_rxShift, hfsm]
    rfl

/-- The end of a bit. -/
theorem AtBit.highTick {p : ℕ} (h : AtBit (driven addrRw tx rw) rw p true s) (hf : InFlight d addrRw tx rw s)
    (hp : p < 18) (ht : s.tick = true) :
    HighTick rw p (s.sda i.pulled) s { s.pre i.cpu with divCnt := 0 } (s.edge true i) := by
  have hs : s.state ≠ .idle := h.state ▸ (bitState_ne_idle rw p).1
  have hstep := tickStep_high i.pulled (t := { s.pre i.cpu with divCnt := 0 }) hp h.state h.index h.phase
    hf.rwR rfl
  rw [← fsm_tick (j := i.cpu) hs ht] at hstep
  exact ⟨hstep.scl, hstep.phase, hstep.drive, hstep.state, hstep.index, hstep.nack, hstep.rxShift, hstep.rxdata⟩

/-- The bits taken in, after one more. -/
theorem received_succ {p : ℕ} {sda : Bool} {s' t : I2cMaster} (h : HighTick rw p sda s t s') (hrw : rw = true)
    (hsda : sda = line p) (hp : p < 17) (hrx : ∀ q, 8 < q → q < p → p ≤ 17 → s.rxShift.getLsbD (p - 1 - q) = line q)
    {q : ℕ} (hq : 8 < q) (hqp : q < p + 1) : s'.rxShift.getLsbD (p + 1 - 1 - q) = line q := by
  obtain ⟨m, rfl⟩ : ∃ m, p = 9 + m := ⟨p - 9, by omega⟩
  obtain ⟨j, rfl⟩ : ∃ j, q = 9 + j := ⟨q - 9, by omega⟩
  have hbits (j : ℕ) (hj : j < m) : s.rxShift.getLsbD (m - 1 - j) = line (9 + j) := by
    rw [← hrx (9 + j) (by omega) (by omega) (by omega), show 9 + m - 1 - (9 + j) = m - 1 - j by omega]
  rw [h.rxShift, if_pos ⟨by omega, hp, hrw⟩, hsda, show 9 + m + 1 - 1 - (9 + j) = m + 1 - 1 - j by omega]
  exact Concat.shiftIn_bits (f := fun j => line (9 + j)) hbits (by omega) j (by omega)

/-- The last bit is the second acknowledgement or one of the address that is missing. -/
theorem last_bit_iff {p : ℕ} (hp : p < bitCount line) : p + 1 = bitCount line ↔ p = 17 ∨ (p = 8 ∧ line p = true) := by
  rcases bitCount_cases line with ⟨h8, hn⟩ | ⟨h8, hn⟩
  · constructor
    · intro h
      obtain rfl : p = 8 := by omega
      exact .inr ⟨rfl, h8⟩
    · rintro (rfl | ⟨rfl, -⟩) <;> omega
  · constructor
    · intro h
      exact .inl (by omega)
    · rintro (rfl | ⟨rfl, hl⟩)
      · exact hn.symm
      · rw [h8] at hl
        cases hl

/-- The tick at the end of bit `p` goes on to the next bit or to STOP. -/
theorem Slot.next_bit {p : ℕ} (hp : p < bitCount line) (hf : InFlight d addrRw tx rw s)
    (h : AtBit (driven addrRw tx rw) rw p true s) (hn : s.nack = false) (ht : s.tick = true)
    (hsda : s.sda i.pulled = line p) (hf' : InFlight d addrRw tx rw (s.edge true i))
    (hrx : rw = true → ∀ q, 8 < q → q < p → p ≤ 17 → s.rxShift.getLsbD (p - 1 - q) = line q) :
    Slot d addrRw tx rw line (bitCount line) (2 + 2 * p + 2) (s.edge true i) := by
  have hcount := bitCount_cases line
  have htick := h.highTick (i := i) hf (by omega) ht
  rw [hsda] at htick
  have hdrive : (s.edge true i).sdaDriveLow = !driven addrRw tx rw p := htick.drive.trans h.drive
  by_cases hlast : p + 1 = bitCount line
  · refine .stop 0 (by omega) (by omega) hf' ⟨?_, htick.phase, htick.scl, ?_⟩ fun h18 hrw j hj => ?_
    · rw [htick.state, if_pos ((last_bit_iff hp).1 hlast)]
    · rw [hdrive, ← hlast]
      rfl
    · obtain rfl : p = 17 := by omega
      have hbit := hrx hrw (9 + j) (by omega) (by omega) (by omega)
      rw [htick.rxdata, if_pos ⟨rfl, hrw⟩, ← hbit, show 17 - 1 - (9 + j) = 7 - j by omega]
  · have hgo : ¬ (p = 17 ∨ (p = 8 ∧ line p = true)) := fun hl => hlast ((last_bit_iff hp).2 hl)
    have hack : p = 8 → line p = false := fun h8 => by
      rw [← Bool.not_eq_true]
      exact fun hl => hgo (.inr ⟨h8, hl⟩)
    have hkeep : ¬ ((p = 8 ∨ (p = 17 ∧ rw = false)) ∧ line p = true) := by
      rintro ⟨h8 | ⟨h17, -⟩, hl⟩
      · exact hgo (.inr ⟨h8, hl⟩)
      · exact hgo (.inl h17)
    refine .bit (p + 1) false rfl (by omega) hf'
      ⟨?_, htick.phase, fun h8 h17 => htick.index h8 h17 (by omega) hack, ?_, ?_⟩ ?_ fun hrw q hq hqp hp17 => ?_
    · rw [htick.state, if_neg hgo]
    · simp [htick.scl]
    · simp [hdrive]
    · rw [htick.nack, if_neg hkeep]
      exact pre_nack hn
    · exact received_succ htick hrw rfl (by omega) (hrx hrw) hq hqp

/-- The first two ticks of STOP. -/
theorem AtStop.next {last : Bool} {j : ℕ} (h : AtStop last j s) (hj : j < 2) (ht : s.tick = true) :
    AtStop last (j + 1) (s.edge true i) ∧ (s.edge true i).rxdataReg = s.rxdataReg := by
  have hs : s.state ≠ .idle := by simp [h.state]
  have hj : j = 0 ∨ j = 1 := by omega
  rcases hj with rfl | rfl
  · have hph : s.phase = false := by simp [h.phase]
    refine ⟨⟨?_, ?_, ?_, ?_⟩, ?_⟩ <;> simp [fsm_tick hs ht, tickStep, h.state, hph, lowPhase, pre]
  · have hph : s.phase = true := by simp [h.phase]
    have hscl : s.scl = false := by simp [h.scl]
    have hdrive : s.sdaDriveLow = true := by simp [h.drive]
    refine ⟨⟨?_, ?_, ?_, ?_⟩, ?_⟩ <;> simp [fsm_tick hs ht, tickStep, h.state, hph, hscl, hdrive, pre]

theorem Slot.tick (h : Slot d addrRw tx rw line (bitCount line) k s) (hk : k < 2 * bitCount line + 4)
    (ht : s.tick = true) (hline : ∀ p, k = 2 * p + 3 → s.sda i.pulled = line p) (hw : i.cpu.writes regDivider = false) :
    Slot d addrRw tx rw line (bitCount line) (k + 1) (s.edge true i) := by
  obtain ⟨hf, hs, hl⟩ := h.inFlight
  have hf' := hf.tick hs ht (hl hk) hw
  have hcount := bitCount_cases line
  cases h with
  | start second hk _ hs' hph hscl hd hn =>
    cases second with
    | false =>
      refine .start true (by simp [hk]) hf' ?_ ?_ ?_ ?_ ?_ <;>
        simp [fsm_tick hs ht, tickStep, hs', hph, pre, hscl, hn]
    | true =>
      refine .bit 0 false (by simp [hk]) (by omega) hf' ⟨?_, ?_, fun _ _ => ?_, ?_, ?_⟩ ?_ fun _ q hq hq0 => by omega
      all_goals simp [fsm_tick hs ht, tickStep, hs', hph, pre, hd, hn, bitState, bitIndex]
  | bit p second hk hp _ h hn hrx =>
    cases second with
    | false =>
      obtain ⟨hbit, hnack, hshift⟩ := h.low (i := i) hf (by omega) ht
      exact .bit p true (by simp [hk]) hp hf' hbit (hnack.trans (pre_nack hn)) (by rwa [hshift])
    | true =>
      simp only [Bool.toNat_true] at hk
      have hsda := hline p (by omega)
      rw [hk]
      exact .next_bit hp hf h hn ht hsda hf' hrx
  | stop j hk hj _ h hrx =>
    obtain ⟨hnext, hkeep⟩ := h.next (i := i) (by omega) ht
    exact .stop (j + 1) (by omega) (by omega) hf' hnext (by rwa [hkeep])

/-- SCL in each period. -/
theorem Slot.scl_eq {n : ℕ} (h : Slot d addrRw tx rw line n k s) (hn : 0 < n) :
    s.scl = decide (k < 2 ∨ (4 ≤ k ∧ k % 2 = 0)) := by
  cases h with
  | start second hk _ _ _ hscl => cases second <;> simp [hk, hscl]
  | bit p second hk hp _ h =>
    rw [h.scl, hk]
    cases second with
    | false =>
      simp only [Bool.not_false, Bool.true_and, Bool.toNat_false, decide_eq_decide]
      omega
    | true =>
      simp only [Bool.not_true, Bool.false_and, Bool.toNat_true]
      symm
      rw [decide_eq_false_iff_not]
      omega
  | stop j hk hj _ h =>
    rw [h.scl, hk, decide_eq_decide]
    omega

/-- SDA, as the master drives it, in each period. -/
theorem Slot.drive_eq {n : ℕ} (h : Slot d addrRw tx rw line n k s) (hn : 0 < n) :
    s.sdaDriveLow =
      if k = 0 then false else if k ≤ 2 then true
      else if k ≤ 2 * n + 2 then !driven addrRw tx rw ((k - 3) / 2) else true := by
  cases h with
  | start second hk _ _ _ _ hd => cases second <;> simp [hk, hd]
  | bit p second hk hp _ h =>
    rw [h.drive]
    cases second with
    | false =>
      simp only [Bool.toNat_false] at hk
      cases p with
      | zero => simp [hk]
      | succ p =>
        rw [if_neg Bool.false_ne_true, if_neg (Nat.succ_ne_zero p), Nat.add_sub_cancel, if_neg (by omega),
          if_neg (by omega), if_pos (by omega), show (k - 3) / 2 = p by omega]
    | true =>
      simp only [Bool.toNat_true] at hk
      rw [if_pos rfl, if_neg (by omega), if_neg (by omega), if_pos (by omega), show (k - 3) / 2 = p by omega]
  | stop j hk hj _ h =>
    rw [h.drive]
    cases j with
    | zero =>
      rw [if_pos rfl, if_neg (by omega), if_neg (by omega), if_pos (by omega), show (k - 3) / 2 = n - 1 by omega]
    | succ j => rw [if_neg (by omega), if_neg (by omega), if_neg (by omega), if_neg (by omega)]

theorem slot_start (line : ℕ → Bool) (h : Ok s) (hst : s.doStart i.cpu = true) {n : ℕ} :
    Slot s.dividerReg (s.addrReg ++ BitVec.ofBool (i.cpu.wdata.getLsbD 1)) s.txdataReg (i.cpu.wdata.getLsbD 1) line n 0
        (s.edge true i) ∧ (s.edge true i).divCnt = 0#32 := by
  have hs := h.idle_of_doStart hst
  have hw := writes_ctrl_of_doStart hst
  refine ⟨.start false rfl ⟨edge_keeps_divider hw, ?_, ?_, ?_, ?_, ?_, ?_⟩ ?_ ?_ ?_ ?_ ?_, ?_⟩ <;>
    simp [fsm_start hs hst, pre]

/-- The cycle after a transfer. -/
structure Finished (rw : Bool) (line : ℕ → Bool) (s : I2cMaster) : Prop where
  state : s.state = .idle
  released : s.scl = true ∧ s.sdaDriveLow = false
  busy : s.busy = false
  done : s.done = true
  irq : s.irqPulse = true
  rxdata : line 8 = false → rw = true → ∀ j < 8, s.rxdataReg.getLsbD (7 - j) = line (9 + j)

theorem Slot.finish (h : Slot d addrRw tx rw line (bitCount line) (2 * bitCount line + 4) s) (ht : s.tick = true) :
    Finished rw line (s.edge true i) := by
  obtain ⟨-, hs, -⟩ := h.inFlight
  have hcount := bitCount_cases line
  cases h with
  | start second hk =>
    cases second <;> simp only [Bool.toNat_false, Bool.toNat_true] at hk <;> omega
  | bit p second hk hp =>
    cases second <;> simp only [Bool.toNat_false, Bool.toNat_true] at hk <;> omega
  | stop j hk hj _ h hrx =>
    obtain rfl : j = 2 := by omega
    have hlast : s.lastTick = true := by simp [lastTick, h.state, h.phase, h.scl]
    refine ⟨?_, ⟨?_, ?_⟩, ?_, ?_, ?_, fun h8 hrw => ?_⟩
    · rw [edge_state, fsm_last ht hlast]
    · rw [edge_scl, fsm_last ht hlast]
      exact h.scl
    · rw [edge_sdaDriveLow, fsm_last ht hlast]
    · rw [edge_busy, fsm_last ht hlast]
    · rw [edge_done, fsm_last ht hlast]
    · rw [edge_irqPulse, fsm_last ht hlast]
    · rw [edge_rxdataReg, fsm_last ht hlast]
      exact hrx (by simpa [h8] using hcount) hrw

end Slot

/-! ## The law of a transfer -/

/-- The period of the divider at a START in cycle `t`. -/
def period (r : Run edge) (t : ℕ) : ℕ := (r.st t).dividerReg.toNat

/-- The cycle that tick `k` ends, in a transfer started in cycle `t`. -/
def tickCycle (r : Run edge) (t k : ℕ) : ℕ := t + k * period r t

/-- The cycle that rise `p` of SCL ends. -/
def rise (r : Run edge) (t p : ℕ) : ℕ := tickCycle r t (2 * p + 4)

/-- SDA in cycle `n`. -/
def sdaAt (r : Run edge) (n : ℕ) : Bool := (r.st n).sda (r.inp n).pulled

/-- SDA at the rises of SCL. -/
def line (r : Run edge) (t p : ℕ) : Bool := sdaAt r (rise r t p)

/-- The bits before STOP. -/
def count (r : Run edge) (t : ℕ) : ℕ := bitCount (line r t)

/-- The direction, as START brings it. -/
def reading (r : Run edge) (t : ℕ) : Bool := (r.inp t).cpu.wdata.getLsbD 1

/-- The address and the direction. -/
def addrByte (r : Run edge) (t : ℕ) : BitVec 8 := (r.st t).addrReg ++ BitVec.ofBool (reading r t)

/-- The cycle that the last tick ends. -/
def lastCycle (r : Run edge) (t : ℕ) : ℕ := tickCycle r t (2 * count r t + 5)

section Run

variable {r : Run edge} {t : ℕ}

theorem period_pos (r : Run edge) (t : ℕ) : 0 < period r t :=
  Nat.pos_of_ne_zero (Counters.toNat_ne_zero (ok_run r t).divider)

theorem tickCycle_lt (r : Run edge) (t : ℕ) {k k' : ℕ} (h : k < k') : tickCycle r t k < tickCycle r t k' :=
  Nat.add_lt_add_left (Nat.mul_lt_mul_of_pos_right h (period_pos r t)) t

theorem tickCycle_zero (r : Run edge) (t : ℕ) : tickCycle r t 0 = t := by simp [tickCycle]

/-- A transfer during which DIVIDER is left alone, period by period. -/
theorem slots (hst : (r.st t).doStart (r.inp t).cpu = true)
    (hdiv : ∀ n, t < n → n < lastCycle r t → (r.inp n).cpu.writes regDivider = false) :
    ∀ k < 2 * count r t + 5, ∀ c < period r t,
      Slot (r.st t).dividerReg (addrByte r t) (r.st t).txdataReg (reading r t) (line r t) (count r t) k
          (r.st (t + 1 + (k * period r t + c))) ∧
        ((r.st (t + 1 + (k * period r t + c))).tick = true ↔ c + 1 = period r t) := by
  have hd := (ok_run r t).divider
  have hpos := period_pos r t
  have htick {k : ℕ} {s : I2cMaster} (h : Slot (r.st t).dividerReg (addrByte r t) (r.st t).txdataReg (reading r t)
      (line r t) (count r t) k s) : s.tick = true ↔ s.divCnt.toNat + 1 = (r.st t).dividerReg.toNat := by
    rw [tick_iff (by rw [h.inFlight.1.divider]; exact hd), h.inFlight.1.divider]
  obtain ⟨h0, hcnt0⟩ := slot_start (line r t) (ok_run r t) hst (n := count r t)
  -- the last tick ends the last slot and leads to none
  obtain ⟨hin, -⟩ := grid_divided r divCnt tick (a := t + 1) (K := 2 * count r t + 5)
    (P := fun k s => k < 2 * count r t + 5 →
      Slot (r.st t).dividerReg (addrByte r t) (r.st t).txdataReg (reading r t) (line r t) (count r t) k s) hd
    (fun k hk s h => htick (h hk)) ⟨fun _ => h0, hcnt0⟩
    (fun k hk n hn hn' h ht => by
      have hw := hdiv n (by omega) (by rw [lastCycle, tickCycle, period]; omega)
      exact ⟨fun _ => (h hk).wait ht hw, by rw [r.st_succ, edge_divCnt, fsm_wait (h hk).inFlight.2.1 ht]; rfl⟩)
    (fun k hk n hn h ht => by
      have hcyc : n = tickCycle r t (k + 1) := by
        rw [tickCycle, period]
        omega
      refine ⟨fun hk' => (h hk).tick (by rw [← count]; omega) ht (fun p hp => ?_) (hdiv n ?_ ?_),
        divCnt_tick (h hk).inFlight.2.1 ht⟩
      · rw [line, rise, show 2 * p + 4 = k + 1 by omega, ← hcyc]
        rfl
      · have hlt := tickCycle_lt r t (Nat.succ_pos k)
        rwa [tickCycle_zero, ← hcyc] at hlt
      · exact hcyc ▸ tickCycle_lt r t (by omega))
  exact fun k hk c hc => ⟨(hin k hk c hc).1 hk, (hin k hk c hc).2⟩

/-- The level that the master gives SDA at rise `p` of SCL: the address and the direction
first, then it lets go for the acknowledgement. -/
def masterBit (r : Run edge) (t p : ℕ) : Bool := driven (addrByte r t) (r.st t).txdataReg (reading r t) p

/-- An acknowledgement that was due did not come. -/
def missed (r : Run edge) (t : ℕ) : Bool := line r t 8 || (!reading r t && line r t 17)

/-- The cycle that the last acknowledgement ends. -/
def ackCycle (r : Run edge) (t : ℕ) : ℕ := rise r t (count r t - 1)

/-- What the wires and the registers do in a transfer started in cycle `t`. -/
structure TransferLaw (r : Run edge) (t : ℕ) : Prop where
  /-- SCL rises once for each bit and once more. -/
  rises : ∀ m, t < m → m ≤ lastCycle r t →
    ((r.st m).scl = false ∧ (r.st (m + 1)).scl = true ↔ ∃ p ≤ count r t, m = rise r t p)
  /-- The bits, before and after the rises. -/
  bits : ∀ p < count r t, (r.st (rise r t p)).sdaDriveLow = (!masterBit r t p) ∧
    (r.st (rise r t p + 1)).sdaDriveLow = !masterBit r t p
  /-- SDA is low at the last rise, and let go at the end, with SCL high. -/
  stop : (∀ m, rise r t (count r t) ≤ m → m ≤ lastCycle r t → (r.st m).sdaDriveLow = true) ∧
    (∀ m, rise r t (count r t) < m → m ≤ lastCycle r t + 1 → (r.st m).scl = true) ∧
    (r.st (lastCycle r t + 1)).sdaDriveLow = false
  rxdata : line r t 8 = false → reading r t = true → ∀ j < 8,
    (r.st (lastCycle r t + 1)).rxdataReg.getLsbD (7 - j) = line r t (9 + j)
  /-- NACK is 0 until the last acknowledgement, and then, until it is cleared, as that was. -/
  noNack : ∀ m, t < m → m ≤ ackCycle r t → (r.st m).nack = false
  nack : ∀ m, ackCycle r t < m →
    (∀ j, ackCycle r t < j → j < m → clearsNack (r.inp j).cpu = false ∧ (r.st j).doStart (r.inp j).cpu = false) →
      (r.st m).nack = missed r t
  during : ∀ m, t < m → m ≤ lastCycle r t →
    (r.st m).busy = true ∧ (r.st m).done = false ∧ (r.st m).irqPulse = false
  /-- Until another START there is one pulse and RXDATA stays, and DONE until it is cleared. -/
  after : ∀ m, lastCycle r t + 1 ≤ m →
    (∀ j, lastCycle r t + 1 ≤ j → j < m → (r.st j).doStart (r.inp j).cpu = false) →
      (r.st m).busy = false ∧ ((r.st m).irqPulse = true ↔ m = lastCycle r t + 1) ∧
        (r.st m).rxdataReg = (r.st (lastCycle r t + 1)).rxdataReg ∧
        ((∀ j, lastCycle r t + 1 ≤ j → j < m → clearsDone (r.inp j).cpu = false) → (r.st m).done = true)

/-- The registers of a finished transfer until the next. -/
theorem after_finished {e n : ℕ} {rw : Bool} {line : ℕ → Bool} (h : Finished rw line (r.st e))
    (hn : ∀ m, e ≤ m → m < e + n → (r.st m).doStart (r.inp m).cpu = false) :
    (r.st (e + n)).state = .idle ∧ ((r.st (e + n)).irqPulse = true ↔ n = 0) ∧
      (r.st (e + n)).rxdataReg = (r.st e).rxdataReg ∧
      ((∀ m, e ≤ m → m < e + n → clearsDone (r.inp m).cpu = false) → (r.st (e + n)).done = true) := by
  refine r.at_rest (fun s => s.state = .idle) (fun s i => s.doStart i.cpu) (fun _ i => clearsDone i.cpu)
    (fun s i hs hno => ?_) h.state h.irq h.done hn
  refine ⟨?_, ?_, ?_, fun hd hc => ?_⟩
  · simp [fsm_idle hs hno, pre, hs]
  · simp [fsm_idle hs hno, pre]
  · rw [edge_rxdataReg, fsm_idle hs hno]
    rfl
  · simp [fsm_idle hs hno, pre, hc, hd]

/-- STOP and what follows it leave NACK alone. -/
theorem nack_edge {s : I2cMaster} {i : I2cIn} (hs : s.state = .stop ∨ s.state = .idle) (hst : s.doStart i.cpu = false)
    (hclear : clearsNack i.cpu = false) :
    ((s.edge true i).state = .stop ∨ (s.edge true i).state = .idle) ∧ (s.edge true i).nack = s.nack := by
  rcases hs with hs | hs
  · have hne : s.state ≠ .idle := by simp [hs]
    cases ht : s.tick with
    | false => exact ⟨by simp [fsm_wait hne ht, pre, hs], by simp [fsm_wait hne ht, pre, hclear]⟩
    | true =>
      rw [edge_state, edge_nack, fsm_tick hne ht]
      simp only [tickStep, hs]
      split_ifs <;> simp [lowPhase, pre, hs, hclear]
  · exact ⟨by simp [fsm_idle hs hst, pre, hs], by simp [fsm_idle hs hst, pre, hclear]⟩

section Law

variable (hst : (r.st t).doStart (r.inp t).cpu = true)
  (hdiv : ∀ n, t < n → n < lastCycle r t → (r.inp n).cpu.writes regDivider = false)

include hst hdiv

/-- A cycle of the transfer is one of a period. -/
theorem slot_at {m : ℕ} (hm : t < m) (hm' : m ≤ lastCycle r t) :
    ∃ k < 2 * count r t + 5, ∃ c < period r t, m = t + 1 + (k * period r t + c) ∧
      Slot (r.st t).dividerReg (addrByte r t) (r.st t).txdataReg (reading r t) (line r t) (count r t) k (r.st m) := by
  obtain ⟨k, hk, c, hc, heq⟩ := exists_slot (d := period r t) (K := 2 * count r t + 5) (m := m - (t + 1)) (by
    rw [lastCycle, tickCycle] at hm'
    omega)
  have heq' : m = t + 1 + (k * period r t + c) := by omega
  refine ⟨k, hk, c, hc, heq', ?_⟩
  rw [heq']
  exact (slots hst hdiv k hk c hc).1

/-- The first cycle of a period. -/
theorem slot_first {k : ℕ} (hk : k < 2 * count r t + 5) :
    Slot (r.st t).dividerReg (addrByte r t) (r.st t).txdataReg (reading r t) (line r t) (count r t) k
      (r.st (tickCycle r t k + 1)) := by
  have h := (slots hst hdiv k hk 0 (period_pos r t)).1
  rwa [show t + 1 + (k * period r t + 0) = tickCycle r t k + 1 by rw [tickCycle]; omega] at h

/-- The last cycle of a period. -/
theorem slot_end {k : ℕ} (hk : k < 2 * count r t + 5) :
    Slot (r.st t).dividerReg (addrByte r t) (r.st t).txdataReg (reading r t) (line r t) (count r t) k
        (r.st (tickCycle r t (k + 1))) ∧ (r.st (tickCycle r t (k + 1))).tick = true := by
  have hpos := period_pos r t
  obtain ⟨h, ht⟩ := slots hst hdiv k hk (period r t - 1) (by omega)
  rw [slot_last hpos] at h ht
  exact ⟨h, ht.2 (Nat.sub_add_cancel hpos)⟩

theorem finished : Finished (reading r t) (line r t) (r.st (lastCycle r t + 1)) := by
  obtain ⟨h, ht⟩ := slot_end hst hdiv (k := 2 * count r t + 4) (by omega)
  exact h.finish ht

omit hst hdiv in
theorem count_cases : (line r t 8 = true ∧ count r t = 9) ∨ (line r t 8 = false ∧ count r t = 18) :=
  bitCount_cases (line r t)

theorem rises_iff {m : ℕ} (hm : t < m) (hm' : m ≤ lastCycle r t) :
    (r.st m).scl = false ∧ (r.st (m + 1)).scl = true ↔ ∃ p ≤ count r t, m = rise r t p := by
  have hcount := count_cases (r := r) (t := t)
  obtain ⟨k, hk, c, hc, heq, hslot⟩ := slot_at hst hdiv hm hm'
  have hend (k' : ℕ) : m = tickCycle r t k' ↔ c + 1 = period r t ∧ k' = k + 1 := by
    rw [← slot_end_iff hc, heq, tickCycle]
    omega
  have hscl := hslot.scl_eq (by omega)
  by_cases hlast : c + 1 = period r t
  · have hcyc : m = tickCycle r t (k + 1) := (hend _).2 ⟨hlast, rfl⟩
    have hrise : (∃ p ≤ count r t, m = rise r t p) ↔ 3 ≤ k ∧ k % 2 = 1 := by
      constructor
      · rintro ⟨p, -, hp⟩
        have h := ((hend _).1 hp).2
        omega
      · rintro ⟨h3, hodd⟩
        exact ⟨(k - 3) / 2, by omega, (hend _).2 ⟨hlast, by omega⟩⟩
    rw [hrise, hscl, decide_eq_false_iff_not]
    by_cases hk' : k + 1 < 2 * count r t + 5
    · have hnext := (slot_first hst hdiv hk').scl_eq (by omega)
      rw [← hcyc] at hnext
      rw [hnext, decide_eq_true_eq]
      omega
    · omega
  · have hnext := (slots hst hdiv k hk (c + 1) (by omega)).1.scl_eq (by omega)
    rw [show t + 1 + (k * period r t + (c + 1)) = m + 1 by omega] at hnext
    rw [hscl, hnext]
    refine iff_of_false (fun h => ?_) ?_
    · rw [h.1] at h
      exact Bool.false_ne_true h.2
    · rintro ⟨p, -, hp⟩
      exact hlast ((hend _).1 hp).1

theorem bits_rise {p : ℕ} (hp : p < count r t) :
    (r.st (rise r t p)).sdaDriveLow = (!masterBit r t p) ∧ (r.st (rise r t p + 1)).sdaDriveLow = !masterBit r t p := by
  have hbefore := (slot_end hst hdiv (k := 2 * p + 3) (by omega)).1.drive_eq (by omega)
  have hafter := (slot_first hst hdiv (k := 2 * p + 4) (by omega)).drive_eq (by omega)
  rw [if_neg (by omega), if_neg (by omega), if_pos (by omega), show (2 * p + 3 - 3) / 2 = p by omega] at hbefore
  rw [if_neg (by omega), if_neg (by omega), if_pos (by omega), show (2 * p + 4 - 3) / 2 = p by omega] at hafter
  exact ⟨hbefore, hafter⟩

/-- The last two periods. -/
theorem stop_lines {m : ℕ} (hm : rise r t (count r t) ≤ m) (hm' : m ≤ lastCycle r t) :
    (r.st m).sdaDriveLow = true ∧ (rise r t (count r t) < m → (r.st m).scl = true) := by
  have hcount := count_cases (r := r) (t := t)
  have hlt : t < rise r t (count r t) := by
    have h := tickCycle_lt r t (show 0 < 2 * count r t + 4 by omega)
    rwa [tickCycle_zero] at h
  obtain ⟨k, hk, c, hc, heq, hslot⟩ := slot_at hst hdiv (by omega) hm'
  rw [rise, tickCycle] at hm
  have hk3 : 2 * count r t + 3 ≤ k := by
    rw [← le_slot_iff hc]
    rw [Nat.succ_mul (2 * count r t + 3)] at hm
    omega
  constructor
  · rw [hslot.drive_eq (by omega), if_neg (by omega), if_neg (by omega), if_neg (by omega)]
  · intro hlate
    have hk4 : 2 * count r t + 4 ≤ k := by
      rw [← le_slot_iff hc]
      rw [rise, tickCycle] at hlate
      omega
    rw [hslot.scl_eq (by omega), decide_eq_true_eq]
    omega

theorem noNack_before {m : ℕ} (hm : t < m) (hm' : m ≤ ackCycle r t) : (r.st m).nack = false := by
  have hcount := count_cases (r := r) (t := t)
  have hle : ackCycle r t ≤ lastCycle r t := Nat.le_of_lt (tickCycle_lt r t (by omega))
  obtain ⟨k, hk, c, hc, heq, hslot⟩ := slot_at hst hdiv hm (by omega)
  have hk' : k ≤ 2 * count r t + 1 := by
    by_contra hlt
    have h : (2 * count r t + 2) * period r t ≤ k * period r t + c := (le_slot_iff hc).2 (by omega)
    rw [ackCycle, rise, tickCycle, show 2 * (count r t - 1) + 4 = 2 * count r t + 2 by omega] at hm'
    omega
  cases hslot with
  | start _ _ _ _ _ _ _ hn => exact hn
  | bit _ _ _ _ _ _ hn => exact hn
  | stop j hj => omega

/-- NACK after the last acknowledgement. -/
theorem nack_after : (r.st (ackCycle r t + 1)).state = .stop ∧ (r.st (ackCycle r t + 1)).nack = missed r t := by
  have hcount := count_cases (r := r) (t := t)
  have hcyc : tickCycle r t (2 * count r t + 1 + 1) = ackCycle r t := by
    rw [ackCycle, rise, show 2 * (count r t - 1) + 4 = 2 * count r t + 1 + 1 by omega]
  obtain ⟨hslot, ht⟩ := slot_end hst hdiv (k := 2 * count r t + 1) (by omega)
  rw [hcyc] at hslot ht
  cases hslot with
  | start second hk => cases second <;> simp only [Bool.toNat_false, Bool.toNat_true] at hk <;> omega
  | bit p second hk hp hf h hn =>
    cases second with
    | false =>
      simp only [Bool.toNat_false] at hk
      omega
    | true =>
      simp only [Bool.toNat_true] at hk
      obtain rfl : p = count r t - 1 := by omega
      have htick := h.highTick (i := r.inp (ackCycle r t)) hf (by omega) ht
      rw [r.st_succ]
      have hsda : (r.st (ackCycle r t)).sda (r.inp (ackCycle r t)).pulled = line r t (count r t - 1) := rfl
      rw [hsda] at htick
      refine ⟨?_, ?_⟩
      · rw [htick.state]
        rcases hcount with ⟨h8, hc⟩ | ⟨h8, hc⟩ <;> simp [hc, h8]
      · rw [htick.nack, missed]
        have hpre : ((r.st (ackCycle r t)).pre (r.inp (ackCycle r t)).cpu).nack = false := pre_nack hn
        rcases hcount with ⟨h8, hc⟩ | ⟨h8, hc⟩
        · simp [hc, h8]
        · cases hrd : reading r t <;> cases hl : line r t 17 <;> simp [hc, h8, hl, hpre]
  | stop j hk => omega

theorem nack_run {m : ℕ} (hm : ackCycle r t < m)
    (hclear : ∀ j, ackCycle r t < j → j < m → clearsNack (r.inp j).cpu = false ∧ (r.st j).doStart (r.inp j).cpu = false) :
    ((r.st m).state = .stop ∨ (r.st m).state = .idle) ∧ (r.st m).nack = missed r t := by
  obtain ⟨hs, hn⟩ := nack_after hst hdiv
  induction m, hm using Nat.le_induction with
  | base => exact ⟨.inl hs, hn⟩
  | succ m hm ih =>
    obtain ⟨hs', hn'⟩ := ih fun j hj hjm => hclear j hj (by omega)
    obtain ⟨hno, hst'⟩ := hclear m hm (by omega)
    obtain ⟨hs'', hsame⟩ := nack_edge (i := r.inp m) hs' hst' hno
    exact ⟨hs'', hsame.trans hn'⟩

/-- The law holds of every START that is accepted, if DIVIDER is left alone until the end. -/
theorem i2cTransferLaw : TransferLaw r t where
  rises _ hm hm' := rises_iff hst hdiv hm hm'
  bits _ hp := bits_rise hst hdiv hp
  stop := by
    have hfin := finished hst hdiv
    refine ⟨fun m hm hm' => (stop_lines hst hdiv hm hm').1, fun m hm hm' => ?_, hfin.released.2⟩
    rcases Nat.eq_or_lt_of_le hm' with rfl | hlt
    · exact hfin.released.1
    · exact (stop_lines hst hdiv (Nat.le_of_lt hm) (Nat.le_of_lt_succ hlt)).2 hm
  rxdata := (finished hst hdiv).rxdata
  noNack _ hm hm' := noNack_before hst hdiv hm hm'
  nack _ hm hclear := (nack_run hst hdiv hm hclear).2
  during m hm hm' := by
    obtain ⟨k, -, c, -, -, hslot⟩ := slot_at hst hdiv hm hm'
    have hf := hslot.inFlight.1
    exact ⟨hf.busy, hf.done, hf.irq⟩
  after m hm hq := by
    obtain ⟨k, rfl⟩ := Nat.exists_eq_add_of_le hm
    obtain ⟨hidle, hirq, hrx, hdone⟩ := after_finished (finished hst hdiv) hq
    have hbusy : (r.st (lastCycle r t + 1 + k)).busy = false := by
      rw [← Bool.not_eq_true, (ok_run r _).busy]
      simp [hidle]
    refine ⟨hbusy, hirq.trans ?_, hrx, hdone⟩
    omega

end Law

/-- Registers with any contents before a reset. -/
def anyI2c : I2cMaster :=
  ⟨.rdata, 7, 3, true, 5, 1, 2, 3, 4, 5, 6, true, true, false, true, true, true, false, ⟨false, 0, false, 0, 0⟩⟩

/-- A run with these requests in the first cycles, and nobody on the bus. -/
def runOf (reqs : List LiteReq) : Run edge where
  powerUp := anyI2c
  resetInp := ⟨.noReq, false⟩
  inp n := ⟨(reqs[n]?).getD .noReq, false⟩

/-- The same with DIVIDER at 1 and a slave that pulls SDA low at the bits `low` of a transfer
that is started in cycle 3. -/
def slaveRun (reqs : List LiteReq) (low : List ℕ) : Run edge :=
  { runOf (.writeReg regDivider 1 :: reqs) with
    inp := fun n => { (runOf (.writeReg regDivider 1 :: reqs)).inp n with pulled := 7 ≤ n && low.contains ((n - 7) / 2) } }

/-- A read from 0x50, which acknowledges it and sends 0xA5. -/
def readRun : Run edge := slaveRun [.writeReg regAddr 0x50, .noReq, .writeReg regCtrl 3] [8, 10, 12, 13, 15]

/-- A write of 0x3C, which is acknowledged twice. -/
def writeRun : Run edge := slaveRun [.writeReg regAddr 0x50, .writeReg regTxdata 0x3C, .writeReg regCtrl 1] [8, 17]

theorem slaveRun_divider {reqs : List LiteReq} {low : List ℕ} {n : ℕ} (hn : reqs.length < n) :
    ((slaveRun reqs low).inp n).cpu.writes regDivider = false := by
  have hnone : (LiteReq.writeReg regDivider 1 :: reqs)[n]? = none := List.getElem?_eq_none hn
  simp only [slaveRun, runOf, hnone]
  rfl

set_option maxRecDepth 100000 in
theorem i2cTransferLaw_acked :
    (TransferLaw readRun 3 ∧ lastCycle readRun 3 = 44 ∧ (readRun.st 45).rxdataReg = 0xA5) ∧
      TransferLaw writeRun 3 ∧ lastCycle writeRun 3 = 44 ∧ missed writeRun 3 = false := by
  refine ⟨⟨i2cTransferLaw (by decide) fun n hn _ => slaveRun_divider hn, ?_, ?_⟩,
    i2cTransferLaw (by decide) fun n hn _ => slaveRun_divider hn, ?_, ?_⟩
  all_goals decide +kernel

end Run

end RiscvSoc.I2cMaster
