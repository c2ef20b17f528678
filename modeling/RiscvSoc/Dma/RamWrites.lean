import RiscvSoc.Dma.RamReads
import Mathlib.Data.Nat.Count
/-!
# The write bursts of `dma_ram`

What the memory holds is the fold of the beats it has accepted, whatever is read in
the meantime. It owes each burst one response, and loses one whenever a burst ends
while the response before it is still on show.
-/

namespace RiscvSoc.Dma

open Sync Monitor Aes

variable {k : ℕ}

namespace DmaRam

variable (s : DmaRam k) (i : BurstReq)

/-- The handshakes of the AW and W channels. -/
def writeEvents : List BurstEvent :=
  whenFire i.awvalid (s.wState = .idle) (.aw i.awaddr i.awlen i.awsize i.awburst) ++
    whenFire i.wvalid (s.wState = .burst) (.w i.wdata i.wstrb i.wlast)

/-- The handshake of a beat with WLAST. -/
def completes : Bool := s.wState = .burst && i.wvalid && i.wlast

/-- The handshake of a response. -/
def responds : Bool := s.sBvalid && i.bready

/-- The handshake of a read beat: its data and RLAST. -/
def rBeats : List (Word32 × Bool) := whenFire s.sRvalid i.rready (s.sRdata, s.sRlast)

end DmaRam

/-! ## The memory -/

/-- The memory, with the first index of the burst that is written and the number of its
beats so far. -/
structure WriteTrack (k : ℕ) where
  mem : Mem k
  start : BitVec k
  beat : ℕ

namespace WriteTrack

/-- `(start + beat) mod SIZE_WORDS`. -/
def idx (t : WriteTrack k) : BitVec k := t.start + BitVec.ofNat k t.beat

def next (t : WriteTrack k) : BurstEvent → WriteTrack k
  | .aw addr _ _ _ => { t with start := DmaRam.wordIdx k addr, beat := 0 }
  | .w data strb _ =>
    { t with mem := Function.update t.mem t.idx (Bytes.merge strb (t.mem t.idx) data), beat := t.beat + 1 }
  | _ => t

theorem byteOf_next_w (t : WriteTrack k) (data : Word32) (strb : BitVec 4) (last : Bool) (j : BitVec k) (b : Fin 4) :
    Bytes.byteOf ((t.next (.w data strb last)).mem j) b =
      if j = t.idx ∧ strb.getLsbD b = true then Bytes.byteOf data b else Bytes.byteOf (t.mem j) b := by
  by_cases hj : j = t.idx
  · subst hj
    simp [next, Bytes.byteOf_merge]
  · simp [next, hj]

end WriteTrack

section Memory

variable (s : DmaRam k) (i : BurstReq)

/-- The registers of the write path are where the accepted beats say. -/
def Tracks (s : DmaRam k) (t : WriteTrack k) : Prop := s.mem = t.mem ∧ (s.wState = .burst → s.wWordIdx = t.idx)

theorem tracks_edge {t : WriteTrack k} (h : Tracks s t) :
    Tracks (s.step true i) ((s.writeEvents i).foldl WriteTrack.next t) := by
  obtain ⟨hm, hi⟩ := h
  obtain ⟨h1, h2, h3, -⟩ := ram_write s i
  rw [Tracks, h1, h2, h3]
  cases hs : s.wState with
  | idle =>
    cases ha : i.awvalid with
    | false => simp [DmaRam.writePath, DmaRam.writeEvents, whenFire, hs, ha, hm]
    | true => simp [DmaRam.writePath, DmaRam.writeEvents, whenFire, hs, ha, hm, WriteTrack.next, WriteTrack.idx]
  | burst =>
    have hidx := hi hs
    cases hv : i.wvalid with
    | false => simp [DmaRam.writePath, DmaRam.writeEvents, whenFire, hs, hv, hm, hidx]
    | true =>
      have hnext : t.idx + 1#k = t.start + BitVec.ofNat k (t.beat + 1) := Counters.add_ofNat_succ _ _
      cases hl : i.wlast <;>
        simp [DmaRam.writePath, DmaRam.writeEvents, whenFire, hs, hv, hl, hm, hidx, WriteTrack.next, WriteTrack.idx,
          ← hnext]

end Memory

section Contents

variable (r : Run (DmaRam.step (k := k)))

/-- The beats accepted before cycle `n`, folded into the memory that the reset left. -/
def writesTo (n : ℕ) : WriteTrack k := (r.span DmaRam.writeEvents 0 n).foldl WriteTrack.next ⟨r.powerUp.mem, 0, 0⟩

theorem writesTo_succ (n : ℕ) :
    writesTo r (n + 1) = ((r.st n).writeEvents (r.inp n)).foldl WriteTrack.next (writesTo r n) := by
  rw [writesTo, Run.span_succ, List.foldl_append, Nat.zero_add, writesTo]

theorem tracks (n : ℕ) : Tracks (r.st n) (writesTo r n) := by
  induction n with
  | zero => exact ⟨rfl, fun h => nomatch h⟩
  | succ n ih =>
    rw [writesTo_succ]
    exact tracks_edge _ _ ih

/-- A byte changes only under the strobe of an accepted beat at its word. -/
theorem byteOf_mem_succ (n : ℕ) (j : BitVec k) (b : Fin 4) :
    Bytes.byteOf ((r.st (n + 1)).mem j) b =
      if ((r.st n).wState = .burst ∧ (r.inp n).wvalid = true) ∧ j = (writesTo r n).idx ∧
          (r.inp n).wstrb.getLsbD b = true then
        Bytes.byteOf (r.inp n).wdata b
      else Bytes.byteOf ((r.st n).mem j) b := by
  rw [(tracks r n).1, (tracks r (n + 1)).1, writesTo_succ]
  cases hs : (r.st n).wState with
  | idle => cases ha : (r.inp n).awvalid <;> simp [DmaRam.writeEvents, whenFire, hs, ha, WriteTrack.next]
  | burst =>
    cases hv : (r.inp n).wvalid with
    | false => simp [DmaRam.writeEvents, whenFire, hs, hv]
    | true => simp [DmaRam.writeEvents, whenFire, hs, hv, WriteTrack.byteOf_next_w]

/-! ## Reading in the meantime -/

variable {r}

/-- Before the edge that fetches beat `i` of the burst whose address came in cycle `t`. -/
structure Fetching (r : Run (DmaRam.step (k := k))) (t i : ℕ) (s : DmaRam k) : Prop where
  state : s.rState = .burst
  fetch : s.sRvalid = false ∨ (r.inp (t + 1 + i)).rready = true
  idx : s.rWordIdx = DmaRam.wordIdx k (r.inp t).araddr + BitVec.ofNat k i
  left : s.rBeatsLeft.toNat + i = (r.inp t).arlen.toNat
  first : i = 0 → s.sRvalid = false

variable {t : ℕ} (hs : (r.st t).rState = .idle) (ha : (r.inp t).arvalid = true)
  (hready : ∀ i ≤ (r.inp t).arlen.toNat, (r.inp (t + 2 + i)).rready = true)
include hs ha hready

theorem fetching {i : ℕ} (hi : i ≤ (r.inp t).arlen.toNat) : Fetching r t i (r.st (t + 1 + i)) := by
  refine Run.carry (P := Fetching r t) r ?_ fun i hlt h => ?_
  · obtain ⟨hv, hnext⟩ := ram_rIdle (r.st t) (r.inp t) hs
    rw [if_pos ha] at hnext
    obtain ⟨hb, hidx, hleft⟩ := hnext
    exact ⟨hb, .inl hv, by simpa [Run.st_succ] using hidx, by simp [Run.st_succ, hleft], fun _ => hv⟩
  · obtain ⟨-, -, -, hnext⟩ := ram_rFetch (r.st (t + 1 + i)) (r.inp (t + 1 + i)) h.state h.fetch
    have hleft := h.left
    have hne : (r.st (t + 1 + i)).rBeatsLeft ≠ 0 := by
      intro h0
      have hall := (Counters.eq_zero_iff hleft).1 h0
      omega
    rw [if_neg hne] at hnext
    obtain ⟨hb, hidx, hsub⟩ := hnext
    refine ⟨hb, .inr ?_, ?_, by rw [← hleft, ← hsub]; omega, fun h => by omega⟩
    · rw [show t + 1 + (i + 1) = t + 2 + i by omega]
      exact hready i (by omega)
    · rw [hidx, h.idx]
      exact Counters.add_ofNat_succ _ _

/-- Beat `i` is taken in cycle `t + 2 + i`. -/
theorem beat_taken {i : ℕ} (hi : i ≤ (r.inp t).arlen.toNat) :
    (r.st (t + 2 + i)).rBeats (r.inp (t + 2 + i)) =
      [((r.st (t + 1 + i)).mem (DmaRam.wordIdx k (r.inp t).araddr + BitVec.ofNat k i),
        decide (i = (r.inp t).arlen.toNat))] := by
  have h := fetching hs ha hready hi
  obtain ⟨hv, hd, hl, -⟩ := ram_rFetch (r.st (t + 1 + i)) (r.inp (t + 1 + i)) h.state h.fetch
  have hlast : (r.st (t + 1 + i)).rBeatsLeft = 0 ↔ i = (r.inp t).arlen.toNat := Counters.eq_zero_iff h.left
  rw [h.idx] at hd
  rw [hlast, ← decide_eq_true_iff (p := i = (r.inp t).arlen.toNat), ← Bool.eq_iff_iff] at hl
  have hst : r.st (t + 2 + i) = DmaRam.step true (r.st (t + 1 + i)) (r.inp (t + 1 + i)) := by
    rw [show t + 2 + i = t + 1 + i + 1 by omega, Run.st_succ]
  simp [DmaRam.rBeats, whenFire, hst, hv, hd, hl, hready i hi]

theorem beats_taken : ∀ i ≤ (r.inp t).arlen.toNat + 1,
    r.span DmaRam.rBeats (t + 1) (i + 1) =
      (List.range i).map fun i =>
        ((r.st (t + 1 + i)).mem (DmaRam.wordIdx k (r.inp t).araddr + BitVec.ofNat k i),
          decide (i = (r.inp t).arlen.toNat)) := by
  intro i hi
  induction i with
  | zero =>
    have hv := (fetching hs ha hready (Nat.zero_le _)).first rfl
    simp only [Nat.add_zero] at hv
    simp [Run.span_succ, DmaRam.rBeats, whenFire, hv]
  | succ i ih =>
    rw [Run.span_succ, ih (by omega), List.range_succ, List.map_append, show t + 1 + (i + 1) = t + 2 + i by omega,
      beat_taken hs ha hready (by omega)]
    rfl

end Contents

/-- What the memory holds, and what a read burst finds in it, for any two channels. -/
theorem ram_contents (r : Run (DmaRam.step (k := k))) :
    (∀ n, (r.st n).mem = (writesTo r n).mem) ∧
      (∀ n j b, Bytes.byteOf ((r.st (n + 1)).mem j) b =
        if ((r.st n).wState = .burst ∧ (r.inp n).wvalid = true) ∧ j = (writesTo r n).idx ∧
            (r.inp n).wstrb.getLsbD b = true then
          Bytes.byteOf (r.inp n).wdata b
        else Bytes.byteOf ((r.st n).mem j) b) ∧
      ∀ t, (r.st t).rState = .idle → (r.inp t).arvalid = true →
        (∀ i ≤ (r.inp t).arlen.toNat, (r.inp (t + 2 + i)).rready = true) →
        r.span DmaRam.rBeats (t + 1) ((r.inp t).arlen.toNat + 2) =
          (List.range ((r.inp t).arlen.toNat + 1)).map fun i =>
            ((r.st (t + 1 + i)).mem (DmaRam.wordIdx k (r.inp t).araddr + BitVec.ofNat k i),
              decide (i = (r.inp t).arlen.toNat)) :=
  ⟨fun n => (tracks r n).1, byteOf_mem_succ r, fun _ hs ha hready => beats_taken hs ha hready _ le_rfl⟩

/-- Two beats are read from the last word on while that word is written. -/
def wrapRun : Run (DmaRam.step (k := 2)) where
  powerUp := ⟨fun j => j.setWidth 32, .idle, 0, 0, false, 0, .idle, 0, 0, false, 0, 0, false⟩
  resetInp := req false false
  inp
    | 0 => req true false
    | 1 => req false true
    | _ => req false false
where
  req (addr data : Bool) : BurstReq :=
    ⟨addr, 0xC, 0, axi4Size4B, axi4BurstIncr, data, 0xAABBCCDD, 0x5, true, true, addr, 0xC, 1, axi4Size4B, axi4BurstIncr,
      true⟩

theorem ram_contents_wrapRun :
    wrapRun.span DmaRam.rBeats 1 3 = [(3, false), (0, true)] ∧ (wrapRun.st 2).mem 3 = 0x00BB00DD := by
  obtain ⟨hmem, -, hbeats⟩ := ram_contents wrapRun
  have hready (n : ℕ) : (wrapRun.inp n).rready = true := by
    match n with
    | 0 | 1 | n + 2 => rfl
  exact ⟨(hbeats 0 rfl rfl fun i _ => hready _).trans (by decide), (congrFun (hmem 2) 3).trans (by decide)⟩

/-! ## The responses -/

section Responses

/-- WLAST comes with the last beat of a burst: the AWLEN of the burst and the number of
its beats before the next one. -/
def writePos (p : BitVec 8 × ℕ) : BurstEvent → BitVec 8 × ℕ
  | .aw _ len _ _ => (len, 0)
  | .w _ _ _ => (p.1, p.2 + 1)
  | _ => p

/-- What AXI4 asks of the master of a write: it holds what it offers, and marks the last
beat of each burst and no other. -/
structure WriteCompliant (r : Run (DmaRam.step (k := k))) : Prop where
  aw : Held (fun n => offered (r.inp n).awvalid ((r.inp n).awaddr, (r.inp n).awlen, (r.inp n).awsize, (r.inp n).awburst))
    fun n => (r.st n).rsp.awready
  w : Held (fun n => offered (r.inp n).wvalid ((r.inp n).wdata, (r.inp n).wstrb, (r.inp n).wlast))
    fun n => (r.st n).rsp.wready
  last : ∀ n, (r.inp n).wvalid = true → (r.st n).rsp.wready = true →
    let p := (r.span DmaRam.writeEvents 0 n).foldl writePos (0, 0)
    ((r.inp n).wlast = true ↔ p.2 = p.1.toNat)

variable (r : Run (DmaRam.step (k := k))) (n : ℕ)

/-- The bursts completed before cycle `n`. -/
def completed : ℕ := Nat.count (fun m => (r.st m).completes (r.inp m) = true) n

/-- The responses taken before cycle `n`. -/
def responded : ℕ := Nat.count (fun m => (r.st m).responds (r.inp m) = true) n

/-- The bursts that were completed while a response was on show. -/
def overrun : ℕ := Nat.count (fun m => (r.st m).completes (r.inp m) = true ∧ (r.st m).sBvalid = true) n

/-- Pending or taken on the same edge, the response that was on show is the only one of
the two to be seen. -/
theorem sBvalid_edge (s : DmaRam k) (i : BurstReq) :
    (s.completes i).toNat + s.sBvalid.toNat =
      (s.responds i).toNat + (s.step true i).sBvalid.toNat + (s.completes i && s.sBvalid).toNat := by
  have h := ram_sBvalid s i
  cases hc : s.completes i with
  | false =>
    have hn : ¬ (s.wState = .burst ∧ i.wvalid = true ∧ i.wlast = true) := by
      rintro ⟨h1, h2, h3⟩
      simp [DmaRam.completes, h1, h2, h3] at hc
    rw [if_neg hn, ← Bool.not_eq_true'] at h
    cases hv : s.sBvalid <;> cases hr : i.bready <;> simp_all [DmaRam.responds]
  | true =>
    have hy : s.wState = .burst ∧ i.wvalid = true ∧ i.wlast = true := by
      simpa [DmaRam.completes, and_assoc] using hc
    rw [if_pos hy] at h
    cases hv : s.sBvalid <;> cases hr : i.bready <;> simp_all [DmaRam.responds]

theorem completed_eq : completed r n = responded r n + (r.st n).sBvalid.toNat + overrun r n := by
  induction n with
  | zero => rfl
  | succ n ih =>
    have h := sBvalid_edge (r.st n) (r.inp n)
    have hone (b : Bool) : (if b = true then 1 else 0) = b.toNat := by cases b <;> rfl
    rw [completed, responded, overrun] at ih ⊢
    rw [Nat.count_succ, Nat.count_succ, Nat.count_succ, ih, Run.st_succ]
    simp only [← Bool.and_eq_true, hone] at h ⊢
    omega

/-- Up to cycle `n` each completed burst has its response exactly if none was completed
while a response was on show. -/
theorem responses_iff :
    completed r n = responded r n + (r.st n).sBvalid.toNat ↔
      ∀ m < n, (r.st m).sBvalid = true → (r.st m).completes (r.inp m) = false := by
  rw [completed_eq]
  refine (show _ ↔ overrun r n = 0 by omega).trans ?_
  rw [overrun, Nat.count_iff_forall_not]
  refine forall₂_congr fun m _ => ?_
  rw [not_and', Bool.not_eq_true]

end Responses

/-- Two bursts of one beat, the response to the first not yet taken when the second
ends. -/
def lateBreadyRun : Run (DmaRam.step (k := 2)) where
  powerUp := ⟨fun _ => 0, .idle, 0, 0, false, 0, .idle, 0, 0, false, 0, 0, false⟩
  resetInp := req false false
  inp
    | 0 | 2 => req true false
    | 1 | 3 => req false true
    | _ => req false false
where
  req (addr data : Bool) : BurstReq :=
    ⟨addr, 0, 0, axi4Size4B, axi4BurstIncr, data, 0, 0xF, true, false, false, 0, 0, axi4Size4B, axi4BurstIncr, false⟩

theorem lateBreadyRun_loses :
    WriteCompliant lateBreadyRun ∧
      ¬ ∀ n, completed lateBreadyRun n = responded lateBreadyRun n + (lateBreadyRun.st n).sBvalid.toNat := by
  refine ⟨⟨Held.of_edge fun n x hx hr => ?_, Held.of_edge fun n x hx hr => ?_, fun n hv hr => ?_⟩, fun h => ?_⟩
  · match n with
    | 0 | 2 => exact Bool.noConfusion hr
    | 1 | 3 | n + 4 => cases hx
  · match n with
    | 1 | 3 => exact Bool.noConfusion hr
    | 0 | 2 | n + 4 => cases hx
  · match n with
    | 1 | 3 => decide
    | 0 | 2 | n + 4 => cases hv
  · exact absurd (h 4) (by decide)

end RiscvSoc.Dma
