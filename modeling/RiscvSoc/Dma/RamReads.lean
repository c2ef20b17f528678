import RiscvSoc.Dma.Bursts
import RiscvSoc.Lib.Counters
import RiscvSoc.Lib.Monitor
/-!
# The read bursts of `dma_ram`

The memory by itself, with any master. A monitor of the read channels says what an
accepted AR is owed; the memory gives it exactly in the runs whose master is ready
when the last beat of a burst is shown.
-/

namespace RiscvSoc.Dma

open Sync Monitor Aes

variable {k : ℕ}

/-- The handshakes of the read channels. A last beat is taken before the next address. -/
def DmaRam.readEvents (s : DmaRam k) (i : BurstReq) : List BurstEvent :=
  whenFire s.sRvalid i.rready (.r s.sRdata s.sRlast) ++
    whenFire i.arvalid (s.rState = .idle) (.ar i.araddr i.arlen i.arsize i.arburst)

/-- RVALID with its payload. -/
def DmaRam.rOffer (s : DmaRam k) : Option (Word32 × Resp × Bool) := offered s.sRvalid (s.sRdata, s.sRresp, s.sRlast)

/-! ## What an address is owed -/

/-- An accepted AR of which `taken` beats have been taken; the next one is read from
the memory of cycle `fetched`. -/
structure ReadBurst where
  addr : Word32
  len : BitVec 8
  taken : ℕ
  fetched : ℕ

/-- `mem[(idx + taken) mod SIZE_WORDS]`. -/
def ReadBurst.data (mem : ℕ → Mem k) (b : ReadBurst) : Word32 :=
  mem b.fetched (DmaRam.wordIdx k b.addr + BitVec.ofNat k b.taken)

/-- The first beat is fetched in the cycle after the address, each other one in the
cycle in which the beat before it is taken. -/
def readMonitor (mem : ℕ → Mem k) : Option ReadBurst → ℕ × BurstEvent → Option (Option ReadBurst)
  | none, (n, .ar addr len _ _) => some (some ⟨addr, len, 0, n + 1⟩)
  | some b, (n, .r data last) =>
    if data = b.data mem ∧ (last = true ↔ b.taken = b.len.toNat) then
      some (if last then none else some { b with taken := b.taken + 1, fetched := n })
    else none
  | _, _ => none

/-! ## One edge -/

section Edge

variable (s : DmaRam k) (i : BurstReq)

theorem ram_rIdle (h : s.rState = .idle) :
    let s' := s.step true i
    s'.sRvalid = false ∧
      if i.arvalid then s'.rState = .burst ∧ s'.rWordIdx = DmaRam.wordIdx k i.araddr ∧ s'.rBeatsLeft = i.arlen
      else s'.rState = .idle := by
  obtain ⟨h1, h2, h3, h4, -⟩ := ram_read s i
  simp only [h1, h2, h3, h4]
  cases hv : i.arvalid <;> simp [DmaRam.readPath, h, hv]

/-- The beat that was on show stays. -/
theorem ram_rStall (h : s.rState = .burst) (hv : s.sRvalid = true) (hr : i.rready = false) :
    let s' := s.step true i
    s'.rState = s.rState ∧ s'.rWordIdx = s.rWordIdx ∧ s'.rBeatsLeft = s.rBeatsLeft ∧ s'.rOffer = s.rOffer := by
  obtain ⟨h1, h2, h3, h4, h5, h6, h7⟩ := writePath_read s i
  simp only [DmaRam.step, DmaRam.readPath, DmaRam.rOffer, h1, h4, h]
  simp [hv, hr, h1, h2, h3, h4, h5, h6, h7, h]

/-- The next beat is read. -/
theorem ram_rFetch (h : s.rState = .burst) (hr : s.sRvalid = false ∨ i.rready = true) :
    let s' := s.step true i
    s'.sRvalid = true ∧ s'.sRdata = s.mem s.rWordIdx ∧ (s'.sRlast = true ↔ s.rBeatsLeft = 0) ∧
      if s.rBeatsLeft = 0 then s'.rState = .idle
      else s'.rState = .burst ∧ s'.rWordIdx = s.rWordIdx + 1 ∧ s'.rBeatsLeft.toNat + 1 = s.rBeatsLeft.toNat := by
  obtain ⟨h1, h2, h3, h4, h5⟩ := ram_read s i
  have hcond : (!s.sRvalid || i.rready) = true := by simpa using hr
  refine ⟨(ram_sRvalid s i).2 h, ?_, ram_sRlast s i h hr, ?_⟩
  · rw [h5]
    simp only [DmaRam.readPath, h, hcond, if_true]
    split <;> rfl
  · simp only [h1, h2, h3, DmaRam.readPath, h, hcond, if_true]
    by_cases h0 : s.rBeatsLeft = 0
    · simp [h0]
    · simp only [h0, if_false, true_and]
      exact Counters.toNat_pred h0

end Edge

/-! ## The memory under the monitor -/

/-- Where the memory is, in cycle `n`, in what it owes. -/
def Owes (mem : ℕ → Mem k) (n : ℕ) (s : DmaRam k) : Option ReadBurst → Prop
  | none => s.rState = .idle ∧ s.sRvalid = false
  | some b =>
    if s.sRvalid then
      s.sRdata = b.data mem ∧ (s.sRlast = true ↔ b.taken = b.len.toNat) ∧
        if b.taken = b.len.toNat then s.rState = .idle
        else
          s.rState = .burst ∧ s.rWordIdx = DmaRam.wordIdx k b.addr + BitVec.ofNat k (b.taken + 1) ∧
            s.rBeatsLeft.toNat + (b.taken + 1) = b.len.toNat
    else
      b.fetched = n ∧ s.rState = .burst ∧ s.rWordIdx = DmaRam.wordIdx k b.addr + BitVec.ofNat k b.taken ∧
        s.rBeatsLeft.toNat + b.taken = b.len.toNat

section Monitor

variable {mem : ℕ → Mem k} {n : ℕ} {s : DmaRam k} {i : BurstReq} {b : ReadBurst}

variable (mem n i) in
/-- Nothing is owed, or the last beat has just been taken. -/
theorem owes_address (h : s.rState = .idle) :
    ∃ q, follow (readMonitor mem) none ((whenFire i.arvalid true (.ar i.araddr i.arlen i.arsize i.arburst)).map (n, ·)) =
      some q ∧ Owes mem (n + 1) (s.step true i) q := by
  obtain ⟨hv, hs⟩ := ram_rIdle s i h
  cases ha : i.arvalid with
  | false =>
    rw [ha] at hs
    exact ⟨none, rfl, hs, hv⟩
  | true =>
    simp only [ha, if_true] at hs
    obtain ⟨hs, hidx, hleft⟩ := hs
    refine ⟨some ⟨i.araddr, i.arlen, 0, n + 1⟩, rfl, ?_⟩
    simp [Owes, hv, hs, hidx, hleft]

/-- The beat that is read next is the one owed next. -/
theorem owes_fetch (hs : s.rState = .burst) (hr : s.sRvalid = false ∨ i.rready = true) (hf : mem b.fetched = s.mem)
    (hidx : s.rWordIdx = DmaRam.wordIdx k b.addr + BitVec.ofNat k b.taken)
    (hleft : s.rBeatsLeft.toNat + b.taken = b.len.toNat) : Owes mem (n + 1) (s.step true i) (some b) := by
  obtain ⟨hv, hd, hl, hnext⟩ := ram_rFetch s i hs hr
  have hzero : s.rBeatsLeft = 0 ↔ b.taken = b.len.toNat := Counters.eq_zero_iff hleft
  simp only [Owes, hv, if_true, ReadBurst.data, hf, hd, hidx, hl, hzero, true_and]
  by_cases ht : b.taken = b.len.toNat
  · rw [if_pos (hzero.2 ht)] at hnext
    simpa [ht] using hnext
  · rw [if_neg fun h => ht (hzero.1 h)] at hnext
    obtain ⟨h1, h2, h3⟩ := hnext
    rw [if_neg ht]
    refine ⟨h1, ?_, ?_⟩
    · rw [h2, hidx]
      exact Counters.add_ofNat_succ _ _
    · omega

variable (mem) in
/-- One edge, for a master that is ready for a last beat when it is shown. -/
theorem owes_edge (hmem : mem n = s.mem) (hlast : s.rState = .idle → s.sRvalid = true → i.rready = true)
    {q : Option ReadBurst} (h : Owes mem n s q) :
    ∃ q', follow (readMonitor mem) q ((s.readEvents i).map (n, ·)) = some q' ∧ Owes mem (n + 1) (s.step true i) q' := by
  cases q with
  | none =>
    obtain ⟨hs, hv⟩ := h
    simpa [DmaRam.readEvents, hs, hv, whenFire] using owes_address mem n i hs
  | some b =>
    cases hv : s.sRvalid with
    | false =>
      -- the first beat
      simp only [Owes, hv, Bool.false_eq_true, if_false] at h
      obtain ⟨hf, hs, hidx, hleft⟩ := h
      refine ⟨some b, ?_, owes_fetch hs (.inl hv) (hf ▸ hmem) hidx hleft⟩
      simp [DmaRam.readEvents, hs, hv, whenFire]
    | true =>
      simp only [Owes, hv, if_true] at h
      obtain ⟨hd, hl, hs⟩ := h
      by_cases ht : b.taken = b.len.toNat
      · -- the last beat
        rw [if_pos ht] at hs
        obtain ⟨q, hq, ho⟩ := owes_address mem n i hs
        refine ⟨q, ?_, ho⟩
        rw [← hq]
        simp [DmaRam.readEvents, hs, hv, hlast hs hv, whenFire, follow_cons, readMonitor, hd, hl, ht]
      · rw [if_neg ht] at hs
        obtain ⟨hs, hidx, hleft⟩ := hs
        cases hr : i.rready with
        | true =>
          have hl' : s.sRlast = false := by simpa [ht] using hl
          refine ⟨some { b with taken := b.taken + 1, fetched := n }, ?_, owes_fetch hs (.inr hr) hmem hidx hleft⟩
          simp [DmaRam.readEvents, hs, hv, hr, whenFire, readMonitor, hd, hl', ht]
        | false =>
          obtain ⟨h1, h2, h3, h4⟩ := ram_rStall s i hs hv hr
          simp only [DmaRam.rOffer, offered, hv, if_true] at h4
          refine ⟨some b, ?_, ?_⟩
          · simp [DmaRam.readEvents, hs, hr, whenFire]
          · have hv' : (s.step true i).sRvalid = true := (ram_sRvalid s i).2 hs
            simp only [hv', if_true, Option.some.injEq, Prod.mk.injEq] at h4
            simp [Owes, hv', h1, h2, h3, h4, hd, hl, hs, hidx, hleft, ht]

end Monitor

/-! ## Whole runs -/

section Runs

variable (r : Run (DmaRam.step (k := k)))

/-- The monitor after the read handshakes of the first `n` cycles. -/
def readsOwed (n : ℕ) : Option (Option ReadBurst) :=
  follow (readMonitor fun m => (r.st m).mem) none (r.log DmaRam.readEvents n)

/-- Every accepted AR gets its ARLEN + 1 beats, in order, the last one and no other with
RLAST, and no beat comes that is not owed. A beat on show stays until it is taken, and a
master that is ready again and again gets the last beat. -/
structure ReadsAnswered : Prop where
  owed : ∀ n, (readsOwed r n).isSome
  held : Held (fun n => (r.st n).rOffer) fun n => (r.inp n).rready
  ends : (∀ n, ∃ m, n ≤ m ∧ (r.inp m).rready = true) →
    ∀ n b, readsOwed r n = some (some b) →
      ∃ m, n ≤ m ∧ (r.st m).sRvalid = true ∧ (r.st m).sRlast = true ∧ (r.inp m).rready = true

/-- RREADY is high in the cycle in which the last beat of a burst is first shown, the
read path being back in `R_IDLE`. -/
def ReadyForLast : Prop := ∀ n, (r.st n).rState = .idle → (r.st n).sRvalid = true → (r.inp n).rready = true

variable {r}

theorem owes (h : ReadyForLast r) (n : ℕ) :
    ∃ q, readsOwed r n = some q ∧ Owes (fun m => (r.st m).mem) n (r.st n) q := by
  induction n with
  | zero => exact ⟨none, rfl, rfl, rfl⟩
  | succ n ih =>
    obtain ⟨q, hq, ho⟩ := ih
    obtain ⟨q', hq', ho'⟩ := owes_edge (fun m => (r.st m).mem) rfl (h n) ho
    refine ⟨q', ?_, ho'⟩
    rw [readsOwed, Run.log_succ, follow_append]
    rw [readsOwed] at hq
    rw [hq]
    exact hq'

theorem rHeld (h : ReadyForLast r) : Held (fun n => (r.st n).rOffer) fun n => (r.inp n).rready := by
  refine Held.of_edge fun n x hx hr => ?_
  have hv : (r.st n).sRvalid = true := (offered_eq_some.1 hx).1
  cases hs : (r.st n).rState with
  | idle => simp [h n hs hv] at hr
  | burst =>
    obtain ⟨-, -, -, hkeep⟩ := ram_rStall (r.st n) (r.inp n) hs hv hr
    exact hkeep.trans hx

theorem last_of_idle (h : ReadyForLast r) {n : ℕ} (hs : (r.st n).rState = .idle) (hv : (r.st n).sRvalid = true) :
    (r.st n).sRlast = true := by
  obtain ⟨q, -, ho⟩ := owes h n
  cases q with
  | none => simp [Owes, hv] at ho
  | some b =>
    simp only [Owes, hv, if_true] at ho
    obtain ⟨-, hl, hb⟩ := ho
    by_cases ht : b.taken = b.len.toNat
    · exact hl.2 ht
    · simp [ht, hs] at hb

/-- Each beat that is fetched lowers the number of those that are left. -/
theorem burst_ends (hready : ∀ n, ∃ m, n ≤ m ∧ (r.inp m).rready = true) {n : ℕ} (hs : (r.st n).rState = .burst) :
    ∃ m, n < m ∧ (r.st m).rState = .idle ∧ (r.st m).sRvalid = true := by
  refine leadsTo_of_rank (α := ℕ) id
    (P := fun a m => (r.st m).rState = .burst ∧ (r.st m).rBeatsLeft.toNat = a)
    (E := fun _ m => (r.st m).sRvalid = false ∨ (r.inp m).rready = true)
    (Q := fun m => (r.st m).rState = .idle ∧ (r.st m).sRvalid = true) ?_ ?_ ⟨hs, rfl⟩
  · intro a m _
    obtain ⟨l, hl, hr⟩ := hready m
    exact ⟨l, hl, .inr hr⟩
  · rintro a m ⟨hs, ha⟩
    by_cases hr : (r.st m).sRvalid = false ∨ (r.inp m).rready = true
    · obtain ⟨hv, -, -, hnext⟩ := ram_rFetch (r.st m) (r.inp m) hs hr
      by_cases h0 : (r.st m).rBeatsLeft = 0
      · rw [if_pos h0] at hnext
        exact .inr (.inr ⟨hnext, hv⟩)
      · rw [if_neg h0] at hnext
        obtain ⟨hb, -, hleft⟩ := hnext
        refine .inr (.inl ⟨_, ?_, hb, rfl⟩)
        rw [Run.st_succ, ← ha, id, id]
        omega
    · obtain ⟨h1, -, h3, -⟩ := ram_rStall (r.st m) (r.inp m) hs (by simp_all) (by simp_all)
      exact .inl ⟨⟨h1.trans hs, by rw [Run.st_succ, h3, ha]⟩, hr⟩

theorem readsAnswered (h : ReadyForLast r) : ReadsAnswered r where
  owed n := by
    obtain ⟨q, hq, -⟩ := owes h n
    rw [hq]
    rfl
  held := rHeld h
  ends hready n b hb := by
    have hlast {m : ℕ} (hs : (r.st m).rState = .idle) (hv : (r.st m).sRvalid = true) :
        (r.st m).sRvalid = true ∧ (r.st m).sRlast = true ∧ (r.inp m).rready = true :=
      ⟨hv, last_of_idle h hs hv, h m hs hv⟩
    cases hs : (r.st n).rState with
    | idle =>
      obtain ⟨q, hq, ho⟩ := owes h n
      obtain rfl : q = some b := Option.some.inj (hq.symm.trans hb)
      cases hv : (r.st n).sRvalid with
      | false => simp [Owes, hv, hs] at ho
      | true => exact ⟨n, le_rfl, hlast hs hv⟩
    | burst =>
      obtain ⟨m, hm, hidle, hv⟩ := burst_ends hready hs
      exact ⟨m, hm.le, hlast hidle hv⟩

variable (r)

/-- `R_IDLE` takes RVALID down, whether the beat has been taken or not. -/
theorem reads_answered_iff : ReadsAnswered r ↔ ReadyForLast r := by
  refine ⟨fun h n hs hv => ?_, readsAnswered⟩
  cases hr : (r.inp n).rready with
  | true => rfl
  | false =>
    have hkeep := h.held n 1 _ (offered_eq_some.2 ⟨hv, rfl⟩) (by simpa using hr)
    have hdown : (r.st (n + 1)).sRvalid = false := (ram_rIdle (r.st n) (r.inp n) hs).1
    simp [DmaRam.rOffer, offered, hdown] at hkeep

end Runs

/-- A burst of one beat, for a master that is not ready in the cycle in which the beat
is shown, and from then on is. -/
def lateReadyRun : Run (DmaRam.step (k := 2)) where
  powerUp := ⟨fun _ => 0, .idle, 0, 0, false, 0, .idle, 0, 0, false, 0, 0, false⟩
  resetInp := req false false
  inp
    | 0 => req true false
    | n + 1 => req false (2 ≤ n)
where
  req (arvalid rready : Bool) : BurstReq :=
    ⟨false, 0, 0, axi4Size4B, axi4BurstIncr, false, 0, 0, false, true, arvalid, 0, 0, axi4Size4B, axi4BurstIncr, rready⟩

/-- The beat is shown in cycle 2 and gone in cycle 3. -/
theorem lateReadyRun_drops : ¬ ReadsAnswered lateReadyRun := by
  intro h
  have hkeep := h.held 2 1 (0, 0, true) rfl (by simp [lateReadyRun, lateReadyRun.req])
  cases hkeep

end RiscvSoc.Dma
