import RiscvSoc.Crossbar.PulseRun
/-!
# The SRAM behind the crossbar

Writes and reads of the two masters on one memory. The array is written and read
at the edge of the cycle in which its ports see the request; a `commit` and a
`sample` stand for those edges, in the log of a run between the handshakes of the
masters. In one cycle the sample comes first: it gets the word from before it.
-/

namespace RiscvSoc.Crossbar

open Sync

/-- A bank with the SRAM in its place and any pulse slaves in the others. -/
def withSram (rest : Slave → PulseSlave) : Slave → PulseSlave
  | .ram => Sram.slave
  | p => rest p

variable {rest : Slave → PulseSlave}

/-- The SRAM of the bank. -/
def Fabric.sram (s : Fabric (withSram rest)) : Sram := s.dev .ram

/-! ## Events -/

inductive MemEvent
  | aw (m : Master) (addr : Word32)
  | w (m : Master) (data : Word32) (strb : BitVec 4)
  | commit (addr data : Word32) (strb : BitVec 4)
  | b (m : Master) (resp : Resp)
  | ar (m : Master) (addr : Word32)
  | sample (addr word : Word32)
  | r (m : Master) (data : Word32) (resp : Resp)
  deriving DecidableEq, Repr

namespace MemEvent

/-- The events of the write channels. -/
def onWrite : MemEvent → Bool
  | aw .. | w .. | commit .. | b .. => true
  | _ => false

/-- The events of the read channels. -/
def onRead (e : MemEvent) : Bool := !e.onWrite

end MemEvent

/-- The events of a cycle: requests taken, the SRAM's array read and then written,
responses taken. -/
def Fabric.memEvents (s : Fabric (withSram rest)) (i : FabricIn (withSram rest)) : List MemEvent :=
  let rsp := s.xbar.rsp (s.xbarIn i)
  let req := s.xbar.req .ram
  masters.flatMap (fun m =>
    whenFire (i.up m).awvalid (rsp m).awready (.aw m (i.up m).awaddr) ++
    whenFire (i.up m).wvalid (rsp m).wready (.w m (i.up m).wdata (i.up m).wstrb) ++
    whenFire (i.up m).arvalid (rsp m).arready (.ar m (i.up m).araddr)) ++
  (if req.arvalid then [.sample req.araddr (s.sram.mem (Sram.wordIdx req.araddr))] else []) ++
  (if req.doWrite then [.commit req.awaddr req.wdata req.wstrb] else []) ++
  masters.flatMap (fun m =>
    whenFire (rsp m).bvalid (i.up m).bready (.b m (rsp m).bresp) ++
    whenFire (rsp m).rvalid (i.up m).rready (.r m (rsp m).rdata (rsp m).rresp))

/-! ## Transactions -/

/-- The two beats of a write, in either order. -/
def MemBeats (m : Master) (a d : Word32) (sb : BitVec 4) (l : List (ℕ × MemEvent)) : Prop :=
  ∃ t t', l = [(t, .aw m a), (t', .w m d sb)] ∨ l = [(t, .w m d sb), (t', .aw m a)]

/-- A whole write: one that goes to the SRAM has one commit, of what was taken,
before its response. -/
inductive MemWriteTxn : List (ℕ × MemEvent) → Prop
  | ram {m a d sb up} (hup : MemBeats m a d sb up) (ha : decodeAddr a = .dev .ram) (t t' : ℕ) (resp : Resp) :
      MemWriteTxn (up ++ [(t, .commit a d sb), (t', .b m resp)])
  | other {m a d sb up} (hup : MemBeats m a d sb up) (ha : decodeAddr a ≠ .dev .ram) (t : ℕ) (resp : Resp) :
      MemWriteTxn (up ++ [(t, .b m resp)])

/-- A whole read: one that goes to the SRAM has one sample, of the word that is
returned, before its response. -/
inductive MemReadTxn : List (ℕ × MemEvent) → Prop
  | ram {a} (m : Master) (ha : decodeAddr a = .dev .ram) (t t' t'' : ℕ) (word : Word32) (resp : Resp) :
      MemReadTxn [(t, .ar m a), (t', .sample a word), (t'', .r m word resp)]
  | other {a} (m : Master) (ha : decodeAddr a ≠ .dev .ram) (t t' : ℕ) (d : Word32) (resp : Resp) :
      MemReadTxn [(t, .ar m a), (t', .r m d resp)]

/-! ## The memory that a log of commits leaves -/

/-- The byte that `e` writes at byte `b` of word `w`. -/
def writesByte (w : BitVec 15) (b : Fin 4) : ℕ × MemEvent → Option (BitVec 8)
  | (_, .commit a d sb) => if Sram.wordIdx a = w ∧ sb.getLsbD b then some (Bytes.byteOf d b) else none
  | _ => none

/-- Byte `b` of word `w` after `l`: that of the last commit to it, or the initial one. -/
def lastByte (init : SramMem) (l : List (ℕ × MemEvent)) (w : BitVec 15) (b : Fin 4) : BitVec 8 :=
  ((l.filterMap (writesByte w b)).getLast?).getD (Bytes.byteOf (init w) b)

/-- Every sample reads, byte by byte, what the commits before it leave; those are
the commits of earlier cycles. -/
def Consistent (init : SramMem) (l : List (ℕ × MemEvent)) : Prop :=
  ∀ pre k a v post, l = pre ++ (k, .sample a v) :: post →
    (∀ b, Bytes.byteOf v b = lastByte init pre (Sram.wordIdx a) b) ∧
    (∀ k' a' d sb, (k', .commit a' d sb) ∈ pre → k' < k) ∧
    ∀ k' a' d sb, (k', .commit a' d sb) ∈ post → k ≤ k'

theorem lastByte_append_none {init : SramMem} {l l' : List (ℕ × MemEvent)} {w : BitVec 15} {b : Fin 4}
    (h : ∀ e ∈ l', writesByte w b e = none) : lastByte init (l ++ l') w b = lastByte init l w b := by
  have hnil : l'.filterMap (writesByte w b) = [] := List.filterMap_eq_nil_iff.2 h
  rw [lastByte, List.filterMap_append, hnil, List.append_nil, lastByte]

theorem lastByte_append_commit (init : SramMem) (l : List (ℕ × MemEvent)) (k : ℕ) (a d : Word32) (sb : BitVec 4)
    (w : BitVec 15) (b : Fin 4) :
    lastByte init (l ++ [(k, .commit a d sb)]) w b =
      if Sram.wordIdx a = w ∧ sb.getLsbD b then Bytes.byteOf d b else lastByte init l w b := by
  by_cases h : Sram.wordIdx a = w ∧ sb.getLsbD b = true
  · rw [if_pos h]
    simp only [lastByte, List.filterMap_append, List.filterMap_cons, List.filterMap_nil, writesByte, if_pos h]
    simp
  · rw [if_neg h]
    exact lastByte_append_none (by simp only [List.mem_singleton, forall_eq, writesByte, if_neg h])

/-- A write leaves what its commit says. -/
theorem byteOf_write (mem : SramMem) (a d : Word32) (sb : BitVec 4) (w : BitVec 15) (b : Fin 4) :
    Bytes.byteOf (Sram.write mem a d sb w) b =
      if Sram.wordIdx a = w ∧ sb.getLsbD b then Bytes.byteOf d b else Bytes.byteOf (mem w) b := by
  by_cases hw : Sram.wordIdx a = w
  · subst hw
    simp [Sram.write, Bytes.byteOf_merge]
  · rw [Sram.write, Function.update_of_ne (Ne.symm hw)]
    simp [hw]

theorem Consistent.nil (init : SramMem) : Consistent init [] := by
  rintro pre k a v post h
  simp at h

/-- More events keep the log consistent if their commits are late and each of
their samples reads what the log and the events before it leave. -/
theorem Consistent.append {init : SramMem} {l es : List (ℕ × MemEvent)} (h : Consistent init l) {n : ℕ}
    (hl : ∀ e ∈ l, e.1 < n) (hes : ∀ e ∈ es, e.1 = n)
    (hs : ∀ pre k a v post, es = pre ++ (k, .sample a v) :: post →
      (∀ b, Bytes.byteOf v b = lastByte init (l ++ pre) (Sram.wordIdx a) b) ∧
      ∀ k' a' d sb, (k', .commit a' d sb) ∉ pre) :
    Consistent init (l ++ es) := by
  rintro pre k a v post heq
  rcases List.append_eq_append_iff.1 heq with ⟨m, rfl, hm⟩ | ⟨m, rfl, hm⟩
  · -- the sample is one of the new events
    obtain ⟨hb, hc⟩ := hs m k a v post hm
    have hk : k = n := hes (k, .sample a v) (by simp [hm])
    refine ⟨hb, fun k' a' d sb hmem => ?_, fun k' a' d sb hmem => ?_⟩
    · rcases List.mem_append.1 hmem with hmem | hmem
      · exact hk ▸ hl _ hmem
      · exact absurd hmem (hc k' a' d sb)
    · exact (hk.trans (hes (k', .commit a' d sb) (by simp [hm, hmem])).symm).le
  · cases m with
    | nil =>
      rw [List.nil_append] at hm
      subst hm
      obtain ⟨hb, -⟩ := hs [] k a v post rfl
      have hk : k = n := hes (k, .sample a v) List.mem_cons_self
      refine ⟨by simpa using hb, fun k' a' d sb hmem => hk ▸ hl _ (by simpa using hmem), fun k' a' d sb hmem => ?_⟩
      exact (hk.trans (hes (k', .commit a' d sb) (List.mem_cons_of_mem _ hmem)).symm).le
    | cons x m =>
      -- the sample is one of the log's
      obtain ⟨rfl, rfl⟩ : (k, MemEvent.sample a v) = x ∧ post = m ++ es := by simpa using hm
      obtain ⟨hb, hc, hc'⟩ := h pre k a v m rfl
      refine ⟨hb, hc, fun k' a' d sb hmem => ?_⟩
      rcases List.mem_append.1 hmem with hmem | hmem
      · exact hc' k' a' d sb hmem
      · have hk : k < n := hl (k, .sample a v) (by simp)
        exact hk.le.trans (hes _ hmem).ge

/-! ## The memory in a run -/

section Consistency

variable (s : Fabric (withSram rest)) (i : FabricIn (withSram rest))

theorem sram_step_mem :
    (s.step true i).sram.mem =
      if (s.xbar.req .ram).doWrite then
        Sram.write s.sram.mem (s.xbar.req .ram).awaddr (s.xbar.req .ram).wdata (s.xbar.req .ram).wstrb
      else s.sram.mem := rfl

/-- The events before the write of the array, and from it on. -/
theorem memEvents_split : ∃ before after,
    s.memEvents i = before ++
      (if (s.xbar.req .ram).doWrite then
        [.commit (s.xbar.req .ram).awaddr (s.xbar.req .ram).wdata (s.xbar.req .ram).wstrb] else []) ++ after ∧
    (∀ e ∈ before, (∀ a d sb, e ≠ .commit a d sb) ∧ ∀ a v, e = .sample a v → v = s.sram.mem (Sram.wordIdx a)) ∧
    ∀ e ∈ after, (∀ a v, e ≠ .sample a v) ∧ ∀ a d sb, e ≠ .commit a d sb := by
  refine ⟨_, _, rfl, ?_, ?_⟩
  · intro e he
    simp only [List.mem_flatMap, List.mem_append, mem_whenFire] at he
    grind
  · intro e he
    simp only [List.mem_flatMap, List.mem_append, mem_whenFire] at he
    grind

end Consistency

theorem writesByte_none {l : List MemEvent} (n : ℕ) (w : BitVec 15) (b : Fin 4)
    (h : ∀ e ∈ l, ∀ a d sb, e ≠ .commit a d sb) : ∀ e ∈ l.map (n, ·), writesByte w b e = none := by
  rintro e he
  obtain ⟨e', he', rfl⟩ := List.mem_map.1 he
  have hne := h e' he'
  cases e' with
  | commit => exact absurd rfl (hne _ _ _)
  | aw | w | b | ar | sample | r => rfl

theorem mem_of_append_eq {α : Type*} {as bs pre post : List α} {x : α} (h : as ++ bs = pre ++ x :: post)
    (hx : x ∉ bs) : x ∈ as ∧ ∀ e ∈ pre, e ∈ as := by
  rcases List.append_eq_append_iff.1 h with ⟨m, -, rfl⟩ | ⟨m, rfl, hm⟩
  · exact absurd (by simp) hx
  · cases m with
    | nil => exact absurd (by rw [List.nil_append] at hm; simp [← hm]) hx
    | cons y m =>
      obtain ⟨rfl, -⟩ : x = y ∧ post = m ++ bs := by simpa using hm
      exact ⟨by simp, fun e he => List.mem_append_left _ he⟩

section Runs

variable (r : Run (@Fabric.step (withSram rest)))

/-- The array holds what the commits of the log leave, so the log is consistent. -/
theorem memLog_consistent (n : ℕ) :
    (∀ w b, Bytes.byteOf ((r.st n).sram.mem w) b = lastByte r.powerUp.sram.mem (r.log Fabric.memEvents n) w b) ∧
      Consistent r.powerUp.sram.mem (r.log Fabric.memEvents n) := by
  induction n with
  | zero => exact ⟨fun _ _ => rfl, .nil _⟩
  | succ n ih =>
    obtain ⟨hmem, hcons⟩ := ih
    obtain ⟨before, after, hev, hbefore, hafter⟩ := memEvents_split (r.st n) (r.inp n)
    rw [Run.st_succ, sram_step_mem, Run.log_succ, Run.eventsAt, hev]
    simp only [List.map_append]
    constructor
    · intro w b
      rw [← List.append_assoc, ← List.append_assoc,
        lastByte_append_none (writesByte_none n w b (fun e he => (hafter e he).2))]
      split
      · rw [List.map_cons, List.map_nil, lastByte_append_commit,
          lastByte_append_none (writesByte_none n w b (fun e he => (hbefore e he).1)), byteOf_write, hmem]
      · rw [List.map_nil, List.append_nil,
          lastByte_append_none (writesByte_none n w b (fun e he => (hbefore e he).1)), hmem]
    · refine hcons.append (n := n) (fun e he => ?_) (fun e he => ?_) fun pre k a v post heq => ?_
      · exact (Run.mem_log r Fabric.memEvents (k := e.1) (e := e.2).1 he).1
      · simp only [List.mem_append, List.mem_map] at he
        grind
      · -- the sample is among the events before the commit, so no commit precedes it
        rw [List.append_assoc] at heq
        obtain ⟨hx, hpre⟩ := mem_of_append_eq heq fun hx => by
          simp only [List.mem_append, List.mem_map] at hx
          grind
        obtain ⟨e, he, heq'⟩ := List.mem_map.1 hx
        obtain ⟨-, rfl⟩ : n = k ∧ e = .sample a v := by simpa using heq'
        have hquiet (w : BitVec 15) (b : Fin 4) : ∀ e ∈ pre, writesByte w b e = none := fun e he =>
          writesByte_none n w b (fun e he => (hbefore e he).1) e (hpre e he)
        refine ⟨fun b => ?_, fun k' a' d sb hmem' => ?_⟩
        · rw [(hbefore _ he).2 a v rfl, lastByte_append_none (hquiet _ b), hmem]
        · obtain ⟨e, he, heq'⟩ := List.mem_map.1 (hpre _ hmem')
          obtain ⟨-, rfl⟩ : n = k' ∧ e = .commit a' d sb := by simpa using heq'
          exact (hbefore _ he).1 a' d sb rfl

end Runs

end RiscvSoc.Crossbar
