import RiscvSoc.Aes.Chain
import RiscvSoc.Aes.CoreRun
import RiscvSoc.Aes.RoundTrip
import RiscvSoc.Lib.Modes
/-!
# `aes_chain` runs the modes of SP 800-38A

A block takes 23 cycles from its start to `done`; over a message the blocks
that come out are the mode's of the blocks that went in.
-/

open Fips197 Sync Modes

namespace RiscvSoc.Aes

/-- AES-128 under `key`. -/
def aes (key : Block) : Cipher 128 := ⟨encrypt128 key, decrypt128 key⟩

/-- The mode a value of the `mode` port selects. -/
def chainMode (mode : BitVec 2) : Mode :=
  if mode = modeCbc then .cbc else if mode = modeCtr then .ctr else .ecb

theorem chainMode_cases (mode : BitVec 2) :
    (mode = modeCbc ∧ chainMode mode = .cbc) ∨
      (mode ≠ modeCbc ∧ mode = modeCtr ∧ chainMode mode = .ctr) ∨
      (mode ≠ modeCbc ∧ mode ≠ modeCtr ∧ chainMode mode = .ecb) := by
  revert mode
  decide

/-! ## The core inside a run of the chain -/

theorem AesCore.step_idle {s : AesCore} (i : CoreIn) (hs : s.state = .idle) :
    (s.step true i).done = false ∧ ((s.step true i).state = .idle ↔ i.start = false) := by
  cases hi : i.start <;> simp [AesCore.step, AesCore.fsm, hs, hi]

theorem AesCore.step_working {s : AesCore} (i : CoreIn) (hs : s.state ≠ .idle) :
    (s.step true i).state = .idle ↔ (s.step true i).done = true := by
  cases h : s.state with
  | idle => exact absurd h hs
  | keyexp =>
    cases hk : s.uKeyExpand.done <;> cases hd : s.encdecReg <;> simp [AesCore.step, AesCore.fsm, h, hk, hd]
  | round =>
    by_cases h9 : s.rnum = 9#4 <;> by_cases h1 : s.rnum = 1#4 <;> cases hd : s.encdecReg <;>
      simp_all [AesCore.step, AesCore.fsm]
  | final => simp [AesCore.step, AesCore.fsm, h]

/-- The chain is idle when its core is and has no answer to give. -/
structure AesChain.Synced (s : AesChain) : Prop where
  core : s.uCore.Synced
  done_idle : s.uCore.done = true → s.uCore.state = .idle
  idle_iff : s.state = .idle ↔ s.uCore.state = .idle ∧ s.uCore.done = false

theorem AesChain.synced_reset (s : AesChain) (i : ChainIn) : (s.step false i).Synced := by
  refine ⟨AesCore.synced_reset _ (s.coreIn i), ?_, ?_⟩ <;> simp [AesChain.step, AesCore.step]

theorem AesChain.fsm_state (s : AesChain) (i : ChainIn) :
    (s.fsm i).state = .idle ↔ (s.state = .idle ∧ i.start = false) ∨ (s.state = .core ∧ s.uCore.done = true) := by
  cases hs : s.state with
  | idle => cases hi : i.start <;> simp [AesChain.fsm, hs, hi]
  | core =>
    simp only [AesChain.fsm, hs]
    cases hd : s.uCore.done with
    | false => simp
    | true => simp only [if_true]; split <;> split <;> simp

theorem AesChain.doneReg_step (s : AesChain) (i : ChainIn) :
    (s.step true i).doneReg = true ↔ s.state = .core ∧ s.uCore.done = true := by
  show (s.fsm i).doneReg = true ↔ _
  cases hs : s.state with
  | idle => cases hi : i.start <;> simp [AesChain.fsm, hs, hi]
  | core =>
    cases hd : s.uCore.done with
    | false => simp [AesChain.fsm, hs, hd]
    | true => simp only [AesChain.fsm, hs, hd, if_true]; split <;> split <;> simp

theorem AesChain.synced_step (s : AesChain) (i : ChainIn) (h : s.Synced) : (s.step true i).Synced := by
  have hf := s.fsm_state i
  have hcore : (s.step true i).uCore = s.uCore.step true (s.coreIn i) := rfl
  have hst : (s.step true i).state = (s.fsm i).state := rfl
  by_cases hc : s.uCore.state = .idle
  · obtain ⟨hd, hi⟩ := s.uCore.step_idle (s.coreIn i) hc
    refine ⟨AesCore.synced_step _ _ h.core, ?_, ?_⟩
    · simp [hcore, hd]
    · rw [hst, hf, hcore, hd, hi]
      cases hs : s.state with
      | idle => simp [AesChain.coreIn, AesChain.coreStart, hs]
      | core =>
        have := h.idle_iff
        simp_all [AesChain.coreIn, AesChain.coreStart]
  · have hw := s.uCore.step_working (s.coreIn i) hc
    have hnd : s.uCore.done ≠ true := fun hd => hc (h.done_idle hd)
    have hs : s.state ≠ .idle := fun hs => hc (h.idle_iff.1 hs).1
    refine ⟨AesCore.synced_step _ _ h.core, ?_, ?_⟩
    · rw [hcore]; exact hw.2
    · rw [hst, hf, hcore, hw]
      simp_all

section Runs

variable (r : Run AesChain.step)

theorem AesChain.synced (n : ℕ) : (r.st n).Synced := r.invariant AesChain.synced_reset AesChain.synced_step n

/-! ## One block -/

/-- The answer of the core to a block taken with chaining value `v`, by mode. -/
def coreAnswer (i : ChainIn) (v : Block) : Block :=
  match chainMode i.mode with
  | .ecb => if i.encdec then decrypt128 i.keyIn i.dataIn else encrypt128 i.keyIn i.dataIn
  | .cbc => if i.encdec then decrypt128 i.keyIn i.dataIn else encrypt128 i.keyIn (i.dataIn ^^^ v)
  | .ctr => encrypt128 i.keyIn v

/-- The chain works on the block of inputs `i`, taken `n` edges ago with chaining
value `v`. A load of another IV meanwhile does not matter here. -/
structure Working (i : ChainIn) (v : Block) (n : ℕ) (s : AesChain) : Prop where
  state : s.state = .core
  modeReg : s.modeReg = i.mode
  encdecReg : s.encdecReg = i.encdec
  dataInReg : s.dataInReg = i.dataIn
  doneReg : s.doneReg = false
  core : ∃ j : Job, j.result = coreAnswer i v ∧ Stage j n s.uCore

structure Answered (i : ChainIn) (v : Block) (s : AesChain) : Prop where
  state : s.state = .idle
  doneReg : s.doneReg = true
  dataOutReg : s.dataOutReg = blockOut (aes i.keyIn) (chainMode i.mode) i.encdec v i.dataIn
  ivReg : s.ivReg = blockNext (aes i.keyIn) (chainMode i.mode) i.encdec v i.dataIn

section Edge

variable {i j : ChainIn} {v : Block} {n : ℕ} {s : AesChain}

theorem coreIn_result (h : s.coreStart i = true) : (s.coreIn i).job.result = coreAnswer i s.ivReg := by
  rcases chainMode_cases i.mode with ⟨hb, hm⟩ | ⟨hb, ht, hm⟩ | ⟨hb, ht, hm⟩ <;>
    simp only [coreAnswer, hm] <;> cases he : i.encdec <;>
    simp_all [AesChain.coreIn, CoreIn.job, Job.result, AesChain.coreEncdec, AesChain.coreDataIn, modeCtr, modeCbc]

theorem working_start (hsync : s.Synced) (h : s.coreStart i = true) : Working i s.ivReg 0 (s.step true i) := by
  obtain ⟨hs, hi⟩ : s.state = .idle ∧ i.start = true := by simpa [AesChain.coreStart] using h
  have hcore := (hsync.idle_iff.1 hs).1
  have hke := (AesCore.synced_idle hsync.core hcore).1
  refine ⟨?_, ?_, ?_, ?_, ?_, (s.coreIn i).job, coreIn_result h, ?_⟩ <;>
    try simp [AesChain.step, AesChain.fsm, hs, hi]
  exact .expanding (by omega) (expanding_start _ hcore hke h)

theorem Working.core_done (h : Working i v n s) : s.uCore.done = decide (n = 21) := by
  obtain ⟨_, -, hst⟩ := h.core
  exact hst.done_eq

theorem working_step (h : Working i v n s) (hn : n < 21) : Working i v (n + 1) (s.step true j) := by
  have hd := h.core_done
  obtain ⟨job, hres, hst⟩ := h.core
  refine ⟨?_, ?_, ?_, ?_, ?_, job, hres, stage_step _ hn hst⟩ <;>
    simp [AesChain.step, AesChain.fsm, h.state, h.modeReg, h.encdecReg, h.dataInReg, hd, show n ≠ 21 by omega]

theorem ivReg_step (h : s.state = .idle ∨ s.uCore.done = false) :
    (s.step true j).ivReg = if j.loadIv then j.ivIn else s.ivReg := by
  show (s.fsm j).ivReg = _
  cases hs : s.state with
  | idle => cases hi : j.start <;> simp [AesChain.fsm, hs, hi]
  | core =>
    have hd : s.uCore.done = false := h.resolve_left (by simp [hs])
    simp [AesChain.fsm, hs, hd]

/-- A block that starts from the chaining value `v` and finds `w` at its end. CBC
decryption and the counter take `w`, CBC encryption and the keystream `v`. -/
theorem block_end (h : Working i v 21 s) (hl : j.loadIv = false) :
    let m := chainMode i.mode
    (s.step true j).dataOutReg =
        blockOut (aes i.keyIn) m i.encdec (if m = .cbc ∧ i.encdec = true then s.ivReg else v) i.dataIn ∧
      (s.step true j).ivReg = blockNext (aes i.keyIn) m i.encdec (if m = .cbc then v else s.ivReg) i.dataIn := by
  have hd : s.uCore.done = true := by simp [h.core_done]
  have ho : s.uCore.dataOut = coreAnswer i v := by
    obtain ⟨job, hres, hst⟩ := h.core
    exact (hst.finished_of rfl).dataOut.trans hres
  have hs := h.state
  have hr := h.modeReg
  have hdata := h.dataInReg
  rcases chainMode_cases i.mode with ⟨hb, hm⟩ | ⟨hb, ht, hm⟩ | ⟨hb, ht, hm⟩ <;>
    simp only [coreAnswer, hm] at ho ⊢
  · have he := h.encdecReg
    cases hi : i.encdec <;> simp_all [AesChain.step, AesChain.fsm, blockOut, blockNext, aes]
  · have hc : modeCtr ≠ modeCbc := by decide
    simp_all [AesChain.step, AesChain.fsm, blockOut, blockNext, aes]
  · cases hi : i.encdec <;> simp_all [AesChain.step, AesChain.fsm, blockOut, blockNext, aes]

/-- The last edge gives `done`, whatever `load_iv` did meanwhile. -/
theorem done_step (h : Working i v 21 s) : (s.step true j).doneReg = true :=
  (s.doneReg_step j).2 ⟨h.state, by simp [h.core_done]⟩

theorem answered_step (h : Working i v 21 s) (hv : s.ivReg = v) (hl : j.loadIv = false) :
    Answered i v (s.step true j) := by
  obtain ⟨hout, hnext⟩ := block_end h hl
  rw [hv, ite_self] at hout hnext
  have hidle := (s.fsm_state j).2 (.inr ⟨h.state, by simp [h.core_done]⟩)
  exact ⟨hidle, done_step h, hout, hnext⟩

end Edge

section Block

variable {t : ℕ} (h : (r.st t).coreStart (r.inp t) = true)
include h

theorem working_run {k : ℕ} (hk : k ≤ 21) : Working (r.inp t) (r.st t).ivReg k (r.st (t + 1 + k)) := by
  apply r.carry (P := fun k s => Working (r.inp t) (r.st t).ivReg k s)
  · exact working_start (AesChain.synced r t) h
  · intro m hm hw
    exact working_step hw (by omega)

theorem ivReg_run {k : ℕ} (hk : k ≤ 21) (hl : ∀ m, t ≤ m → m ≤ t + k → (r.inp m).loadIv = false) :
    (r.st (t + 1 + k)).ivReg = (r.st t).ivReg := by
  apply r.carry (P := fun _ s => s.ivReg = (r.st t).ivReg)
  · have hs : (r.st t).state = .idle := by
      simp only [AesChain.coreStart, Bool.and_eq_true, decide_eq_true_eq] at h
      exact h.1
    rw [Run.st_succ, ivReg_step (.inl hs), hl t le_rfl (by omega)]
    rfl
  · intro m hm hv
    have hd := (working_run r h (k := m) (by omega)).core_done
    rw [ivReg_step (.inr (by simp [hd]; omega)), hl _ (by omega) (by omega), ← hv]
    rfl

theorem answered_run (hl : ∀ m, t ≤ m → m ≤ t + 22 → (r.inp m).loadIv = false) :
    Answered (r.inp t) (r.st t).ivReg (r.st (t + 1 + 22)) :=
  answered_step (working_run r h le_rfl) (ivReg_run r h le_rfl fun m h1 h2 => hl m h1 (by omega))
    (hl _ (by omega) (by omega))

theorem done_run {k : ℕ} (hk : k ≤ 22) : (r.st (t + 1 + k)).doneReg = decide (k = 22) := by
  rcases Nat.lt_or_eq_of_le hk with hlt | rfl
  · simp [(working_run r h (k := k) (by omega)).doneReg]; omega
  · exact done_step (working_run r h (k := 21) le_rfl)

end Block

theorem idle_step {n : ℕ} (hs : (r.st n).state = .idle) (h : (r.st n).coreStart (r.inp n) = false)
    (hl : (r.inp n).loadIv = false) :
    (r.st (n + 1)).state = .idle ∧ (r.st (n + 1)).doneReg = false ∧ (r.st (n + 1)).ivReg = (r.st n).ivReg := by
  have hi : (r.inp n).start = false := by simpa [AesChain.coreStart, hs] using h
  simp [Run.st_succ, AesChain.step, AesChain.fsm, hs, hi, hl]

/-! ## Messages -/

/-- An IV loaded in cycle `t` with the chain idle, and `n` more cycles without
another load in which the blocks that are started have one key, mode and direction. -/
structure Message (key iv : Block) (mode : BitVec 2) (dec : Bool) (t n : ℕ) : Prop where
  idle : (r.st t).busy = false
  load : (r.inp t).loadIv = true
  start : (r.inp t).start = false
  iv : (r.inp t).ivIn = iv
  loadIv : ∀ m, t < m → m ≤ t + n → (r.inp m).loadIv = false
  same : ∀ m, t < m → m ≤ t + n → (r.st m).coreStart (r.inp m) = true →
    (r.inp m).keyIn = key ∧ (r.inp m).mode = mode ∧ (r.inp m).encdec = dec

/-- The blocks started in the `n` cycles after `t`. -/
def blocksIn (t n : ℕ) : List Block :=
  collect (fun m => if (r.st m).coreStart (r.inp m) then some (r.inp m).dataIn else none) (t + 1) n

/-- The values of `data_out` at the `done` pulses of those cycles and the one after them. -/
def blocksOut (t n : ℕ) : List Block :=
  collect (fun m => if (r.st m).doneReg then some (r.st m).dataOutReg else none) (t + 1) (n + 1)

/-- Where a message is after `n` cycles: between blocks, or `k` edges into one. -/
inductive Progress (key iv : Block) (mode : BitVec 2) (dec : Bool) (t n : ℕ) : Prop
  | between (idle : (r.st (t + 1 + n)).state = .idle)
      (out : blocksOut r t n = message (aes key) (chainMode mode) dec iv (blocksIn r t n))
      (ivReg : (r.st (t + 1 + n)).ivReg = nextIv (aes key) (chainMode mode) dec iv (blocksIn r t n))
  | within (a k : ℕ) (hk : k ≤ 21) (at_eq : t + n = t + a + 1 + k)
      (start : (r.st (t + 1 + a)).coreStart (r.inp (t + 1 + a)) = true)
      (out : blocksOut r t n = message (aes key) (chainMode mode) dec iv (blocksIn r t a))
      (ivReg : (r.st (t + 1 + a)).ivReg = nextIv (aes key) (chainMode mode) dec iv (blocksIn r t a))
      (blocks : blocksIn r t n = blocksIn r t a ++ [(r.inp (t + 1 + a)).dataIn])

variable {r} {key iv : Block} {mode : BitVec 2} {dec : Bool} {t n : ℕ}

theorem Message.mono {n' : ℕ} (hm : Message r key iv mode dec t n') (h : n ≤ n') : Message r key iv mode dec t n :=
  { hm with
    loadIv := fun m h1 h2 => hm.loadIv m h1 (by omega)
    same := fun m h1 h2 => hm.same m h1 (by omega) }

theorem blocksIn_succ_none (h : (r.st (t + 1 + n)).coreStart (r.inp (t + 1 + n)) = false) :
    blocksIn r t (n + 1) = blocksIn r t n :=
  collect_succ_none (by simp [h])

theorem blocksOut_succ_none (h : (r.st (t + 1 + (n + 1))).doneReg = false) :
    blocksOut r t (n + 1) = blocksOut r t n :=
  collect_succ_none (by simp [h])

theorem progress_zero (hm : Message r key iv mode dec t 0) : Progress r key iv mode dec t 0 := by
  have hs : (r.st t).state = .idle := by simpa [AesChain.busy] using hm.idle
  have hst : (r.st (t + 1)).state = .idle ∧ (r.st (t + 1)).doneReg = false ∧ (r.st (t + 1)).ivReg = iv := by
    simp [Run.st_succ, AesChain.step, AesChain.fsm, hs, hm.start, hm.load, hm.iv]
  refine .between hst.1 ?_ ?_
  · rw [blocksOut, collect_succ_none (by simp [hst.2.1])]
    simp [blocksIn]
  · simp [blocksIn, hst.2.2]

/-- One cycle of a message. -/
theorem progress_succ (hm : Message r key iv mode dec t (n + 1)) (h : Progress r key iv mode dec t n) :
    Progress r key iv mode dec t (n + 1) := by
  have hl (m : ℕ) (h1 : t < m) (h2 : m ≤ t + n + 1) := hm.loadIv m h1 h2
  cases h with
  | between idle out ivReg =>
    cases hc : (r.st (t + 1 + n)).coreStart (r.inp (t + 1 + n)) with
    | false =>
      obtain ⟨hs, hd, hv⟩ := idle_step r idle hc (hl _ (by omega) (by omega))
      refine .between hs ?_ ?_
      · rw [blocksOut_succ_none hd, blocksIn_succ_none hc, out]
      · rw [← Nat.add_assoc (t + 1), hv, blocksIn_succ_none hc, ivReg]
    | true =>
      have hw := working_run r hc (k := 0) (by omega)
      refine .within n 0 (by omega) (by omega) hc ?_ ivReg (collect_succ_some (by simp [hc]))
      rw [blocksOut_succ_none hw.doneReg, out]
  | within a k hk at_eq start out ivReg blocks =>
    obtain rfl : n = a + 1 + k := by omega
    have hload (m : ℕ) (h1 : t + 1 + a ≤ m) (h2 : m ≤ t + 1 + a + 1 + k) := hl m (by omega) (by omega)
    have hw := working_run r start hk
    have hc : (r.st (t + 1 + (a + 1 + k))).coreStart (r.inp (t + 1 + (a + 1 + k))) = false := by
      rw [show t + 1 + (a + 1 + k) = t + 1 + a + 1 + k by omega]
      simp [AesChain.coreStart, hw.state]
    have hnext : t + 1 + (a + 1 + k + 1) = t + 1 + a + 1 + (k + 1) := by omega
    rcases Nat.lt_or_eq_of_le hk with hlt | rfl
    · have hw' := working_run r start (k := k + 1) hlt
      refine .within a (k + 1) hlt (by omega) start ?_ ivReg ((blocksIn_succ_none hc).trans blocks)
      rw [blocksOut_succ_none (by rw [hnext]; exact hw'.doneReg), out]
    · have ha := answered_run r start fun m h1 h2 => hload m h1 (by omega)
      obtain ⟨hkey, hmode, hdec⟩ := hm.same _ (by omega) (by omega) start
      have hout := ha.dataOutReg
      have hiv := ha.ivReg
      rw [hkey, hmode, hdec, ivReg] at hout hiv
      refine .between ?_ ?_ ?_
      · rw [hnext]; exact ha.state
      · rw [blocksIn_succ_none hc, blocks, message_snoc, ← hout, ← out]
        exact collect_succ_some (by rw [hnext]; simp [ha.doneReg])
      · rw [blocksIn_succ_none hc, blocks, nextIv_snoc, ← hiv, hnext]

theorem message_progress (hm : Message r key iv mode dec t n) : Progress r key iv mode dec t n := by
  induction n with
  | zero => exact progress_zero hm
  | succ n ih => exact progress_succ hm (ih (hm.mono (by omega)))

/-- Over a message, the blocks that have come out are the mode's of the blocks that
went in, in order; `iv_out` is the chaining value after them. At most one block
is in work, and each takes 23 cycles. -/
theorem aesChain_computes_mode (hm : Message r key iv mode dec t n) :
    let bs := (blocksIn r t n).take (blocksOut r t n).length
    blocksOut r t n = message (aes key) (chainMode mode) dec iv bs ∧
      (r.st (t + 1 + n)).ivReg = nextIv (aes key) (chainMode mode) dec iv bs ∧
      (blocksIn r t n).length = (blocksOut r t n).length + (r.st (t + 1 + n)).busy.toNat ∧
      ∀ m, t < m → m ≤ t + n → (r.st m).coreStart (r.inp m) = true →
        ∀ k ≤ 22, (r.st (m + 1 + k)).doneReg = decide (k = 22) := by
  intro bs
  have hdone : ∀ m, t < m → m ≤ t + n → (r.st m).coreStart (r.inp m) = true →
      ∀ k ≤ 22, (r.st (m + 1 + k)).doneReg = decide (k = 22) := fun m _ _ h k hk => done_run r h hk
  cases message_progress hm with
  | between idle out ivReg =>
    have hbs : bs = blocksIn r t n := by simp [bs, out, message_length]
    rw [hbs]
    exact ⟨out, ivReg, by simp [out, message_length, AesChain.busy, idle], hdone⟩
  | within a k hk at_eq start out ivReg blocks =>
    have hbs : bs = blocksIn r t a := by simp [bs, out, message_length, blocks]
    have hw := working_run r start hk
    have hv := ivReg_run r start hk fun m h1 h2 => hm.loadIv m (by omega) (by omega)
    rw [show t + 1 + a + 1 + k = t + 1 + n by omega] at hw hv
    rw [hbs]
    exact ⟨out, hv.trans ivReg, by simp [out, message_length, AesChain.busy, hw.state, blocks], hdone⟩

/-- With no block in work, all of the message is out. -/
theorem blocksOut_idle (hm : Message r key iv mode dec t n) (hidle : (r.st (t + 1 + n)).busy = false) :
    blocksOut r t n = message (aes key) (chainMode mode) dec iv (blocksIn r t n) := by
  cases message_progress hm with
  | between idle out ivReg => exact out
  | within a k hk at_eq start out ivReg blocks =>
    have hw := working_run r start hk
    rw [show t + 1 + a + 1 + k = t + 1 + n by omega] at hw
    simp [AesChain.busy, hw.state] at hidle

theorem decrypt128_encrypt128 (key x : Block) : decrypt128 key (encrypt128 key x) = x := by
  rw [decrypt128, encrypt128, ofBits_toBits, invCipher_cipher, toBits_ofBits]

/-- Decrypting in the same mode, with the same key and IV, the blocks that
encryption gave yields the blocks it was given. -/
theorem aesChain_round_trip {t' n' : ℕ} (he : Message r key iv mode false t n)
    (hd : Message r key iv mode true t' n') (hin : blocksIn r t' n' = blocksOut r t n)
    (hidle : (r.st (t + 1 + n)).busy = false) (hidle' : (r.st (t' + 1 + n')).busy = false) :
    blocksOut r t' n' = blocksIn r t n := by
  rw [blocksOut_idle hd hidle', hin, blocksOut_idle he hidle]
  exact message_message (decrypt128_encrypt128 key) _ _ _

end Runs

/-! ## Two blocks of the CBC example of SP 800-38A, there and back -/

def cbcKey : Block := 0x2b7e151628aed2a6abf7158809cf4f3c
def cbcIv : Block := 0x000102030405060708090a0b0c0d0e0f
def cbcPlain : List Block := [0x6bc1bee22e409f96e93d7e117393172a, 0xae2d8a571e03ac9c9eb76fac45af8e51]
def cbcCipher : List Block := [0x7649abac8119b246cee98e9b12e9197d, 0x5086cb9b507219ee95db113a917678b2]

/-- Encrypts the two blocks from cycles 1 and 24, and decrypts the answers from cycles 48 and 71. -/
def cbcRun : Run AesChain.step where
  powerUp := ⟨.core, 3, true, 1, 2, 3, true, ⟨.round, true, 3, 0, true, true, 0, ⟨.expand, 7, true, fun _ => 0⟩⟩⟩
  resetInp := ⟨false, 0, false, false, 0, 0, 0⟩
  inp n := {
    loadIv := n = 0 || n = 47, ivIn := cbcIv, start := n = 1 || n = 24 || n = 48 || n = 71, encdec := 47 < n
    mode := modeCbc, keyIn := cbcKey
    dataIn := (if n < 48 then cbcPlain else cbcCipher).getD (if n = 1 ∨ n = 48 then 0 else 1) 0 }

set_option maxRecDepth 100000 in
theorem cbcRun_encrypt : Message cbcRun cbcKey cbcIv modeCbc false 0 46 where
  idle := rfl
  load := rfl
  start := rfl
  iv := rfl
  loadIv m h1 h2 := by simp [cbcRun]; omega
  same m h1 h2 _ := ⟨rfl, rfl, by simp [cbcRun]; omega⟩

set_option maxRecDepth 100000 in
theorem cbcRun_decrypt : Message cbcRun cbcKey cbcIv modeCbc true 47 46 where
  idle := by decide +kernel
  load := rfl
  start := rfl
  iv := rfl
  loadIv m h1 h2 := by simp [cbcRun]; omega
  same m h1 h2 _ := ⟨rfl, rfl, by simp [cbcRun]; omega⟩

set_option maxRecDepth 100000 in
theorem cbcRun_blocksIn : blocksIn cbcRun 0 46 = cbcPlain ∧ blocksIn cbcRun 47 46 = cbcCipher := by
  decide +kernel

set_option maxRecDepth 100000 in
theorem cbc_vector : message (aes cbcKey) .cbc false cbcIv cbcPlain = cbcCipher := by
  decide +kernel

set_option maxRecDepth 100000 in
theorem aesChain_computes_mode_cbcRun : blocksOut cbcRun 0 46 = cbcCipher := by
  obtain ⟨hout, -, hlen, -⟩ := aesChain_computes_mode cbcRun_encrypt
  have hidle : (cbcRun.st (0 + 1 + 46)).busy = false := by decide +kernel
  have htwo : (blocksOut cbcRun 0 46).length = 2 := by
    rw [cbcRun_blocksIn.1, hidle] at hlen
    exact hlen.symm
  rw [hout, htwo, cbcRun_blocksIn.1]
  exact cbc_vector

set_option maxRecDepth 100000 in
theorem aesChain_round_trip_cbcRun : blocksOut cbcRun 47 46 = cbcPlain := by
  have hidle : (cbcRun.st (0 + 1 + 46)).busy = false := by decide +kernel
  refine (aesChain_round_trip cbcRun_encrypt cbcRun_decrypt ?_ hidle (by decide +kernel)).trans cbcRun_blocksIn.1
  rw [blocksOut_idle cbcRun_encrypt hidle, cbcRun_blocksIn.1, cbcRun_blocksIn.2]
  exact cbc_vector.symm

end RiscvSoc.Aes
