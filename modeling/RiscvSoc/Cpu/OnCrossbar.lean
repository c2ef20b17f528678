import RiscvSoc.Cpu.AxiPort
import RiscvSoc.Crossbar.ReadRun
/-!
# The core behind the crossbar

The core is the crossbar's first master. Whatever the other master and the slaves do, the
crossbar responds to it only for what it has taken.
-/

namespace RiscvSoc.Crossbar

open Sync

/-! ## Handshakes of one master -/

namespace WEvent

variable (m : Master)

def isUpAw : WEvent → Bool
  | .aw q _ => q = m
  | _ => false

def isUpW : WEvent → Bool
  | .w q _ _ => q = m
  | _ => false

def isUpB : WEvent → Bool
  | .b q _ => q = m
  | _ => false

end WEvent

namespace REvent

variable (m : Master)

def isUpAr : REvent → Bool
  | .ar q _ => q = m
  | _ => false

def isUpR : REvent → Bool
  | .r q _ _ => q = m
  | _ => false

end REvent

/-- A whole write has a response for each beat, for any master. -/
theorem WriteTxn.answered {l : List (ℕ × WEvent)} (h : WriteTxn l) (m : Master) :
    (l.map Prod.snd).countP (WEvent.isUpB m) = (l.map Prod.snd).countP (WEvent.isUpAw m) ∧
      (l.map Prod.snd).countP (WEvent.isUpB m) = (l.map Prod.snd).countP (WEvent.isUpW m) := by
  cases h with
  | slave hup _ hdown =>
    cases hup <;> cases hdown <;> simp [List.countP_cons, WEvent.isUpAw, WEvent.isUpW, WEvent.isUpB]
  | err hup | csr hup => cases hup <;> simp [List.countP_cons, WEvent.isUpAw, WEvent.isUpW, WEvent.isUpB]

theorem ReadTxn.answered {diag : ℕ → Word32 → Word32} {l : List (ℕ × REvent)} (h : ReadTxn diag l) (m : Master) :
    (l.map Prod.snd).countP (REvent.isUpR m) = (l.map Prod.snd).countP (REvent.isUpAr m) := by
  cases h <;> simp [List.countP_cons, REvent.isUpAr, REvent.isUpR]

/-- What every transaction has as often as another counts only in the open part. -/
theorem countP_of_parses {ε : Type*} {T : List (ℕ × ε) → Prop} {l cur : List (ℕ × ε)} {f g : ε → Bool}
    (ht : ∀ t, T t → (t.map Prod.snd).countP f = (t.map Prod.snd).countP g) (h : Parses T l cur) :
    ∃ k, (l.map Prod.snd).countP f = k + (cur.map Prod.snd).countP f ∧ (l.map Prod.snd).countP g = k + (cur.map Prod.snd).countP g := by
  obtain ⟨done, rfl, hd⟩ := h
  have hdone : (done.flatten.map Prod.snd).countP f = (done.flatten.map Prod.snd).countP g := by
    induction done with
    | nil => rfl
    | cons t ts ih =>
      rw [List.flatten_cons, List.map_append, List.countP_append, List.countP_append, ht t (hd t List.mem_cons_self),
        ih fun u hu => hd u (List.mem_cons_of_mem _ hu)]
  refine ⟨(done.flatten.map Prod.snd).countP f, ?_, ?_⟩
  · rw [List.map_append, List.countP_append]
  · rw [List.map_append, List.countP_append, hdone]

section Port

variable (r : Run AxiLiteXbar.step) (n : ℕ) (m : Master)

/-- A read response is for an address that has been taken. -/
theorem r_owed (hv : ((r.st n).rsp (r.inp n) m).rvalid = true) :
    ((r.log rEvents n).map Prod.snd).countP (REvent.isUpR m) < ((r.log rEvents n).map Prod.snd).countP (REvent.isUpAr m) := by
  obtain ⟨⟨cur, hpar, hp⟩, -⟩ := rLog_phase r n
  simp only [AxiLiteXbar.rsp, Bool.and_eq_true, decide_eq_true_eq] at hv
  obtain ⟨rfl, hv⟩ := hv
  have hbal := (hp.rvalid hv 0).answered (granted (r.st n).r.rGrant)
  obtain ⟨k, h1, h2⟩ := countP_of_parses (fun _ ht => ht.answered (granted (r.st n).r.rGrant)) hpar
  simp only [List.map_append, List.map_cons, List.map_nil, List.countP_append, List.countP_singleton, REvent.isUpR, REvent.isUpAr, decide_true,
    Bool.false_eq_true, ↓reduceIte] at hbal
  omega

/-- A write response is for two beats that have been taken. -/
theorem b_owed (hv : ((r.st n).rsp (r.inp n) m).bvalid = true) :
    ((r.log wEvents n).map Prod.snd).countP (WEvent.isUpB m) < ((r.log wEvents n).map Prod.snd).countP (WEvent.isUpAw m) ∧
      ((r.log wEvents n).map Prod.snd).countP (WEvent.isUpB m) < ((r.log wEvents n).map Prod.snd).countP (WEvent.isUpW m) := by
  obtain ⟨cur, hpar, hp⟩ := wLog_phase r n
  simp only [AxiLiteXbar.rsp, Bool.and_eq_true, decide_eq_true_eq] at hv
  obtain ⟨rfl, hv⟩ := hv
  have hbal := (Phase_bvalid hp hv 0).answered (granted (r.st n).w.wGrant)
  obtain ⟨k, h1, h2⟩ := countP_of_parses (fun _ ht => (ht.answered (granted (r.st n).w.wGrant)).1) hpar
  obtain ⟨k', h1', h2'⟩ := countP_of_parses (fun _ ht => (ht.answered (granted (r.st n).w.wGrant)).2) hpar
  simp only [List.map_append, List.map_cons, List.map_nil, List.countP_append, List.countP_singleton, WEvent.isUpB, WEvent.isUpAw, WEvent.isUpW,
    decide_true, Bool.false_eq_true, ↓reduceIte] at hbal
  omega

end Port

end RiscvSoc.Crossbar

namespace RiscvSoc.Cpu

open Sync Crossbar

/-! ## The core as the first master -/

structure OnCrossbar where
  cpu : Picorv32Axi
  xbar : AxiLiteXbar

/-- What comes from the other master and the slaves. -/
structure OnCrossbarIn where
  other : LiteReq
  down : Slave → LiteRsp
  irq : Word32
  undef : Undef

namespace OnCrossbar

variable (s : OnCrossbar) (i : OnCrossbarIn)

def up : Master → LiteReq
  | .s0 => s.cpu.adapter.req s.cpu.core.toMemFsm
  | .s1 => i.other

def xbarIn : XbarIn := ⟨s.up i, i.down⟩

def axiIn : AxiIn := ⟨s.xbar.rsp (s.xbarIn i) .s0, i.irq, i.undef⟩

def step (resetn : Bool) (s : OnCrossbar) (i : OnCrossbarIn) : OnCrossbar where
  cpu := s.cpu.step resetn (s.axiIn i)
  xbar := s.xbar.step resetn (s.xbarIn i)

variable (r : Run step) (n : ℕ)

def cpuRun : Run Picorv32Axi.step where
  powerUp := r.powerUp.cpu
  resetInp := r.powerUp.axiIn r.resetInp
  inp n := (r.st n).axiIn (r.inp n)

def xbarRun : Run AxiLiteXbar.step where
  powerUp := r.powerUp.xbar
  resetInp := r.powerUp.xbarIn r.resetInp
  inp n := (r.st n).xbarIn (r.inp n)

theorem cpuRun_st : (cpuRun r).st n = (r.st n).cpu := by
  induction n with
  | zero => rfl
  | succ n ih =>
    rw [Run.st_succ, ih]
    rfl

theorem xbarRun_st : (xbarRun r).st n = (r.st n).xbar := by
  induction n with
  | zero => rfl
  | succ n ih =>
    rw [Run.st_succ, ih]
    rfl

/-! ### The two logs -/

theorem countP_whenFire {α : Type*} (valid ready : Bool) (x : α) (f : α → Bool) :
    (whenFire valid ready x).countP f = if (valid && ready && f x) = true then 1 else 0 := by
  cases valid <;> cases ready <;> simp [whenFire, List.countP_cons]

/-- What the crossbar logs at the core's port is what the core logs. -/
theorem countP_events :
    (wEvents s.xbar (s.xbarIn i)).countP (WEvent.isUpAw .s0) = (s.cpu.handshakes (s.axiIn i)).countP BusEvent.isAw ∧
      (wEvents s.xbar (s.xbarIn i)).countP (WEvent.isUpW .s0) = (s.cpu.handshakes (s.axiIn i)).countP BusEvent.isW ∧
      (wEvents s.xbar (s.xbarIn i)).countP (WEvent.isUpB .s0) = (s.cpu.handshakes (s.axiIn i)).count .b ∧
      (rEvents s.xbar (s.xbarIn i)).countP (REvent.isUpAr .s0) = (s.cpu.handshakes (s.axiIn i)).countP BusEvent.isAr ∧
      (rEvents s.xbar (s.xbarIn i)).countP (REvent.isUpR .s0) = (s.cpu.handshakes (s.axiIn i)).countP BusEvent.isR := by
  -- the slaves' handshakes and the other master's do not count
  refine ⟨?_, ?_, ?_, ?_, ?_⟩ <;>
    simp [wEvents, rEvents, Picorv32Axi.handshakes, busEvents, masters, slaves, List.count, countP_whenFire, WEvent.isUpAw, WEvent.isUpW,
      WEvent.isUpB, REvent.isUpAr, REvent.isUpR, BusEvent.isAw, BusEvent.isW, BusEvent.isAr, BusEvent.isR, axiIn, xbarIn, up]

/-- So it is for whole runs. -/
theorem countP_log {σ ι ε : Type*} {step' : Bool → σ → ι → σ} (q : Run step') (ev : σ → ι → List ε) (f : ε → Bool) (g : BusEvent → Bool)
    (h : ∀ n, (ev (q.st n) (q.inp n)).countP f = (((cpuRun r).st n).handshakes ((cpuRun r).inp n)).countP g) :
    ((q.log ev n).map Prod.snd).countP f = ((cpuRun r).span Picorv32Axi.handshakes 0 n).countP g := by
  induction n with
  | zero => rfl
  | succ n ih =>
    rw [Run.log_succ, Run.span_succ, Run.eventsAt, List.map_append, List.map_map, List.countP_append, List.countP_append, ih, Nat.zero_add,
      ← h n]
    simp [Function.comp_def]

/-- In every run the crossbar keeps what the core expects of a slave. -/
theorem crossbar_obeys : Obeys ((cpuRun r).span Picorv32Axi.handshakes 0 n) ((cpuRun r).inp n).rsp := by
  have hcount (k : ℕ) := countP_events (r.st k) (r.inp k)
  refine ⟨fun hv => ?_, fun hv => ?_⟩
  · have howed := r_owed (xbarRun r) n .s0 (by rw [xbarRun_st]; exact hv)
    rw [countP_log r n (xbarRun r) rEvents _ BusEvent.isR fun k => ?_, countP_log r n (xbarRun r) rEvents _ BusEvent.isAr fun k => ?_] at howed
    · exact howed
    · rw [xbarRun_st, cpuRun_st]
      exact (hcount k).2.2.2.1
    · rw [xbarRun_st, cpuRun_st]
      exact (hcount k).2.2.2.2
  · have howed := b_owed (xbarRun r) n .s0 (by rw [xbarRun_st]; exact hv)
    rw [countP_log r n (xbarRun r) wEvents _ (· == .b) fun k => ?_, countP_log r n (xbarRun r) wEvents _ BusEvent.isAw fun k => ?_,
      countP_log r n (xbarRun r) wEvents _ BusEvent.isW fun k => ?_] at howed
    · exact howed
    · rw [xbarRun_st, cpuRun_st]
      exact (hcount k).2.1
    · rw [xbarRun_st, cpuRun_st]
      exact (hcount k).1
    · rw [xbarRun_st, cpuRun_st]
      exact (hcount k).2.2.1

end OnCrossbar

end RiscvSoc.Cpu
