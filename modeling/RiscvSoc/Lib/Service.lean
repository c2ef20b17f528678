import RiscvSoc.Lib.Sync
/-!
# Machines that answer one request at a time

A request is presented until it is answered and then withdrawn. From rest the machine goes
through stages, counted in cycles from the request, to its answer; in the cycle after it
comes to rest again. The obligations are about single edges, the law is about runs.
-/

namespace Sync

variable {σ ι α β : Type*} {step : Bool → σ → ι → σ}

/-- A machine that takes requests `α`, and what an edge does to its stages. The request port
is the part `β` of its inputs. -/
structure Service (step : Bool → σ → ι → σ) (α β : Type*) where
  port : ι → β
  req : β → Option α
  ready : σ → Bool
  latency : α → ℕ
  Quiet : σ → Prop
  /-- `Stage a p k`: the request `a`, which the port `p` shows, began `k` cycles ago. -/
  Stage : α → β → ℕ → σ → Prop
  Drained : σ → Prop
  latency_pos : ∀ a, 0 < latency a
  quiet_ready : ∀ {s}, Quiet s → ready s = false
  idle : ∀ {s i}, Quiet s → req (port i) = none → Quiet (step true s i)
  begin : ∀ {s i a}, Quiet s → req (port i) = some a → Stage a (port i) 1 (step true s i)
  next : ∀ {s i a k}, Stage a (port i) k s → req (port i) = some a → 0 < k → k < latency a → Stage a (port i) (k + 1) (step true s i)
  stage_ready : ∀ {s p a k}, Stage a p k s → 0 < k → k ≤ latency a → ready s = decide (k = latency a)
  drain : ∀ {s i a}, Stage a (port i) (latency a) s → req (port i) = some a → Drained (step true s i)
  drained_ready : ∀ {s}, Drained s → ready s = false
  rest : ∀ {s i}, Drained s → req (port i) = none → Quiet (step true s i)
  busy : ∀ {s i a}, req (port i) = some a → ready s = false → ¬ Quiet (step true s i)

namespace Service

variable (m : Service step α β) (r : Run step)

/-! ## Edges -/

section Edge

variable {m : Service step α β} {s : σ} {i : ι} {a : α} {p : β} {k : ℕ}

/-- The machine has had the request `a` for `k` cycles, the first of which finds it at rest. -/
inductive Has (m : Service step α β) (a : α) (p : β) : ℕ → σ → Prop
  | start {s : σ} (h : m.Quiet s) : Has m a p 0 s
  | stage {k : ℕ} {s : σ} (h0 : 0 < k) (h : m.Stage a p k s) : Has m a p k s

theorem Has.next (h : m.Has a (m.port i) k s) (ha : m.req (m.port i) = some a) (hk : k < m.latency a) :
    m.Has a (m.port i) (k + 1) (step true s i) := by
  cases h with
  | start h => exact .stage Nat.one_pos (m.begin h ha)
  | stage h0 h => exact .stage (Nat.succ_pos _) (m.next h ha h0 hk)

theorem Has.ready (h : m.Has a p k s) (hk : k ≤ m.latency a) : m.ready s = decide (k = m.latency a) := by
  cases h with
  | start h => rw [m.quiet_ready h, decide_eq_false (m.latency_pos a).ne]
  | stage h0 h => exact m.stage_ready h h0 hk

theorem Has.last (h : m.Has a p (m.latency a) s) : m.Stage a p (m.latency a) s := by
  generalize hk : m.latency a = k at h
  cases h with
  | start h => exact absurd hk (m.latency_pos a).ne'
  | stage h0 h => exact h

end Edge

/-! ## Runs -/

/-- The requests are held until they are answered and withdrawn then. -/
structure Polite : Prop where
  hold : ∀ n a, m.req (m.port (r.inp n)) = some a → m.ready (r.st n) = false →
    m.port (r.inp (n + 1)) = m.port (r.inp n)
  withdraw : ∀ n, m.ready (r.st n) = true → m.req (m.port (r.inp (n + 1))) = none

/-- The request `a` is there and was not in the cycle before. -/
def Begins (n : ℕ) (a : α) : Prop := m.req (m.port (r.inp n)) = some a ∧ (n = 0 ∨ m.req (m.port (r.inp (n - 1))) = none)

variable {m r} (hp : m.Polite r)

include hp in
/-- A request that finds the machine at rest is held and takes it through its stages. -/
theorem stages {n : ℕ} {a : α} (hq : m.Quiet (r.st n)) (ha : m.req (m.port (r.inp n)) = some a) {k : ℕ} (h0 : 0 < k)
    (hk : k ≤ m.latency a) : m.Stage a (m.port (r.inp n)) k (r.st (n + k)) ∧
      m.port (r.inp (n + k)) = m.port (r.inp n) := by
  induction k with
  | zero => exact absurd h0 (lt_irrefl 0)
  | succ k ih =>
    rcases Nat.eq_zero_or_pos k with rfl | hpos
    · exact ⟨m.begin hq ha, hp.hold n a ha (m.quiet_ready hq)⟩
    · obtain ⟨hs, hi⟩ := ih hpos (by omega)
      have hready : m.ready (r.st (n + k)) = false := by
        rw [m.stage_ready hs hpos (by omega), decide_eq_false (by omega)]
      refine ⟨?_, (hp.hold (n + k) a (hi ▸ ha) hready).trans hi⟩
      rw [← Nat.add_assoc, r.st_succ, ← hi]
      exact m.next (hi ▸ hs) (hi ▸ ha) hpos (by omega)

/-- In cycle `n` the machine is at rest or works on a request, or has just answered it. -/
inductive Phase (m : Service step α β) (r : Run step) (n : ℕ) : Prop
  | quiet (h : m.Quiet (r.st n))
  | working (b k : ℕ) (a : α) (hn : n = b + k) (h0 : 0 < k) (hk : k ≤ m.latency a) (hq : m.Quiet (r.st b))
      (ha : m.req (m.port (r.inp b)) = some a)
  | drained (h : m.Drained (r.st n)) (hi : m.req (m.port (r.inp n)) = none)

include hp in
theorem phase (h0 : m.Quiet (r.st 0)) (n : ℕ) : Phase m r n := by
  induction n with
  | zero => exact .quiet h0
  | succ n ih =>
    cases ih with
    | quiet h =>
      cases ha : m.req (m.port (r.inp n)) with
      | none => exact .quiet (m.idle h ha)
      | some a => exact .working n 1 a rfl Nat.one_pos (m.latency_pos a) h ha
    | working b k a hn h0 hk hq ha =>
      subst hn
      obtain ⟨hs, hi⟩ := stages hp hq ha h0 hk
      rcases hk.lt_or_eq with hlt | rfl
      · exact .working b (k + 1) a rfl (by omega) hlt hq ha
      · have hready := m.stage_ready hs h0 le_rfl
        refine .drained ?_ (hp.withdraw _ (by simpa using hready))
        rw [r.st_succ]
        exact m.drain (hi ▸ hs) (hi ▸ ha)
    | drained h hi => exact .quiet (m.rest h hi)

include hp in
/-- A request begins exactly where the machine is at rest. -/
theorem quiet_of_begins (h0 : m.Quiet (r.st 0)) {n : ℕ} {a : α} (hb : m.Begins r n a) : m.Quiet (r.st n) := by
  obtain ⟨ha, hb⟩ := hb
  cases phase hp h0 n with
  | quiet h => exact h
  | working b k a' hn hk0 hk hq ha' =>
    subst hn
    rcases hb with hz | hb
    · omega
    · rcases Nat.lt_or_ge 1 k with h1 | h1
      · obtain ⟨-, hi⟩ := stages hp hq ha' (k := k - 1) (by omega) (by omega)
        rw [show b + k - 1 = b + (k - 1) by omega, hi, ha'] at hb
        cases hb
      · rw [show b + k - 1 = b by omega, ha'] at hb
        cases hb
  | drained h hi => rw [hi] at ha; cases ha

include hp in
theorem begins_of_quiet {n : ℕ} {a : α} (hq : m.Quiet (r.st n)) (ha : m.req (m.port (r.inp n)) = some a) : m.Begins r n a := by
  refine ⟨ha, ?_⟩
  rcases n with _ | n
  · exact .inl rfl
  · refine .inr (Option.eq_none_iff_forall_ne_some.2 fun b hb => ?_)
    cases hready : m.ready (r.st n) with
    | false => exact m.busy hb hready hq
    | true => rw [hp.withdraw n hready] at ha; cases ha

include hp in
/-- Every request is answered after its latency and not before, in the last of its stages. -/
theorem answered (h0 : m.Quiet (r.st 0)) {n : ℕ} {a : α} (hb : m.Begins r n a) :
    (∀ k < m.latency a, m.ready (r.st (n + k)) = false) ∧ m.ready (r.st (n + m.latency a)) = true ∧
      m.Stage a (m.port (r.inp n)) (m.latency a) (r.st (n + m.latency a)) := by
  have hq := quiet_of_begins hp h0 hb
  have hs {k : ℕ} (hk0 : 0 < k) (hk : k ≤ m.latency a) := (stages hp hq hb.1 hk0 hk).1
  refine ⟨fun k hk => ?_, ?_, hs (m.latency_pos a) le_rfl⟩
  · rcases Nat.eq_zero_or_pos k with rfl | hpos
    · exact m.quiet_ready hq
    · rw [m.stage_ready (hs hpos hk.le) hpos hk.le, decide_eq_false (by omega)]
  · rw [m.stage_ready (hs (m.latency_pos a) le_rfl) (m.latency_pos a) le_rfl, decide_eq_true rfl]

include hp in
/-- Every answer is that of a request. -/
theorem requested (h0 : m.Quiet (r.st 0)) {n : ℕ} (hn : m.ready (r.st n) = true) :
    ∃ b a, m.Begins r b a ∧ n = b + m.latency a := by
  cases phase hp h0 n with
  | quiet h => rw [m.quiet_ready h] at hn; cases hn
  | working b k a hnk hk0 hk hq ha =>
    subst hnk
    rw [m.stage_ready (stages hp hq ha hk0 hk).1 hk0 hk] at hn
    exact ⟨b, a, begins_of_quiet hp hq ha, by rw [of_decide_eq_true hn]⟩
  | drained h hi => rw [m.drained_ready h] at hn; cases hn

/-- A request that is presented at once, held for its latency and withdrawn is a polite one. -/
theorem polite_once {i j : ι} {a : α} (h0 : m.Quiet (r.st 0)) (ha : m.req (m.port i) = some a) (hj : m.req (m.port j) = none)
    (hinp : ∀ n, r.inp n = if n ≤ m.latency a then i else j) : m.Polite r := by
  have hi {n : ℕ} (hn : n ≤ m.latency a) : r.inp n = i := by rw [hinp, if_pos hn]
  have stage {k : ℕ} (hk : k < m.latency a) : m.Stage a (m.port i) (k + 1) (r.st (k + 1)) := by
    induction k with
    | zero =>
      rw [r.st_succ, hi (Nat.zero_le _)]
      exact m.begin h0 ha
    | succ k ih =>
      rw [r.st_succ, hi (by omega)]
      exact m.next (ih (by omega)) ha (by omega) hk
  refine ⟨fun n b hb hready => ?_, fun n hready => ?_⟩
  · rcases Nat.lt_trichotomy n (m.latency a) with hlt | rfl | hgt
    · rw [hi hlt, hi hlt.le]
    · obtain ⟨k, hk⟩ := Nat.exists_eq_add_one.2 (m.latency_pos a)
      have hs := m.stage_ready (stage (k := k) (by omega)) (by omega) hk.ge
      rw [← hk, hready, decide_eq_true rfl] at hs
      cases hs
    · rw [hinp, if_neg (by omega), hj] at hb
      cases hb
  · rcases Nat.lt_or_ge n (m.latency a) with hlt | hge
    · rcases n with _ | n
      · rw [m.quiet_ready h0] at hready
        cases hready
      · rw [m.stage_ready (stage (by omega)) (by omega) hlt.le, decide_eq_false (by omega)] at hready
        cases hready
    · rw [hinp, if_neg (by omega), hj]

end Service

end Sync
