import Mathlib.Data.List.Basic
/-!
# Monitors

A monitor reads the events of a system and refuses, with `none`, the one that must
not come. What the environment of the system may do is a rule, kept at each event in
the state that the events before it lead to.
-/

namespace Monitor

variable {σ ε : Type*}

section Follow

variable (step : σ → ε → Option σ)

/-- The state after the events of `l`. -/
def follow (s : σ) (l : List ε) : Option σ := l.foldlM step s

@[simp] theorem follow_nil (s : σ) : follow step s [] = some s := rfl

theorem follow_cons (s : σ) (e : ε) (l : List ε) : follow step s (e :: l) = (step s e).bind (follow step · l) := rfl

@[simp] theorem follow_singleton (s : σ) (e : ε) : follow step s [e] = step s e := by
  simp [follow]

theorem follow_append (s : σ) (l l' : List ε) :
    follow step s (l ++ l') = (follow step s l).bind (follow step · l') := by
  simp [follow, List.foldlM_append]

/-- `rule` is kept at every event of `l`. -/
def Keeps (rule : σ → ε → Prop) (s : σ) (l : List ε) : Prop :=
  ∀ pre e post, l = pre ++ e :: post → ∀ s', follow step s pre = some s' → rule s' e

/-- The check of `Keeps`, event by event. -/
def keepsFrom (rule : σ → ε → Bool) : σ → List ε → Bool
  | _, [] => true
  | s, e :: l => rule s e && (step s e).elim true fun s' => keepsFrom rule s' l

end Follow

variable {step : σ → ε → Option σ} {rule : σ → ε → Prop} {s : σ} {l l' : List ε}

theorem Keeps.of_append (h : Keeps step rule s (l ++ l')) : Keeps step rule s l := by
  rintro pre e post rfl
  exact h pre e (post ++ l') (by simp)

theorem Keeps.of_append_right (h : Keeps step rule s (l ++ l')) {s' : σ} (hs : follow step s l = some s') :
    Keeps step rule s' l' := by
  rintro pre e post rfl q hq
  refine h (l ++ pre) e post (by simp) q ?_
  rw [follow_append, hs]
  exact hq

theorem Keeps.head {e : ε} (h : Keeps step rule s (e :: l)) : rule s e := h [] e l rfl s rfl

/-- After a rule has been kept over `l`, it is kept over what it allows everywhere. -/
theorem Keeps.append (h : Keeps step rule s l) (h' : ∀ e ∈ l', ∀ s, rule s e) : Keeps step rule s (l ++ l') := by
  intro pre e post hl s' hs
  rcases List.append_eq_append_iff.1 hl with ⟨m, rfl, hm⟩ | ⟨m, rfl, hm⟩
  · exact h' e (hm ▸ by simp) s'
  · cases m with
    | nil => exact h' e (by rw [List.nil_append] at hm; simp [← hm]) s'
    | cons e' m =>
      obtain ⟨rfl, rfl⟩ := List.cons.inj hm
      exact h pre e m rfl s' hs

theorem keepsFrom_sound {check : σ → ε → Bool} (hc : ∀ s e, check s e = true → rule s e)
    (h : keepsFrom step check s l = true) : Keeps step rule s l := by
  intro pre e post hl s' hs
  induction pre generalizing s l with
  | nil =>
    subst hl
    obtain rfl : s = s' := Option.some.inj hs
    simp only [List.nil_append, keepsFrom, Bool.and_eq_true] at h
    exact hc s e h.1
  | cons e' pre ih =>
    subst hl
    simp only [List.cons_append, keepsFrom, Bool.and_eq_true] at h
    rw [follow_cons] at hs
    obtain ⟨s₁, hs₁, hs⟩ := Option.bind_eq_some_iff.1 hs
    rw [hs₁] at h
    exact ih h.2 rfl hs

/-! ## Logs that grow -/

section Log

variable {log ev : ℕ → List ε} (hlog : ∀ n, log (n + 1) = log n ++ ev n)
include hlog

theorem log_add (n m : ℕ) : ∃ l, log (n + m) = log n ++ l := by
  induction m with
  | zero => exact ⟨[], by simp⟩
  | succ m ih =>
    obtain ⟨l, hl⟩ := ih
    exact ⟨l ++ ev (n + m), by rw [← Nat.add_assoc, hlog, hl, List.append_assoc]⟩

/-- A rule kept for `k` steps, after which no event can break it, is kept for ever. -/
theorem Keeps.of_late {k : ℕ} (hk : Keeps step rule s (log k)) (late : ∀ n, k ≤ n → ∀ e ∈ ev n, ∀ q, rule q e) (n : ℕ) :
    Keeps step rule s (log n) := by
  have hlate (m : ℕ) : Keeps step rule s (log (k + m)) := by
    induction m with
    | zero => exact hk
    | succ m ih =>
      rw [← Nat.add_assoc, hlog]
      exact ih.append (late _ (by omega))
  rcases Nat.le_total n k with hn | hn
  · obtain ⟨m, rfl⟩ := Nat.exists_eq_add_of_le hn
    obtain ⟨l, hl⟩ := log_add hlog n m
    rw [hl] at hk
    exact hk.of_append
  · obtain ⟨m, rfl⟩ := Nat.exists_eq_add_of_le hn
    exact hlate m

end Log

/-! ## A system under a monitor -/

section Simulates

variable {S : Type*} (R : S → σ → Prop) (st : ℕ → S) (log ev : ℕ → List ε)

/-- Where each step's events lead the monitor on in the relation `R`, for an
environment that keeps the rule, it follows every log and stays in `R`. -/
theorem follow_of_simulates (hlog : ∀ n, log (n + 1) = log n ++ ev n) (start : log 0 = [] ∧ R (st 0) s)
    (edge : ∀ n q, R (st n) q → Keeps step rule q (ev n) → ∃ q', follow step q (ev n) = some q' ∧ R (st (n + 1)) q')
    (n : ℕ) (hk : Keeps step rule s (log n)) : ∃ q, follow step s (log n) = some q ∧ R (st n) q := by
  induction n with
  | zero => exact ⟨s, by rw [start.1, follow_nil], start.2⟩
  | succ n ih =>
    rw [hlog] at hk ⊢
    obtain ⟨q, hq, hR⟩ := ih hk.of_append
    obtain ⟨q', hq', hR'⟩ := edge n q hR (hk.of_append_right hq)
    refine ⟨q', ?_, hR'⟩
    rw [follow_append, hq]
    exact hq'

end Simulates

end Monitor
