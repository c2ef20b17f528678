import Mathlib.Data.List.Basic
/-!
# Sticky flags

A flag that the completion of an operation sets and software clears, over the cycles of a
run. It says that the last operation has completed exactly if no operation starts while it
is up and no completion loses against a clear.
-/

namespace Sticky

variable {start complete clear wins : ℕ → Prop} {flag : ℕ → Bool}

/-- A span in which nothing happens grows by a cycle in which nothing happens. -/
theorem none_succ {p : ℕ → Prop} {a n : ℕ} (h : ∀ m, a < m → m < n → ¬ p m) (hn : ¬ p n) :
    ∀ m, a < m → m < n + 1 → ¬ p m := by
  intro m h1 h2
  rcases Nat.lt_or_eq_of_le (Nat.le_of_lt_succ h2) with hlt | rfl
  · exact h m h1 hlt
  · exact hn

/-- A flag that is set and cleared, and set where both come on one edge, is up from a set
until the next clear on a later edge. -/
theorem latched {set clear : ℕ → Prop} (flag : ℕ → Bool) (zero : flag 0 = false)
    (edge : ∀ n, flag (n + 1) = true ↔ set n ∨ (flag n = true ∧ ¬ clear n)) (n : ℕ) :
    flag n = true ↔ ∃ e < n, set e ∧ ∀ m, e < m → m < n → ¬ clear m := by
  induction n with
  | zero => simp [zero]
  | succ n ih =>
    rw [edge, ih]
    constructor
    · rintro (hs | ⟨⟨e, he, hs, hno⟩, hcl⟩)
      · exact ⟨n, n.lt_succ_self, hs, fun m h1 h2 => by omega⟩
      · exact ⟨e, Nat.lt_succ_of_lt he, hs, none_succ hno hcl⟩
    · rintro ⟨e, he, hs, hno⟩
      rcases Nat.lt_or_eq_of_le (Nat.le_of_lt_succ he) with hlt | rfl
      · exact .inr ⟨⟨e, hlt, hs, fun m h1 h2 => hno m h1 (Nat.lt_succ_of_lt h2)⟩, hno n hlt n.lt_succ_self⟩
      · exact .inl hs

/-- The last operation started before cycle `n` has completed, and no clear has come
after its completion. -/
def Completed (start complete clear : ℕ → Prop) (n : ℕ) : Prop :=
  ∃ t e, t < e ∧ e < n ∧ start t ∧ complete e ∧ (∀ u, t < u → u < n → ¬ start u) ∧ ∀ m, e < m → m < n → ¬ clear m

/-- A flag that a completion sets and software clears. Where both come on one edge the
completion wins if `wins`. A start and a clear are the same kind of request. -/
structure StickyFlag (start complete clear wins : ℕ → Prop) (flag : ℕ → Bool) : Prop where
  zero : flag 0 = false
  set : ∀ n, complete n → (flag (n + 1) = true ↔ wins n ∨ ¬ clear n)
  keep : ∀ n, ¬ complete n → (flag (n + 1) = true ↔ flag n = true ∧ ¬ clear n)
  origin : ∀ e, complete e → ∃ t < e, start t ∧ ∀ u, t < u → u < e → ¬ start u
  apart : ∀ n, start n → ¬ clear n

/-- The flag is down at each start. -/
def StartsDown (start complete : ℕ → Prop) (flag : ℕ → Bool) : Prop := ∀ n, start n → flag n = false ∧ ¬ complete n

/-- No clear takes a completion away. -/
def KeepsCompletion (complete clear wins : ℕ → Prop) : Prop := ∀ n, complete n → clear n → wins n

namespace StickyFlag

variable (h : StickyFlag start complete clear wins flag)
include h

theorem not_down {n : ℕ} (hs : start n) (hf : flag n = true ∨ complete n) :
    flag (n + 1) = true ∧ ¬ Completed start complete clear (n + 1) := by
  constructor
  · have hcl := h.apart n hs
    by_cases hc : complete n
    · exact (h.set n hc).2 (.inr hcl)
    · exact (h.keep n hc).2 ⟨hf.resolve_right hc, hcl⟩
  · rintro ⟨t, e, hte, hen, -, -, hno, -⟩
    exact hno n (by omega) (by omega) hs

theorem taken_away {n : ℕ} (hc : complete n) (hcl : clear n) (hw : ¬ wins n) :
    flag (n + 1) ≠ true ∧ Completed start complete clear (n + 1) := by
  constructor
  · rw [Ne, h.set n hc]
    exact fun hor => hor.elim hw (absurd hcl)
  · obtain ⟨t, ht, hs, hno⟩ := h.origin n hc
    exact ⟨t, n, ht, by omega, hs, hc, none_succ hno fun hn => h.apart n hn hcl, fun m h1 h2 => by omega⟩

theorem completed (hdown : StartsDown start complete flag) (hkeep : KeepsCompletion complete clear wins) (n : ℕ) :
    flag n = true ↔ Completed start complete clear n := by
  induction n with
  | zero =>
    rw [h.zero]
    constructor
    · intro hf
      cases hf
    · rintro ⟨t, e, -, he, -⟩
      omega
  | succ n ih =>
    by_cases hc : complete n
    · -- the completion of the last start
      rw [h.set n hc]
      obtain ⟨t, ht, hs, hno⟩ := h.origin n hc
      constructor
      · intro _
        exact ⟨t, n, ht, by omega, hs, hc, none_succ hno fun hn => (hdown n hn).2 hc, fun m h1 h2 => by omega⟩
      · intro _
        by_cases hcl : clear n
        · exact .inl (hkeep n hc hcl)
        · exact .inr hcl
    · rw [h.keep n hc, ih]
      constructor
      · rintro ⟨⟨t, e, hte, hen, hs, he, hno, hnc⟩, hcl⟩
        have hstart : ¬ start n := by
          intro hn
          -- the flag is up
          have hf := ih.2 ⟨t, e, hte, hen, hs, he, hno, hnc⟩
          simp [(hdown n hn).1] at hf
        exact ⟨t, e, hte, by omega, hs, he, none_succ hno hstart, none_succ hnc hcl⟩
      · rintro ⟨t, e, hte, hen, hs, he, hno, hnc⟩
        have hne : e ≠ n := fun hen => hc (hen ▸ he)
        exact ⟨⟨t, e, hte, by omega, hs, he, fun u h1 h2 => hno u h1 (by omega), fun m h1 h2 => hnc m h1 (by omega)⟩,
          hnc n (by omega) (by omega)⟩

/-- The flag is exact exactly if no start finds it up and no clear meets a completion. -/
theorem exact_iff :
    (∀ n, flag n = true ↔ Completed start complete clear n) ↔
      StartsDown start complete flag ∧ KeepsCompletion complete clear wins := by
  refine ⟨fun hex => ⟨fun n hs => ?_, fun n hc hcl => ?_⟩, fun ⟨hdown, hkeep⟩ => h.completed hdown hkeep⟩
  · by_contra hup
    have hor : flag n = true ∨ complete n := by
      by_contra hno
      exact hup ⟨Bool.eq_false_iff.2 fun hf => hno (.inl hf), fun hc => hno (.inr hc)⟩
    obtain ⟨hf, hno⟩ := h.not_down hs hor
    exact hno ((hex _).1 hf)
  · by_contra hw
    obtain ⟨hf, hyes⟩ := h.taken_away hc hcl hw
    exact hf ((hex _).2 hyes)

end StickyFlag

end Sticky
