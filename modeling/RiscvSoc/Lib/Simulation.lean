import RiscvSoc.Lib.Sync
/-!
# A machine of cycles against a machine of steps

In a cycle the machine of steps stays where it is, and then nothing is seen, or it makes a
step that has what is seen of the cycle as its label. The relation of the two is kept edge
by edge; what is seen of a run is the trace of some steps.
-/

namespace Sync

variable {σ ι α ε : Type*} {step : Bool → σ → ι → σ}

/-- The labels that are seen on a way from one state to another. -/
inductive Trace (Step : α → Option ε → α → Prop) (a : α) : List ε → α → Prop
  | nil : Trace Step a [] a
  | step {l : List ε} {b c : α} {o : Option ε} (h : Trace Step a l b) (hs : Step b o c) : Trace Step a (l ++ o.toList) c

/-- Nothing, or a step. -/
def Stutters (Step : α → Option ε → α → Prop) (a : α) (o : Option ε) (b : α) : Prop := (b = a ∧ o = none) ∨ Step a o b

theorem Trace.stutters {Step : α → Option ε → α → Prop} {a b c : α} {l : List ε} {o : Option ε} (h : Trace Step a l b)
    (hs : Stutters Step b o c) : Trace Step a (l ++ o.toList) c := by
  rcases hs with ⟨rfl, rfl⟩ | hs
  · rw [Option.toList_none, List.append_nil]
    exact h
  · exact h.step hs

/-- `R` relates the machine of cycles, where `ok` holds of its inputs, to that of steps. -/
def Simulates (step : Bool → σ → ι → σ) (see : σ → ι → Option ε) (ok : σ → ι → Prop) (Step : α → Option ε → α → Prop)
    (R : α → σ → Prop) : Prop :=
  ∀ a s i, R a s → ok s i → ∃ b, Stutters Step a (see s i) b ∧ R b (step true s i)

variable {see : σ → ι → Option ε} {ok : σ → ι → Prop} {Step : α → Option ε → α → Prop} {R : α → σ → Prop}

/-- What is seen of a run is a trace of the machine of steps, which it follows cycle by cycle. -/
theorem Simulates.run (h : Simulates step see ok Step R) (r : Run step) {a : α} (h0 : R a (r.st 0)) (hok : ∀ n, ok (r.st n) (r.inp n)) :
    ∃ b : ℕ → α, b 0 = a ∧ (∀ n, R (b n) (r.st n)) ∧ (∀ n, Stutters Step (b n) (see (r.st n) (r.inp n)) (b (n + 1))) ∧
      ∀ n, Trace Step a (collect (fun k => see (r.st k) (r.inp k)) 0 n) (b n) := by
  have hnext (n : ℕ) (x : { a // R a (r.st n) }) :
      ∃ y : { a // R a (r.st (n + 1)) }, Stutters Step x.1 (see (r.st n) (r.inp n)) y.1 := by
    obtain ⟨b, hb, hR⟩ := h x.1 (r.st n) (r.inp n) x.2 (hok n)
    exact ⟨⟨b, hR⟩, hb⟩
  choose f hf using hnext
  let b (n : ℕ) : { a // R a (r.st n) } := Nat.rec ⟨a, h0⟩ f n
  have htrace (n : ℕ) : Trace Step a (collect (fun k => see (r.st k) (r.inp k)) 0 n) (b n).1 := by
    induction n with
    | zero => exact .nil
    | succ n ih =>
      rw [collect_succ, Nat.zero_add]
      exact ih.stutters (hf n (b n))
  exact ⟨fun n => (b n).1, rfl, fun n => (b n).2, fun n => hf n (b n), htrace⟩

end Sync
