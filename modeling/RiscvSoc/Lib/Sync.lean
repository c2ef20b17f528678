import Mathlib.Data.List.Basic
import Mathlib.Data.List.Range
/-!
# Synchronous designs

A design is a function `step`, one clock edge, of the level of its active-low
reset, its registers and its inputs. A `Run` starts from registers with any
contents, sees an edge with the reset asserted and then edges without it, with
any inputs. The rules here take what an edge preserves to what a run preserves.
-/

namespace Sync

variable {σ ι : Type*}

/-- A run of `step`: the state before the last edge of the reset, the inputs at
that edge and at the edges after it. -/
structure Run (step : Bool → σ → ι → σ) where
  powerUp : σ
  resetInp : ι
  inp : ℕ → ι

namespace Run

variable {step : Bool → σ → ι → σ} (r : Run step)

/-- The registers in cycle `n`, cycle 0 being the first after the reset. -/
def st : ℕ → σ
  | 0 => step false r.powerUp r.resetInp
  | n + 1 => step true (st n) (r.inp n)

theorem st_zero : r.st 0 = step false r.powerUp r.resetInp := rfl

theorem st_succ (n : ℕ) : r.st (n + 1) = step true (r.st n) (r.inp n) := rfl

/-- What the reset establishes and every edge keeps holds in every cycle. -/
theorem invariant {I : σ → Prop} (reset : ∀ s i, I (step false s i))
    (edge : ∀ s i, I s → I (step true s i)) (n : ℕ) : I (r.st n) := by
  induction n with
  | zero => exact reset _ _
  | succ n ih => exact edge _ _ ih

/-- What holds in cycle `a` and is carried from each cycle before `a + n` to the
next holds in cycle `a + n`. -/
theorem carry {P : ℕ → σ → Prop} {a : ℕ} (start : P 0 (r.st a)) {n : ℕ}
    (edge : ∀ k < n, P k (r.st (a + k)) → P (k + 1) (step true (r.st (a + k)) (r.inp (a + k)))) :
    P n (r.st (a + n)) := by
  induction n with
  | zero => exact start
  | succ n ih => exact edge n n.lt_succ_self (ih fun k hk => edge k (by omega))

/-- Runs with the same inputs before cycle `n` are in the same state in cycle `n`. -/
theorem st_congr {r r' : Run step} (hp : r.powerUp = r'.powerUp) (hr : r.resetInp = r'.resetInp) {n : ℕ}
    (hi : ∀ m < n, r.inp m = r'.inp m) : r.st n = r'.st n := by
  induction n with
  | zero => rw [st_zero, st_zero, hp, hr]
  | succ n ih => rw [st_succ, st_succ, ih fun m hm => hi m (by omega), hi n (by omega)]

end Run

/-! ## Progress -/

/-- Where every edge from `P` stays in `P` or reaches `Q`, and an edge with `E`
reaches `Q`, an `E` to come brings `Q`. -/
theorem leadsTo_of_event {P Q E : ℕ → Prop} {a : ℕ} (hP : P a) (hE : ∃ b, a ≤ b ∧ E b)
    (edge : ∀ n, P n → (P (n + 1) ∧ ¬ E n) ∨ Q (n + 1)) : ∃ n, a < n ∧ Q n := by
  obtain ⟨b, hab, hb⟩ := hE
  obtain ⟨k, rfl⟩ := Nat.exists_eq_add_of_le hab
  induction k generalizing a with
  | zero =>
    rcases edge a hP with ⟨-, hn⟩ | hq
    · exact absurd hb hn
    · exact ⟨a + 1, by omega, hq⟩
  | succ k ih =>
    rcases edge a hP with ⟨hp, -⟩ | hq
    · obtain ⟨n, hn, hq⟩ := ih hp (by omega) (by rwa [show a + 1 + k = a + (k + 1) by omega])
      exact ⟨n, by omega, hq⟩
    · exact ⟨a + 1, by omega, hq⟩

/-- Where every edge from `P a` keeps it, goes on to a lower rank or reaches `Q`, and
does not keep it at an `E a`, which always comes, `Q` is reached. -/
theorem leadsTo_of_rank {α : Type*} (rank : α → ℕ) {P E : α → ℕ → Prop} {Q : ℕ → Prop}
    (event : ∀ a n, P a n → ∃ b, n ≤ b ∧ E a b)
    (edge : ∀ a n, P a n → (P a (n + 1) ∧ ¬ E a n) ∨ (∃ b, rank b < rank a ∧ P b (n + 1)) ∨ Q (n + 1)) {a : α} {n : ℕ}
    (h : P a n) : ∃ m, n < m ∧ Q m := by
  induction hk : rank a using Nat.strong_induction_on generalizing a n with
  | _ k ih =>
    obtain ⟨m, hnm, ⟨b, hb, hm⟩ | hm⟩ :=
      leadsTo_of_event (Q := fun n => (∃ b, rank b < rank a ∧ P b n) ∨ Q n) h (event a n h) (edge a)
    · obtain ⟨l, hml, hl⟩ := ih _ (hk ▸ hb) hm rfl
      exact ⟨l, by omega, hl⟩
    · exact ⟨m, hnm, hm⟩

/-- What is `c` at first and not in the end leaves `c` at some edge, for the first time. -/
theorem exists_leaves {α : Type*} {f : ℕ → α} {c : α} {n : ℕ} (h0 : f 0 = c) (hn : f n ≠ c) :
    ∃ m < n, (∀ p ≤ m, f p = c) ∧ f (m + 1) ≠ c := by
  induction n using Nat.strong_induction_on with
  | _ n ih =>
    by_cases hall : ∀ p < n, f p = c
    · obtain ⟨m, rfl⟩ : ∃ m, n = m + 1 := Nat.exists_eq_succ_of_ne_zero fun h => hn (h ▸ h0)
      exact ⟨m, m.lt_succ_self, fun p hp => hall p (by omega), hn⟩
    · push Not at hall
      obtain ⟨p, hp, hne⟩ := hall
      obtain ⟨m, hm, hl⟩ := ih p hp hne
      exact ⟨m, by omega, hl⟩

/-! ## Starts and completions -/

section OneDone

variable {start done : ℕ → Prop}

/-- Each start has exactly one completion before the next, and each completion its start. -/
structure OneDone (start done : ℕ → Prop) : Prop where
  one : ∀ t, start t → ∃! n, t < n ∧ (∀ m, t < m → m < n → ¬ start m) ∧ done n
  caused : ∀ n, done n → ∃ t < n, start t ∧ ∀ m, t < m → m < n → ¬ start m

/-- A completion comes `d` cycles after its start, and no other start before it. -/
theorem OneDone.of_delay {d : ℕ} (hd : 0 < d) (done_iff : ∀ n, done n ↔ ∃ t, n = t + d ∧ start t)
    (apart : ∀ t, start t → ∀ m, t < m → m < t + d → ¬ start m) : OneDone start done := by
  refine ⟨fun t ht => ⟨t + d, ⟨by omega, apart t ht, (done_iff _).2 ⟨t, rfl, ht⟩⟩, ?_⟩, fun n hn => ?_⟩
  · rintro n ⟨htn, hno, hn⟩
    obtain ⟨u, rfl, hu⟩ := (done_iff n).1 hn
    rcases Nat.lt_trichotomy u t with hlt | rfl | hlt
    · exact absurd ht (apart u hu t hlt htn)
    · rfl
    · exact absurd hu (hno u hlt (by omega))
  · obtain ⟨t, rfl, ht⟩ := (done_iff n).1 hn
    exact ⟨t, by omega, ht, apart t ht⟩

end OneDone

/-! ## Rest -/

section Rest

variable {α : Type*} {step : Bool → σ → ι → σ} (r : Run step)

/-- A machine that is done is at rest until it is started: its pulse is over after one
cycle, its result stays, and its flag does until it is cleared. -/
theorem Run.at_rest (rest : σ → Prop) (start clear : σ → ι → Bool) {pulse flag : σ → Bool} {result : σ → α}
    (edge : ∀ s i, rest s → start s i = false →
      rest (step true s i) ∧ pulse (step true s i) = false ∧ result (step true s i) = result s ∧
        (flag s = true → clear s i = false → flag (step true s i) = true))
    {a n : ℕ} (hrest : rest (r.st a)) (hpulse : pulse (r.st a) = true) (hflag : flag (r.st a) = true)
    (hn : ∀ m, a ≤ m → m < a + n → start (r.st m) (r.inp m) = false) :
    rest (r.st (a + n)) ∧ (pulse (r.st (a + n)) = true ↔ n = 0) ∧ result (r.st (a + n)) = result (r.st a) ∧
      ((∀ m, a ≤ m → m < a + n → clear (r.st m) (r.inp m) = false) → flag (r.st (a + n)) = true) := by
  induction n with
  | zero => exact ⟨hrest, by simp [hpulse], rfl, fun _ => hflag⟩
  | succ n ih =>
    obtain ⟨hr, -, hres, hfl⟩ := ih fun m hm hlt => hn m hm (by omega)
    obtain ⟨hr', hp', hres', hfl'⟩ := edge (r.st (a + n)) (r.inp (a + n)) hr (hn (a + n) (by omega) (by omega))
    rw [← Nat.add_assoc, r.st_succ]
    refine ⟨hr', by simp [hp'], hres'.trans hres, fun hclear => ?_⟩
    exact hfl' (hfl fun m hm hlt => hclear m hm (by omega)) (hclear (a + n) (by omega) (by omega))

end Rest

/-! ## Handshakes -/

section Held

variable {α : Type*}

/-- What a channel with a valid bit has on offer. -/
def offered (valid : Bool) (x : α) : Option α := if valid then some x else none

theorem offered_eq_some {valid : Bool} {x y : α} : offered valid x = some y ↔ valid = true ∧ x = y := by
  cases valid <;> simp [offered]

/-- What is on offer stays, as it is, until it is taken. -/
def Held (offer : ℕ → Option α) (ready : ℕ → Bool) : Prop :=
  ∀ n k x, offer n = some x → (∀ j < k, ready (n + j) = false) → offer (n + k) = some x

theorem Held.of_edge {offer : ℕ → Option α} {ready : ℕ → Bool}
    (edge : ∀ n x, offer n = some x → ready n = false → offer (n + 1) = some x) : Held offer ready := by
  intro n k x hx hr
  induction k with
  | zero => exact hx
  | succ k ih => exact edge (n + k) x (ih fun j hj => hr j (by omega)) (hr k (by omega))

/-- A valid bit and a payload that an edge without `ready` keeps. -/
theorem Held.of_valid {valid ready : ℕ → Bool} {x : ℕ → α}
    (edge : ∀ n, valid n = true → ready n = false → valid (n + 1) = true ∧ x (n + 1) = x n) :
    Held (fun n => offered (valid n) (x n)) ready := by
  refine .of_edge fun n y hy hr => ?_
  obtain ⟨hv, rfl⟩ := offered_eq_some.1 hy
  exact offered_eq_some.2 (edge n hv hr)

end Held

/-! ## What happens in a window of cycles -/

section Collect

variable {α β : Type*}

/-- The values of `f` in the cycles `a, a + 1, .., a + n - 1`, in order. -/
def collect (f : ℕ → Option α) (a n : ℕ) : List α := (List.range' a n).filterMap f

@[simp] theorem collect_zero (f : ℕ → Option α) (a : ℕ) : collect f a 0 = [] := rfl

theorem collect_succ (f : ℕ → Option α) (a n : ℕ) :
    collect f a (n + 1) = collect f a n ++ (f (a + n)).toList := by
  cases h : f (a + n) <;> simp [collect, List.range'_concat, h]

theorem collect_succ_none {f : ℕ → Option α} {a n : ℕ} (h : f (a + n) = none) :
    collect f a (n + 1) = collect f a n := by
  simp [collect_succ, h]

theorem collect_succ_some {f : ℕ → Option α} {a n : ℕ} {x : α} (h : f (a + n) = some x) :
    collect f a (n + 1) = collect f a n ++ [x] := by
  simp [collect_succ, h]

theorem toList_length_le {x : Option α} {y : Option β} (h : y = none → x = none) :
    x.toList.length ≤ y.toList.length := by
  cases y with
  | none => simp [h rfl]
  | some => cases x <;> simp

section Fewer

variable {f : ℕ → Option α} {g : ℕ → Option β} (hfg : ∀ k, g k = none → f k = none)

include hfg in
theorem collect_length_le (a n : ℕ) : (collect f a n).length ≤ (collect g a n).length := by
  induction n with
  | zero => exact le_rfl
  | succ n ih =>
    rw [collect_succ, collect_succ, List.length_append, List.length_append]
    exact Nat.add_le_add ih (toList_length_le (hfg _))

include hfg in
theorem collect_length_lt {a n k : ℕ} (hk : k < n) (hf : f (a + k) = none) (hg : g (a + k) ≠ none) :
    (collect f a n).length < (collect g a n).length := by
  induction n with
  | zero => omega
  | succ n ih =>
    rw [collect_succ, collect_succ, List.length_append, List.length_append]
    rcases Nat.lt_succ_iff_lt_or_eq.1 hk with hlt | rfl
    · exact Nat.add_lt_add_of_lt_of_le (ih hlt) (toList_length_le (hfg _))
    · obtain ⟨x, hx⟩ := Option.ne_none_iff_exists'.1 hg
      have hle := collect_length_le hfg a k
      simp only [hf, hx, Option.toList_none, Option.toList_some, List.length_nil, List.length_singleton]
      omega

end Fewer

end Collect

/-! ## The log of a run -/

section Log

variable {ε : Type*} {step : Bool → σ → ι → σ} (r : Run step) (ev : σ → ι → List ε)

/-- The events of cycle `n`, each with its cycle. -/
def Run.eventsAt (n : ℕ) : List (ℕ × ε) := (ev (r.st n) (r.inp n)).map (n, ·)

/-- The events of the first `n` cycles, in order. -/
def Run.log (n : ℕ) : List (ℕ × ε) := (List.range n).flatMap (r.eventsAt ev)

@[simp] theorem Run.log_zero : r.log ev 0 = [] := rfl

theorem Run.log_succ (n : ℕ) : r.log ev (n + 1) = r.log ev n ++ r.eventsAt ev n := by
  simp [Run.log, List.range_succ]

theorem Run.log_congr {r r' : Run step} {n : ℕ} (h : ∀ m < n, ev (r.st m) (r.inp m) = ev (r'.st m) (r'.inp m)) :
    r.log ev n = r'.log ev n := by
  induction n with
  | zero => rfl
  | succ n ih =>
    rw [Run.log_succ, Run.log_succ, ih fun m hm => h m (by omega), Run.eventsAt, Run.eventsAt, h n (by omega)]

theorem Run.mem_log {k n : ℕ} {e : ε} : (k, e) ∈ r.log ev n ↔ k < n ∧ e ∈ ev (r.st k) (r.inp k) := by
  simp [Run.log, Run.eventsAt]

end Log

section Span

variable {ε : Type*} {step : Bool → σ → ι → σ} (r : Run step) (ev : σ → ι → List ε)

/-- The events of the cycles `a, .., a + n - 1`, in order. -/
def Run.span (a n : ℕ) : List ε := (List.range n).flatMap fun k => ev (r.st (a + k)) (r.inp (a + k))

@[simp] theorem Run.span_zero (a : ℕ) : r.span ev a 0 = [] := rfl

theorem Run.span_succ (a n : ℕ) : r.span ev a (n + 1) = r.span ev a n ++ ev (r.st (a + n)) (r.inp (a + n)) := by
  simp [Run.span, List.range_succ]

theorem Run.span_append (a n m : ℕ) : r.span ev a (n + m) = r.span ev a n ++ r.span ev (a + n) m := by
  induction m with
  | zero => simp
  | succ m ih => rw [← Nat.add_assoc, Run.span_succ, ih, Run.span_succ, List.append_assoc, Nat.add_assoc]

end Span

section Begins

variable {α : Type*} {f : ℕ → α} {l l' : List α} {x : α}

/-- The stream `f` begins with `l`. -/
def Begins (f : ℕ → α) (l : List α) : Prop := ∀ n x, l[n]? = some x → f n = x

theorem Begins.of_append (h : Begins f (l ++ l')) : Begins f l := by
  intro n x hx
  have hn : n < l.length := (List.getElem?_eq_some_iff.1 hx).1
  exact h n x (by rw [List.getElem?_append_left hn, hx])

theorem Begins.next (h : Begins f (l ++ [x])) : f l.length = x := h _ _ (by simp)

theorem begins_getD (l : List α) (x : α) : Begins (fun n => l.getD n x) l := by
  intro n y hy
  simp [hy]

/-- Lists that grow have a stream that begins with all of them. -/
theorem exists_begins [Inhabited α] {l : ℕ → List α} (h : ∀ n, l n <+: l (n + 1)) : ∃ f, ∀ n, Begins f (l n) := by
  have hle {n m : ℕ} (hnm : n ≤ m) : l n <+: l m := by
    induction hnm with
    | refl => exact List.prefix_rfl
    | step _ ih => exact ih.trans (h _)
  classical
  refine ⟨fun k => if hk : ∃ n, k < (l n).length then (l hk.choose).getD k default else default, fun n k x hx => ?_⟩
  have hk : ∃ n, k < (l n).length := ⟨n, (List.getElem?_eq_some_iff.1 hx).1⟩
  have hx' : (l hk.choose)[k]? = some x := by
    rcases Nat.le_total n hk.choose with hn | hn
    · obtain ⟨l', hl'⟩ := hle hn
      rw [← hl', List.getElem?_append_left (List.getElem?_eq_some_iff.1 hx).1, hx]
    · obtain ⟨l', hl'⟩ := hle hn
      rw [← hl', List.getElem?_append_left hk.choose_spec] at hx
      exact hx
  simp [hk, hx']

end Begins

/-- `l` is a sequence of whole transactions followed by `cur`, the part of one more. -/
def Parses {α : Type*} (T : List α → Prop) (l cur : List α) : Prop :=
  ∃ done : List (List α), l = done.flatten ++ cur ∧ ∀ t ∈ done, T t

namespace Parses

variable {α : Type*} {T : List α → Prop} {l cur : List α}

theorem nil : Parses T [] [] := ⟨[], rfl, by simp⟩

theorem append (h : Parses T l cur) (es : List α) : Parses T (l ++ es) (cur ++ es) := by
  obtain ⟨done, rfl, hd⟩ := h
  exact ⟨done, List.append_assoc _ _ _, hd⟩

theorem close (h : Parses T l cur) (ht : T cur) : Parses T l [] := by
  obtain ⟨done, rfl, hd⟩ := h
  refine ⟨done ++ [cur], by simp, ?_⟩
  rintro t hm
  rcases List.mem_append.1 hm with hm | hm
  · exact hd t hm
  · obtain rfl : t = cur := by simpa using hm
    exact ht

end Parses

end Sync
