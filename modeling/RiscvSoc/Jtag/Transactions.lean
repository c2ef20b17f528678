import RiscvSoc.Jtag.Stages
import RiscvSoc.Lib.Monitor
import RiscvSoc.Lib.Sync
/-!
# Transactions over the bridge

Every run whose host keeps its rule is followed by the spec, and under fair clocks
and a slave that answers, a transaction comes to its end.
-/

namespace RiscvSoc.Jtag

open Monitor Sync

/-! ## Safety -/

/-- The spec is a monitor, and the host's rule is what it asks of its environment. -/
theorem hostKeeps_iff {rule : Spec → JEvent → Prop} {l : List JEvent} :
    HostKeeps rule l ↔ Keeps Spec.specStep rule Spec.init l := Iff.rfl

theorem StageNext.toMatches {s : JtagChain} {e : Edge} {q : Spec} {T : JtagChain → Spec → Prop}
    (h : StageNext s e q T) (hT : ∀ s' q', T s' q' → Stage s' q') :
    ∃ q', q.follow (s.events e) = some q' ∧ Matches (s.step e) q' := by
  obtain ⟨q', hfol, hscans, ht⟩ := h
  exact ⟨q', hfol, hscans, hT _ _ ht⟩

theorem Matches.step {rwOk : Bool → Bool → Bool → Prop} (hok : ∀ rw rw', rwOk rw true rw' → rw' = rw)
    {s : JtagChain} {e : Edge} {q : Spec} (h : Matches s q) (he : e.ResetIs true) (hr : Obeys rwOk s e q) :
    ∃ q', q.follow (s.events e) = some q' ∧ Matches (s.step e) q' := by
  obtain ⟨hs, hstage⟩ := h
  cases hstage with
  | idle h =>
    refine (h.step he hs hr).toMatches fun s' q' ht => ?_
    rcases ht with ht | ⟨rw, ht⟩
    · exact .idle ht
    · exact .start ht
  | start h =>
    refine (h.step he hs).toMatches fun s' q' ht => ?_
    rcases ht with ⟨-, ht⟩ | ht
    · exact .start ht
    · exact .crossing ht
  | crossing h =>
    refine (h.step he hs hok hr).toMatches fun s' q' ht => ?_
    rcases ht with ⟨k', -, ht⟩ | ht
    · exact .crossing ht
    · exact .bus ht
  | bus h =>
    refine (h.step he hs hok hr).toMatches fun s' q' ht => ?_
    rcases ht with ht | ⟨data, resp, -, ht⟩
    · exact .bus ht
    · exact .back ht
  | back h =>
    refine (h.step he hs hok hr).toMatches fun s' q' ht => ?_
    rcases ht with ⟨-, ht⟩ | ⟨-, ht⟩ | ht
    · exact .back ht
    · exact .back ht
    · exact .fall ht
  | fall h =>
    refine (h.step he hs hr).toMatches fun s' q' ht => ?_
    rcases ht with ht | ht | ht
    · exact .fall ht
    · exact .idle ht
    · exact .latched ht
  | latched h =>
    refine (h.step he hs hr).toMatches fun s' q' ht => ?_
    rcases ht with ht | ht
    · exact .idle ht
    · exact .latched ht

theorem JtagRun.matches_zero (r : JtagRun) : Matches (r.st 0) Spec.init := by
  obtain ⟨⟨htap, -, hpulse, hprev, htog, hd1, hd2⟩, ⟨hs1, hs2, hs2d⟩, hstate, hdone⟩ := r.cleared
  refine ⟨?_, .idle ⟨rfl, hpulse, hprev, ?_, ?_, ?_, ?_⟩⟩
  · intro hin
    simp [htap, TapState.inScan] at hin
  · rw [htog]
    exact ⟨hs1, hs2, hs2d, hstate, hdone⟩
  · rw [htog]
    exact ⟨hd1, hd2⟩
  · constructor <;> simp [Spec.init]
  · simp [Spec.init]

theorem tckEvents_singleton {s : JtagChain} {i : TckIn} {ev : JEvent} (h : ev ∈ s.tckEvents i) :
    s.tckEvents i = [ev] := by
  unfold JtagChain.tckEvents at h ⊢
  split at h <;> simp_all

/-- A rule kept at the events of an instant is kept at what the host does there. -/
theorem Obeys.of_keeps {rwOk : Bool → Bool → Bool → Prop} {s : JtagChain} {e : Edge} {q : Spec}
    (hk : Keeps Spec.specStep (hostRule rwOk) q (s.events e)) : Obeys rwOk s e q := by
  intro ev hev
  cases ht : e.tck with
  | none => simp [ht] at hev
  | some i =>
    rw [ht] at hev
    rw [JtagChain.events, ht, Option.elim_some, tckEvents_singleton hev] at hk
    exact hk.head

theorem HostKeeps.obeys {rwOk : Bool → Bool → Bool → Prop} {r : JtagRun} {n : ℕ} {q : Spec}
    (hk : HostKeeps (hostRule rwOk) (r.log (n + 1))) (hq : Spec.init.follow (r.log n) = some q) :
    Obeys rwOk (r.st n) (r.edge n) q :=
  Obeys.of_keeps ((hostKeeps_iff.1 hk).of_append_right hq)

theorem JtagRun.follow_log {rwOk : Bool → Bool → Bool → Prop} (hok : ∀ rw rw', rwOk rw true rw' → rw' = rw)
    (r : JtagRun) (n : ℕ) (hk : HostKeeps (hostRule rwOk) (r.log n)) :
    ∃ q, Spec.init.follow (r.log n) = some q ∧ Matches (r.st n) q := by
  refine follow_of_simulates Matches r.st r.log (fun n => (r.st n).events (r.edge n)) (fun _ => rfl)
    ⟨rfl, r.matches_zero⟩ ?_ n (hostKeeps_iff.1 hk)
  intro m q hm hkm
  exact hm.step hok (r.running m) (Obeys.of_keeps hkm)

/-! ## Progress -/

/-- At a later edge of `clk` the slave has `ready`. -/
def JtagRun.Taken (r : JtagRun) (ready : LiteRsp → Bool) (n : ℕ) : Prop :=
  ∃ k, n ≤ k ∧ ∃ i, (r.edge k).clk = some i ∧ ready i.rsp = true

/-- Both clocks go on, and the slave takes and answers what the bridge offers. -/
structure JtagRun.Fair (r : JtagRun) : Prop where
  tck (n : ℕ) : ∃ k, n ≤ k ∧ (r.edge k).tck.isSome = true
  clk (n : ℕ) : ∃ k, n ≤ k ∧ (r.edge k).clk.isSome = true
  aw (n : ℕ) (h : (r.st n).clkSide.req.awvalid = true) : r.Taken (·.awready) n
  w (n : ℕ) (h : (r.st n).clkSide.req.wvalid = true) : r.Taken (·.wready) n
  b (n : ℕ) (h : (r.st n).clkSide.req.bready = true) : r.Taken (·.bvalid) n
  ar (n : ℕ) (h : (r.st n).clkSide.req.arvalid = true) : r.Taken (·.arready) n
  r (n : ℕ) (h : (r.st n).clkSide.req.rready = true) : r.Taken (·.rvalid) n

/-- From instant `n` on, the transaction of kind `rw` comes to its end: its response
is in and BUSY is low. -/
def JtagRun.Ends (r : JtagRun) (n : ℕ) (rw : Bool) : Prop :=
  ∃ k q data resp, n ≤ k ∧ Spec.init.follow (r.log k) = some q ∧ q.phase = .waiting rw (.answered data resp) ∧
    (r.st k).tckSide.busyTck = false

/-- What the bridge offers at each point of a transaction. -/
theorem AtAxi.offers {c : BridgeClk} {addr data : Option Word32} {p : Progress} (h : AtAxi c addr data p) :
    (∀ w, p = .write false w → c.req.awvalid = true) ∧ (∀ aw, p = .write aw false → c.req.wvalid = true) ∧
      (p = .write true true → c.req.bready = true) ∧ (p = .read false → c.req.arvalid = true) ∧
      (p = .read true → c.req.rready = true) ∧ ∀ d resp, p ≠ .answered d resp := by
  cases h with
  | wrGo h _ _ ho => grind [BridgeClk.req]
  | wrB h => simp [BridgeClk.req, h]
  | rdGo h => simp [BridgeClk.req, h]
  | rdR h => simp [BridgeClk.req, h]

section Progress

variable {rwOk : Bool → Bool → Bool → Prop} {r : JtagRun} {rw : Bool}

/-- Before instant `n` the spec has followed and `P` holds. -/
def JtagRun.At (r : JtagRun) (P : JtagChain → Spec → Prop) (n : ℕ) : Prop :=
  ∃ q, Spec.init.follow (r.log n) = some q ∧ Scans (r.st n).dtm q.bits ∧ P (r.st n) q

/-- The result is on its way back. -/
def Returns (rw : Bool) (s : JtagChain) (q : Spec) : Prop := ∃ data resp d1, AtReturn s q rw data resp d1

/-- The transaction is on the bus, as far as `P` says. -/
def OnBus (rw : Bool) (P : Progress → Prop) (s : JtagChain) (q : Spec) : Prop := ∃ p, P p ∧ AtBus s q rw p

theorem JtagRun.At.or {P T : JtagChain → Spec → Prop} {n : ℕ} (h : r.At (fun s q => P s q ∨ T s q) n) :
    r.At P n ∨ r.At T n := by
  obtain ⟨q, hfol, hs, hq | hq⟩ := h
  · exact .inl ⟨q, hfol, hs, hq⟩
  · exact .inr ⟨q, hfol, hs, hq⟩

variable (hok : ∀ rw rw', rwOk rw true rw' → rw' = rw) (hk : ∀ n, HostKeeps (hostRule rwOk) (r.log n)) (hf : r.Fair)

include hk in
theorem JtagRun.At.edge {P T : JtagChain → Spec → Prop} {n : ℕ} (h : r.At P n)
    (step : ∀ q, P (r.st n) q → Scans (r.st n).dtm q.bits → Obeys rwOk (r.st n) (r.edge n) q →
      StageNext (r.st n) (r.edge n) q T) : r.At T (n + 1) := by
  obtain ⟨q, hfol, hs, hp⟩ := h
  obtain ⟨q', hfol', hs', ht⟩ := step q hp hs ((hk (n + 1)).obeys hfol)
  refine ⟨q', ?_, hs', ht⟩
  rw [JtagRun.log, Spec.follow_append, hfol]
  exact hfol'

theorem JtagRun.At.mono {P T : JtagChain → Spec → Prop} {n : ℕ} (h : r.At P n) (hT : ∀ s q, P s q → T s q) :
    r.At T n := by
  obtain ⟨q, hfol, hs, hp⟩ := h
  exact ⟨q, hfol, hs, hT _ _ hp⟩

include hok hk

/-- A channel that the slave takes moves the transaction on. -/
theorem onBus_leads {P T : Progress → Prop} {ready : LiteRsp → Bool} {n : ℕ} (h : r.At (OnBus rw P) n)
    (taken : r.Taken ready n) (stay : ∀ i p, P p → ready i = false → P (p.next i))
    (go : ∀ i p, P p → ready i = true → T (p.next i)) :
    ∃ k, n < k ∧ (r.At (OnBus rw T) k ∨ r.At (Returns rw) k) := by
  refine leadsTo_of_event h taken fun k hk' => ?_
  have hnext : ∀ P₁ : Progress → Prop, (∀ p, P p → P₁ ((r.edge k).progress p)) →
      r.At (OnBus rw P₁) (k + 1) ∨ r.At (Returns rw) (k + 1) := by
    intro P₁ hP₁
    refine JtagRun.At.or (hk'.edge hk fun q hq hs hr => ?_)
    obtain ⟨p, hp, hb⟩ := hq
    obtain ⟨q', hfol, hs', ht⟩ := hb.step (r.running k) hs hok hr
    refine ⟨q', hfol, hs', ?_⟩
    rcases ht with ht | ⟨data, resp, -, ht⟩
    · exact .inl ⟨_, hP₁ p hp, ht⟩
    · exact .inr ⟨data, resp, _, ht⟩
  by_cases htaken : ∃ i, (r.edge k).clk = some i ∧ ready i.rsp = true
  · obtain ⟨i, hi, hready⟩ := htaken
    exact .inr (hnext T fun p hp => by simpa [Edge.progress, hi] using go i.rsp p hp hready)
  · have hstay : ∀ p, P p → P ((r.edge k).progress p) := by
      intro p hp
      cases hi : (r.edge k).clk with
      | none => simpa [Edge.progress, hi] using hp
      | some i =>
        have hready : ready i.rsp = false := by simpa [hi] using htaken
        simpa [Edge.progress, hi] using stay i.rsp p hp hready
    rcases hnext P hstay with hb | hret
    · exact .inl ⟨hb, htaken⟩
    · exact .inr (.inr hret)

/-- A channel that answers: the result is on its way. -/
theorem onBus_answered {P : Progress → Prop} {ready : LiteRsp → Bool} {n : ℕ} (h : r.At (OnBus rw P) n)
    (taken : r.Taken ready n) (stay : ∀ i p, P p → ready i = false → P (p.next i))
    (go : ∀ i p, P p → ready i = true → ∃ d resp, p.next i = .answered d resp) : ∃ k, n < k ∧ r.At (Returns rw) k := by
  obtain ⟨k, hnk, hb | hret⟩ := onBus_leads (T := fun p => ∃ d resp, p = .answered d resp) hok hk h taken stay go
  · obtain ⟨q, -, -, p, ⟨d, resp, hp⟩, hb⟩ := hb
    exact absurd hp (hb.clk.here.offers.2.2.2.2.2 d resp)
  · exact ⟨k, hnk, hret⟩

include hf

theorem onBus_read {n : ℕ} {ar : Bool} (h : r.At (OnBus rw (· = .read ar)) n) : ∃ k, n < k ∧ r.At (Returns rw) k := by
  have hanswer {n : ℕ} (h : r.At (OnBus rw (· = .read true)) n) : ∃ k, n < k ∧ r.At (Returns rw) k := by
    have hr : (r.st n).clkSide.req.rready = true := by
      obtain ⟨q, -, -, p, hp, hb⟩ := h
      exact hb.clk.here.offers.2.2.2.2.1 hp
    refine onBus_answered hok hk h (hf.r n hr) ?_ ?_
    · rintro i p rfl hi
      simp [Progress.next, hi]
    · rintro i p rfl hi
      simp [Progress.next, hi]
  cases ar with
  | true => exact hanswer h
  | false =>
    have hv : (r.st n).clkSide.req.arvalid = true := by
      obtain ⟨q, -, -, p, hp, hb⟩ := h
      exact hb.clk.here.offers.2.2.2.1 hp
    obtain ⟨k, hnk, hb | hret⟩ := onBus_leads (T := (· = .read true)) hok hk h (hf.ar n hv)
      (by rintro i p rfl hi; simp [Progress.next, hi]) (by rintro i p rfl hi; simp [Progress.next, hi])
    · obtain ⟨m, hkm, hret⟩ := hanswer hb
      exact ⟨m, by omega, hret⟩
    · exact ⟨k, hnk, hret⟩

theorem onBus_write {n : ℕ} {aw w : Bool} (h : r.At (OnBus rw (· = .write aw w)) n) :
    ∃ k, n < k ∧ r.At (Returns rw) k := by
  have hanswer {n : ℕ} (h : r.At (OnBus rw (· = .write true true)) n) : ∃ k, n < k ∧ r.At (Returns rw) k := by
    have hr : (r.st n).clkSide.req.bready = true := by
      obtain ⟨q, -, -, p, hp, hb⟩ := h
      exact hb.clk.here.offers.2.2.1 hp
    refine onBus_answered hok hk h (hf.b n hr) ?_ ?_
    · rintro i p rfl hi
      simp [Progress.next, hi]
    · rintro i p rfl hi
      simp [Progress.next, hi]
  have haddr {n : ℕ} {w : Bool} (h : r.At (OnBus rw (· = .write true w)) n) : ∃ k, n < k ∧ r.At (Returns rw) k := by
    cases w with
    | true => exact hanswer h
    | false =>
      have hv : (r.st n).clkSide.req.wvalid = true := by
        obtain ⟨q, -, -, p, hp, hb⟩ := h
        exact hb.clk.here.offers.2.1 _ hp
      obtain ⟨k, hnk, hb | hret⟩ := onBus_leads (T := (· = .write true true)) hok hk h (hf.w n hv)
        (by rintro i p rfl hi; simp [Progress.next, hi]) (by rintro i p rfl hi; simp [Progress.next, hi])
      · obtain ⟨m, hkm, hret⟩ := hanswer hb
        exact ⟨m, by omega, hret⟩
      · exact ⟨k, hnk, hret⟩
  cases aw with
  | true => exact haddr h
  | false =>
    have hv : (r.st n).clkSide.req.awvalid = true := by
      obtain ⟨q, -, -, p, hp, hb⟩ := h
      exact hb.clk.here.offers.1 _ hp
    -- the data may be taken before the address
    have h' : r.At (OnBus rw fun p => ∃ w, p = .write false w) n :=
      h.mono fun s q hq => hq.imp fun p hp => ⟨⟨w, hp.1⟩, hp.2⟩
    obtain ⟨k, hnk, hb | hret⟩ := onBus_leads (T := fun p => ∃ w, p = .write true w) hok hk h' (hf.aw n hv)
      (by rintro i p ⟨w, rfl⟩ hi; exact ⟨_, by simp [Progress.next, hi]; rfl⟩)
      (by rintro i p ⟨w, rfl⟩ hi; exact ⟨_, by simp [Progress.next, hi]; rfl⟩)
    · obtain ⟨q, hfol, hs, p, ⟨w, hp⟩, hb⟩ := hb
      obtain ⟨m, hkm, hret⟩ := haddr ⟨q, hfol, hs, p, hp, hb⟩
      exact ⟨m, by omega, hret⟩
    · exact ⟨k, hnk, hret⟩

/-- On the bus the transaction is answered. -/
theorem onBus_returns {p : Progress} {n : ℕ} (h : r.At (OnBus rw (· = p)) n) : ∃ k, n < k ∧ r.At (Returns rw) k := by
  cases p with
  | read ar => exact onBus_read hok hk hf h
  | write aw w => exact onBus_write hok hk hf h
  | answered d resp =>
    obtain ⟨q, -, -, p, hp, hb⟩ := h
    exact absurd hp (hb.clk.here.offers.2.2.2.2.2 d resp)

/-- The start toggle comes through after at most three edges of `clk`. -/
theorem crossing_returns {k n : ℕ} (h : r.At (AtCrossing · · rw k) n) : ∃ m, n < m ∧ r.At (Returns rw) m := by
  induction k using Nat.strong_induction_on generalizing n with
  | _ k ih =>
    suffices hedge : _ by
      obtain ⟨m, hnm, hm⟩ := leadsTo_of_event (Q := fun m => (∃ k', k' < k ∧ r.At (AtCrossing · · rw k') m) ∨
        r.At (OnBus rw (· = .start rw)) m) (P := fun m => ∃ k', k' ≤ k ∧ r.At (AtCrossing · · rw k') m)
        ⟨k, le_rfl, h⟩ (hf.clk n) hedge
      rcases hm with ⟨k', hk', hm⟩ | hm
      · obtain ⟨l, hml, hret⟩ := ih k' hk' hm
        exact ⟨l, by omega, hret⟩
      · obtain ⟨l, hml, hret⟩ := onBus_returns hok hk hf hm
        exact ⟨l, by omega, hret⟩
    rintro m ⟨k', hk', hm⟩
    obtain ⟨q, hfol, hs, hq⟩ := hm.edge hk fun q hq hs hr => hq.step (r.running m) hs hok hr
    rcases hq with ⟨l, ⟨hle, hlt⟩, hq⟩ | hq
    · have hl : r.At (AtCrossing · · rw l) (m + 1) := ⟨q, hfol, hs, hq⟩
      by_cases hclk : (r.edge m).clk.isSome = true
      · exact .inr (.inl ⟨l, by have := hlt hclk; omega, hl⟩)
      · exact .inl ⟨⟨l, by omega, hl⟩, hclk⟩
    · exact .inr (.inr ⟨q, hfol, hs, _, rfl, hq⟩)

/-- The done toggle after its first flop, and the result with it. -/
def HalfBack (rw : Bool) (s : JtagChain) (q : Spec) : Prop :=
  ∃ data resp, AtReturn s q rw data resp s.tckSide.startToggleTck

/-- BUSY has fallen. -/
def Falls (rw : Bool) (s : JtagChain) (q : Spec) : Prop := ∃ data resp, AtFall s q rw data resp

theorem halfBack_falls {n : ℕ} (h : r.At (HalfBack rw) n) : ∃ k, n < k ∧ r.At (Falls rw) k := by
  refine leadsTo_of_event h (hf.tck n) fun m hm => ?_
  have hnext : r.At (fun s q => ((r.edge m).tck = none ∧ HalfBack rw s q) ∨ Falls rw s q) (m + 1) := by
    refine hm.edge hk fun q hq hs hr => ?_
    obtain ⟨data, resp, hq⟩ := hq
    obtain ⟨q', hfol, hs', ht⟩ := hq.step (r.running m) hs hok hr
    refine ⟨q', hfol, hs', ?_⟩
    rcases ht with ⟨htck, ht⟩ | ⟨hd, -⟩ | ht
    · exact .inl ⟨htck, data, resp, by rwa [startToggle_step (r.running m) hq.waits.pulse]⟩
    · simp at hd
    · exact .inr ⟨data, resp, ht⟩
  rcases hnext.or with ⟨q, hfol, hs, htck, hq⟩ | hq
  · exact .inl ⟨⟨q, hfol, hs, hq⟩, by simp [htck]⟩
  · exact .inr hq

theorem returns_falls {n : ℕ} (h : r.At (Returns rw) n) : ∃ k, n < k ∧ r.At (Falls rw) k := by
  suffices hedge : _ by
    obtain ⟨k, hnk, hm | hm⟩ :=
      leadsTo_of_event (Q := fun k => r.At (HalfBack rw) k ∨ r.At (Falls rw) k) h (hf.tck n) hedge
    · obtain ⟨l, hkl, hl⟩ := halfBack_falls hok hk hf hm
      exact ⟨l, by omega, hl⟩
    · exact ⟨k, hnk, hm⟩
  intro m hm
  have hnext : r.At (fun s q => ((r.edge m).tck = none ∧ Returns rw s q) ∨ HalfBack rw s q ∨ Falls rw s q) (m + 1) := by
    refine hm.edge hk fun q hq hs hr => ?_
    obtain ⟨data, resp, d1, hq⟩ := hq
    obtain ⟨q', hfol, hs', ht⟩ := hq.step (r.running m) hs hok hr
    refine ⟨q', hfol, hs', ?_⟩
    rcases ht with ⟨htck, ht⟩ | ⟨-, ht⟩ | ht
    · exact .inl ⟨htck, data, resp, d1, ht⟩
    · exact .inr (.inl ⟨data, resp, ht⟩)
    · exact .inr (.inr ⟨data, resp, ht⟩)
  rcases hnext.or with ⟨q, hfol, hs, htck, hq⟩ | hq
  · exact .inl ⟨⟨q, hfol, hs, hq⟩, by simp [htck]⟩
  · exact .inr hq.or

theorem started_returns {n : ℕ} (h : r.At (AtStart · · rw) n) : ∃ k, n < k ∧ r.At (Returns rw) k := by
  suffices hedge : _ by
    obtain ⟨k, hnk, hm⟩ := leadsTo_of_event (Q := r.At (AtCrossing · · rw 2)) h (hf.tck n) hedge
    obtain ⟨l, hkl, hl⟩ := crossing_returns hok hk hf hm
    exact ⟨l, by omega, hl⟩
  intro m hm
  obtain ⟨q, hfol, hs, ⟨htck, hq⟩ | hq⟩ := hm.edge hk fun q hq hs _ => hq.step (r.running m) hs
  · exact .inl ⟨⟨q, hfol, hs, hq⟩, by simp [htck]⟩
  · exact .inr ⟨q, hfol, hs, hq⟩

theorem waiting_ends {n : ℕ} {q : Spec} {p : Progress} (hfol : Spec.init.follow (r.log n) = some q)
    (phase : q.phase = .waiting rw p) : r.Ends n rw := by
  have hret (m : ℕ) (hnm : n ≤ m) (hm : r.At (Returns rw) m) : r.Ends n rw := by
    obtain ⟨k, hmk, q', hfol', -, data, resp, hfall⟩ := returns_falls hok hk hf hm
    exact ⟨k, q', data, resp, by omega, hfol', hfall.phase, hfall.done.free⟩
  obtain ⟨q', hfol', hs, hstage⟩ := r.follow_log hok n (hk n)
  obtain rfl : q = q' := Option.some.inj (hfol.symm.trans hfol')
  have hkind {rw' : Bool} {p' : Progress} (h : q.phase = .waiting rw' p') : rw' = rw :=
    (HostPhase.waiting.inj (h.symm.trans phase)).1
  cases hstage with
  | idle h => simp [h.phase] at phase
  | start h =>
    obtain rfl := hkind h.phase
    obtain ⟨m, hnm, hm⟩ := started_returns hok hk hf ⟨q, hfol, hs, h⟩
    exact hret m hnm.le hm
  | crossing h =>
    obtain rfl := hkind h.phase
    obtain ⟨m, hnm, hm⟩ := crossing_returns hok hk hf ⟨q, hfol, hs, h⟩
    exact hret m hnm.le hm
  | bus h =>
    obtain rfl := hkind h.phase
    obtain ⟨m, hnm, hm⟩ := onBus_returns hok hk hf ⟨q, hfol, hs, _, rfl, h⟩
    exact hret m hnm.le hm
  | back h =>
    obtain rfl := hkind h.phase
    exact hret n le_rfl ⟨q, hfol, hs, _, _, _, h⟩
  | fall h =>
    obtain rfl := hkind h.phase
    exact ⟨n, q, _, _, le_rfl, hfol, h.phase, h.done.free⟩
  | latched h =>
    obtain rfl := hkind h.phase
    exact ⟨n, q, _, _, le_rfl, hfol, h.phase, h.done.free⟩

end Progress

end RiscvSoc.Jtag
