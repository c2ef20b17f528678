import RiscvSoc.Dma.Termination
/-!
# `dma_ram` as the slave

What the engine needs of its slave, `dma_ram` gives: it marks the last beat of a read
burst and no other, and it answers.
-/

namespace RiscvSoc.Dma

open Sync Aes

variable {k : ℕ}

/-- The run of the engine in a run with its memory. -/
def engineRun (r : Run (DmaSys.step (k := k))) : Run DmaEngine.step where
  powerUp := r.powerUp.engine
  resetInp := ⟨r.resetInp.cpu, r.powerUp.ram.rsp, r.resetInp.doneWins⟩
  inp n := ⟨(r.inp n).cpu, (r.st n).ram.rsp, (r.inp n).doneWins⟩

@[simp] theorem engineRun_st (r : Run (DmaSys.step (k := k))) (n : ℕ) : (engineRun r).st n = (r.st n).engine := by
  induction n with
  | zero => rfl
  | succ n ih => rw [Run.st_succ, ih]; rfl

/-! ## The beats of a read burst -/

/-- Where the memory is in the burst of which the engine has taken `p.2` beats. -/
structure ReadBeats (s : DmaSys k) (p : BitVec 8 × ℕ) : Prop where
  len : p.1 = 3
  burst : s.ram.rState = .burst → s.ram.rBeatsLeft.toNat + p.2 + s.ram.sRvalid.toNat = 3
  idle : s.ram.rState = .idle → p.2 = 3

theorem readBeats_step {s : DmaSys k} {x : DmaIn} {p : BitVec 8 × ℕ} (hc : Ctl s) (hp : Payloads s.engine.fsm)
    (h : s.engine.fsm.state = .rdData → ReadBeats s p) (hs : (s.step true x).engine.fsm.state = .rdData) :
    ReadBeats (s.step true x) ((s.engine.busEvents ⟨x.cpu, s.ram.rsp, x.doneWins⟩).foldl readPos p) := by
  have hev := s.engine.busEvents_eq ⟨x.cpu, s.ram.rsp, x.doneWins⟩ hc.strobes
  obtain ⟨h1, -, h3, h4, -⟩ := read_step (s := s) x
  rcases (next_rdData s.engine ⟨x.cpu, s.ram.rsp, x.doneWins⟩).1 hs with ⟨hst, hav, har⟩ | ⟨hst, hmore⟩
  · -- the address is taken
    obtain ⟨-, hlen, -⟩ := hp.ar hav
    have hidle := hc.read_idle (by simp [hst])
    replace har : s.ram.rsp.arready = true := har
    simp only [hst, whenFire, hav, har, Bool.and_self, if_true] at hev
    simp only [DmaRam.readPath, hidle, DmaEngine.burst, hav, if_true] at h1 h3 h4
    rw [hev]
    refine ⟨hlen, fun _ => ?_, fun hi => ?_⟩
    · rw [h3, h4, hlen]
      rfl
    · rw [h1] at hi
      cases hi
  · have hready : s.engine.fsm.mRready = true := hc.strobes.rready.2 hst
    obtain ⟨hlen, hburst, hidle⟩ := h hst
    cases hr : s.ram.rState with
    | idle =>
      -- the beat on show is the last, and is taken
      obtain ⟨hv, hl⟩ := hc.last hst hr
      exact absurd ⟨hv, hready, hl⟩ hmore
    | burst =>
      -- the sum in `hburst` stays: what is fetched is shown, and what is shown is taken
      have hsum := hburst hr
      have hpos : (s.engine.busEvents ⟨x.cpu, s.ram.rsp, x.doneWins⟩).foldl readPos p =
          (p.1, p.2 + s.ram.sRvalid.toNat) := by
        rw [hev, hst]
        cases hv : s.ram.sRvalid <;> simp [whenFire, DmaRam.rsp, hv, readPos]
      have hcond : (!s.ram.sRvalid || (DmaEngine.burst s.engine.fsm).rready) = true := by
        simp [DmaEngine.burst, hready]
      simp only [DmaRam.readPath, hr, hcond, if_true] at h1 h3 h4
      rw [hpos]
      by_cases h0 : s.ram.rBeatsLeft = 0
      · rw [h0] at hsum h1
        refine ⟨hlen, fun hb => ?_, fun _ => by simpa using hsum⟩
        rw [h1] at hb
        cases hb
      · have hsub : (s.ram.rBeatsLeft - 1).toNat + 1 = s.ram.rBeatsLeft.toNat := Counters.toNat_pred h0
        simp only [h0, if_false] at h1 h3 h4
        refine ⟨hlen, fun _ => ?_, fun hi => ?_⟩
        · rw [h3, h4]
          simp only [Bool.toNat_true]
          omega
        · rw [h1] at hi
          cases hi

section Runs

variable (r : Run (DmaSys.step (k := k)))

theorem readBeats (n : ℕ) (hs : (r.st n).engine.fsm.state = .rdData) :
    ReadBeats (r.st n) (((engineRun r).span DmaEngine.busEvents 0 n).foldl readPos (0, 0)) := by
  induction n with
  | zero => simp [Run.st_zero, DmaSys.step, DmaEngine.step, DmaEngine.fsmStep] at hs
  | succ n ih =>
    have hp := payloads (engineRun r) n
    rw [engineRun_st] at hp
    rw [Run.span_succ, List.foldl_append, Nat.zero_add, engineRun_st]
    exact readBeats_step (ctl r n) hp ih hs

theorem ram_compliant : Compliant (engineRun r) := by
  intro n hv hready
  rw [engineRun_st] at hready
  have hst := (ctl r n).strobes.rready.1 hready
  have hpos := readBeats r n hst
  replace hv : (r.st n).ram.sRvalid = true := hv
  show (r.st n).ram.sRlast = true ↔ _
  generalize ((engineRun r).span DmaEngine.busEvents 0 n).foldl readPos (0, 0) = p at hpos ⊢
  obtain ⟨hlen, hburst, hidle⟩ := hpos
  rw [hlen]
  cases hr : (r.st n).ram.rState with
  | idle => simp [(ctl r n).last hst hr, hidle hr]
  | burst =>
    have hsum := hburst hr
    rw [hv, Bool.toNat_true] at hsum
    have hne : p.2 ≠ 3 := by omega
    simp [(ctl r n).more hr hv, hne]

theorem ram_answers : Answers (engineRun r) where
  arready n h := by
    rw [engineRun_st] at h
    have hidle := (ctl r n).read_idle (by simp [(ctl r n).strobes.arvalid h])
    exact ⟨n, le_rfl, by simp [engineRun, DmaRam.rsp, hidle]⟩
  rvalid n h := by
    rw [engineRun_st] at h
    have hst := (ctl r n).strobes.rready.1 h
    cases hr : (r.st n).ram.rState with
    | idle => exact ⟨n, le_rfl, ((ctl r n).last hst hr).1⟩
    | burst => exact ⟨n + 1, by omega, (ram_sRvalid _ _).2 hr⟩
  awready n h := by
    rw [engineRun_st] at h
    have hidle := (ctl r n).write_idle (by simp [(ctl r n).strobes.awvalid h])
    exact ⟨n, le_rfl, by simp [engineRun, DmaRam.rsp, hidle]⟩
  wready n h := by
    rw [engineRun_st] at h
    have hburst := (ctl r n).write.2 ((ctl r n).strobes.wvalid.1 h)
    exact ⟨n, le_rfl, by simp [engineRun, DmaRam.rsp, hburst]⟩
  bvalid n h := by
    rw [engineRun_st] at h
    exact ⟨n, le_rfl, (ctl r n).bvalid.2 ((ctl r n).strobes.bready.1 h)⟩

end Runs

end RiscvSoc.Dma
