import RiscvSoc.Crossbar.Diagnostics
/-!
# The documented memory map

The windows of the peripheral region as the map has them, and where an access at an
address goes. The decode reads two fields of the address, so that a window is seen
again wherever only the bits between them differ.
-/

namespace RiscvSoc.Crossbar

open Sync

/-! ## The map -/

/-- The base addresses of the 4KB windows. -/
def periphWindows : List (ℕ × Sel) :=
  [(0x40000000, .dev .timer), (0x40001000, .dev .wdt), (0x40002000, .dev .uart), (0x40003000, .dev .i2c),
    (0x40004000, .dev .spi), (0x40005000, .dev .aes), (0x40006000, .dev .dma), (0x40007000, .xbarCsr)]

/-- What the map has at `x`, outside ROM and RAM. -/
def mapSel (x : Word32) : Sel :=
  ((periphWindows.find? fun w => w.1 ≤ x.toNat ∧ x.toNat < w.1 + 0x1000).map Prod.snd).getD .err

/-- A whole write at `x` went where the map has it. -/
def WriteFollows (x : Word32) (T : List (ℕ × WEvent)) : Prop :=
  match mapSel x with
  | .dev p => ∃ t, (t, .slaveAw p x) ∈ T
  | .xbarCsr => ∃ t m, (t, .b m axiRespSlverr) ∈ T
  | .err => ∃ t m, (t, .b m axiRespDecerr) ∈ T

def ReadFollows (x : Word32) (T : List (ℕ × REvent)) : Prop :=
  match mapSel x with
  | .dev p => ∃ t, (t, .slaveAr p x) ∈ T
  | .xbarCsr => ∃ t m d, (t, .r m d axiRespOkay) ∈ T
  | .err => ∃ t m d, (t, .r m d axiRespDecerr) ∈ T

/-- In a run the accesses at `x` follow the map: no other slave sees a VALID for it,
whole transactions went to their target, and it is recorded as a miss exactly where the
map has nothing. -/
structure RunFollowsMap (x : Word32) (r : Run AxiLiteXbar.step) : Prop where
  touchesW (n : ℕ) (p : Slave) (h : ((r.st n).req p).awvalid = true ∨ ((r.st n).req p).wvalid = true)
    (hx : ((r.st n).req p).awaddr = x) : mapSel x = .dev p
  touchesR (n : ℕ) (p : Slave) (h : ((r.st n).req p).arvalid = true) (hx : ((r.st n).req p).araddr = x) :
    mapSel x = .dev p
  writes (n : ℕ) (done : List (List (ℕ × WEvent))) (cur : List (ℕ × WEvent))
    (hl : r.log wEvents n = done.flatten ++ cur) (hd : ∀ T ∈ done, WriteTxn T) (T : List (ℕ × WEvent)) (hT : T ∈ done)
    (t : ℕ) (m : Master) (ht : (t, .aw m x) ∈ T) : WriteFollows x T
  reads (n : ℕ) (done : List (List (ℕ × REvent))) (cur : List (ℕ × REvent))
    (hl : r.log rEvents n = done.flatten ++ cur) (hd : ∀ T ∈ done, ReadTxn (diagValue r) T) (T : List (ℕ × REvent))
    (hT : T ∈ done) (t : ℕ) (m : Master) (ht : (t, .ar m x) ∈ T) : ReadFollows x T
  missW (n : ℕ) (m : Master) (h : .aw m x ∈ wEvents (r.st n) (r.inp n)) :
    ((r.st (n + 1)).w.decerrIrqW = true ∧ (r.st (n + 1)).w.lastDecerrWaddr = x) ↔ mapSel x = .err
  missR (n : ℕ) (m : Master) (h : .ar m x ∈ rEvents (r.st n) (r.inp n)) :
    ((r.st (n + 1)).r.decerrIrqR = true ∧ (r.st (n + 1)).r.lastDecerrRaddr = x) ↔ mapSel x = .err

/-! ## The decode against the map -/

/-- What a window's number decodes to. -/
def windowSel (p : BitVec 4) : Sel :=
  if p = addrPeriphTimer then .dev .timer
  else if p = addrPeriphWdt then .dev .wdt
  else if p = addrPeriphUart then .dev .uart
  else if p = addrPeriphI2c then .dev .i2c
  else if p = addrPeriphSpi then .dev .spi
  else if p = addrPeriphAes then .dev .aes
  else if p = addrPeriphDma then .dev .dma
  else if p = addrPeriphXbarCsr then .xbarCsr
  else .err

theorem windowSel_err (p : BitVec 4) : windowSel p = .err ↔ 8 ≤ p.toNat := by
  revert p
  decide

theorem decodeAddr_periph {x : Word32} (h : x.extractLsb' 28 4 = addrRegionPeriph) :
    decodeAddr x = windowSel (x.extractLsb' 12 4) := by
  simp only [decodeAddr, h, windowSel]
  simp [addrRegionPeriph, addrRegionRom, addrRegionRam]

theorem decodeAddr_other {x : Word32} (hrom : x.extractLsb' 28 4 ≠ addrRegionRom)
    (hram : x.extractLsb' 28 4 ≠ addrRegionRam) (h : x.extractLsb' 28 4 ≠ addrRegionPeriph) : decodeAddr x = .err := by
  simp [decodeAddr, hrom, hram, h]

theorem mapSel_in {x : Word32} {p : BitVec 4} (lo : 0x40000000 + p.toNat * 0x1000 ≤ x.toNat)
    (hi : x.toNat < 0x40000000 + p.toNat * 0x1000 + 0x1000) : mapSel x = windowSel p := by
  have hin (b : ℕ) : decide (b * 0x1000 ≤ x.toNat ∧ x.toNat < b * 0x1000 + 0x1000) = decide (b = 0x40000 + p.toNat) := by
    rw [decide_eq_decide]
    omega
  have h0 := hin 0x40000
  have h1 := hin 0x40001
  have h2 := hin 0x40002
  have h3 := hin 0x40003
  have h4 := hin 0x40004
  have h5 := hin 0x40005
  have h6 := hin 0x40006
  have h7 := hin 0x40007
  simp only [Nat.reduceMul] at h0 h1 h2 h3 h4 h5 h6 h7
  simp only [mapSel, periphWindows, List.find?_cons, List.find?_nil, h0, h1, h2, h3, h4, h5, h6, h7]
  clear h0 h1 h2 h3 h4 h5 h6 h7 hin lo hi
  revert p
  decide

theorem mapSel_out {x : Word32} (h : x.toNat < 0x40000000 ∨ 0x40008000 ≤ x.toNat) : mapSel x = .err := by
  have hnone : periphWindows.find? (fun w => w.1 ≤ x.toNat ∧ x.toNat < w.1 + 0x1000) = none := by
    rw [List.find?_eq_none]
    simp only [periphWindows, List.mem_cons, List.not_mem_nil, or_false, decide_eq_true_eq]
    rintro w (rfl | rfl | rfl | rfl | rfl | rfl | rfl | rfl) <;> simp only <;> omega
  rw [mapSel, hnone]
  rfl

/-- The bits between the two fields that the decode reads are clear, where it reads
the second. -/
def MiddleClear (x : Word32) : Prop :=
  x.extractLsb' 28 4 = addrRegionPeriph → (x.extractLsb' 12 4).toNat < 8 → x.extractLsb' 16 12 = 0

instance (x : Word32) : Decidable (MiddleClear x) := inferInstanceAs (Decidable (_ → _ → _))

section Fields

variable {x : Word32}

theorem region_toNat : (x.extractLsb' 28 4).toNat = x.toNat / 2 ^ 28 := by
  rw [BitVec.extractLsb'_toNat, Nat.shiftRight_eq_div_pow, Nat.mod_eq_of_lt]
  have := x.isLt
  omega

theorem window_toNat : (x.extractLsb' 12 4).toNat = x.toNat / 2 ^ 12 % 16 := by
  rw [BitVec.extractLsb'_toNat, Nat.shiftRight_eq_div_pow]

theorem middle_toNat : (x.extractLsb' 16 12).toNat = x.toNat / 2 ^ 16 % 4096 := by
  rw [BitVec.extractLsb'_toNat, Nat.shiftRight_eq_div_pow]

theorem isPeriph_iff : x.extractLsb' 28 4 = addrRegionPeriph ↔ x.toNat / 2 ^ 28 = 4 := by
  rw [← BitVec.toNat_inj, region_toNat]
  rfl

theorem middle_eq_zero : x.extractLsb' 16 12 = 0 ↔ x.toNat / 2 ^ 16 % 4096 = 0 := by
  rw [← BitVec.toNat_inj, middle_toNat]
  rfl

/-- Outside ROM and RAM the decode is the map exactly where the middle bits are clear. -/
theorem decodeAddr_eq_mapSel (hrom : x.extractLsb' 28 4 ≠ addrRegionRom) (hram : x.extractLsb' 28 4 ≠ addrRegionRam)
    (h : MiddleClear x) : decodeAddr x = mapSel x := by
  by_cases hp : x.extractLsb' 28 4 = addrRegionPeriph
  · rw [decodeAddr_periph hp]
    have hp' := isPeriph_iff.1 hp
    by_cases hw : (x.extractLsb' 12 4).toNat < 8
    · have hm := middle_eq_zero.1 (h hp hw)
      have hwin := window_toNat (x := x)
      exact (mapSel_in (by omega) (by omega)).symm
    · rw [(windowSel_err _).2 (by omega), mapSel_out]
      have hwin := window_toNat (x := x)
      omega
  · rw [decodeAddr_other hrom hram hp, mapSel_out]
    rw [isPeriph_iff] at hp
    omega

theorem mapSel_of_middle (h : ¬ MiddleClear x) : mapSel x = .err ∧ decodeAddr x ≠ .err := by
  simp only [MiddleClear, Classical.not_imp] at h
  obtain ⟨hp, hw, hm⟩ := h
  rw [middle_eq_zero] at hm
  have hp' := isPeriph_iff.1 hp
  constructor
  · exact mapSel_out (by omega)
  · rw [decodeAddr_periph hp, Ne, windowSel_err]
    omega

end Fields

/-! ## Runs -/

section Runs

variable {x : Word32} (r : Run AxiLiteXbar.step) (hx : decodeAddr x = mapSel x)

/-- In `W_ISSUE` with a slave the select is that of the latched address. -/
theorem issued_wSel {n : ℕ} (h : (r.st n).w.wState = .issue) : (r.st n).w.wSel = decodeAddr (r.st n).w.wAddrLat := by
  obtain ⟨cur, -, hp⟩ := wLog_phase r n
  cases hp with
  | closed hs | gotAw hs | gotW hs | wait hs | resp hs =>
    rw [h] at hs
    cases hs
  | issueSlave _ _ hl => exact hl.sel
  | issueNone _ _ hl => exact hl.sel

theorem issued_rSel {n : ℕ} (h : (r.st n).r.rState = .issue) : (r.st n).r.rSel = decodeAddr (r.st n).r.rAddrLat := by
  obtain ⟨⟨cur, -, hp⟩, -⟩ := rLog_phase r n
  cases hp with
  | closed hs | wait hs | resp hs =>
    rw [h] at hs
    cases hs
  | issue _ _ _ sel => exact sel
  | issueSlave _ _ _ sel => exact sel

theorem UpBeats.addr {m m' : Master} {a d x : Word32} {sb : BitVec 4} {up : List (ℕ × WEvent)} {t : ℕ}
    (h : UpBeats m a d sb up) (ht : (t, .aw m' x) ∈ up) : x = a := by
  cases h <;> simp at ht <;> exact ht.2.2

theorem DownBeats.slaveAw {p : Slave} {a d : Word32} {sb : BitVec 4} {down : List (ℕ × WEvent)}
    (h : DownBeats p a d sb down) : (∃ t, (t, .slaveAw p a) ∈ down) ∧ ∀ t m x, (t, .aw m x) ∉ down := by
  cases h with
  | awFirst t t' => exact ⟨⟨t, by simp⟩, by simp⟩
  | wFirst t t' => exact ⟨⟨t', by simp⟩, by simp⟩

include hx

theorem writeFollows_of_txn {T : List (ℕ × WEvent)} (hT : WriteTxn T) {t : ℕ} {m : Master} (ht : (t, .aw m x) ∈ T) :
    WriteFollows x T := by
  rw [WriteFollows, ← hx]
  cases hT with
  | slave hup hp hdown t₁ t₂ resp =>
    obtain ⟨⟨t', hdev⟩, hno⟩ := hdown.slaveAw
    simp only [List.mem_append, List.mem_singleton, Prod.mk.injEq, reduceCtorEq, and_false, or_false] at ht
    obtain rfl := hup.addr (ht.resolve_right (hno t m x))
    rw [hp]
    exact ⟨t', by simp [hdev]⟩
  | err hup ha t₁ =>
    simp only [List.mem_append, List.mem_singleton, Prod.mk.injEq, reduceCtorEq, and_false, or_false] at ht
    obtain rfl := hup.addr ht
    rw [ha]
    exact ⟨t₁, _, List.mem_append_right _ (List.mem_singleton_self _)⟩
  | csr hup ha t₁ =>
    simp only [List.mem_append, List.mem_singleton, Prod.mk.injEq, reduceCtorEq, and_false, or_false] at ht
    obtain rfl := hup.addr ht
    rw [ha]
    exact ⟨t₁, _, List.mem_append_right _ (List.mem_singleton_self _)⟩

theorem readFollows_of_txn {diag : ℕ → Word32 → Word32} {T : List (ℕ × REvent)} (hT : ReadTxn diag T) {t : ℕ}
    {m : Master} (ht : (t, .ar m x) ∈ T) : ReadFollows x T := by
  rw [ReadFollows, ← hx]
  cases hT with
  | slave m' hp t₁ t₂ t₃ t₄ d resp =>
    obtain ⟨-, -, rfl⟩ : t = t₁ ∧ m = m' ∧ x = _ := by simpa using ht
    rw [hp]
    exact ⟨t₂, by simp⟩
  | err m' ha t₁ t₂ =>
    obtain ⟨-, -, rfl⟩ : t = t₁ ∧ m = m' ∧ x = _ := by simpa using ht
    rw [ha]
    exact ⟨t₂, m', 0, by simp⟩
  | csr m' ha t₁ t₂ =>
    obtain ⟨-, -, rfl⟩ : t = t₁ ∧ m = m' ∧ x = _ := by simpa using ht
    rw [ha]
    exact ⟨t₂, m', _, List.mem_cons_of_mem _ (List.mem_singleton_self _)⟩

end Runs

/-- The record of a beat at the edge that accepts it. -/
theorem recordW {s : AxiLiteXbar} {i : XbarIn} {m : Master} {x : Word32} (h : .aw m x ∈ wEvents s i) :
    ((s.step true i).w.decerrIrqW = true ∧ (s.step true i).w.lastDecerrWaddr = x) ↔ decodeAddr x = .err := by
  obtain ⟨-, hf, rfl⟩ := mem_aw.1 h
  have hs : s.w.wState = .idle := by
    simp only [WritePath.awFire, WritePath.curAwready, Bool.and_eq_true, decide_eq_true_eq] at hf
    exact hf.2.1
  constructor
  · rintro ⟨hirq, -⟩
    simp only [AxiLiteXbar.step, WritePath.step, Bool.not_true, Bool.false_eq_true, if_false, Bool.and_eq_true,
      decide_eq_true_eq] at hirq
    exact hirq.2
  · intro ha
    refine ⟨by simp [AxiLiteXbar.step, WritePath.step, hs, hf, ha], ?_⟩
    simp only [AxiLiteXbar.step, WritePath.step, hs, WritePath.idleStep, hf, ha]
    grind

theorem recordR {s : AxiLiteXbar} {i : XbarIn} {m : Master} {x : Word32} (h : .ar m x ∈ rEvents s i) :
    ((s.step true i).r.decerrIrqR = true ∧ (s.step true i).r.lastDecerrRaddr = x) ↔ decodeAddr x = .err := by
  obtain ⟨-, ⟨hs, hv⟩, rfl⟩ := mem_ar.1 h
  constructor
  · rintro ⟨hirq, -⟩
    simp only [AxiLiteXbar.step, ReadPath.step, Bool.not_true, Bool.false_eq_true, if_false, Bool.and_eq_true,
      decide_eq_true_eq] at hirq
    exact hirq.2
  · intro ha
    simp [AxiLiteXbar.step, ReadPath.step, hs, ReadPath.idleStep, hv, ha]

theorem runFollowsMap {x : Word32} (hx : decodeAddr x = mapSel x) (r : Run AxiLiteXbar.step) : RunFollowsMap x r where
  touchesW n p h ha := by
    have hst : (r.st n).w.wState = .issue ∧ (r.st n).w.wSel = .dev p := by
      simp only [AxiLiteXbar.req, Bool.and_eq_true, decide_eq_true_eq] at h
      rcases h with h | h <;> exact h.1
    have hsel := issued_wSel r hst.1
    have haddr : (r.st n).w.wAddrLat = x := ha
    rw [← hx, ← haddr, ← hsel, hst.2]
  touchesR n p h ha := by
    have hst : (r.st n).r.rState = .issue ∧ (r.st n).r.rSel = .dev p := by
      simp only [AxiLiteXbar.req, Bool.and_eq_true, decide_eq_true_eq] at h
      exact h.1
    have hsel := issued_rSel r hst.1
    have haddr : (r.st n).r.rAddrLat = x := ha
    rw [← hx, ← haddr, ← hsel, hst.2]
  writes n done cur _ hd T hT t m ht := writeFollows_of_txn hx (hd T hT) ht
  reads n done cur _ hd T hT t m ht := readFollows_of_txn hx (hd T hT) ht
  missW n m h := by rw [← hx, Run.st_succ]; exact recordW h
  missR n m h := by rw [← hx, Run.st_succ]; exact recordR h

/-- The CPU writes at `x`, and slaves are always ready. -/
def accessRun (x : Word32) : Run AxiLiteXbar.step where
  powerUp := fairRun.powerUp
  resetInp := fairIn
  inp _ :=
    { fairIn with
      up := fun
        | .s0 => ⟨true, x, true, 0x12345678, 0xF, true, false, x, true⟩
        | .s1 => ⟨false, 0, false, 0, 0, false, false, 0, false⟩ }

/-- Outside ROM and RAM the accesses at `x` follow the map in every run exactly where
the bits between the decoded fields are clear, or the decode does not come to the second. -/
theorem decode_follows_map_iff (x : Word32) (hrom : x.extractLsb' 28 4 ≠ addrRegionRom)
    (hram : x.extractLsb' 28 4 ≠ addrRegionRam) : (∀ r, RunFollowsMap x r) ↔ MiddleClear x := by
  constructor
  · intro h
    by_contra hm
    obtain ⟨hmap, hdec⟩ := mapSel_of_middle hm
    have haw : WEvent.aw .s0 x ∈ wEvents ((accessRun x).st 0) ((accessRun x).inp 0) := mem_aw.2 ⟨rfl, rfl, rfl⟩
    have hrec := (h (accessRun x)).missW 0 .s0 haw
    rw [Run.st_succ, recordW haw] at hrec
    exact hdec (hrec.2 hmap)
  · exact fun h => runFollowsMap (decodeAddr_eq_mapSel hrom hram h)

/-- A write in the window of the I2C controller comes to it. -/
theorem decode_follows_map_iff_i2c :
    (1, .slaveAw .i2c 0x40003004) ∈ (accessRun 0x40003004).log wEvents 4 ∧
      RunFollowsMap 0x40003004 (accessRun 0x40003004) :=
  ⟨by decide, (decode_follows_map_iff 0x40003004 (by decide) (by decide)).2 (by decide) (accessRun 0x40003004)⟩

/-- A write that the map sends nowhere reaches the timer. -/
theorem accessRun_reaches_timer :
    mapSel 0x41230000 = .err ∧ (1, .slaveAw .timer 0x41230000) ∈ (accessRun 0x41230000).log wEvents 4 ∧
      (4, .b .s0 axiRespOkay) ∈ (accessRun 0x41230000).log wEvents 5 ∧
      ¬ RunFollowsMap 0x41230000 (accessRun 0x41230000) := by
  have hmap : mapSel 0x41230000 = .err := by decide
  refine ⟨hmap, by decide, by decide, fun h => ?_⟩
  have htimer := h.touchesW 1 .timer (.inl (by decide)) (by decide)
  rw [hmap] at htimer
  cases htimer

end RiscvSoc.Crossbar
