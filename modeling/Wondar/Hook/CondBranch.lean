import Wondar.Hook.BranchImm

/-!
# Relocating conditional branches

Five kinds of branches with two widths of displacement go through one function. What they test
is in the bits that the function keeps (`condLmask_of_branch`), so each becomes the same test
with another displacement: of the target itself when it is near, and otherwise of a jump through
X17 behind a branch over it (`condWords`).

The function takes the displacement for an unsigned number (`FieldOf.unsigned`). The branch goes
where it went exactly when the displacement is not negative, or when it is never taken at all
(`fixCondCompTestBranch_faithful_iff`).
-/

namespace Wondar.Hook

open A64 Coherence

variable {mmu : Mmu} {slot : Slot} {s s' : Reloc} {w lmask : Word} {n : Nat} {test : Test}
  {d : BitVec 64}

/-! ## The displacement -/

/-- The field outside of `lmask` is a displacement of `n + 1` bits. -/
inductive FieldOf : Word → Nat → Prop
  | imm19 : FieldOf 0xff00001f#32 18
  | imm14 : FieldOf 0xfff8001f#32 13

theorem FieldOf.le (h : FieldOf lmask n) : 13 ≤ n ∧ n ≤ 18 := by
  cases h <;> omega

theorem FieldOf.threshold (h : FieldOf lmask n) : ((~~~lmask) >>> 6).toNat = 2 ^ n - 1 := by
  cases h <;> decide

/-- The displacement as the function takes it. -/
theorem FieldOf.unsigned (h : FieldOf lmask n) (w : Word) :
    ((w &&& ~~~lmask) >>> 3).setWidth 64 = (w.extractLsb' 5 (n + 1)).setWidth 64 <<< 2 := by
  have hMask : ∀ i < 64, (~~~lmask).getLsbD (3 + i) = decide (2 ≤ i ∧ i - 2 < n + 1) := by
    cases h <;> decide
  ext i hi
  simp only [BitVec.getElem_setWidth, BitVec.getElem_shiftLeft, BitVec.getLsbD_ushiftRight,
    BitVec.getLsbD_and, BitVec.getLsbD_extractLsb', hMask i hi]
  by_cases hLow : i < 2
  · have hNot : ¬ 2 ≤ i := by omega
    simp [hLow, hNot]
  · have hBit : 3 + i = 5 + (i - 2) := by omega
    have hHigh : 2 ≤ i := by omega
    simp [hLow, hHigh, hBit, Bool.and_comm]

/-- A field that is taken for an unsigned number loses its sign. -/
theorem branchOffset_eq_unsigned_iff {k : Nat} (hk : k ≤ 61) (imm : BitVec k) :
    imm.setWidth 64 <<< 2 = branchOffset imm ↔ 0 ≤ (branchOffset imm).toInt := by
  have hLt := imm.isLt
  have hPow : 2 ^ k ≤ 2 ^ 61 := Nat.pow_le_pow_right (by omega) hk
  have hUnsigned : (imm.setWidth 64 <<< 2).toInt = 4 * imm.toNat := by
    rw [BitVec.toInt_eq_toNat_cond, BitVec.toNat_shiftLeft, BitVec.toNat_setWidth, Nat.shiftLeft_eq]
    omega
  rw [← BitVec.toInt_inj, hUnsigned, branchOffset_toInt (by omega), BitVec.toInt_eq_toNat_cond]
  split <;> omega

/-! ## The classes -/

/-- Bit 24 chooses between the two opcodes of a class. -/
theorem opcode_pair {v : Word} (h : w &&& 0x7e000000#32 = v) :
    w &&& 0x7f000000#32 = v ∨ w &&& 0x7f000000#32 = v ||| 0x01000000#32 := by
  have hSplit : w &&& 0x7f000000#32 = (w &&& 0x7e000000#32) ||| (w &&& 0x01000000#32) := by
    rw [← BitVec.and_or_distrib_left]
    rfl
  have hOne : w &&& 0x01000000#32 = 0#32 ∨ w &&& 0x01000000#32 = 0x01000000#32 := by
    have hTwo := BitVec.and_twoPow w 24
    rw [show BitVec.twoPow 32 24 = 0x01000000#32 by decide] at hTwo
    rw [hTwo]
    split
    · exact .inr rfl
    · exact .inl rfl
  rw [hSplit, h]
  rcases hOne with hOne | hOne
  · rw [hOne]
    exact .inl BitVec.or_zero
  · rw [hOne]
    exact .inr rfl

/-- The condition does not depend on the field. -/
theorem decode_cond_put (h : w &&& 0xff000010#32 = 0x54000000#32) (x : Word) :
    decodePcRel ((x &&& ~~~0xff00001f#32) ||| (w &&& 0xff00001f#32)) =
      some (.branch (.cond (w.setWidth 4)) (branchOffset (x.extractLsb' 5 19))) := by
  have hKept : ((x &&& ~~~0xff00001f#32) ||| (w &&& 0xff00001f#32)) &&& 0xff000010#32 =
      w &&& 0xff000010#32 := and_kept _ _ (by decide) (by decide)
  rw [decodePcRel, if_pos (hKept.trans h), setWidth_kept _ _ (by omega) (by decide) (by decide),
    extractLsb'_put _ _ (by decide) (by decide)]

/-- The register that is compared does not depend on the field. -/
theorem decode_compare_put (hCond : w &&& 0xff000010#32 ≠ 0x54000000#32)
    (h : w &&& 0x7e000000#32 = 0x34000000#32) (x : Word) :
    decodePcRel ((x &&& ~~~0xff00001f#32) ||| (w &&& 0xff00001f#32)) =
      some (.branch (.compare (w.getLsbD 31) (w.getLsbD 24) (w.setWidth 5))
        (branchOffset (x.extractLsb' 5 19))) := by
  have hKept : ((x &&& ~~~0xff00001f#32) ||| (w &&& 0xff00001f#32)) &&& 0xff000010#32 =
      w &&& 0xff000010#32 := and_kept _ _ (by decide) (by decide)
  have hKept' : ((x &&& ~~~0xff00001f#32) ||| (w &&& 0xff00001f#32)) &&& 0x7e000000#32 =
      w &&& 0x7e000000#32 := and_kept _ _ (by decide) (by decide)
  rw [decodePcRel, if_neg (by rw [hKept]; exact hCond), if_pos (hKept'.trans h),
    setWidth_kept _ _ (by omega) (by decide) (by decide), getLsbD_kept _ _ (by decide) (by decide),
    getLsbD_kept _ _ (by decide) (by decide), extractLsb'_put _ _ (by decide) (by decide)]

/-- The bit that is tested does not depend on the field. -/
theorem decode_bit_put (hCond : w &&& 0xff000010#32 ≠ 0x54000000#32)
    (h : w &&& 0x7e000000#32 = 0x36000000#32) (x : Word) :
    decodePcRel ((x &&& ~~~0xfff8001f#32) ||| (w &&& 0xfff8001f#32)) =
      some (.branch (.bit (w.extractLsb' 31 1 ++ w.extractLsb' 19 5) (w.getLsbD 24) (w.setWidth 5))
        (branchOffset (x.extractLsb' 5 14))) := by
  have hKept : ((x &&& ~~~0xfff8001f#32) ||| (w &&& 0xfff8001f#32)) &&& 0xff000010#32 =
      w &&& 0xff000010#32 := and_kept _ _ (by decide) (by decide)
  have hKept' : ((x &&& ~~~0xfff8001f#32) ||| (w &&& 0xfff8001f#32)) &&& 0x7e000000#32 =
      w &&& 0x7e000000#32 := and_kept _ _ (by decide) (by decide)
  have hNot : w &&& 0x7e000000#32 ≠ 0x34000000#32 := by
    rw [h]
    decide
  rw [decodePcRel, if_neg (by rw [hKept]; exact hCond), if_neg (by rw [hKept']; exact hNot),
    if_pos (hKept'.trans h), setWidth_kept _ _ (by omega) (by decide) (by decide),
    extractLsb'_kept _ _ (by decide) (by decide), extractLsb'_kept _ _ (by decide) (by decide),
    getLsbD_kept _ _ (by decide) (by decide), extractLsb'_put _ _ (by decide) (by decide)]

/-- The function's masks find every conditional branch; the test does not depend on the field. -/
theorem condLmask_of_branch (h : decodePcRel w = some (.branch test d)) :
    ∃ lmask n, condLmask w = some lmask ∧ FieldOf lmask n ∧ test.width = n + 1 ∧
      d = branchOffset (w.extractLsb' 5 (n + 1)) ∧
      ∀ x : Word, decodePcRel ((x &&& ~~~lmask) ||| (w &&& lmask)) =
        some (.branch test (branchOffset (x.extractLsb' 5 (n + 1)))) := by
  unfold decodePcRel at h
  dsimp only at h
  split at h
  · rename_i hCond
    cases h
    exact ⟨_, _, if_pos hCond, .imm19, rfl, rfl, decode_cond_put hCond⟩
  · rename_i hCond
    split at h
    · rename_i hCompare
      cases h
      exact ⟨_, _, (if_neg hCond).trans (if_pos (opcode_pair hCompare)), .imm19, rfl, rfl,
        decode_compare_put hCond hCompare⟩
    · split at h
      · rename_i hTest
        cases h
        have hPair := opcode_pair hTest
        have hNot : ¬ (w &&& 0x7f000000#32 = 0x34000000#32 ∨ w &&& 0x7f000000#32 = 0x35000000#32) := by
          rcases hPair with hPair | hPair <;> rw [hPair] <;> decide
        exact ⟨_, _, (if_neg hCond).trans ((if_neg hNot).trans (if_pos hPair)), .imm14, rfl, rfl,
          decode_bit_put hCond hTest⟩
      · split at h
        · cases h
        · split at h
          · cases h
          · cases h

/-! ## Emission -/

/-- The NOP that aligns an address four words behind `e`. -/
def condPad (e : Addr) : List Word := if aligned8 (wordAt e 4) then [] else [aarch64Nop]

/-- The branch with another field. -/
def withField (lmask w x : Word) : Word := (x &&& ~~~lmask) ||| (w &&& lmask)

/-- `B #0x14`, over the jump. -/
def skipJump : Word := 0x14000005#32

/-- What a conditional branch to `a` becomes at `e`. -/
def condWords (lmask w : Word) (e a : Addr) : List Word :=
  if ((~~~lmask) >>> 6).toNat ≤ llabs (hookOffset e a) then
    condPad e ++ (withField lmask w 0x40#32 :: skipJump :: absoluteJumpWords a)
  else [withField lmask w ((hookOffset e a <<< 5).setWidth 32)]

theorem length_condPad (e : Addr) : (condPad e).length ≤ 1 := by
  unfold condPad
  split <;> decide

theorem length_condWords (lmask w : Word) (e a : Addr) : (condWords lmask w e a).length ≤ 7 := by
  have hPad := length_condPad e
  unfold condWords
  split
  · simp only [List.length_append, absoluteJumpWords, List.length_cons, List.length_nil]
    omega
  · simp

theorem Appends.branchOver {u : Reloc} {p : Addr} {ws : List Word} (h : Appends mmu s u p ws)
    (x : Word) (target : Addr) :
    Appends mmu s ((((u.put mmu 0 x).put mmu 1 skipJump).putAbsoluteJump mmu 2 target).advance 6) p
      (ws ++ (x :: skipJump :: absoluteJumpWords target)) :=
  h.block ((((Writes.refl mmu u).put x).put skipJump).absoluteJump target)

/-- The function, for an address that it takes to be outside of the window. The padding is behind
the place that is noted. -/
theorem fixCondCompTestBranch_appends (hMask : condLmask (s.ins mmu) = some lmask) {a : Addr}
    (ha : s.inprx + ((s.ins mmu &&& ~~~lmask) >>> 3).setWidth 64 = a)
    (hOutside : s.ctx.isInFixingRange a = false) :
    ∃ u, fixCondCompTestBranch mmu s = .fixed (u.consume.processFixMap mmu s.currentIdx) ∧
      Appends mmu s u s.outrx (condWords lmask (s.ins mmu) s.outrx a) := by
  have hStart := Appends.start mmu s s.outrx
  unfold fixCondCompTestBranch condWords
  simp only [hMask, setCurrentIndex_range, setCurrentIndex_inprx, setCurrentIndex_outrx, ha, hOutside,
    Bool.not_false, Bool.true_and, decide_eq_true_eq]
  refine ⟨_, rfl, ?_⟩
  change Appends mmu s (if _ ≤ llabs (hookOffset s.outrx a) then _ else _) _ _
  by_cases hFar : ((~~~lmask) >>> 6).toNat ≤ llabs (hookOffset s.outrx a)
  · rw [if_pos hFar, if_pos hFar]
    have hReset := hStart.resetCurrentIns
    rw [List.length_nil, wordAt_zero] at hReset
    have hPad : Appends mmu s (if aligned8 (wordAt s.outrx 4) then s.setCurrentIndex s.outrx
        else ((s.setCurrentIndex s.outrx).resetCurrentIns s.currentIdx).nop mmu) s.outrx
        (condPad s.outrx) := by
      unfold condPad
      split
      · exact hStart
      · exact hReset.nop
    exact hPad.branchOver _ a
  · rw [if_neg hFar, if_neg hFar]
    exact hStart.put _

/-! ## Execution -/

section

variable {other : Word → State → State} {σ : State} {e a : Addr} {keep : Word}

theorem condPad_nops (e : Addr) : ∀ w ∈ condPad e, w = aarch64Nop := by
  unfold condPad
  split <;> simp

theorem decode_skipJump : decode skipJump = some (.b 5#26) := by decide

variable (other) in
/-- A branch over a branch over an absolute jump, from word `i` of a block to its end. -/
theorem exits_branchOver {i k : Nat} {x : Word} (hTest : decodePcRel x = some (.branch test 8#64))
    (hAt : σ.AtWord e i) (hCode : CodeAt σ.mem (wordAt e i) (x :: skipJump :: absoluteJumpWords a))
    (hi : i + 6 = k) (hk : 4 * k < 2 ^ 64) (hOut : 4 * k ≤ (a - e).toNat) :
    ∃ v, Exits (withPcRel other) e k σ
      { σ with
        pc := if test.holds σ then a else wordAt e k
        x := Function.update σ.x 17#5 v } := by
  have hStep := step_pcRel other (hAt.fetch hCode (by simp)) hTest
  rw [PcRel.exec] at hStep
  simp only [codeAt_cons, wordAt_wordAt] at hCode
  obtain ⟨-, hSkip, hJump⟩ := hCode
  split at hStep
  · rename_i hHolds
    have hJumpAt : (σ.jump (σ.pc + 8#64)).AtWord e (i + 2) := by
      rw [State.AtWord, ← wordAt_wordAt, ← hAt]
      rfl
    rw [if_pos hHolds]
    exact ⟨a, .skip hStep hAt hJumpAt (by omega) (by omega) hk
      (exits_absoluteJump hJumpAt hJump (by omega) hk hOut)⟩
  · rename_i hFails
    have hNext : σ.next.AtWord e (i + 1) := hAt.succ
    have hSkipped : step (withPcRel other) σ.next = { σ with pc := wordAt e k } := by
      rw [step_core _ (hNext ▸ hSkip) decode_skipJump, Instr.exec, hNext, ← hi, ← wordAt_wordAt e (i + 1) 5]
      rfl
    rw [if_neg hFails]
    refine ⟨σ.x 17#5, ?_⟩
    rw [Function.update_eq_self]
    exact .fall hStep hAt hNext (by omega) hk (.end hSkipped rfl hk)

/-- One branch with another field. -/
theorem exits_nearTest (hField : FieldOf lmask n)
    (hTest : ∀ x : Word, decodePcRel (withField lmask w x) =
      some (.branch test (branchOffset (x.extractLsb' 5 (n + 1)))))
    (he : Aligned e) (ha : Aligned a) (hFit : llabs (hookOffset e a) < 2 ^ n - 1)
    (hAt : σ.AtWord e 0) (hWord : σ.mem e = withField lmask w ((hookOffset e a <<< 5).setWidth 32)) :
    Exits (withPcRel other) e 1 σ { σ with pc := if test.holds σ then a else wordAt e 1 } := by
  have hBounds := hField.le
  have hPc : σ.pc = e := hAt.trans (wordAt_zero e)
  have hBits := extractLsb'_shifted (k := n + 1) (by omega) (hookOffset e a)
  have hReach : e + branchOffset ((hookOffset e a).setWidth (n + 1)) = a := by
    rw [branchOffset_of_fit (by omega) he ha (by omega)]
    grind
  have hFetch : σ.mem σ.pc = withField lmask w ((hookOffset e a <<< 5).setWidth 32) := by
    rw [hPc]
    exact hWord
  have hStep := step_pcRel other hFetch (hTest _)
  rw [hBits, PcRel.exec, hPc, hReach] at hStep
  have hNext : σ.next = { σ with pc := wordAt e 1 } := by
    rw [State.next, hPc]
    rfl
  refine .single (hStep.trans ?_) hAt ?_
  · split
    · rfl
    · exact hNext
  · dsimp only
    split
    · exact ha.sub he
    · rw [wordAt_sub e (by omega)]

/-- The words arrive at the address, or behind them when the test fails. -/
theorem exits_condWords (hField : FieldOf lmask n)
    (hTest : ∀ x : Word, decodePcRel (withField lmask w x) =
      some (.branch test (branchOffset (x.extractLsb' 5 (n + 1)))))
    (he : Aligned e) (ha : Aligned a) (hAt : σ.AtWord e 0)
    (hCode : CodeAt σ.mem e (condWords lmask w e a)) :
    ∃ v, Exits (withPcRel other) e (condWords lmask w e a).length σ
      { σ with
        pc := if test.holds σ then a else wordAt e (condWords lmask w e a).length
        x := Function.update σ.x 17#5 v } := by
  have hPad := length_condPad e
  have hSize : trampolineSize = 50 := rfl
  have hBounds := hField.le
  have hPow : 2 ^ 13 ≤ 2 ^ n := Nat.pow_le_pow_right (by omega) hBounds.1
  unfold condWords at hCode ⊢
  rw [hField.threshold] at hCode ⊢
  split at hCode
  · rename_i hFar
    obtain ⟨hNops, hWords⟩ := codeAt_append.mp hCode
    have hLength : (condPad e ++ (withField lmask w 0x40#32 :: skipJump ::
        absoluteJumpWords a)).length = (condPad e).length + 6 := List.length_append
    have hOver : decodePcRel (withField lmask w 0x40#32) = some (.branch test 8#64) := by
      rw [hTest]
      cases hField <;> rfl
    rw [if_pos hFar, hLength]
    obtain ⟨v, hExits⟩ := exits_branchOver other (e := e)
      (σ := { σ with pc := wordAt e (condPad e).length }) hOver rfl hWords rfl (by omega)
      (outside_of_llabs hFar (by omega) (by omega))
    have hSame : test.holds { σ with pc := wordAt e (condPad e).length } = test.holds σ := by
      cases test <;> rfl
    rw [hSame] at hExits
    refine ⟨v, exits_nops (condPad_nops e) hAt (by rwa [wordAt_zero]) (by omega) (by omega) ?_⟩
    rwa [Nat.zero_add]
  · rename_i hNear
    rw [if_neg hNear]
    refine ⟨σ.x 17#5, ?_⟩
    rw [List.length_singleton, Function.update_eq_self]
    exact exits_nearTest hField hTest he ha (by omega) hAt (codeAt_cons.mp hCode).1

end

/-! ## The instruction -/

/-- To `t` when the test holds, and else to `after`, with X17 changed at most. -/
def TestedExit (test : Test) (t after : Addr) (σ τ : State) : Prop :=
  ∃ v, τ = { σ with pc := if test.holds σ then t else after, x := Function.update σ.x 17#5 v }

section

variable {inprw f : Addr} {count k : Nat} {m : Machine}

/-- A branch whose sign is lost does not seem to stay in the window either. -/
theorem not_inWindow_of_negative (h : Midway mmu slot inprw f count k m s) {imm : BitVec (n + 1)}
    (hn : 13 ≤ n ∧ n ≤ 18) (hNegative : ¬ 0 ≤ (branchOffset imm).toInt) :
    ¬ InWindow f count (s.inprx + imm.setWidth 64 <<< 2) := by
  have hLt := h.lt
  have hCount := h.count_le
  have hMax : maxInstructions = 5 := rfl
  have hImm := imm.isLt
  have hPow : 2 ^ (n + 1) ≤ 2 ^ 19 := Nat.pow_le_pow_right (by omega) (by omega)
  have hHalf : 2 ^ 13 ≤ 2 ^ n := Nat.pow_le_pow_right (by omega) hn.1
  have hDouble : 2 ^ (n + 1) = 2 * 2 ^ n := by rw [Nat.pow_succ, Nat.mul_comm]
  rw [branchOffset_toInt (by omega), BitVec.toInt_eq_toNat_cond] at hNegative
  have hTop : 2 ^ n ≤ imm.toNat := by
    split at hNegative <;> omega
  have hShift : (imm.setWidth 64 <<< 2).toNat = 4 * imm.toNat := by
    rw [BitVec.toNat_shiftLeft, BitVec.toNat_setWidth, Nat.shiftLeft_eq]
    omega
  have hDistance : (wordAt f k + imm.setWidth 64 <<< 2 - f).toNat = 4 * k + 4 * imm.toNat := by
    unfold wordAt
    generalize imm.setWidth 64 <<< 2 = x at hShift
    bv_omega
  rw [h.inprx, InWindow, hDistance]
  omega

/-- The branch goes to an address that is its target unless the displacement is negative. -/
theorem fixCondCompTestBranch_exits (h : Midway mmu slot inprw f count k m s)
    (hDecode : decodePcRel (s.ins mmu) = some (.branch test d))
    (hOutside : ¬ InWindow f count (s.inprx + d)) :
    ∃ s' a, fixCondCompTestBranch mmu s = .fixed s' ∧ (a = s.inprx + d ↔ 0 ≤ d.toInt) ∧
      Faithful mmu s s' (fun _ => True) (TestedExit test a s'.outrx) := by
  obtain ⟨lmask, n, hMask, hField, -, rfl, hTest⟩ := condLmask_of_branch hDecode
  have hBounds := hField.le
  have hAddress : s.inprx + ((s.ins mmu &&& ~~~lmask) >>> 3).setWidth 64 =
      s.inprx + ((s.ins mmu).extractLsb' 5 (n + 1)).setWidth 64 <<< 2 := by
    rw [hField.unsigned]
  have hSign := branchOffset_eq_unsigned_iff (by omega) ((s.ins mmu).extractLsb' 5 (n + 1))
  have hOut : s.ctx.isInFixingRange
      (s.inprx + ((s.ins mmu).extractLsb' 5 (n + 1)).setWidth 64 <<< 2) = false := by
    refine h.outside ?_
    by_cases hPositive : 0 ≤ (branchOffset ((s.ins mmu).extractLsb' 5 (n + 1))).toInt
    · rw [hSign.mpr hPositive]
      exact hOutside
    · exact not_inWindow_of_negative h hBounds hPositive
  obtain ⟨u, hFix, hAppends⟩ := fixCondCompTestBranch_appends hMask hAddress hOut
  have hTarget : Aligned (s.inprx + ((s.ins mmu).extractLsb' 5 (n + 1)).setWidth 64 <<< 2) :=
    h.source_aligned.add_shifted _
  have hSame : s.inprx + ((s.ins mmu).extractLsb' 5 (n + 1)).setWidth 64 <<< 2 =
      s.inprx + branchOffset ((s.ins mmu).extractLsb' 5 (n + 1)) ↔
        0 ≤ (branchOffset ((s.ins mmu).extractLsb' 5 (n + 1))).toInt := by
    rw [← hSign]
    exact ⟨fun hEq => by simpa using hEq, fun hEq => by rw [hEq]⟩
  generalize s.inprx + ((s.ins mmu).extractLsb' 5 (n + 1)).setWidth 64 <<< 2 = a at hAppends hTarget hSame
  have hLength := length_condWords lmask (s.ins mmu) s.outrx a
  have hSize : trampolineSize = 50 := rfl
  have hBecame := hAppends.consume_process (h.room (by omega)) s.currentIdx
  refine ⟨_, a, hFix, hSame, hBecame.faithful (by omega) fun other σ hAt hCode _ => ?_⟩
  obtain ⟨v, hExits⟩ := exits_condWords hField hTest h.output_aligned hTarget hAt hCode
  rw [hBecame.outrx]
  exact ⟨_, hExits, v, rfl⟩

/-- Two exits of a test that can hold are the same. -/
theorem target_unique (hCan : test.never = false) {t t' after : Addr}
    (h : Faithful mmu s s' (fun _ => True) (TestedExit test t after))
    (h' : Faithful mmu s s' (fun _ => True) (TestedExit test t' after)) : t = t' := by
  have hHolds : ∃ σ : State, σ.pc = s.outrx ∧ σ.mem = s'.mach.view mmu ∧ test.holds σ = true := by
    by_contra hNone
    rw [Bool.eq_false_iff, Ne, test.never_iff s.outrx (s'.mach.view mmu)] at hCan
    refine hCan fun σ hPc hMem => ?_
    rw [Bool.eq_false_iff]
    exact fun hHolds => hNone ⟨σ, hPc, hMem, hHolds⟩
  obtain ⟨σ, hPc, hMem, hHolds⟩ := hHolds
  have hCode : ∀ i < emittedCount s s', σ.mem (wordAt s.outrx i) =
      s'.mach.read mmu (wordAt s.outrx i) := fun i _ => by rw [hMem]; rfl
  obtain ⟨τ, hExits, v, hτ⟩ := h (fun _ ρ => ρ) σ hPc hCode trivial
  obtain ⟨τ', hExits', v', hτ'⟩ := h' (fun _ ρ => ρ) σ hPc hCode trivial
  have hSame := congrArg State.pc (hExits.unique hExits')
  rw [hτ, hτ'] at hSame
  simpa [hHolds] using hSame

/-- **Relocating a conditional branch.** A conditional branch out of the window becomes words that
go to its target exactly when the test holds, and else behind themselves, with X17 changed at
most, if the displacement is not negative; otherwise they go elsewhere, unless the test never
holds. -/
theorem fixCondCompTestBranch_faithful_iff (h : Midway mmu slot inprw f count k m s)
    (hDecode : decodePcRel (s.ins mmu) = some (.branch test d))
    (hOutside : ¬ InWindow f count (s.inprx + d)) :
    ∃ s', fixCondCompTestBranch mmu s = .fixed s' ∧
      (Faithful mmu s s' (fun _ => True) (TestedExit test (s.inprx + d) s'.outrx) ↔
        0 ≤ d.toInt ∨ test.never = true) := by
  obtain ⟨s', a, hFix, hSign, hFaithful⟩ := fixCondCompTestBranch_exits h hDecode hOutside
  refine ⟨s', hFix, fun hKept => ?_, fun hWhen => ?_⟩
  · by_cases hNever : test.never = true
    · exact .inr hNever
    · exact .inl (hSign.mp (target_unique (by simpa using hNever) hFaithful hKept))
  · rcases hWhen with hPositive | hNever
    · rw [← hSign.mpr hPositive]
      exact hFaithful
    · intro other σ hPc hCode hStart
      obtain ⟨τ, hExits, v, hτ⟩ := hFaithful other σ hPc hCode hStart
      have hFails := (test.never_iff σ.pc σ.mem).mp hNever σ rfl rfl
      exact ⟨τ, hExits, v, by rw [hτ, hFails]; rfl⟩

end

/-- `B.EQ`, to the next page. -/
theorem fixCondCompTestBranch_faithful_iff_forward :
    let s := startReloc 0x1000#64 0x1000#64 1 0x4000#64 0x4000#64 ⟨fun _ => 0x54008000#32, []⟩
    ∃ s', fixCondCompTestBranch flat s = .fixed s' ∧
      (Faithful flat s s' (fun _ => True) (TestedExit (.cond 0#4) (s.inprx + 0x1000#64) s'.outrx) ↔
        0 ≤ (0x1000#64 : BitVec 64).toInt ∨ (Test.cond 0#4).never = true) :=
  fixCondCompTestBranch_faithful_iff
    (midway_flat (by decide) (by decide) (by decide) (by decide) _) (by decide) (by decide)

/-- `CBZ X0`, back by four bytes, does not go there any more. -/
theorem fixCondCompTestBranch_backward :
    let s := startReloc 0x1000#64 0x1000#64 1 0x3000#64 0x3000#64 ⟨fun _ => 0xb4ffffe0#32, []⟩
    decodePcRel (s.ins flat) = some (.branch (.compare true false 0#5) (-4#64)) ∧
      ¬ InWindow 0x1000#64 1 (s.inprx + -4#64) ∧
      ¬ ∃ s', fixCondCompTestBranch flat s = .fixed s' ∧
        Faithful flat s s' (fun _ => True)
          (TestedExit (.compare true false 0#5) (s.inprx + -4#64) s'.outrx) := by
  intro s
  have hMidway : Midway flat ⟨0x3000#64, 0x3000#64⟩ 0x1000#64 0x1000#64 1 0
      ⟨fun _ => 0xb4ffffe0#32, []⟩ s :=
    midway_flat (by decide) (by decide) (by decide) (by decide) _
  have hDecode : decodePcRel (s.ins flat) = some (.branch (.compare true false 0#5) (-4#64)) := by
    decide
  have hOutside : ¬ InWindow 0x1000#64 1 (s.inprx + -4#64) := by decide
  refine ⟨hDecode, hOutside, ?_⟩
  rintro ⟨s', hFix, hKept⟩
  obtain ⟨t, a, hFix', hSign, hFaithful⟩ := fixCondCompTestBranch_exits hMidway hDecode hOutside
  rw [hFix] at hFix'
  cases hFix'
  exact absurd (hSign.mp (target_unique rfl hFaithful hKept)) (by decide)

end Wondar.Hook
