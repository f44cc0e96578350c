import Wondar.Hook.Transparent

/-!
# Relocating a hook

A second hook of a function relocates what the first one wrote there: a branch, or a NOP, a
literal load, an indirect branch and the two words of an address. A branch becomes a jump to
where it went (`fixInstruction_branch`). The literal load becomes one that is followed by a
copy of its literal when that lies in the window or is out of reach, and else is pointed at the
literal in the function (`fixInstruction_ldrX17_copy`, `fixInstruction_ldrX17_reach`).
-/

namespace Wondar.Hook

open A64 Coherence

variable {mmu : Mmu} {s s' : Reloc} {t : Addr}

/-! ## Branches -/

theorem nearBranch_displacement {e : Addr} (he : Aligned e) (ht : Aligned t)
    (hNear : isFar e t = false) :
    ((nearBranch e t <<< 6).sshiftRight 4).signExtend 64 = t - e := by
  have hField : (nearBranch e t).setWidth 26 = (hookOffset e t).setWidth 26 := by
    rw [nearBranch, setWidth_or_masked _ _ _ (by decide) (by decide),
      BitVec.setWidth_setWidth_of_le _ (by omega)]
  rw [branchOffset_field, hField, branchOffset_hookOffset he ht hNear]

/-- A branch out of the window becomes a jump from where it lands. -/
theorem fixInstruction_branch (hIns : s.ins mmu = nearBranch s.inprx t) (he : Aligned s.inprx)
    (ht : Aligned t) (hNear : isFar s.inprx t = false)
    (hOutside : s.ctx.isInFixingRange t = false) (hRefs : s.ctx.NoRefs) :
    ∃ s', fixInstruction mmu s = some s' ∧ Emits mmu s s' 1 (jumpWords s.outrx t) := by
  have hOp : nearBranch s.inprx t &&& 0xfc000000#32 = 0x14000000#32 := by
    rw [nearBranch, or_and_masked _ _ _ _ (by decide)]
    rfl
  have hStart := (Emits.refl mmu hRefs).setCurrentIndex s.outrx
  have hTarget : (s.setCurrentIndex s.outrx).inprx + (t - s.inprx) = t := by
    change s.inprx + (t - s.inprx) = t
    grind
  have hSpecial : (s.setCurrentIndex s.outrx).ctx.isInFixingRange t = false := hOutside
  unfold fixInstruction fixBranchImm
  simp only [hIns, hOp, true_or, if_true, nearBranch_displacement he ht hNear, hTarget, hSpecial,
    Bool.not_false, Bool.true_and, decide_eq_true_eq, Bool.false_eq_true, if_false]
  refine ⟨_, rfl, (Emits.consume (n := 0) ?_).processFixMap _⟩
  change Emits mmu s (if 0x1ffffff ≤ llabs (hookOffset s.outrx t) then _ else _) 0 _
  unfold jumpWords isFar
  simp only [decide_eq_true_eq]
  split
  · change Emits mmu s ((Reloc.putAbsoluteJump mmu
      (if aligned8 (wordAt s.outrx 2) then _ else _) 0 t).advance 4) 0 _
    split
    · exact hStart.absoluteJump t
    · exact (hStart.nop.resetCurrentIns _).absoluteJump t
  · exact hStart.put _

/-! ## The literal load of a jump -/

/-- The copy of the literal behind the load: two words, skipped by a branch. -/
def skipLiteral : Word := 0x14000003#32

/-- Where `LDR X17, #0x8` finds the address. -/
def jumpLiteral (s : Reloc) : Addr := wordAt s.inprx 2

/-- `LDR X17, lit` at `e`. -/
def ldrX17At (e lit : Addr) : Word :=
  ((((lit - e).sshiftRight 2 <<< 5).setWidth 32) &&& ~~~0xbf000000#32) ||| 0x58000011#32

/-- The literal is too far from the output for a literal load. -/
def literalFar (e lit : Addr) : Bool := 0x3ffff ≤ llabs ((lit - e).sshiftRight 2) + 1

theorem padWhile_literal {u : Reloc} (h : Aligned u.outrx) :
    padWhile mmu (fun s => wordAt s.outrx 2 &&& 7#64 != 0#64) padFuel u =
      some (if aligned8 (wordAt u.outrx 2) then u else u.nop mmu) := by
  have hTest : ∀ p : Addr, (p &&& 7#64 != 0#64) = !aligned8 p := fun _ => rfl
  by_cases hAligned : aligned8 (wordAt u.outrx 2) = true
  · simp [padFuel, padWhile, hTest, hAligned]
  · have hNext : aligned8 (wordAt (u.nop mmu).outrx 2) = true := by
      rw [aligned8_iff] at hAligned ⊢
      change (wordAt (wordAt u.outrx 1) 2).toNat % 8 = 0
      unfold Aligned wordAt at *
      bv_omega
    simp [padFuel, padWhile, hTest, hAligned, hNext]

/-- An instruction that `__fix_loadlit` recognises. -/
theorem fixInstruction_of_loadlit {emitted : Option Reloc} {f : Reloc → Reloc}
    (hBranch : fixBranchImm mmu s = .skipped) (hCond : fixCondCompTestBranch mmu s = .skipped)
    (hLoad : fixLoadlit mmu s = match emitted with
      | none => .stuck
      | some u => .fixed (f u)) :
    fixInstruction mmu s = emitted.map f := by
  rw [fixInstruction, hBranch, hCond, hLoad]
  cases emitted <;> rfl

/-- What becomes of the load. -/
theorem fixInstruction_ldrX17 (hIns : s.ins mmu = ldrX17) :
    fixInstruction mmu s =
      (if s.ctx.isInFixingRange (jumpLiteral s) || literalFar s.outrx (jumpLiteral s) then
        (padWhile mmu (fun s => wordAt s.outrx 2 &&& 7#64 != 0#64) padFuel
          (s.setCurrentIndex s.outrx)).bind fun u =>
            let u := ((u.resetCurrentIns s.currentIdx).put mmu 0 ldrX17).put mmu 1 skipLiteral
            if readable mmu (jumpLiteral s) 2 then
              some ((u.copy mmu 2 2 (jumpLiteral s)).advance 4)
            else none
      else
        (padWhile mmu (fun u => (jumpLiteral s - u.outrx).sshiftRight 2 &&& 1#64 != 0#64) padFuel
          (s.setCurrentIndex s.outrx)).map fun u =>
            let u := u.resetCurrentIns s.currentIdx
            (u.put mmu 0 (ldrX17At u.outrx (jumpLiteral s))).advance 1).map
        fun u => u.consume.processFixMap mmu s.currentIdx := by
  have hB : ldrX17 &&& 0xfc000000#32 ≠ 0x14000000#32 := by decide
  have hBl : ldrX17 &&& 0xfc000000#32 ≠ 0x94000000#32 := by decide
  have hCond : condLmask ldrX17 = none := by decide
  have hPrfm : ldrX17 &&& 0xff000000#32 ≠ 0xd8000000#32 := by decide
  have hMask : loadlitMask ldrX17 = some (0xbf000000#32, 7) := by decide
  have hBranch : fixBranchImm mmu s = .skipped := by
    simp only [fixBranchImm, hIns, hB, hBl, or_self, if_false]
  have hTest : fixCondCompTestBranch mmu s = .skipped := by
    simp only [fixCondCompTestBranch, hIns, hCond]
  refine fixInstruction_of_loadlit hBranch hTest ?_
  simp only [fixLoadlit, hIns, hPrfm, if_false, hMask]
  rfl

/-- A literal in the window, or out of reach, is copied. -/
theorem fixInstruction_ldrX17_copy (hIns : s.ins mmu = ldrX17) (hRefs : s.ctx.NoRefs)
    (hAligned : Aligned s.outrx)
    (hCopy : s.ctx.isInFixingRange (jumpLiteral s) = true ∨
      literalFar s.outrx (jumpLiteral s) = true)
    (hApart : mmu.Apart (jumpLiteral s) 2 s.outrw 3)
    (hFix : fixInstruction mmu s = some s') :
    Emits mmu s s' 1 (alignPad s.outrx ++
      [ldrX17, skipLiteral, s.mach.read mmu (jumpLiteral s),
        s.mach.read mmu (wordAt (jumpLiteral s) 1)]) := by
  have hStart := (Emits.refl mmu hRefs).setCurrentIndex s.outrx
  rw [fixInstruction_ldrX17 hIns, if_pos (by simpa using hCopy),
    padWhile_literal (u := s.setCurrentIndex s.outrx) hAligned, Option.bind_some] at hFix
  obtain ⟨u, hEmit, rfl⟩ := Option.map_eq_some_iff.mp hFix
  dsimp only at hEmit
  split at hEmit
  · cases hEmit
    refine (Emits.consume (n := 0) ?_).processFixMap _
    -- the padding
    have hPad : Emits mmu s ((if aligned8 (wordAt (s.setCurrentIndex s.outrx).outrx 2)
        then s.setCurrentIndex s.outrx else (s.setCurrentIndex s.outrx).nop mmu).resetCurrentIns
          s.currentIdx) 0 (alignPad s.outrx) := by
      change Emits mmu s ((if aligned8 (wordAt s.outrx 2) then _ else _ : Reloc).resetCurrentIns _) 0 _
      unfold alignPad
      split
      · exact hStart.resetCurrentIns _
      · exact hStart.nop.resetCurrentIns _
    generalize (if aligned8 (wordAt (s.setCurrentIndex s.outrx).outrx 2)
        then s.setCurrentIndex s.outrx else (s.setCurrentIndex s.outrx).nop mmu).resetCurrentIns
          s.currentIdx = u at hPad ⊢
    have hLength := length_alignPad s.outrx
    -- the load and the branch
    have hPuts : ((u.put mmu 0 ldrX17).put mmu 1 skipLiteral).mach.phys =
        storeWords mmu u.mach.phys u.outrw [ldrX17, skipLiteral] := by
      simp [Reloc.put, Mach.store, storeWords]
    have hRead : ∀ i < 2, ((u.put mmu 0 ldrX17).put mmu 1 skipLiteral).mach.read mmu
        (wordAt (jumpLiteral s) i) = s.mach.read mmu (wordAt (jumpLiteral s) i) := fun i hi =>
      (hPad.block _ hPuts).read fun j hj => hApart i j hi (by
        rw [List.length_append, List.length_cons, List.length_singleton] at hj
        omega)
    -- and the copy
    have hWords : ((List.range 2).map fun i => ((u.put mmu 0 ldrX17).put mmu 1 skipLiteral).mach.read
        mmu (wordAt (jumpLiteral s) i)) = [s.mach.read mmu (jumpLiteral s),
          s.mach.read mmu (wordAt (jumpLiteral s) 1)] := by
      have hFirst := hRead 0 (by omega)
      rw [wordAt_zero] at hFirst
      simp [List.range_succ, hFirst, hRead 1 (by omega)]
    refine hPad.block [_, _, _, _] ?_
    rw [hWords]
    simp [Reloc.put, Mach.store, storeWords]
  · cases hEmit

theorem unrecognised_nop : Unrecognised aarch64Nop := unrecognised_of_masks (by decide)

theorem unrecognised_brX17 : Unrecognised brX17 := unrecognised_of_masks (by decide)

/-- What an absolute jump becomes, without its address: the literal goes before the branch. -/
def copiedJump (e : Addr) (lo hi : Word) : List Word :=
  alignPad e ++ [ldrX17, skipLiteral, lo, hi] ++ [brX17]

/-- The two instructions of an absolute jump in the window. -/
theorem fixLoop_absoluteJump (hLoop : fixLoop mmu 2 s = some s') (hIns : s.ins mmu = ldrX17)
    (hNext : s.mach.read mmu (wordAt s.inprw 1) = brX17) (hRefs : s.ctx.NoRefs)
    (hAligned : Aligned s.outrx) (hSpecial : s.ctx.isInFixingRange (jumpLiteral s) = true)
    (hLiteral : mmu.Apart (jumpLiteral s) 2 s.outrw 3)
    (hInput : ∀ j < 5, mmu.tr (wordAt s.inprw 1) ≠ mmu.tr (wordAt s.outrw j)) :
    Emits mmu s s' 2 (copiedJump s.outrx (s.mach.read mmu (jumpLiteral s))
      (s.mach.read mmu (wordAt (jumpLiteral s) 1))) := by
  have hPad := length_alignPad s.outrx
  obtain ⟨u, hFirst, hSecond⟩ := Option.bind_eq_some_iff.mp hLoop
  have hLoad := fixInstruction_ldrX17_copy hIns hRefs hAligned (Or.inl hSpecial) hLiteral hFirst
  have hBr : u.ins mmu = brX17 := by
    rw [Reloc.ins, hLoad.inprw, hLoad.read fun j hj => hInput j ?_, hNext]
    rw [List.length_append, List.length_cons, List.length_cons, List.length_cons,
      List.length_singleton] at hj
    omega
  have hCopy := copyInstruction_emits mmu hLoad.refs
  rw [fixLoop, fixInstruction_plain (by rw [hBr]; exact unrecognised_brX17)] at hSecond
  cases hSecond
  rw [hBr] at hCopy
  exact hLoad.trans hCopy

/-- A literal within reach stays where it is. -/
theorem fixInstruction_ldrX17_reach (hIns : s.ins mmu = ldrX17) (hRefs : s.ctx.NoRefs)
    (hAligned : s.outrx.toNat % 8 = 0) (hLit : (jumpLiteral s).toNat % 8 = 0)
    (hOutside : s.ctx.isInFixingRange (jumpLiteral s) = false)
    (hReach : literalFar s.outrx (jumpLiteral s) = false) :
    ∃ s', fixInstruction mmu s = some s' ∧ Emits mmu s s' 1 [ldrX17At s.outrx (jumpLiteral s)] := by
  have hStart := (Emits.refl mmu hRefs).setCurrentIndex s.outrx
  have hEven : (jumpLiteral s - s.outrx).sshiftRight 2 &&& 1#64 = 0#64 := by
    refine (and_low_eq_zero_iff _ (n := 1) (by omega)).mpr ?_
    have hOff : (jumpLiteral s - s.outrx).toNat % 8 = 0 := by bv_omega
    have hShift := congrArg BitVec.toNat (sshiftRight_shiftLeft_two _ (by omega :
      (jumpLiteral s - s.outrx).toNat % 4 = 0))
    rw [BitVec.toNat_shiftLeft, Nat.shiftLeft_eq] at hShift
    omega
  have hPad : padWhile mmu (fun u => (jumpLiteral s - u.outrx).sshiftRight 2 &&& 1#64 != 0#64)
      padFuel (s.setCurrentIndex s.outrx) = some (s.setCurrentIndex s.outrx) := by
    have hTest : ((jumpLiteral s - (s.setCurrentIndex s.outrx).outrx).sshiftRight 2 &&& 1#64 !=
        0#64) = false := by
      change ((jumpLiteral s - s.outrx).sshiftRight 2 &&& 1#64 != 0#64) = false
      rw [hEven]
      rfl
    rw [padFuel, padWhile, if_neg (by rw [hTest]; decide)]
  rw [fixInstruction_ldrX17 hIns, if_neg (by simp [hOutside, hReach]), hPad]
  exact ⟨_, rfl, (((hStart.resetCurrentIns _).put _).consume).processFixMap _⟩

/-! ## Execution -/

section

variable {other : Word → State → State} {C : Addr → Prop} {view : Addr → Word} {e lit : Addr}
  {v : Option (BitVec 64)}

theorem decode_ldrX17At (e lit : Addr) : decode (ldrX17At e lit) =
    some (.ldrLiteral .x (((lit - e).sshiftRight 2).setWidth 19) 17#5) := by
  have hWord : ldrX17At e lit = 0x58000011#32 |||
      (((lit - e).sshiftRight 2 <<< 5).setWidth 32 &&& 0x00ffffff#32) :=
    masked_or_congr _ _ _ _ (by decide)
  have hTop : ldrX17At e lit &&& 0xff000000#32 = 0x58000000#32 := by
    rw [hWord, or_and_masked _ _ _ _ (by decide)]
    rfl
  have hField : (ldrX17At e lit).extractLsb' 5 19 = ((lit - e).sshiftRight 2).setWidth 19 := by
    rw [hWord, extractLsb'_or_masked _ _ _ _ _ (by decide) (by decide)]
    generalize (lit - e).sshiftRight 2 = q
    ext i hi
    have hLt : 5 + i < 32 := by omega
    simp [hLt]
  have hReg : (ldrX17At e lit).setWidth 5 = 17#5 := by
    have hLow : (((lit - e).sshiftRight 2 <<< 5).setWidth 32).setWidth 5 = 0#5 := by
      generalize (lit - e).sshiftRight 2 = q
      ext i hi
      simp
    rw [hWord, BitVec.setWidth_or, BitVec.setWidth_and, hLow, BitVec.zero_and, BitVec.or_zero]
    rfl
  rw [decode_ldrLiteral hTop, hField, hReg]

variable (other) in
/-- A literal load that was pointed at its literal. -/
theorem reaches_ldrX17At (he : Aligned e) (hLit : Aligned lit) (hReach : literalFar e lit = false)
    (hWord : view e = ldrX17At e lit) (hC : C e) (hLo : C lit) (hHi : C (wordAt lit 1)) :
    Reaches other 17#5 C view ⟨e, v⟩ ⟨wordAt e 1, some (load64 view lit)⟩ := by
  have hFit : llabs ((lit - e).sshiftRight 2) + 1 < 0x3ffff := by
    rw [literalFar, decide_eq_false_iff_not] at hReach
    omega
  have hOffset : branchOffset ((hookOffset e lit).setWidth 19) = lit - e :=
    branchOffset_of_fit (by omega) he hLit (by rw [hookOffset]; omega)
  refine reaches_ldr (by decide) hC (by rw [hWord]; exact decode_ldrX17At e lit) ?_ hLo hHi
  rw [← hookOffset, hOffset]
  grind

variable (other) in
/-- A literal load with a copy of its literal. -/
theorem reaches_copiedLiteral {lo hi : Word}
    (hWords : CodeAt view e [ldrX17, skipLiteral, lo, hi]) (hC : ∀ i < 4, C (wordAt e i)) :
    Reaches other 17#5 C view ⟨e, v⟩ ⟨wordAt e 4, some (ofWords lo hi)⟩ := by
  simp only [codeAt_cons] at hWords
  obtain ⟨hLdr, hSkip, hLo, hHi, -⟩ := hWords
  have hLoad : load64 view (wordAt e 2) = ofWords lo hi := by
    rw [load64, ← wordAt_wordAt e 1 1, hLo, hHi]
  have hDecode : decode (view (wordAt e 1)) = some (.b 3#26) := by
    rw [hSkip]
    decide
  refine (reaches_ldrX17 hLdr hLoad hC).trans (reaches_b (hC 1 (by omega)) hDecode ?_)
  rw [show branchOffset 3#26 = BitVec.ofNat 64 (4 * 3) by decide]
  exact wordAt_wordAt e 1 3

variable (other) in
theorem reaches_alignPad {e' : Addr} (hWords : CodeAt view e (alignPad e'))
    (hC : ∀ i < (alignPad e').length, C (wordAt e i)) :
    Reaches other 17#5 C view ⟨e, v⟩ ⟨wordAt e (alignPad e').length, v⟩ := by
  unfold alignPad at hWords hC ⊢
  split at hWords
  · rename_i hAligned
    rw [if_pos hAligned, List.length_nil, wordAt_zero]
    exact Reaches.refl _
  · rename_i hAligned
    rw [if_neg hAligned] at hC ⊢
    exact reaches_nop (wordAt_zero e ▸ hC 0 (by simp)) (codeAt_cons.mp hWords).1

variable (other) in
theorem reaches_copiedJump (hWords : CodeAt view e (copiedJump e (loWord t) (hiWord t)))
    (hC : ∀ i < (copiedJump e (loWord t) (hiWord t)).length, C (wordAt e i)) :
    Reaches other 17#5 C view ⟨e, v⟩ ⟨t, some t⟩ := by
  unfold copiedJump at hWords hC
  rw [List.length_append, List.length_append] at hC
  obtain ⟨hLoad, hBr⟩ := codeAt_append.mp hWords
  obtain ⟨hPad, hLiteral⟩ := codeAt_append.mp hLoad
  rw [List.length_append, ← wordAt_wordAt] at hBr
  have hFirst := reaches_alignPad other (v := v) hPad fun i hi => hC i (by omega)
  have hSecond := reaches_copiedLiteral other (v := v) hLiteral fun i hi => by
    rw [wordAt_wordAt]
    exact hC _ (by simp; omega)
  rw [ofWords_lo_hi] at hSecond
  have hBrWord : view (wordAt (wordAt e (alignPad e).length) 4) = brX17 := (codeAt_cons.mp hBr).1
  have hThird : Reaches other 17#5 C view ⟨wordAt (wordAt e (alignPad e).length) 4, some t⟩
      ⟨t, some t⟩ :=
    reaches_br (by decide) (by rw [wordAt_wordAt]; exact hC _ (by simp))
      (by rw [hBrWord]; exact decode_brX17)
  exact hFirst.trans (hSecond.trans hThird)

end

end Wondar.Hook
