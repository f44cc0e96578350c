import Wondar.Hook.LoadLit

/-!
# Relocating address instructions

Once `absolute_addr` is known, an ADR becomes one ADR with another distance when the output is near,
and otherwise a literal load of the address; an ADRP always becomes the load, unless the address
lies in the window, when it is copied as it is.

The near form shifts the distance by three bits, over the two fields of the immediate. But there
are only the upper one, and below it the register: the low two bits of the address end up in Rd
(`decode_nearAdr`). The copied ADRP refers to the page of the output. `fixPcreladdr_faithful_iff`
says when all is well nevertheless.
-/

namespace Wondar.Hook

open A64 Coherence

variable {mmu : Mmu} {slot : Slot} {s t : Reloc} {w : Word} {a e : Addr} {rd : Reg}

/-! ## The words -/

/-- `LDR Xd, #0x8; B #0xc` and the address. -/
def addressWords (w : Word) (a : Addr) : List Word :=
  [0x58000000#32 ||| (0x40#32 &&& ~~~0x9f000000#32) ||| (w &&& 0x1f#32), 0x14000003#32, loWord a,
    hiWord a]

/-- The ADR with another distance. -/
def nearAdr (w : Word) (q : BitVec 64) : Word :=
  ((q <<< 3).setWidth 32 &&& 0x00ffffff#32) ||| (w &&& 0xff00001f#32)

theorem decode_addressLoad (w : Word) :
    decode (0x58000000#32 ||| (0x40#32 &&& ~~~0x9f000000#32) ||| (w &&& 0x1f#32)) =
      some (.ldrLiteral .x 2#19 (w.setWidth 5)) := by
  have hField : (0x1f#32 : Word).extractLsb' 5 19 = 0#19 := by decide
  rw [decode_ldrLiteral (or_and_masked _ _ _ _ (by decide)), BitVec.extractLsb'_or (y := w &&& _),
    BitVec.extractLsb'_and (x := w), hField, BitVec.and_zero, BitVec.or_zero,
    setWidth_or_masked _ _ _ (by decide) (by decide)]
  rfl

/-- The bits of the distance and those of the old word. -/
theorem getLsbD_nearAdr (w : Word) (q : BitVec 64) {j : Nat} (hj : j < 32) :
    (nearAdr w q).getLsbD j = (decide (3 ≤ j ∧ j < 24) && q.getLsbD (j - 3) ||
      w.getLsbD j && decide (j < 5 ∨ 24 ≤ j)) := by
  have hMask : ∀ j < 32, (0x00ffffff#32 : Word).getLsbD j = decide (j < 24) := by decide
  have hKeep : ∀ j < 32, (0xff00001f#32 : Word).getLsbD j = decide (j < 5 ∨ 24 ≤ j) := by decide
  have hWide : j < 64 := by omega
  rw [nearAdr, BitVec.getLsbD_or, BitVec.getLsbD_and, BitVec.getLsbD_and, hMask j hj, hKeep j hj,
    BitVec.getLsbD_setWidth, BitVec.getLsbD_shiftLeft, Bool.decide_and]
  by_cases hLow : j < 3
  · have hNot : ¬ 3 ≤ j := by omega
    simp [hLow, hNot]
  · have hGe : 3 ≤ j := by omega
    simp [hj, hWide, hLow, hGe, Bool.and_comm]

theorem mask_nearAdr (h : w &&& 0x9f000000#32 = 0x10000000#32) (q : BitVec 64) :
    nearAdr w q &&& 0x9f000000#32 = 0x10000000#32 := by
  rw [← h]
  exact and_kept _ _ (by decide) (by decide)

theorem setWidth_nearAdr (w : Word) (q : BitVec 64) :
    (nearAdr w q).setWidth 5 = w.setWidth 5 ||| (q.setWidth 5 <<< 3) := by
  have hMask : (0x00ffffff#32 : Word).setWidth 5 = BitVec.allOnes 5 := by decide
  have hKeep : (0xff00001f#32 : Word).setWidth 5 = BitVec.allOnes 5 := by decide
  have hShift : ((q <<< 3).setWidth 32).setWidth 5 = q.setWidth 5 <<< 3 := by
    ext i hi
    simp
  rw [nearAdr, BitVec.setWidth_or, BitVec.setWidth_and, BitVec.setWidth_and, hMask, hKeep, hShift,
    BitVec.and_allOnes, BitVec.and_allOnes, BitVec.or_comm]

/-- The low bits of the immediate stay. -/
theorem getElem_adrImm_nearAdr (w : Word) (q : BitVec 64) {i : Nat} (hi : i < 21) :
    (adrImm (nearAdr w q))[i] = if i < 2 then w.getLsbD (29 + i) else q.getLsbD i := by
  rw [getElem_adrImm _ _ hi]
  by_cases hBit : i < 2
  · have hTop : 24 ≤ 29 + i := by omega
    have hHigh : ¬ 29 + i < 24 := by omega
    simp [hBit, getLsbD_nearAdr w q (show 29 + i < 32 by omega), hTop, hHigh]
  · have hBack : 5 + (i - 2) - 3 = i := by omega
    have hIn : 3 ≤ 5 + (i - 2) ∧ 5 + (i - 2) < 24 := by omega
    have hOut : ¬ (5 + (i - 2) < 5 ∨ 24 ≤ 5 + (i - 2)) := by omega
    rw [if_neg hBit, if_neg hBit, getLsbD_nearAdr w q (by omega), decide_eq_true hIn,
      decide_eq_false hOut, hBack, Bool.true_and, Bool.and_false, Bool.or_false]

/-- The near form has the distance that it should have, and its low two bits in the register. -/
theorem decode_nearAdr (h : w &&& 0x9f000000#32 = 0x10000000#32) {q : BitVec 64}
    (hLow : q.setWidth 2 = w.extractLsb' 29 2) :
    decodePcRel (nearAdr w q) =
      some (.adr (w.setWidth 5 ||| (q.setWidth 5 <<< 3)) (q.setWidth 21)) := by
  have hImm : adrImm (nearAdr w q) = q.setWidth 21 := by
    ext i hi
    rw [getElem_adrImm_nearAdr w q hi, BitVec.getElem_setWidth]
    split
    · rename_i hBit
      have hSame := congrArg (fun x => BitVec.getLsbD x i) hLow
      simp only [BitVec.getLsbD_setWidth, BitVec.getLsbD_extractLsb', hBit, decide_true,
        Bool.true_and] at hSame
      exact hSame.symm
    · rfl
  rw [decodePcRel_adr (mask_nearAdr h q), setWidth_nearAdr, hImm]

/-! ## Emission -/

/-- What an ADR to `a` becomes at `e`. -/
def adrWords (w : Word) (e a : Addr) : List Word :=
  if 0xfffff ≤ llabs (a - e) then alignPad e ++ addressWords w a else [nearAdr w (a - e)]

theorem length_addressWords (w : Word) (e a : Addr) : (alignPad e ++ addressWords w a).length ≤ 5 := by
  have hPad := length_alignPad e
  simp only [List.length_append, addressWords, List.length_cons, List.length_nil]
  omega

theorem Appends.address (h : Appends mmu s t e []) (w : Word) (a : Addr) :
    Appends mmu s (putAddress mmu t s.currentIdx w a)
      (if aligned8 (wordAt s.outrx 2) then e else wordAt s.outrx 1)
      (Hook.alignPad s.outrx ++ addressWords w a) :=
  h.alignPad.block ((((Writes.refl mmu _).put _).put _).put64 a)

/-- Where an ADR to `a` is noted, when it is relocated to `e`. -/
def adrPlace (e a : Addr) : Addr :=
  if 0xfffff ≤ llabs (a - e) then (if aligned8 (wordAt e 2) then e else wordAt e 1) else e

theorem adrFrom_appends (mmu : Mmu) (hOutside : s.ctx.isInFixingRange a = false) :
    Appends mmu s (adrFrom mmu s a) (adrPlace s.outrx a) (adrWords (s.ins mmu) s.outrx a) := by
  have hStart := Appends.start mmu s s.outrx
  unfold adrFrom adrWords adrPlace
  simp only [setCurrentIndex_range, setCurrentIndex_outrx, hOutside, Bool.not_false, Bool.true_and]
  change Appends mmu s (if decide (0xfffff ≤ llabs (a - s.outrx)) = true then _ else _) _ _
  by_cases hFar : 0xfffff ≤ llabs (a - s.outrx)
  · rw [if_pos (decide_eq_true hFar), if_pos hFar, if_pos hFar]
    exact hStart.address _ _
  · rw [if_neg fun hDecide => hFar (of_decide_eq_true hDecide), if_neg hFar, if_neg hFar]
    exact hStart.put _

/-- An ADRP is noted where the output is written, unless there is padding. -/
def adrpPlace (s : Reloc) (a : Addr) : Addr :=
  if s.ctx.isInFixingRange a then s.outrw
  else if aligned8 (wordAt s.outrx 2) then s.outrw else wordAt s.outrx 1

theorem adrpFrom_appends (mmu : Mmu) (s : Reloc) (a : Addr) :
    Appends mmu s (adrpFrom mmu s a) (adrpPlace s a) (if s.ctx.isInFixingRange a then [s.ins mmu]
      else alignPad s.outrx ++ addressWords (s.ins mmu) a) := by
  have hStart := Appends.start mmu s s.outrw
  unfold adrpFrom adrpPlace
  change Appends mmu s (if s.ctx.isInFixingRange a = true then _ else _) _ _
  by_cases hSpecial : s.ctx.isInFixingRange a = true
  · rw [if_pos hSpecial, if_pos hSpecial, if_pos hSpecial]
    exact hStart.put _
  · rw [if_neg hSpecial, if_neg hSpecial, if_neg hSpecial]
    exact hStart.address _ _

/-! ## Execution -/

section

variable {other : Word → State → State} {σ τ : State} {v : BitVec 64} {after : Addr}

/-- The register holds `v`, and execution goes on at `after`. -/
def setAt (rd : Reg) (v : BitVec 64) (after : Addr) (σ : State) : State :=
  { σ.setGpr rd v with pc := after }

@[simp] theorem setAt_pc (rd : Reg) (v : BitVec 64) (after p : Addr) (σ : State) :
    setAt rd v after { σ with pc := p } = setAt rd v after σ := by
  unfold setAt State.setGpr
  split <;> rfl

@[simp] theorem setAt_mem (rd : Reg) (v : BitVec 64) (after : Addr) (σ : State) :
    (setAt rd v after σ).mem = σ.mem := by
  unfold setAt State.setGpr
  split <;> rfl

theorem setGpr_next (rd : Reg) (v : BitVec 64) (σ : State) :
    (σ.setGpr rd v).next = setAt rd v (σ.pc + 4#64) σ := by
  unfold State.setGpr setAt State.setGpr
  split <;> rfl

theorem decode_overAddress : decode 0x14000003#32 = some (.b 3#26) := by decide

/-- The load of an address that is behind it. -/
theorem exits_addressWords (hAt : σ.AtWord e 0)
    (hCode : CodeAt σ.mem e (alignPad e ++ addressWords w a)) :
    Exits other e (alignPad e ++ addressWords w a).length σ
      (setAt (w.setWidth 5) a (wordAt e (alignPad e ++ addressWords w a).length) σ) := by
  have hLength := length_addressWords w e a
  have hSize : trampolineSize = 50 := rfl
  have hCount : (alignPad e ++ addressWords w a).length = (alignPad e).length + 4 :=
    List.length_append
  obtain ⟨hPad, hWords⟩ := codeAt_append.mp hCode
  rw [hCount] at hLength ⊢
  simp only [addressWords, codeAt_cons, wordAt_wordAt] at hWords
  obtain ⟨hLoad, hOver, hLo, hHi, -⟩ := hWords
  refine exits_nops (alignPad_nops e) hAt (by rwa [wordAt_zero]) (by omega) (by omega) ?_
  rw [Nat.zero_add]
  generalize (alignPad e).length = p at *
  have hTarget : wordAt e p + branchOffset 2#19 = wordAt e (p + 2) := by
    rw [← wordAt_wordAt]
    rfl
  have hFirst : step other { σ with pc := wordAt e p } =
      setAt (w.setWidth 5) a (wordAt e (p + 1)) σ := by
    rw [step_core other (s := { σ with pc := wordAt e p }) hLoad (decode_addressLoad w), Instr.exec,
      hTarget, loadLiteral, load64, wordAt_wordAt, hLo, hHi, ofWords_lo_hi, setGpr_next, setAt_pc,
      ← wordAt_one, wordAt_wordAt]
  have hSecond : step other (setAt (w.setWidth 5) a (wordAt e (p + 1)) σ) =
      setAt (w.setWidth 5) a (wordAt e (p + 4)) σ := by
    rw [step_core other (s := setAt (w.setWidth 5) a (wordAt e (p + 1)) σ)
      (by rw [setAt_mem]; exact hOver) decode_overAddress, Instr.exec, ← wordAt_wordAt e (p + 1) 3]
    rfl
  exact .fall hFirst rfl rfl (by omega) (by omega) (.end hSecond rfl (by omega))

/-- One word that sets a register. -/
theorem exits_adrWord {i : PcRel} (hDecode : decodePcRel w = some i) (hWord : σ.mem e = w)
    (hExec : i.exec σ = setAt rd v (σ.pc + 4#64) σ) (hAt : σ.AtWord e 0) :
    Exits (withPcRel other) e 1 σ (setAt rd v (wordAt e 1) σ) := by
  have hPc : σ.pc = e := hAt.trans (wordAt_zero e)
  have hStep := step_pcRel other (s := σ) (by rw [hPc]; exact hWord) hDecode
  rw [hExec, hAt.succ] at hStep
  exact .end hStep rfl (by omega)

/-- Two writes of registers that give the same state whatever it was before. -/
theorem setAt_inj (after : Addr) {r r' : Reg} {v v' : BitVec 64}
    (h : ∀ c, setAt r v after { σ with x := fun _ => c } = setAt r' v' after { σ with x := fun _ => c }) :
    (r = 31#5 ∧ r' = 31#5) ∨ (r = r' ∧ v = v') := by
  -- a value that neither write leaves
  obtain ⟨c, hc, hc'⟩ : ∃ c : BitVec 64, c ≠ v ∧ c ≠ v' := by
    by_cases hNext : v + 1#64 = v'
    · exact ⟨v + 2#64, by bv_omega, by bv_omega⟩
    · exact ⟨v + 1#64, by bv_omega, hNext⟩
  have hSame := congrArg State.x (h c)
  unfold setAt State.setGpr at hSame
  split at hSame
  · rename_i hr
    split at hSame
    · exact .inl ⟨hr, ‹_›⟩
    · have hAt := congrFun hSame r'
      simp at hAt
      exact absurd hAt hc'
  · have hAt := congrFun hSame r
    split at hSame
    · rename_i hr hr'
      rw [if_pos hr'] at hAt
      simp at hAt
      exact absurd hAt.symm hc
    · rename_i hr hr'
      rw [if_neg hr'] at hAt
      simp only [Function.update_self] at hAt
      by_cases hReg : r = r'
      · subst hReg
        rw [Function.update_self] at hAt
        exact .inr ⟨rfl, hAt⟩
      · rw [Function.update_of_ne hReg] at hAt
        exact absurd hAt.symm hc

end

/-! ## The low bits -/

/-- The address has those of the immediate, since the instruction was aligned. -/
theorem adrAddress_low (he : Aligned e) (w : Word) :
    (adrAddress e w).setWidth 2 = w.extractLsb' 29 2 := by
  have hImm : (byteImmediate w).setWidth 2 = w.extractLsb' 29 2 := by
    rw [byteImmediate_eq]
    ext i hi
    have hIn : i < 21 := by omega
    have hWord : i < 32 := by omega
    simp [BitVec.getElem_signExtend, hi, hIn, hWord, getElem_adrImm w i hIn]
  rw [← hImm]
  apply BitVec.eq_of_toNat_eq
  unfold Aligned at he
  rw [BitVec.toNat_setWidth, BitVec.toNat_setWidth, adrAddress, BitVec.toNat_add, BitVec.toNat_setWidth]
  omega

/-- So has its distance from the output. -/
theorem setWidth_sub_aligned (he : Aligned e) (a : Addr) : (a - e).setWidth 2 = a.setWidth 2 := by
  apply BitVec.eq_of_toNat_eq
  unfold Aligned at he
  rw [BitVec.toNat_setWidth, BitVec.toNat_setWidth]
  bv_omega

theorem low_shifted {q q' : BitVec 64} (h : q.setWidth 2 = q'.setWidth 2) :
    q.setWidth 5 <<< 3 = q'.setWidth 5 <<< 3 := by
  ext i hi
  by_cases hLow : i < 3
  · simp [hLow]
  · have hBit := congrArg (fun x => BitVec.getLsbD x (i - 3)) h
    have hIn : i - 3 < 2 := by omega
    have hField : i - 3 < 5 := by omega
    simp only [BitVec.getLsbD_setWidth, hIn, decide_true, Bool.true_and] at hBit
    simp [hLow, hBit]

/-! ## The instruction -/

/-- Executing what the instruction has become sets `rd` to `v`, and nothing else. -/
def SetsRegister (mmu : Mmu) (s s' : Reloc) (rd : Reg) (v : BitVec 64) : Prop :=
  Faithful mmu s s' (fun _ => True) fun σ τ => τ = setAt rd v s'.outrx σ

theorem SetsRegister.unique {s' : Reloc} {r r' : Reg} {v v' : BitVec 64}
    (h : SetsRegister mmu s s' r v) (h' : SetsRegister mmu s s' r' v') :
    (r = 31#5 ∧ r' = 31#5) ∨ (r = r' ∧ v = v') := by
  refine setAt_inj s'.outrx
    (σ := ⟨s.outrx, fun _ => 0#64, 0#64, 0#4, fun _ => 0#128, s'.mach.view mmu⟩) fun c => ?_
  obtain ⟨τ, hExits, hτ⟩ := h (fun _ ρ => ρ)
    ⟨s.outrx, fun _ => c, 0#64, 0#4, fun _ => 0#128, s'.mach.view mmu⟩ rfl (fun _ _ => rfl) trivial
  obtain ⟨τ', hExits', hτ'⟩ := h' (fun _ ρ => ρ)
    ⟨s.outrx, fun _ => c, 0#64, 0#4, fun _ => 0#128, s'.mach.view mmu⟩ rfl (fun _ _ => rfl) trivial
  have hSame := hExits.unique hExits'
  rwa [hτ, hτ'] at hSame

/-- What is known to set one register does not set another. -/
theorem setsRegister_iff {s' : Reloc} {o : Outcome} {r : Reg} {v : BitVec 64} (hFix : o = .fixed s')
    (hSets : SetsRegister mmu s s' r v) (rd : Reg) (a : BitVec 64) :
    (∃ t, o = .fixed t ∧ SetsRegister mmu s t rd a) ↔
      (r = 31#5 ∧ rd = 31#5) ∨ (r = rd ∧ v = a) := by
  constructor
  · rintro ⟨t, hFix', hKept⟩
    rw [hFix] at hFix'
    cases hFix'
    exact hSets.unique hKept
  · rintro (⟨rfl, rfl⟩ | ⟨rfl, rfl⟩)
    · exact ⟨s', hFix, hSets⟩
    · exact ⟨s', hFix, hSets⟩

/-- The register that an ADR to `a` sets from `e`. -/
def adrTarget (w : Word) (e a : Addr) : Reg :=
  if 0xfffff ≤ llabs (a - e) then w.setWidth 5 else w.setWidth 5 ||| (a.setWidth 5 <<< 3)

section

variable {inprw f : Addr} {count n : Nat} {m : Machine}

theorem fixPcreladdr_adr_sets (h : Midway mmu slot inprw f count n m s)
    (hOp : s.ins mmu &&& 0x9f000000#32 = 0x10000000#32)
    (ha : adrAddress s.inprx (s.ins mmu) = a) (hOutside : ¬ InWindow f count a) :
    ∃ s', fixPcreladdr mmu s = .fixed s' ∧
      SetsRegister mmu s s' (adrTarget (s.ins mmu) s.outrx a) a := by
  have hAppends := adrFrom_appends mmu (h.outside hOutside)
  have hSize : trampolineSize = 50 := rfl
  rw [fixPcreladdr_adr hOp, ha]
  refine ⟨_, rfl, ?_⟩
  unfold adrWords at hAppends
  unfold adrTarget
  by_cases hFar : 0xfffff ≤ llabs (a - s.outrx)
  · rw [if_pos hFar] at hAppends ⊢
    have hLength := length_addressWords (s.ins mmu) s.outrx a
    have hBecame := hAppends.process_consume (h.room (by omega)) s.currentIdx
    refine hBecame.faithful (by omega) fun other σ hAt hCode _ => ⟨_, ?_, rfl⟩
    rw [hBecame.outrx]
    exact exits_addressWords hAt hCode
  · rw [if_neg hFar] at hAppends ⊢
    have hBecame := hAppends.process_consume (h.room (by simp)) s.currentIdx
    have hLow : (a - s.outrx).setWidth 2 = (s.ins mmu).extractLsb' 29 2 := by
      rw [setWidth_sub_aligned h.output_aligned, ← ha, adrAddress_low h.source_aligned]
    have hShift := low_shifted (setWidth_sub_aligned h.output_aligned a)
    have hDecode := decode_nearAdr hOp hLow
    rw [hShift] at hDecode
    refine hBecame.faithful (by simp; omega) fun other σ hAt hCode _ => ⟨_, ?_, rfl⟩
    rw [hBecame.outrx]
    refine exits_adrWord hDecode (codeAt_cons.mp hCode).1 ?_ hAt
    have hPc : σ.pc = s.outrx := hAt.trans (wordAt_zero _)
    have hReach : s.outrx + ((a - s.outrx).setWidth 21).signExtend 64 = a := by
      unfold llabs at hFar
      rw [signExtend_setWidth (n := 20) (by omega) _ (by omega) (by omega)]
      grind
    rw [PcRel.exec, hPc, hReach, setGpr_next, hPc]

/-- What a copied ADRP sets its register to, or the address that was computed. -/
def adrpValue (s : Reloc) (imm : BitVec 21) (a : Addr) : Addr :=
  if s.ctx.isInFixingRange a then adrpPage s.outrx + imm.signExtend 64 <<< 12 else a

theorem fixPcreladdr_adrp_sets (h : Midway mmu slot inprw f count n m s)
    (hOp : s.ins mmu &&& 0x9f000000#32 = 0x90000000#32)
    (ha : adrpAddress s.inprx (s.ins mmu) = a) :
    ∃ s', fixPcreladdr mmu s = .fixed s' ∧
      SetsRegister mmu s s' ((s.ins mmu).setWidth 5) (adrpValue s (adrImm (s.ins mmu)) a) := by
  have hAppends := adrpFrom_appends mmu s a
  have hSize : trampolineSize = 50 := rfl
  rw [fixPcreladdr_adrp hOp, ha]
  refine ⟨_, rfl, ?_⟩
  unfold adrpValue
  by_cases hSpecial : s.ctx.isInFixingRange a = true
  · rw [if_pos hSpecial] at hAppends ⊢
    have hBecame := hAppends.process_consume (h.room (by simp)) s.currentIdx
    refine hBecame.faithful (by simp; omega) fun other σ hAt hCode _ => ⟨_, ?_, rfl⟩
    have hPc : σ.pc = s.outrx := hAt.trans (wordAt_zero _)
    rw [hBecame.outrx]
    refine exits_adrWord (decodePcRel_adrp hOp) (codeAt_cons.mp hCode).1 ?_ hAt
    rw [PcRel.exec, setGpr_next, hPc]
  · rw [if_neg hSpecial] at hAppends ⊢
    have hLength := length_addressWords (s.ins mmu) s.outrx a
    have hBecame := hAppends.process_consume (h.room (by omega)) s.currentIdx
    refine hBecame.faithful (by omega) fun other σ hAt hCode _ => ⟨_, ?_, rfl⟩
    rw [hBecame.outrx]
    exact exits_addressWords hAt hCode

/-- **Relocating an address instruction.** Of the ADRs out of the window those become words that set
their register to the address, and nothing else, that are far from the output, or whose register
has the bits that the low bits of the address are put into. Of the ADRPs it is those whose address
is not taken for one of the window, or that have no register, or have the address in the page of
the output too. -/
theorem fixPcreladdr_faithful_iff (h : Midway mmu slot inprw f count n m s) :
    (∀ rd imm, decodePcRel (s.ins mmu) = some (.adr rd imm) →
      ∀ a, adrAddress s.inprx (s.ins mmu) = a → ¬ InWindow f count a →
      ((∃ s', fixPcreladdr mmu s = .fixed s' ∧ SetsRegister mmu s s' rd a) ↔
        0xfffff ≤ llabs (a - s.outrx) ∨ rd ||| (a.setWidth 5 <<< 3) = rd)) ∧
    (∀ rd imm, decodePcRel (s.ins mmu) = some (.adrp rd imm) →
      ∀ a, adrpAddress s.inprx (s.ins mmu) = a →
      ((∃ s', fixPcreladdr mmu s = .fixed s' ∧ SetsRegister mmu s s' rd a) ↔
        s.ctx.isInFixingRange a = false ∨ rd = 31#5 ∨
          adrpPage s.outrx + imm.signExtend 64 <<< 12 = a)) := by
  refine ⟨fun rd imm hDecode a ha hOutside => ?_, fun rd imm hDecode a ha => ?_⟩
  · obtain ⟨hOp, rfl, -⟩ := mask_of_decode_adr false hDecode
    obtain ⟨s', hFix, hSets⟩ := fixPcreladdr_adr_sets h hOp ha hOutside
    rw [setsRegister_iff hFix hSets]
    unfold adrTarget
    by_cases hFar : 0xfffff ≤ llabs (a - s.outrx)
    · simp [hFar]
    · rw [if_neg hFar, or_iff_right hFar]
      constructor
      · rintro (⟨hZero, hZero'⟩ | ⟨hSame, -⟩)
        · rw [hZero, hZero']
        · exact hSame
      · intro hSame
        exact .inr ⟨hSame, rfl⟩
  · obtain ⟨hOp, rfl, rfl⟩ := mask_of_decode_adr true hDecode
    obtain ⟨s', hFix, hSets⟩ := fixPcreladdr_adrp_sets h hOp ha
    rw [setsRegister_iff hFix hSets, and_self, eq_self, true_and]
    unfold adrpValue
    by_cases hInside : s.ctx.isInFixingRange a = true
    · simp [hInside]
    · rw [Bool.not_eq_true] at hInside
      simp [hInside]

end

/-- `ADRP X0, #0x1000`. -/
theorem fixPcreladdr_faithful_iff_page :
    let s := startReloc 0x1000#64 0x1000#64 1 0x4000#64 0x4000#64 ⟨fun _ => 0xb0000000#32, []⟩
    ∃ s', fixPcreladdr flat s = .fixed s' ∧ SetsRegister flat s s' 0#5 0x2000#64 :=
  ((fixPcreladdr_faithful_iff (midway_flat (by decide) (by decide) (by decide) (by decide) _)).2
    0#5 1#21 (by decide) 0x2000#64 (by decide)).mpr (.inl (by decide))

/-- `ADR X0, #0x1001` sets X8. -/
theorem fixPcreladdr_unaligned :
    let s := startReloc 0x1000#64 0x1000#64 1 0x4000#64 0x4000#64 ⟨fun _ => 0x30008000#32, []⟩
    decodePcRel (s.ins flat) = some (.adr 0#5 0x1001#21) ∧
      adrAddress s.inprx (s.ins flat) = 0x2001#64 ∧ ¬ InWindow 0x1000#64 1 0x2001#64 ∧
      ¬ ∃ s', fixPcreladdr flat s = .fixed s' ∧ SetsRegister flat s s' 0#5 0x2001#64 := by
  intro s
  have hMidway : Midway flat ⟨0x4000#64, 0x4000#64⟩ 0x1000#64 0x1000#64 1 0
      ⟨fun _ => 0x30008000#32, []⟩ s :=
    midway_flat (by decide) (by decide) (by decide) (by decide) _
  have hAddress : adrAddress s.inprx (s.ins flat) = 0x2001#64 := by decide
  have hOutside : ¬ InWindow 0x1000#64 1 0x2001#64 := by decide
  refine ⟨by decide, hAddress, hOutside, ?_⟩
  obtain ⟨s', hFix, hSets⟩ := fixPcreladdr_adr_sets hMidway (by decide) hAddress hOutside
  rw [setsRegister_iff hFix hSets]
  decide

end Wondar.Hook
