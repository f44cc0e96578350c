import Wondar.Backpatch
import Wondar.Hook.Pcreladdr

/-!
# One turn of a relocation

Whatever the word is, one turn of the loop appends a few words, notes a place for the instruction,
closes the references to it, and may leave one reference open, to a later instruction of the window
(`Relocates`, `Turned`). This makes a turn one of a pass that backpatches: the words are physical
words, a reference is a fix of the word that it lies in, and the labels are the instructions
(`Turned.turn`).

The turn ends unless the literal that it copies cannot be read (`fixInstruction_turned`).
-/

namespace Wondar.Hook

open A64 Coherence

variable {mmu : Mmu} {s t u : Reloc} {e : Addr} {ws : List Word} {r : Option (Nat × FixInfo)}
  {idx : Nat}

/-! ## References that are left open -/

/-- `insert_fix_map`, when there is a reference to be noted. -/
def Reloc.note (u : Reloc) : Option (Nat × FixInfo) → Reloc
  | none => u
  | some (idx, g) => { u with ctx := u.ctx.insertFixMap idx g }

/-- What is left open to the instruction `idx`. -/
def opened : Option (Nat × FixInfo) → Nat → List FixInfo
  | none, _ => []
  | some (j, g), idx => if idx = j then [g] else []

theorem mem_opened {g : FixInfo} (h : g ∈ opened r idx) : r = some (idx, g) := by
  rcases r with _ | ⟨j, g'⟩
  · cases h
  · change g ∈ if idx = j then [g'] else [] at h
    split at h
    · rename_i hIdx
      rw [List.mem_singleton.mp h, hIdx]
    · cases h

theorem length_opened_le (r : Option (Nat × FixInfo)) (idx : Nat) : (opened r idx).length ≤ 1 := by
  rcases r with _ | ⟨j, g⟩
  · exact Nat.zero_le _
  · change (if idx = j then [g] else []).length ≤ 1
    split
    · exact Nat.le_refl 1
    · exact Nat.zero_le 1

@[simp] theorem note_mach (u : Reloc) (r : Option (Nat × FixInfo)) : (u.note r).mach = u.mach := by
  cases r <;> rfl

@[simp] theorem note_outrw (u : Reloc) (r : Option (Nat × FixInfo)) : (u.note r).outrw = u.outrw := by
  cases r <;> rfl

@[simp] theorem note_outrx (u : Reloc) (r : Option (Nat × FixInfo)) : (u.note r).outrx = u.outrx := by
  cases r <;> rfl

/-- A list that has place gets the reference. -/
theorem note_dat (h : ∀ j g, r = some (j, g) → (u.ctx.dat j).fmap.length < maxReferences) (idx : Nat) :
    (u.note r).ctx.dat idx =
      { u.ctx.dat idx with fmap := (u.ctx.dat idx).fmap ++ opened r idx } := by
  rcases r with _ | ⟨j, g⟩
  · simp [Reloc.note, opened]
  · simp only [Reloc.note, Context.insertFixMap, opened, if_pos (h j g rfl), Context.setDat]
    by_cases hIdx : idx = j
    · rw [hIdx, Function.update_self, if_pos rfl]
    · rw [Function.update_of_ne hIdx, if_neg hIdx, List.append_nil]

/-! ## Fixes -/

/-- References as fixes of physical words. -/
def scheme (mmu : Mmu) : Backpatch.Scheme (BitVec 64) Word FixInfo Addr where
  loc g := mmu.tr g.bprw
  patch g place w := w ||| ((((place - g.bprx).setWidth 32).sshiftRight 2 <<< g.ls) &&& g.ad)

/-- The words of a relocation, and its references. -/
def Reloc.pass (s : Reloc) : Backpatch.Pass (BitVec 64) Word FixInfo where
  mem := s.mach.phys
  fixes idx := (s.ctx.dat idx).fmap

/-- The word of a reference is read where it is written. -/
def FixInfo.InPlace (mmu : Mmu) (g : FixInfo) : Prop := mmu.tr g.bprx = mmu.tr g.bprw

theorem processRefs_phys {fs : List FixInfo} (h : ∀ g ∈ fs, g.InPlace mmu) (place : Addr)
    (m : Machine) (p : BitVec 64) :
    (processRefs mmu place fs m).phys p = (scheme mmu).applied place p fs (m.phys p) := by
  induction fs generalizing m with
  | nil => rfl
  | cons g fs ih =>
    have hRead : m.read mmu g.bprx = m.phys (mmu.tr g.bprw) := by
      rw [Mach.read, h g (by simp)]
    have hStore : (m.store mmu g.bprw [g.value mmu m place]).phys p =
        if mmu.tr g.bprw = p then (scheme mmu).patch g place (m.phys p) else m.phys p := by
      change Function.update m.phys (mmu.tr g.bprw) _ p = _
      by_cases hp : mmu.tr g.bprw = p
      · rw [if_pos hp, ← hp, Function.update_self, FixInfo.value, hRead]
        rfl
      · rw [if_neg hp, Function.update_of_ne (Ne.symm hp)]
    rw [processRefs, ih (fun g' hg => h g' (by simp [hg])), hStore]
    rfl

theorem processRefs_stores (place : Addr) (fs : List FixInfo) (m : Machine) :
    StoresTo (fun p => ∃ g ∈ fs, p = g.bprw) m.log (processRefs mmu place fs m).log := by
  induction fs generalizing m with
  | nil => exact StoresTo.refl ..
  | cons g fs ih =>
    have hFirst : StoresTo (fun p => ∃ g' ∈ g :: fs, p = g'.bprw) m.log
        (m.store mmu g.bprw [g.value mmu m place]).log :=
      (StoresTo.refl ..).store fun i hi => by
        rw [List.length_singleton, Nat.lt_one_iff] at hi
        exact ⟨g, by simp, by rw [hi, wordAt_zero]⟩
    refine hFirst.trans ((ih _).mono fun p hp => ?_)
    obtain ⟨g', hg', rfl⟩ := hp
    exact ⟨g', by simp [hg'], rfl⟩

/-! ## The turn -/

variable (mmu s t r) in
/-- In the turn from `s` to `t` the words `ws` have been appended and `e` has been noted as the place
of the instruction. The references to it are closed, and `r` has been left open. -/
structure Relocates (e : Addr) (ws : List Word) : Prop where
  outrw : t.outrw = wordAt s.outrw ws.length
  outrx : t.outrx = wordAt s.outrx ws.length
  place : (t.ctx.dat s.currentIdx).ins = e
  done : (t.ctx.dat s.currentIdx).fmap = []
  kept : ∀ idx ≠ s.currentIdx,
    t.ctx.dat idx = { s.ctx.dat idx with fmap := (s.ctx.dat idx).fmap ++ opened r idx }
  log : StoresTo (fun p => OneOf s.outrw ws.length p ∨
    ∃ g ∈ (s.ctx.dat s.currentIdx).fmap, p = g.bprw) s.mach.log t.mach.log
  phys : (∀ g ∈ (s.ctx.dat s.currentIdx).fmap, g.InPlace mmu) →
    ∀ p, (∀ i < ws.length, p ≠ mmu.tr (wordAt s.outrw i)) →
      t.mach.phys p =
        (scheme mmu).applied e p (s.ctx.dat s.currentIdx).fmap (s.mach.phys p)
  code : mmu.Unfolded s.outrw ws.length → (∀ g ∈ (s.ctx.dat s.currentIdx).fmap,
    ∀ i < ws.length, mmu.tr g.bprw ≠ mmu.tr (wordAt s.outrw i)) →
    ∀ i (hi : i < ws.length), t.mach.phys (mmu.tr (wordAt s.outrw i)) = ws[i]

/-- Words that have been appended, and then the references. -/
theorem Appends.relocates (h : Appends mmu s u e ws)
    (hr : ∀ j g, r = some (j, g) → j ≠ s.currentIdx ∧ (s.ctx.dat j).fmap.length < maxReferences) :
    Relocates mmu s ((u.note r).consume.processFixMap mmu s.currentIdx) r e ws := by
  have hDat := note_dat (u := u) (r := r) fun j g hSome => by
    rw [h.refs]
    exact (hr j g hSome).2
  have hOpened : opened r s.currentIdx = [] := by
    rcases r with _ | ⟨j, g⟩
    · rfl
    · exact if_neg (hr j g rfl).1.symm
  have hIns : ((u.note r).ctx.dat s.currentIdx).ins = e := by rw [hDat, ← h.noted]
  have hFixes : ((u.note r).ctx.dat s.currentIdx).fmap = (s.ctx.dat s.currentIdx).fmap := by
    rw [hDat, hOpened, List.append_nil, h.fmap]
  have hMach : ((u.note r).consume.processFixMap mmu s.currentIdx).mach =
      processRefs mmu e (s.ctx.dat s.currentIdx).fmap u.mach := by
    change processRefs mmu ((u.note r).ctx.dat s.currentIdx).ins
      ((u.note r).ctx.dat s.currentIdx).fmap (u.note r).mach = _
    rw [hIns, hFixes, note_mach]
  refine ⟨?_, ?_, ?_, ?_, ?_, ?_, ?_, ?_⟩
  · exact (note_outrw u r).trans h.outrw
  · exact (note_outrx u r).trans h.outrx
  · change (Function.update (u.note r).ctx.dat s.currentIdx _ s.currentIdx).ins = e
    rw [Function.update_self]
    exact hIns
  · change (Function.update (u.note r).ctx.dat s.currentIdx _ s.currentIdx).fmap = []
    rw [Function.update_self]
  · intro idx hIdx
    change Function.update (u.note r).ctx.dat s.currentIdx _ idx = _
    rw [Function.update_of_ne hIdx, hDat, h.kept idx hIdx]
  · rw [hMach]
    exact (h.log.mono fun p hp => .inl hp).trans
      ((processRefs_stores ..).mono fun p hp => .inr hp)
  · intro hInPlace p hp
    rw [hMach, processRefs_phys hInPlace, h.phys, storeWords_frame hp]
  · intro hUnfolded hApart i hi
    rw [hMach, processRefs_frame fun g hg => (hApart g hg i hi).symm, h.phys]
    exact storeWords_at hUnfolded hi

/-- A word that is copied is read after the references have been closed. -/
theorem copyInstruction_relocates (mmu : Mmu) (s : Reloc) :
    ∃ w, Relocates mmu s (copyInstruction mmu s) none s.outrx [w] := by
  have hStart := Appends.start mmu s s.outrx
  have hClosed := hStart.relocates (r := none) nofun
  refine ⟨((s.setCurrentIndex s.outrx).processFixMap mmu s.currentIdx).ins mmu, ?_⟩
  refine ⟨rfl, rfl, hClosed.place, hClosed.done, hClosed.kept, ?_, ?_, ?_⟩
  · refine (hClosed.log.mono fun p hp => ?_).trans ((StoresTo.refl ..).store fun i hi => ?_)
    · rcases hp with ⟨i, hi, -⟩ | hRef
      · exact absurd hi (Nat.not_lt_zero i)
      · exact .inr hRef
    · rw [wordAt_wordAt, Nat.zero_add]
      exact .inl ⟨i, hi, rfl⟩
  · intro hInPlace p hp
    rw [← hClosed.phys hInPlace p nofun]
    refine Mach.store_frame fun i hi => ?_
    rw [wordAt_wordAt, Nat.zero_add]
    exact hp i hi
  · intro hUnfolded _ i hi
    have hOut : wordAt s.outrw i = wordAt (wordAt s.outrw 0) i := by rw [wordAt_zero]
    rw [hOut]
    exact storeWords_at (by rw [wordAt_zero]; exact hUnfolded) hi

/-! ## References into the window -/

/-- The field of a word that refers to an instruction, and the word without it. -/
structure Field where
  ls : Nat
  ad : Word
  base : Word

/-- The word with a distance in it. -/
def Field.word (F : Field) (d : BitVec 64) : Word :=
  F.base ||| ((((d.setWidth 32).sshiftRight 2) <<< F.ls) &&& F.ad)

theorem Field.word_zero (F : Field) : F.word 0#64 = F.base := by
  simp [Field.word]

def branchField (link : Bool) : Field := ⟨0, 0x03ffffff#32, branchOpcode link⟩

def condField (lmask w : Word) : Field := ⟨5, ~~~lmask, w &&& lmask⟩

def adrField (w : Word) : Field := ⟨5, 0x00ffffff#32, w &&& 0xff00001f#32⟩

section

variable (mmu : Mmu) (s : Reloc) (refIdx : Nat) (F : Field)

/-- The distance to an instruction that has been relocated, or is being. -/
def knownDistance : BitVec 64 :=
  if refIdx ≤ s.currentIdx then ((s.setCurrentIndex s.outrx).ctx.dat refIdx).ins - s.outrx else 0#64

/-- The reference to one that has not. -/
def openReference : Option (Nat × FixInfo) :=
  if refIdx ≤ s.currentIdx then none else some (refIdx, ⟨s.outrx, s.outrw, F.ls, F.ad⟩)

/-- What a turn does with a word that refers into the window. -/
def refer : Reloc :=
  ((((s.setCurrentIndex s.outrx).put mmu 0 (F.word (knownDistance s refIdx))).advance 1).note
    (openReference s refIdx F)).consume.processFixMap mmu s.currentIdx

end

variable {F : Field} {refIdx : Nat}

theorem refer_relocates (hShort : (s.ctx.dat refIdx).fmap.length < maxReferences) (F : Field) :
    Relocates mmu s (refer mmu s refIdx F) (openReference s refIdx F) s.outrx
      [F.word (knownDistance s refIdx)] := by
  refine ((Appends.start mmu s s.outrx).put _).relocates fun j g hSome => ?_
  unfold openReference at hSome
  split at hSome
  · cases hSome
  · cases hSome
    exact ⟨by omega, hShort⟩

theorem windowReference_eq (s : Reloc) (refIdx shift : Nat) (F : Field) :
    windowReference (s.setCurrentIndex s.outrx) s.currentIdx refIdx shift F.ls F.ad =
      ((knownDistance s refIdx).sshiftRight shift,
        (s.setCurrentIndex s.outrx).note (openReference s refIdx F)) := by
  unfold windowReference knownDistance openReference
  split
  · rfl
  · rw [BitVec.zero_sshiftRight]
    rfl

theorem note_put (u : Reloc) (w : Word) :
    ((u.note r).put mmu 0 w).advance 1 = ((u.put mmu 0 w).advance 1).note r := by
  cases r <;> rfl

/-- The quarter of a distance has the same low bits in a word and in a doubleword. -/
theorem getLsbD_quarter (d : BitVec 64) {i : Nat} (hi : i < 30) :
    ((d.setWidth 32).sshiftRight 2).getLsbD i = (d.sshiftRight 2).getLsbD i := by
  have hIn : 2 + i < 32 := by omega
  have hWide : 2 + i < 64 := by omega
  rw [BitVec.getLsbD_sshiftRight, BitVec.getLsbD_sshiftRight, BitVec.getLsbD_setWidth, if_pos hIn,
    if_pos hWide, decide_eq_true hIn, decide_eq_false (by omega), decide_eq_false (by omega)]
  rfl

theorem branchField_word (link : Bool) (d : BitVec 64) : (branchField link).word d =
    branchOpcode link ||| ((d.sshiftRight 2).setWidth 32 &&& 0x03ffffff#32) := by
  have hMask : ∀ i < 32, ¬ i < 26 → (0x03ffffff#32 : Word).getLsbD i = false := by decide
  change branchOpcode link ||| (((d.setWidth 32).sshiftRight 2 <<< 0) &&& 0x03ffffff#32) = _
  rw [BitVec.shiftLeft_zero]
  congr 1
  ext i hi
  rw [BitVec.getElem_and, BitVec.getElem_and,
    ← BitVec.getLsbD_eq_getElem (x := 0x03ffffff#32)]
  by_cases hLow : i < 26
  · rw [← BitVec.getLsbD_eq_getElem, getLsbD_quarter d (by omega), BitVec.getElem_setWidth]
  · rw [hMask i hi hLow, Bool.and_false, Bool.and_false]

/-- A quarter that is put at bit 5. -/
theorem quarter_shifted (d : BitVec 64) :
    ((d.setWidth 32).sshiftRight 2) <<< 5 = (d.sshiftRight 2 <<< 5).setWidth 32 := by
  ext i hi
  rw [BitVec.getElem_shiftLeft, BitVec.getElem_setWidth, BitVec.getLsbD_shiftLeft]
  by_cases hLow : i < 5
  · simp [hLow]
  · have hWide : i < 64 := by omega
    rw [← BitVec.getLsbD_eq_getElem, getLsbD_quarter d (by omega)]
    simp [hLow, hWide]

theorem condField_word (lmask w : Word) (d : BitVec 64) : (condField lmask w).word d =
    ((d.sshiftRight 2 <<< 5).setWidth 32 &&& ~~~lmask) ||| (w &&& lmask) := by
  rw [BitVec.or_comm, ← quarter_shifted]
  rfl

theorem adrField_word (w : Word) {d : BitVec 64} (hd : d.toNat % 4 = 0) : (adrField w).word d =
    ((d <<< 3).setWidth 32 &&& 0x00ffffff#32) ||| (w &&& 0xff00001f#32) := by
  have hShift : d.sshiftRight 2 <<< 5 = d <<< 3 := by
    rw [show 5 = 2 + 3 by rfl, BitVec.shiftLeft_add, sshiftRight_shiftLeft_two d hd]
  rw [BitVec.or_comm, ← hShift, ← quarter_shifted]
  rfl

variable {a : Addr}

@[simp] theorem setCurrentIndex_ref (outp : Addr) :
    (s.setCurrentIndex outp).ctx.getRefInsIndex a = s.ctx.getRefInsIndex a := rfl

/-- A branch whose target is in the window. -/
theorem fixBranchImm_inside {link : Bool} (hOp : s.ins mmu &&& 0xfc000000#32 = branchOpcode link)
    (ha : s.inprx + branchOffset ((s.ins mmu).setWidth 26) = a)
    (hInside : s.ctx.isInFixingRange a = true) :
    fixBranchImm mmu s = .fixed (refer mmu s (s.ctx.getRefInsIndex a) (branchField link)) := by
  have hKind : branchOpcode link = 0x14000000#32 ∨ branchOpcode link = 0x94000000#32 := by
    cases link <;> decide
  have hReference := windowReference_eq s (s.ctx.getRefInsIndex a) 2 (branchField link)
  have hMask : (~~~0xfc000000#32 : Word) = 0x03ffffff#32 := by decide
  unfold fixBranchImm
  simp only [hOp, if_pos hKind, branchOffset_field, setCurrentIndex_range, setCurrentIndex_inprx,
    setCurrentIndex_outrx, setCurrentIndex_ref, ha, hInside, Bool.not_true, Bool.false_and, if_true]
  change Outcome.fixed _ = _
  rw [refer, branchField_word, ← note_put]
  unfold branchField at hReference
  simp only [hReference, hMask]
  rfl

/-- A conditional branch whose target seems to be in the window. -/
theorem fixCondCompTestBranch_inside {lmask : Word} (hMask : condLmask (s.ins mmu) = some lmask)
    (ha : s.inprx + ((s.ins mmu &&& ~~~lmask) >>> 3).setWidth 64 = a)
    (hInside : s.ctx.isInFixingRange a = true) :
    fixCondCompTestBranch mmu s =
      .fixed (refer mmu s (s.ctx.getRefInsIndex a) (condField lmask (s.ins mmu))) := by
  have hReference := windowReference_eq s (s.ctx.getRefInsIndex a) 2 (condField lmask (s.ins mmu))
  unfold fixCondCompTestBranch
  simp only [hMask, setCurrentIndex_range, setCurrentIndex_inprx, setCurrentIndex_outrx,
    setCurrentIndex_ref, ha, hInside, Bool.not_true, Bool.false_and, if_true]
  rw [refer, condField_word, ← note_put]
  unfold condField at hReference
  simp only [hReference]
  rfl

/-- An ADR of an address in the window. -/
theorem adrFrom_inside (hInside : s.ctx.isInFixingRange a = true) (hDistance :
      (knownDistance s (s.ctx.getRefInsIndex (a &&& ~~~3#64))).toNat % 4 = 0) :
    closeAddress mmu s (adrFrom mmu s a) =
      .fixed (refer mmu s (s.ctx.getRefInsIndex (a &&& ~~~3#64)) (adrField (s.ins mmu))) := by
  have hReference := windowReference_eq s (s.ctx.getRefInsIndex (a &&& ~~~3#64)) 0
    (adrField (s.ins mmu))
  unfold closeAddress adrFrom
  simp only [setCurrentIndex_range, setCurrentIndex_outrx, setCurrentIndex_ref, hInside, Bool.not_true,
    Bool.false_and, if_true]
  rw [refer, adrField_word _ hDistance, ← note_put]
  unfold adrField at hReference
  simp only [hReference, BitVec.sshiftRight_zero]
  rfl

/-! ## The classes of words -/

variable {w lmask : Word}

/-- The bits that all conditional branches share. -/
theorem condLmask_top (h : condLmask w = some lmask) :
    w &&& 0x7c000000#32 = 0x54000000#32 ∨ w &&& 0x7c000000#32 = 0x34000000#32 := by
  have hSub : ∀ m v : Word, w &&& m = v → m &&& 0x7c000000#32 = 0x7c000000#32 →
      w &&& 0x7c000000#32 = v &&& 0x7c000000#32 := by
    rintro m v rfl hMask
    rw [BitVec.and_assoc, hMask]
  unfold condLmask at h
  split at h
  · rename_i hCond
    exact .inl ((hSub _ _ hCond (by decide)).trans (by decide))
  · split at h
    · rename_i hCompare
      rcases hCompare with hZero | hNonzero
      · exact .inr ((hSub _ _ hZero (by decide)).trans (by decide))
      · exact .inr ((hSub _ _ hNonzero (by decide)).trans (by decide))
    · split at h
      · rename_i hTest
        rcases hTest with hZero | hNonzero
        · exact .inr ((hSub _ _ hZero (by decide)).trans (by decide))
        · exact .inr ((hSub _ _ hNonzero (by decide)).trans (by decide))
      · cases h

/-- The bits that all literal loads share, with the prefetches. -/
def IsLiteral (w : Word) : Prop := w &&& 0x3b000000#32 = 0x18000000#32

theorem isLiteral_prefetch (h : w &&& 0xff000000#32 = 0xd8000000#32) : IsLiteral w := by
  have hMask : (0xff000000#32 &&& 0x3b000000#32 : Word) = 0x3b000000#32 := by decide
  rw [IsLiteral, ← hMask, ← BitVec.and_assoc, h]
  decide

/-- What the function finds is the mask of a kind of load. -/
theorem loadlitMask_kind {mask : Word} {faligned : Nat} (h : loadlitMask w = some (mask, faligned)) :
    IsLiteral w ∧ ∃ kind, mask = literalMask kind ∧ faligned = literalAligned kind := by
  have hSub : ∀ m v : Word, w &&& m = v → m &&& 0x3b000000#32 = 0x3b000000#32 →
      w &&& 0x3b000000#32 = v &&& 0x3b000000#32 := by
    rintro m v rfl hMask
    rw [BitVec.and_assoc, hMask]
  unfold loadlitMask at h
  dsimp only at h
  split at h
  · rename_i hLdr
    cases h
    refine ⟨(hSub _ _ hLdr (by decide)).trans (by decide), ?_⟩
    split
    · exact ⟨.x, rfl, rfl⟩
    · exact ⟨.w, rfl, rfl⟩
  · split at h
    · rename_i hLdrv
      cases h
      refine ⟨(hSub _ _ hLdrv (by decide)).trans (by decide), ?_⟩
      by_cases hDouble : w &&& 0x40000000#32 ≠ 0#32
      · exact ⟨.d, rfl, by simp only [if_pos hDouble]; rfl⟩
      · by_cases hQuad : w &&& 0x80000000#32 ≠ 0#32
        · exact ⟨.q, rfl, by simp only [if_neg hDouble, if_pos hQuad]; rfl⟩
        · exact ⟨.s, rfl, by simp only [if_neg hDouble, if_neg hQuad]; rfl⟩
    · split at h
      · rename_i hLdrsw
        cases h
        exact ⟨(hSub _ _ hLdrsw (by decide)).trans (by decide), .sw, rfl, rfl⟩
      · cases h

/-- The opcode of a branch decides. -/
theorem decode_branchOpcode {link : Bool} (h : w &&& 0xfc000000#32 = branchOpcode link) :
    decode w = some (branchInstr link (w.setWidth 26)) := by
  unfold decode
  cases link with
  | false => exact if_pos h
  | true =>
    have hNot : w &&& 0xfc000000#32 ≠ 0x14000000#32 := by
      rw [h]
      decide
    exact (if_neg hNot).trans (if_pos h)

/-! ### Words that a function leaves to the next -/

theorem fixBranchImm_skips (h : ∀ link, s.ins mmu &&& 0xfc000000#32 ≠ branchOpcode link) :
    fixBranchImm mmu s = .skipped := by
  have hB := h false
  have hBl := h true
  simp only [branchOpcode] at hB hBl
  simp only [fixBranchImm]
  rw [if_neg]
  rintro (hOp | hOp)
  · exact hB hOp
  · exact hBl hOp

theorem fixCondCompTestBranch_skips (h : condLmask (s.ins mmu) = none) :
    fixCondCompTestBranch mmu s = .skipped := by
  simp only [fixCondCompTestBranch, h]

theorem fixLoadlit_skips (h : ¬ IsLiteral (s.ins mmu)) : fixLoadlit mmu s = .skipped := by
  have hMask : loadlitMask (s.ins mmu) = none := by
    rcases hSome : loadlitMask (s.ins mmu) with _ | ⟨mask, faligned⟩
    · rfl
    · exact absurd (loadlitMask_kind hSome).1 h
  simp only [fixLoadlit, if_neg fun hPrefetch => h (isLiteral_prefetch hPrefetch), hMask]

/-! ## Every turn -/

/-- What a turn relies on. -/
structure Ready (s : Reloc) : Prop where
  source : Aligned s.inprx
  output : Aligned s.outrx
  written : Aligned s.outrw
  base : Aligned s.ctx.basep
  places : ∀ idx, Aligned (s.ctx.dat idx).ins
  short : ∀ idx, (s.ctx.dat idx).fmap.length < maxReferences

variable (mmu s) in
/-- The place of an ADRP is noted by the address that is written to, unless there is padding. Otherwise
places are noted by addresses that are executed. -/
def notedWritten : Bool :=
  s.ins mmu &&& 0x9f000000#32 == 0x90000000#32 &&
    (s.ctx.isInFixingRange (adrpAddress s.inprx (s.ins mmu)) || aligned8 (wordAt s.outrx 2))

/-- `a` is where the words at `e` begin, or behind NOPs at their front. -/
def Front (e : Addr) (ws : List Word) (a : Addr) : Prop :=
  ∃ p, (p = 0 ∨ p < ws.length) ∧ a = wordAt e p ∧ ∀ i < p, ws[i]? = some aarch64Nop

theorem Front.start (e : Addr) (ws : List Word) : Front e ws e :=
  ⟨0, .inl rfl, (wordAt_zero _).symm, nofun⟩

theorem Front.behind {l : List Word} (hNops : ∀ w ∈ l, w = aarch64Nop) (e : Addr) (w : Word)
    (ws : List Word) : Front e (l ++ w :: ws) (wordAt e l.length) := by
  refine ⟨l.length, .inr (by simp), rfl, fun i hi => ?_⟩
  rw [List.getElem?_append_left hi, List.getElem?_eq_getElem hi, hNops _ (List.getElem_mem hi)]

/-- The place behind the padding of a jump. -/
theorem alignPad_place (e : Addr) :
    (if aligned8 (wordAt e 2) then e else wordAt e 1) = wordAt e (alignPad e).length := by
  unfold alignPad
  split
  · exact (wordAt_zero e).symm
  · rfl

theorem alignPadLink_place (e : Addr) :
    (if aligned8 (wordAt e 2) then wordAt e 1 else e) = wordAt e (alignPadLink e).length := by
  unfold alignPadLink
  split
  · rfl
  · exact (wordAt_zero e).symm

theorem front_branchWords (link : Bool) (e a : Addr) :
    Front e (branchWords link e a) (branchPlace link e a) := by
  unfold branchWords branchPlace
  split
  · cases link with
    | false =>
      rw [if_neg Bool.false_ne_true, if_neg Bool.false_ne_true, alignPad_place]
      exact Front.behind (alignPad_nops e) ..
    | true =>
      rw [if_pos rfl, if_pos rfl, alignPadLink_place]
      exact Front.behind (alignPadLink_nops e) ..
  · exact Front.start ..

theorem length_adrWords (w : Word) (e a : Addr) : (adrWords w e a).length ≤ 5 := by
  unfold adrWords
  split
  · exact length_addressWords w e a
  · exact Nat.succ_le_succ (Nat.zero_le _)

theorem front_adrWords (w : Word) (e a : Addr) : Front e (adrWords w e a) (adrPlace e a) := by
  unfold adrWords adrPlace
  split
  · rw [alignPad_place]
    exact Front.behind (alignPad_nops e) ..
  · exact Front.start ..

variable (mmu s e ws) in
/-- Where the place is. -/
def Placed : Prop :=
  if notedWritten mmu s then e = s.outrw ∧ ∃ w rest, ws = w :: rest ∧ w ≠ aarch64Nop
  else Front s.outrx ws e

variable (mmu s t e ws r) in
/-- What any turn does. -/
structure Turned : Prop where
  relocates : Relocates mmu s t r e ws
  length : ws.length ≤ 9
  placed : Placed mmu s e ws
  opens : ∀ j g, r = some (j, g) → (∃ a, s.ctx.isInFixingRange a = true ∧
    j = s.ctx.getRefInsIndex a) ∧ s.currentIdx < j ∧ g.bprx = s.outrx ∧ g.bprw = s.outrw ∧
    0 < ws.length ∧ e = s.outrx ∧ notedWritten mmu s = false

/-- What is open after a turn was open before it, or is what the turn leaves open. -/
theorem Turned.pending (h : Turned mmu s t e ws r) {g : FixInfo} (hg : g ∈ (t.ctx.dat idx).fmap) :
    g ∈ (s.ctx.dat idx).fmap ∨ r = some (idx, g) := by
  by_cases hIdx : idx = s.currentIdx
  · rw [hIdx, h.relocates.done] at hg
    cases hg
  · rw [h.relocates.kept idx hIdx] at hg
    rcases List.mem_append.mp hg with hOld | hNew
    · exact .inl hOld
    · exact .inr (mem_opened hNew)

/-- A turn is one of a pass that backpatches. -/
theorem Turned.turn (h : Turned mmu s t e ws r)
    (hInPlace : ∀ g ∈ (s.ctx.dat s.currentIdx).fmap, g.InPlace mmu) :
    Backpatch.Turn (scheme mmu) e (fun p => ∃ i < ws.length, p = mmu.tr (wordAt s.outrw i))
      s.currentIdx s.pass t.pass where
  mem := fun p hp => h.relocates.phys hInPlace p fun i hi hSame => hp ⟨i, hi, hSame⟩
  done := h.relocates.done
  left := by
    intro idx hIdx
    refine ⟨opened r idx, ?_, fun g hg => ?_⟩
    · change (t.ctx.dat idx).fmap = _
      rw [h.relocates.kept idx hIdx]
      rfl
    · obtain ⟨-, hLater, -, hRw, hPos, -⟩ := h.opens idx g (mem_opened hg)
      refine ⟨hLater, 0, hPos, ?_⟩
      rw [wordAt_zero, ← hRw]
      rfl

variable (mmu s) in
/-- A function has recognised the word, and made a turn. -/
def MakesTurn (o : Outcome) : Prop := ∃ t e ws r, o = .fixed t ∧ Turned mmu s t e ws r

/-- The literal that is copied can be read, if there is one. -/
def literalReadable (mmu : Mmu) (s : Reloc) : Bool :=
  let ins := s.ins mmu
  if ins &&& 0xff000000#32 = 0xd8000000#32 then true
  else
    match loadlitMask ins with
    | none => true
    | some (_, faligned) =>
      let absoluteAddr := loadlitAddress s.inprx ins
      !literalCopied s faligned absoluteAddr || readable mmu absoluteAddr ((faligned + 1) / 4)

theorem Placed.aligned (h : Placed mmu s e ws) (hReady : Ready s) : Aligned e := by
  unfold Placed at h
  split at h
  · rw [h.1]
    exact hReady.written
  · obtain ⟨p, -, rfl, -⟩ := h
    exact hReady.output.wordAt p

theorem notedWritten_of_not (h : s.ins mmu &&& 0x9f000000#32 ≠ 0x90000000#32) :
    notedWritten mmu s = false := by
  rw [notedWritten, beq_eq_false_iff_ne.mpr h, Bool.false_and]

theorem placed_of_front (h : s.ins mmu &&& 0x9f000000#32 ≠ 0x90000000#32) (hFront : Front s.outrx ws e) :
    Placed mmu s e ws := by
  rw [Placed, notedWritten_of_not h, if_neg Bool.false_ne_true]
  exact hFront

/-- A turn that leaves no reference open. -/
theorem Appends.turned (h : Appends mmu s u e ws) (hLength : ws.length ≤ 9)
    (hPlaced : Placed mmu s e ws) :
    Turned mmu s (u.consume.processFixMap mmu s.currentIdx) e ws none where
  relocates := h.relocates (r := none) nofun
  length := hLength
  placed := hPlaced
  opens := nofun

/-- A word that refers into the window. -/
theorem refer_turned (h : Ready s) (hNot : s.ins mmu &&& 0x9f000000#32 ≠ 0x90000000#32)
    (hInside : s.ctx.isInFixingRange a = true) (hRef : refIdx = s.ctx.getRefInsIndex a) (F : Field) :
    Turned mmu s (refer mmu s refIdx F) s.outrx [F.word (knownDistance s refIdx)]
      (openReference s refIdx F) where
  relocates := refer_relocates (h.short _) F
  length := show 1 ≤ 9 by omega
  placed := placed_of_front hNot (Front.start ..)
  opens := by
    intro j g hSome
    unfold openReference at hSome
    split at hSome
    · cases hSome
    · cases hSome
      exact ⟨⟨a, hInside, hRef⟩, by omega, rfl, rfl, Nat.zero_lt_one, rfl, notedWritten_of_not hNot⟩

theorem fixBranchImm_turns (h : Ready s) {link : Bool}
    (hOp : s.ins mmu &&& 0xfc000000#32 = branchOpcode link) : MakesTurn mmu s (fixBranchImm mmu s) := by
  have hNot : s.ins mmu &&& 0x9f000000#32 ≠ 0x90000000#32 :=
    and_ne_of_top hOp (by cases link <;> decide)
  by_cases hInside : s.ctx.isInFixingRange
      (s.inprx + branchOffset ((s.ins mmu).setWidth 26)) = true
  · exact ⟨_, _, _, _, fixBranchImm_inside hOp rfl hInside, refer_turned h hNot hInside rfl _⟩
  · rw [Bool.not_eq_true] at hInside
    obtain ⟨u, hFix, hAppends⟩ := fixBranchImm_appends (decode_branchOpcode hOp) hInside
    have hLength := (length_branchWords link s.outrx
      (s.inprx + branchOffset ((s.ins mmu).setWidth 26))).1
    exact ⟨_, _, _, _, hFix, hAppends.turned (by omega) (placed_of_front hNot (front_branchWords ..))⟩

theorem fixCondCompTestBranch_turns (h : Ready s) (hMask : condLmask (s.ins mmu) = some lmask) :
    MakesTurn mmu s (fixCondCompTestBranch mmu s) := by
  have hNot : s.ins mmu &&& 0x9f000000#32 ≠ 0x90000000#32 := by
    rcases condLmask_top hMask with hTop | hTop
    · exact and_ne_of_top hTop (by decide)
    · exact and_ne_of_top hTop (by decide)
  by_cases hInside : s.ctx.isInFixingRange
      (s.inprx + ((s.ins mmu &&& ~~~lmask) >>> 3).setWidth 64) = true
  · exact ⟨_, _, _, _, fixCondCompTestBranch_inside hMask rfl hInside,
      refer_turned h hNot hInside rfl _⟩
  · rw [Bool.not_eq_true] at hInside
    obtain ⟨u, hFix, hAppends⟩ := fixCondCompTestBranch_appends hMask rfl hInside
    have hLength := length_condWords lmask (s.ins mmu) s.outrx
      (s.inprx + ((s.ins mmu &&& ~~~lmask) >>> 3).setWidth 64)
    exact ⟨_, _, _, _, hFix, hAppends.turned (by omega) (placed_of_front hNot (Front.start ..))⟩

theorem literalReadable_eq {mask : Word} {faligned : Nat}
    (hPrefetch : s.ins mmu &&& 0xff000000#32 ≠ 0xd8000000#32)
    (hMask : loadlitMask (s.ins mmu) = some (mask, faligned)) :
    literalReadable mmu s = (!literalCopied s faligned (loadlitAddress s.inprx (s.ins mmu)) ||
      readable mmu (loadlitAddress s.inprx (s.ins mmu)) ((faligned + 1) / 4)) := by
  simp only [literalReadable, if_neg hPrefetch, hMask]

/-- The turn of a literal load, unless the words that it copies cannot be read. -/
def LoadTurn (mmu : Mmu) (s : Reloc) (o : Outcome) : Prop :=
  literalReadable mmu s = true ∧ MakesTurn mmu s o ∨ literalReadable mmu s = false ∧ o = .stuck

theorem fixLoadlit_turns (h : Ready s) (hLiteral : IsLiteral (s.ins mmu))
    (hFound : s.ins mmu &&& 0xff000000#32 = 0xd8000000#32 ∨ loadlitMask (s.ins mmu) ≠ none) :
    LoadTurn mmu s (fixLoadlit mmu s) := by
  have hNot : s.ins mmu &&& 0x9f000000#32 ≠ 0x90000000#32 := and_ne_of_top hLiteral (by decide)
  have hFront : ∀ p w ws,
      Front s.outrx (List.replicate p aarch64Nop ++ w :: ws) (wordAt s.outrx p) := by
    intro p w ws
    have hBehind := Front.behind (l := List.replicate p aarch64Nop)
      (fun w hw => List.eq_of_mem_replicate hw) s.outrx w ws
    rwa [List.length_replicate] at hBehind
  by_cases hPrefetch : s.ins mmu &&& 0xff000000#32 = 0xd8000000#32
  · refine .inl ⟨?_, _, _, _, _, ?_, (Appends.start mmu s s.outrx).turned
      (Nat.zero_le _) (placed_of_front hNot (Front.start ..))⟩
    · simp only [literalReadable, if_pos hPrefetch]
    · simp only [fixLoadlit, if_pos hPrefetch]
      rfl
  · obtain ⟨⟨mask, faligned⟩, hMask⟩ :=
      Option.ne_none_iff_exists'.mp (hFound.resolve_left hPrefetch)
    obtain ⟨-, kind, rfl, rfl⟩ := loadlitMask_kind hMask
    have hAligned := aligned_loadlitAddress h.source (s.ins mmu)
    rw [LoadTurn, literalReadable_eq hPrefetch hMask, fixLoadlit_eq hPrefetch hMask]
    generalize loadlitAddress s.inprx (s.ins mmu) = a at hAligned
    by_cases hCopied : literalCopied s (literalAligned kind) a = true
    · have hForm := loadlitFrom_copied mmu (k := 0) h.output nofun hCopied
      rw [hCopied, Bool.not_true, Bool.false_or]
      change readable mmu a (copiedWords kind) = true ∧ _ ∨ readable mmu a (copiedWords kind) = false ∧ _
      split at hForm
      · rename_i hReadable
        obtain ⟨u, p, lits, hFix, hp, hLits, -, hAppends⟩ := hForm
        have hWords := (literalWords_le kind).2
        refine .inl ⟨hReadable, _, _, _, _, hFix,
          hAppends.turned ?_ (placed_of_front hNot (hFront ..))⟩
        rw [List.length_append, List.length_replicate, copiedLoad, List.length_cons, List.length_cons,
          hLits]
        omega
      · rename_i hReadable
        exact .inr ⟨Bool.not_eq_true _ ▸ hReadable, hForm⟩
    · rw [Bool.not_eq_true] at hCopied
      obtain ⟨u, p, hFix, hp, hAppends⟩ := loadlitFrom_near mmu (hAligned.sub h.output) hCopied
      have hWords := (literalWords_le kind).2
      have hPos : 0 < copiedWords kind := by cases kind <;> decide
      have hMod := Nat.mod_lt ((a - s.outrx).toNat / 4) hPos
      rw [hCopied, Bool.not_false, Bool.true_or]
      refine .inl ⟨rfl, _, _, _, _, hFix, hAppends.turned ?_ (placed_of_front hNot (hFront ..))⟩
      rw [List.length_append, List.length_replicate, List.length_singleton]
      omega

theorem knownDistance_aligned (h : Ready s) (refIdx : Nat) :
    (knownDistance s refIdx).toNat % 4 = 0 := by
  have hIns : Aligned ((s.setCurrentIndex s.outrx).ctx.dat refIdx).ins := by
    by_cases hIdx : refIdx = s.currentIdx
    · rw [hIdx, (Appends.start flat s s.outrx).noted]
      exact h.output
    · rw [(Appends.start flat s s.outrx).kept refIdx hIdx]
      exact h.places refIdx
  unfold knownDistance
  split
  · exact hIns.sub h.output
  · rfl

/-- The address of the instruction that an address lies in. -/
theorem toNat_and_aligned (a : Addr) : (a &&& ~~~3#64).toNat = a.toNat - a.toNat % 4 := by
  have hMask : ∀ i < 64, (~~~3#64 : Addr).getLsbD i = decide (2 ≤ i) := by decide
  have hShift : a &&& ~~~3#64 = a >>> 2 <<< 2 := by
    ext i hi
    rw [BitVec.getElem_and, ← BitVec.getLsbD_eq_getElem (x := ~~~3#64), hMask i hi,
      BitVec.getElem_shiftLeft]
    by_cases hLow : i < 2
    · have hNot : ¬ 2 ≤ i := by omega
      simp [hLow, hNot]
    · have hGe : 2 ≤ i := by omega
      have hBack : 2 + (i - 2) = i := by omega
      simp [hLow, hGe, hBack, hi]
  have hLt := a.isLt
  rw [hShift, BitVec.toNat_shiftLeft, BitVec.toNat_ushiftRight, Nat.shiftLeft_eq,
    Nat.shiftRight_eq_div_pow]
  omega

theorem getRefInsIndex_aligned (hBase : Aligned s.ctx.basep) (a : Addr) :
    s.ctx.getRefInsIndex (a &&& ~~~3#64) = s.ctx.getRefInsIndex a := by
  have hLow := toNat_and_aligned a
  have hLt := a.isLt
  have hBaseLt := s.ctx.basep.isLt
  unfold Aligned at hBase
  rw [Context.getRefInsIndex, Context.getRefInsIndex, BitVec.toNat_udiv, BitVec.toNat_udiv,
    BitVec.toNat_sub, BitVec.toNat_sub, hLow]
  change _ / 4 = _ / 4
  omega

/-- The words that load an address do not begin with a NOP. -/
theorem addressWords_head (w : Word) (a : Addr) :
    ∃ v rest, addressWords w a = v :: rest ∧ v ≠ aarch64Nop := by
  refine ⟨_, _, rfl, fun hNop => ?_⟩
  have hDecode := decode_addressLoad w
  rw [hNop, show decode aarch64Nop = some .nop by decide] at hDecode
  cases hDecode

theorem placed_adrp (hOp : s.ins mmu &&& 0x9f000000#32 = 0x90000000#32)
    (ha : adrpAddress s.inprx (s.ins mmu) = a) :
    Placed mmu s (adrpPlace s a) (if s.ctx.isInFixingRange a then [s.ins mmu]
      else alignPad s.outrx ++ addressWords (s.ins mmu) a) := by
  rw [Placed, notedWritten, beq_iff_eq.mpr hOp, Bool.true_and, ha, adrpPlace]
  by_cases hInside : s.ctx.isInFixingRange a = true
  · rw [hInside, Bool.true_or, if_pos rfl, if_pos rfl, if_pos rfl]
    refine ⟨rfl, _, _, rfl, fun hNop => ?_⟩
    rw [hNop] at hOp
    exact absurd hOp (by decide)
  · rw [Bool.not_eq_true] at hInside
    rw [hInside, Bool.false_or, if_neg Bool.false_ne_true, if_neg Bool.false_ne_true]
    by_cases hAligned : aligned8 (wordAt s.outrx 2) = true
    · rw [hAligned, if_pos rfl, if_pos rfl, alignPad, if_pos hAligned]
      exact ⟨rfl, addressWords_head _ _⟩
    · rw [if_neg hAligned, if_neg hAligned, alignPad, if_neg hAligned]
      exact Front.behind (l := [aarch64Nop]) (by simp) ..

/-- The order of the last two steps does not matter. -/
theorem closeAddress_eq (mmu : Mmu) (s u : Reloc) :
    closeAddress mmu s u = .fixed (u.consume.processFixMap mmu s.currentIdx) := rfl

theorem fixPcreladdr_turns (h : Ready s)
    (hOp : s.ins mmu &&& 0x9f000000#32 = 0x10000000#32 ∨ s.ins mmu &&& 0x9f000000#32 = 0x90000000#32) :
    MakesTurn mmu s (fixPcreladdr mmu s) := by
  rcases hOp with hAdr | hAdrp
  · have hNot : s.ins mmu &&& 0x9f000000#32 ≠ 0x90000000#32 := by
      rw [hAdr]
      decide
    rw [fixPcreladdr_adr hAdr]
    generalize adrAddress s.inprx (s.ins mmu) = a
    by_cases hInside : s.ctx.isInFixingRange a = true
    · exact ⟨_, _, _, _, adrFrom_inside hInside (knownDistance_aligned h _),
        refer_turned h hNot hInside (getRefInsIndex_aligned h.base a) _⟩
    · rw [Bool.not_eq_true] at hInside
      refine ⟨_, _, _, _, closeAddress_eq ..,
        (adrFrom_appends mmu hInside).turned ?_ (placed_of_front hNot (front_adrWords ..))⟩
      have hLength := length_adrWords (s.ins mmu) s.outrx a
      omega
  · rw [fixPcreladdr_adrp hAdrp]
    refine ⟨_, _, _, _, closeAddress_eq ..,
      (adrpFrom_appends mmu s _).turned ?_ (placed_adrp hAdrp rfl)⟩
    split
    · exact Nat.succ_le_succ (Nat.zero_le _)
    · have hLength := length_addressWords (s.ins mmu) s.outrx (adrpAddress s.inprx (s.ins mmu))
      omega

/-- **One turn.** The turn ends when the literal that it copies can be read, and only then. -/
theorem fixInstruction_turned (mmu : Mmu) (h : Ready s) :
    (literalReadable mmu s = true ∧
        ∃ t e ws r, fixInstruction mmu s = some t ∧ Turned mmu s t e ws r) ∨
      (literalReadable mmu s = false ∧ fixInstruction mmu s = none) := by
  have hReadable : ¬ IsLiteral (s.ins mmu) → literalReadable mmu s = true := by
    intro hNot
    unfold literalReadable
    dsimp only
    rw [if_neg fun hPrefetch => hNot (isLiteral_prefetch hPrefetch)]
    split
    · rfl
    · rename_i hMask
      exact absurd (loadlitMask_kind hMask).1 hNot
  unfold fixInstruction
  by_cases hBranch : ∃ link, s.ins mmu &&& 0xfc000000#32 = branchOpcode link
  · obtain ⟨link, hOp⟩ := hBranch
    obtain ⟨t, e, ws, r, hFix, hTurned⟩ := fixBranchImm_turns h hOp
    rw [hFix]
    exact .inl ⟨hReadable (and_ne_of_top hOp (by cases link <;> decide)), t, e, ws, r, rfl, hTurned⟩
  rw [fixBranchImm_skips fun link hOp => hBranch ⟨link, hOp⟩]
  by_cases hCond : ∃ lmask, condLmask (s.ins mmu) = some lmask
  · obtain ⟨lmask, hMask⟩ := hCond
    obtain ⟨t, e, ws, r, hFix, hTurned⟩ := fixCondCompTestBranch_turns h hMask
    rw [hFix]
    refine .inl ⟨hReadable ?_, t, e, ws, r, rfl, hTurned⟩
    rcases condLmask_top hMask with hTop | hTop
    · exact and_ne_of_top hTop (by decide)
    · exact and_ne_of_top hTop (by decide)
  rw [fixCondCompTestBranch_skips (Option.eq_none_iff_forall_ne_some.mpr fun lmask hMask =>
    hCond ⟨lmask, hMask⟩)]
  by_cases hFound : s.ins mmu &&& 0xff000000#32 = 0xd8000000#32 ∨ loadlitMask (s.ins mmu) ≠ none
  · have hLiteral : IsLiteral (s.ins mmu) := by
      rcases hFound with hPrefetch | hMask
      · exact isLiteral_prefetch hPrefetch
      · obtain ⟨⟨mask, faligned⟩, hMask⟩ := Option.ne_none_iff_exists'.mp hMask
        exact (loadlitMask_kind hMask).1
    rcases fixLoadlit_turns h hLiteral hFound with ⟨hRead, t, e, ws, r, hFix, hTurned⟩ | ⟨hNot, hFix⟩
    · rw [hFix]
      exact .inl ⟨hRead, t, e, ws, r, rfl, hTurned⟩
    · rw [hFix]
      exact .inr ⟨hNot, rfl⟩
  obtain ⟨hPrefetch, hMask⟩ := not_or.mp hFound
  have hLoad : fixLoadlit mmu s = .skipped := by
    simp only [fixLoadlit, if_neg hPrefetch, not_not.mp hMask]
  have hRead : literalReadable mmu s = true := by
    simp only [literalReadable, if_neg hPrefetch, not_not.mp hMask]
  rw [hLoad]
  by_cases hAddress : s.ins mmu &&& 0x9f000000#32 = 0x10000000#32 ∨
      s.ins mmu &&& 0x9f000000#32 = 0x90000000#32
  · obtain ⟨t, e, ws, r, hFix, hTurned⟩ := fixPcreladdr_turns h hAddress
    rw [hFix]
    exact .inl ⟨hRead, t, e, ws, r, rfl, hTurned⟩
  · obtain ⟨hAdr, hAdrp⟩ := not_or.mp hAddress
    have hFix : fixPcreladdr mmu s = .skipped := by
      simp only [fixPcreladdr, if_neg hAdr, if_neg hAdrp]
    obtain ⟨w, hCopy⟩ := copyInstruction_relocates mmu s
    rw [hFix]
    refine .inl ⟨hRead, _, _, _, _, rfl, hCopy, show 1 ≤ 9 by omega,
      placed_of_front hAdrp (Front.start ..), fun j g hSome => ?_⟩
    cases hSome

end Wondar.Hook
