import Wondar.Hook.Window

/-!
# Words that refer to an address

The branches and ADR, as the functions take them: the field of each (`fieldOf`, `referrer_field`), the
address that is computed for it (`absoluteAddr`), and the turn when the context takes this address for
one of the window (`fixInstruction_inside`) and when it does not (`fixInstruction_outside`).

Over the whole loop, a word that is emitted without an open reference stays (`settled_word`), and one
that refers into the window in the end has the distance to the place that is noted for the instruction
it referred to, whether this instruction comes earlier or later (`reference_word`).
-/

namespace Wondar.Hook

open A64 Coherence

variable {mmu : Mmu} {slot : Slot} {s t u : Reloc} {w : Word} {kind : Referrer} {d x : BitVec 64}
  {n k : Nat}

/-! ## The words -/

/-- The field of a word that refers to an address. -/
def fieldOf (w : Word) : Referrer → Field
  | .jump link => branchField link
  | .test _ => condField ((condLmask w).getD 0#32) w
  | .address _ => adrField w

/-- The kinds of words that refer to an address, as the functions know them. -/
theorem referrer_masks (h : referrer w = some (kind, d)) :
    (∃ link, w &&& 0xfc000000#32 = branchOpcode link ∧ kind = .jump link ∧
      d = branchOffset (w.setWidth 26)) ∨
    (∃ t lmask n, kind = .test t ∧ condLmask w = some lmask ∧ FieldOf lmask n ∧ t.width = n + 1 ∧
      d = branchOffset (w.extractLsb' 5 (n + 1)) ∧
      ∀ x : Word, decodePcRel (withField lmask w x) =
        some (.branch t (branchOffset (x.extractLsb' 5 (n + 1))))) ∨
    (w &&& 0x9f000000#32 = 0x10000000#32 ∧ kind = .address (w.setWidth 5) ∧
      d = (adrImm w).signExtend 64) := by
  rcases referrer_cases h with ⟨link, imm, hDecode, rfl, rfl⟩ | ⟨t, hDecode, rfl⟩ |
    ⟨rd, imm, hDecode, rfl, rfl⟩
  · obtain ⟨hOp, rfl⟩ := opcode_of_decode hDecode
    exact .inl ⟨link, hOp, rfl, rfl⟩
  · obtain ⟨lmask, n, hMask, hField, hWidth, hd, hTest⟩ := condLmask_of_branch hDecode
    exact .inr (.inl ⟨t, lmask, n, rfl, hMask, hField, hWidth, hd, hTest⟩)
  · obtain ⟨hOp, rfl, rfl⟩ := mask_of_decode_adr false hDecode
    exact .inr (.inr ⟨hOp, rfl, rfl⟩)

/-- The field of an ADR, under the low bits that it has. -/
theorem adrImm_field (w : Word) (hx : x.toNat % 4 = 0) :
    adrImm ((adrField w).word x) = (x + (w.extractLsb' 29 2).setWidth 64).setWidth 21 := by
  rw [adrField_word w hx, add_low hx]
  change adrImm (nearAdr w x) = _
  ext i hi
  rw [getElem_adrImm_nearAdr w x hi, BitVec.getElem_setWidth, BitVec.getLsbD_or]
  by_cases hLow : i < 2
  · have hWide : i < 64 := by omega
    rw [if_pos hLow, getLsbD_aligned hx hLow]
    simp [hLow, hWide]
  · rw [if_neg hLow]
    simp [BitVec.getLsbD_of_ge (w.extractLsb' 29 2) i (by omega)]

theorem adrImm_low (w : Word) : ((adrImm w).signExtend 64).setWidth 2 = w.extractLsb' 29 2 := by
  ext i hi
  have hIn : i < 21 := by omega
  have hWide : i < 64 := by omega
  rw [BitVec.getElem_setWidth, BitVec.getLsbD_signExtend, decide_eq_true hWide, Bool.true_and,
    if_pos hIn, BitVec.getLsbD_eq_getElem hIn, getElem_adrImm w i hIn, if_pos hi,
    BitVec.getElem_extractLsb']

/-- A field holds what it is set to, and the low bits that the distance of the word had. -/
theorem referrer_field (h : referrer w = some (kind, d)) (hx : x.toNat % 4 = 0) :
    referrer ((fieldOf w kind).word x) = some (kind, kind.held (x + (d.setWidth 2).setWidth 64)) := by
  have hZero : x + (0#2 : BitVec 2).setWidth 64 = x := BitVec.add_zero x
  rcases referrer_masks h with ⟨link, hOp, rfl, rfl⟩ |
    ⟨t, lmask, n, rfl, hMask, hField, hWidth, rfl, hTest⟩ | ⟨hOp, rfl, rfl⟩
  · have hDecode : decode ((branchField link).word x) =
        some (branchInstr link ((x.sshiftRight 2).setWidth 26)) := by
      rw [branchField_word]
      exact decode_branchWord link (x.sshiftRight 2)
    rw [fieldOf, referrer_core hDecode, referrer_branchInstr, branchOffset_quarter hx (by omega) (by omega),
      branchOffset_low, hZero]
    rfl
  · have hBounds := hField.le
    have hWord : (condField lmask w).word x =
        withField lmask w ((x.sshiftRight 2 <<< 5).setWidth 32) := condField_word lmask w x
    have hDecode := hTest ((x.sshiftRight 2 <<< 5).setWidth 32)
    rw [extractLsb'_shifted (by omega), branchOffset_quarter hx (by omega) (by omega)] at hDecode
    rw [fieldOf, hMask, Option.getD_some, hWord, referrer_pcRel hDecode, branchOffset_low, hZero,
      Referrer.held, Referrer.reach, hWidth]
    rfl
  · have hMask : (adrField w).word x &&& 0x9f000000#32 = 0x10000000#32 := by
      rw [adrField_word w hx]
      exact mask_nearAdr hOp x
    have hRd : ((adrField w).word x).setWidth 5 = w.setWidth 5 := by
      have hLow : x.setWidth 2 = (0#64).setWidth 2 := by
        ext i hi
        rw [BitVec.getElem_setWidth, getLsbD_aligned hx hi]
        simp
      rw [adrField_word w hx]
      change (nearAdr w x).setWidth 5 = _
      rw [setWidth_nearAdr, low_shifted hLow]
      exact BitVec.or_zero
    rw [fieldOf, referrer_pcRel (decodePcRel_adr hMask), hRd, adrImm_field w hx, adrImm_low]
    rfl

/-! ## The turn -/

/-- `absolute_addr` of the three functions. -/
def absoluteAddr (e : Addr) (w : Word) : Referrer → Addr
  | .jump _ => e + ((w <<< 6).sshiftRight 4).signExtend 64
  | .test _ => e + ((w &&& ~~~((condLmask w).getD 0#32)) >>> 3).setWidth 64
  | .address _ => adrAddress e w

/-- The function for each kind. -/
def fixReferrer (mmu : Mmu) (s : Reloc) : Referrer → Outcome
  | .jump _ => fixBranchImm mmu s
  | .test _ => fixCondCompTestBranch mmu s
  | .address _ => fixPcreladdr mmu s

theorem fixInstruction_referrer (h : referrer (s.ins mmu) = some (kind, d))
    (hFix : fixReferrer mmu s kind = .fixed t) : fixInstruction mmu s = some t := by
  unfold fixInstruction
  rcases referrer_masks h with ⟨link, hOp, rfl, -⟩ | ⟨test, lmask, _, rfl, hMask, -⟩ |
    ⟨hOp, rfl, -⟩
  · rw [show fixBranchImm mmu s = .fixed t from hFix]
  · have hTop := condLmask_top hMask
    rw [fixBranchImm_skips fun link => ?_, show fixCondCompTestBranch mmu s = .fixed t from hFix]
    rcases hTop with hTop | hTop
    · exact and_ne_of_top hTop (by cases link <;> decide)
    · exact and_ne_of_top hTop (by cases link <;> decide)
  · have hCond : condLmask (s.ins mmu) = none := Option.eq_none_iff_forall_ne_some.mpr fun lmask hMask => by
      rcases condLmask_top hMask with hTop | hTop
      · exact absurd hOp (and_ne_of_top hTop (by decide))
      · exact absurd hOp (and_ne_of_top hTop (by decide))
    rw [fixBranchImm_skips fun link => and_ne_of_top hOp (by cases link <;> decide),
      fixCondCompTestBranch_skips hCond, fixLoadlit_skips (and_ne_of_top hOp (by decide)),
      show fixPcreladdr mmu s = .fixed t from hFix]

theorem referrer_not_adrp (h : referrer w = some (kind, d)) :
    w &&& 0x9f000000#32 ≠ 0x90000000#32 := by
  rcases referrer_masks h with ⟨link, hOp, -⟩ | ⟨test, lmask, _, -, hMask, -⟩ | ⟨hOp, -⟩
  · exact and_ne_of_top hOp (by cases link <;> decide)
  · rcases condLmask_top hMask with hTop | hTop
    · exact and_ne_of_top hTop (by decide)
    · exact and_ne_of_top hTop (by decide)
  · rw [hOp]
    decide

/-- A word that refers into the window becomes one word. -/
theorem fixInstruction_inside (hReady : Ready s) (h : referrer (s.ins mmu) = some (kind, d))
    (hInside : s.ctx.isInFixingRange (absoluteAddr s.inprx (s.ins mmu) kind) = true) :
    fixInstruction mmu s = some (refer mmu s
      (s.ctx.getRefInsIndex (absoluteAddr s.inprx (s.ins mmu) kind)) (fieldOf (s.ins mmu) kind)) := by
  refine fixInstruction_referrer h ?_
  rcases referrer_masks h with ⟨link, hOp, rfl, -⟩ | ⟨test, lmask, _, rfl, hMask, -⟩ |
    ⟨hOp, rfl, -⟩
  · exact fixBranchImm_inside hOp (by rw [absoluteAddr, branchOffset_field]) hInside
  · have hAddr : absoluteAddr s.inprx (s.ins mmu) (.test test) =
        s.inprx + ((s.ins mmu &&& ~~~lmask) >>> 3).setWidth 64 := by
      rw [absoluteAddr, hMask, Option.getD_some]
    rw [hAddr] at hInside ⊢
    rw [fieldOf, hMask, Option.getD_some]
    exact fixCondCompTestBranch_inside hMask rfl hInside
  · rw [fixReferrer, fixPcreladdr_adr hOp, absoluteAddr, ← getRefInsIndex_aligned hReady.base]
    exact adrFrom_inside hInside (knownDistance_aligned hReady _)

/-! ## The run -/

section

variable {inprw f : Addr} {count c q : Nat} {m : Machine}

/-- References are open to words that have been written. -/
theorem Progress.site_ne (hUnfolded : mmu.Unfolded slot.rw trampolineSize)
    (h : Progress mmu slot inprw f count m k n s) {l : Nat} (hkl : k ≤ l) (hl : l < trampolineSize)
    (idx : Nat) : ∀ g ∈ (s.ctx.dat idx).fmap, mmu.tr g.bprw ≠ mmu.tr (wordAt slot.rw l) := by
  intro g hg hSame
  obtain ⟨j, hj, hRw, -⟩ := h.sites idx g hg
  rw [hRw] at hSame
  have := hUnfolded _ _ (by omega) hl hSame
  omega

variable (hInput : Input slot f count)

include hInput

theorem Progress.inPlace (hAlias : mmu.Alias slot.rw slot.rx trampolineSize) (hn : n ≤ count)
    (h : Progress mmu slot inprw f count m k n s) (idx : Nat) :
    ∀ g ∈ (s.ctx.dat idx).fmap, g.InPlace mmu := by
  intro g hg
  have hRoom := h.room hInput (c := 0) hn
  obtain ⟨j, hj, hRw, hRx⟩ := h.sites idx g hg
  rw [FixInfo.InPlace, hRw, hRx]
  exact (hAlias j (by omega)).symm

/-- Places that have been noted stay. -/
theorem fixLoop_places (h : Progress mmu slot inprw f count m k n s) (hc : n + c ≤ count)
    (hRun : fixLoop mmu c s = some u) : ∀ idx < n, (u.ctx.dat idx).ins = (s.ctx.dat idx).ins := by
  induction c generalizing s k n with
  | zero =>
    cases hRun
    exact fun _ _ => rfl
  | succ c ih =>
    obtain ⟨t, hStep, hRest⟩ := Option.bind_eq_some_iff.mp hRun
    obtain ⟨e, ws, r, hTurned, hNext⟩ := h.next hInput (by omega) hStep
    intro idx hIdx
    have hNow := h.currentIdx hInput (by omega)
    rw [ih hNext (by omega) hRest idx (by omega), hTurned.relocates.kept idx (by omega)]

/-- The turns of the loop, for a word that has been emitted. -/
theorem fixLoop_turns (hUnfolded : mmu.Unfolded slot.rw trampolineSize)
    (hAlias : mmu.Alias slot.rw slot.rx trampolineSize)
    (h : Progress mmu slot inprw f count m k n s) (hc : n + c ≤ count)
    (hRun : fixLoop mmu c s = some u) (hq : q < k) :
    Backpatch.Turns (scheme mmu) (fun idx => (u.ctx.dat idx).ins) (mmu.tr (wordAt slot.rw q)) n s.pass
      (n + c) u.pass := by
  induction c generalizing s k n with
  | zero =>
    cases hRun
    exact .refl ..
  | succ c ih =>
    obtain ⟨t, hStep, hRest⟩ := Option.bind_eq_some_iff.mp hRun
    obtain ⟨e, ws, r, hTurned, hNext⟩ := h.next hInput (by omega) hStep
    have hNow := h.currentIdx hInput (by omega)
    have hTurn := hTurned.turn (h.inPlace hInput hAlias (by omega) _)
    rw [hNow] at hTurn
    have hPlace : (u.ctx.dat n).ins = e := by
      rw [fixLoop_places hInput hNext (by omega) hRest n (by omega), ← hNow, hTurned.relocates.place]
    have hAfter := ih hNext (by omega) hRest (by omega)
    rw [Nat.add_assoc, Nat.add_comm 1 c] at hAfter
    refine .head (hPlace ▸ hTurn) ?_ hAfter
    rintro ⟨i, hi, hSame⟩
    have hRoom := hNext.room hInput (c := c) (by omega)
    rw [h.cursor.outrw, wordAt_wordAt] at hSame
    have := hUnfolded _ _ (by omega) (by omega) hSame
    omega

variable (hUnfolded : mmu.Unfolded slot.rw trampolineSize)
  (hAlias : mmu.Alias slot.rw slot.rx trampolineSize)

include hUnfolded

/-- The words of a turn, when it is over. -/
theorem Progress.code (h : Progress mmu slot inprw f count m k n s) (hn : n < count) {e : Addr}
    {ws : List Word} {r : Option (Nat × FixInfo)} (hTurned : Turned mmu s t e ws r) {l : Nat}
    (hl : l < ws.length) : t.mach.phys (mmu.tr (wordAt slot.rw (k + l))) = ws[l] := by
  have hRoom := h.room hInput (c := 1) hn
  have hLength := hTurned.length
  rw [← wordAt_wordAt, ← h.cursor.outrw]
  refine hTurned.relocates.code ?_ ?_ l hl
  · intro i j hi hj hSame
    rw [h.cursor.outrw, wordAt_wordAt, wordAt_wordAt] at hSame
    have := hUnfolded _ _ (by omega) (by omega) hSame
    omega
  · intro g hg i hi
    rw [h.cursor.outrw, wordAt_wordAt]
    exact h.site_ne hUnfolded (by omega) (by omega) _ g hg

include hAlias

/-- A word that is emitted without an open reference stays. -/
theorem settled_word (h : Progress mmu slot inprw f count m k n s) (hn : n < count) {e : Addr}
    {ws : List Word} {r : Option (Nat × FixInfo)} (hStep : fixInstruction mmu s = some u)
    (hTurned : Turned mmu s u e ws r) (hc : n + 1 + c = count) (hRest : fixLoop mmu c u = some t)
    {l : Nat} (hl : l < ws.length) (hOpen : r = none ∨ 0 < l) :
    t.mach.read mmu (wordAt s.outrx l) = ws[l] := by
  have hRoom := h.room hInput (c := 1) hn
  have hLength := hTurned.length
  have hTurns := fixLoop_turns hInput hUnfolded hAlias (h.turn hInput hn hStep hTurned) (by omega) hRest
    (show k + l < k + ws.length by omega)
  have hFree : Backpatch.Free (scheme mmu) u.pass (mmu.tr (wordAt slot.rw (k + l))) := by
    intro idx g hg
    change g ∈ (u.ctx.dat idx).fmap at hg
    change mmu.tr g.bprw ≠ _
    rcases hTurned.pending hg with hOld | hSome
    · exact h.site_ne hUnfolded (by omega) (by omega) idx g hOld
    · obtain ⟨-, -, -, hRw, -⟩ := hTurned.opens idx g hSome
      intro hSame
      rw [hRw, h.cursor.outrw] at hSame
      have hZero := hUnfolded _ _ (by omega) (by omega) hSame
      rcases hOpen with hNone | hPos
      · rw [hNone] at hSome
        cases hSome
      · omega
  have hKept := (hTurns.free hFree).2
  rw [← h.code hInput hUnfolded hn hTurned hl, Mach.read, h.cursor.outrx, wordAt_wordAt,
    ← hAlias _ (by omega)]
  exact hKept

section

variable {refIdx : Nat} {F : Field} (h : Progress mmu slot inprw f count m k n s) (hn : n < count)
  (hStep : fixInstruction mmu s = some u)
  (hTurned : Turned mmu s u s.outrx [F.word (knownDistance s refIdx)] (openReference s refIdx F))
  (hc : n + 1 + c = count) (hRest : fixLoop mmu c u = some t)

include h hn hStep hTurned hc hRest

/-- A reference back, or to the instruction itself, has its distance when it is emitted. -/
theorem known_word (hKnown : refIdx ≤ n) :
    t.mach.read mmu s.outrx = F.word ((t.ctx.dat refIdx).ins - s.outrx) := by
  have hNow := h.currentIdx hInput (Nat.le_of_lt hn)
  have hNext := h.turn hInput hn hStep hTurned
  have hNone : openReference s refIdx F = none := if_pos (by omega)
  have hDistance : knownDistance s refIdx = (t.ctx.dat refIdx).ins - s.outrx := by
    rw [knownDistance, if_pos (by omega), fixLoop_places hInput hNext (by omega) hRest refIdx (by omega)]
    by_cases hSelf : refIdx = s.currentIdx
    · rw [hSelf, (Appends.start mmu s s.outrx).noted, hTurned.relocates.place]
    · rw [(Appends.start mmu s s.outrx).kept _ hSelf, hTurned.relocates.kept _ hSelf]
  have hWord := settled_word hInput hUnfolded hAlias h hn hStep hTurned hc hRest
    (l := 0) Nat.zero_lt_one (.inl hNone)
  rw [wordAt_zero, hDistance] at hWord
  exact hWord

/-- The word of a reference to a later instruction is left without the distance, and patched in its
turn. -/
theorem patched_word (hLater : n < refIdx) (hRef : refIdx < count) :
    t.mach.read mmu s.outrx = F.word ((t.ctx.dat refIdx).ins - s.outrx) := by
  have hRoom := h.room hInput (c := 1) hn
  have hNow := h.currentIdx hInput (Nat.le_of_lt hn)
  have hNext := h.turn hInput hn hStep hTurned
  have hOpen : openReference s refIdx F = some (refIdx, ⟨s.outrx, s.outrw, F.ls, F.ad⟩) :=
    if_neg (by omega)
  have hCode := h.code hInput hUnfolded hn hTurned (l := 0) Nat.zero_lt_one
  rw [Nat.add_zero, ← h.cursor.outrw] at hCode
  change u.mach.phys _ = F.word (knownDistance s refIdx) at hCode
  rw [knownDistance, if_neg (by omega), F.word_zero] at hCode
  rw [hOpen] at hTurned
  have hOld : ∀ idx, ∀ g ∈ (s.ctx.dat idx).fmap, mmu.tr g.bprw ≠ mmu.tr s.outrw := by
    intro idx g hg
    rw [h.cursor.outrw]
    exact h.site_ne hUnfolded (Nat.le_refl k) (by omega) idx g hg
  have hOnly : Backpatch.Only (scheme mmu) u.pass refIdx ⟨s.outrx, s.outrw, F.ls, F.ad⟩ := by
    refine ⟨⟨(s.ctx.dat refIdx).fmap, [], ?_, ?_⟩, fun idx hIdx g hg => ?_⟩
    · change (u.ctx.dat refIdx).fmap = _
      rw [hTurned.relocates.kept refIdx (by omega)]
      exact congrArg _ (if_pos rfl)
    · rw [List.append_nil]
      exact hOld refIdx
    · change g ∈ (u.ctx.dat idx).fmap at hg
      rcases hTurned.pending hg with hBefore | hNew
      · exact hOld idx g hBefore
      · cases hNew
        exact absurd rfl hIdx
  have hTurns := fixLoop_turns hInput hUnfolded hAlias hNext (by omega) hRest
    (show k < k + 1 from Nat.lt_succ_self k)
  rw [← h.cursor.outrw] at hTurns
  have hPatched := hTurns.resolved hOnly (by omega) (by omega)
  have hSame : mmu.tr s.outrx = mmu.tr s.outrw := by
    rw [h.cursor.outrx, h.cursor.outrw]
    exact (hAlias k (by omega)).symm
  rw [Mach.read, hSame]
  refine hPatched.trans ?_
  change u.mach.phys (mmu.tr s.outrw) ||| _ = _
  rw [hCode]
  rfl

end

/-- **The word of a reference.** In the end the word that an instruction has become refers to the place
that is noted for the instruction of the window that it referred to. -/
theorem reference_word (h : Progress mmu slot inprw f count m k n s) (hn : n < count)
    (hKind : referrer (s.ins mmu) = some (kind, d)) (hStep : fixInstruction mmu s = some u)
    (hc : n + 1 + c = count) (hRest : fixLoop mmu c u = some t)
    (hInside : s.ctx.isInFixingRange (absoluteAddr s.inprx (s.ins mmu) kind) = true) :
    t.mach.read mmu s.outrx = (fieldOf (s.ins mmu) kind).word ((t.ctx.dat
      (s.ctx.getRefInsIndex (absoluteAddr s.inprx (s.ins mmu) kind))).ins - s.outrx) := by
  have hReady := h.ready hInput (Nat.le_of_lt hn)
  have hTurned := refer_turned hReady (referrer_not_adrp hKind) hInside rfl (fieldOf (s.ins mmu) kind)
  rw [Option.some.inj ((fixInstruction_inside hReady hKind hInside).symm.trans hStep)] at hTurned
  have hRef := h.ref_lt hInput hInside
  rcases Nat.lt_or_ge n (s.ctx.getRefInsIndex (absoluteAddr s.inprx (s.ins mmu) kind)) with
    hLater | hKnown
  · exact patched_word hInput hUnfolded hAlias h hn hStep hTurned hc hRest hLater hRef
  · exact known_word hInput hUnfolded hAlias h hn hStep hTurned hc hRest hKnown

end

/-! ## Distances -/

/-- Words of the slot are not far from each other. -/
theorem slot_distance (a : Addr) {i j : Nat} (hi : i ≤ trampolineSize) (hj : j ≤ trampolineSize)
    (l : BitVec 2) : -(2 ^ 15 : Int) ≤ (wordAt a i + l.setWidth 64 - wordAt a j).toInt ∧
      (wordAt a i + l.setWidth 64 - wordAt a j).toInt < 2 ^ 15 := by
  have hSize : trampolineSize = 50 := rfl
  have hl := l.isLt
  have hNat : (wordAt a i + l.setWidth 64 - wordAt a j).toNat =
      (4 * i + l.toNat + 2 ^ 64 - 4 * j) % 2 ^ 64 := by
    have hLow : (l.setWidth 64).toNat = l.toNat := by
      rw [BitVec.toNat_setWidth]
      omega
    unfold wordAt
    generalize l.setWidth 64 = x at hLow
    bv_omega
  rw [BitVec.toInt_eq_toNat_cond, hNat]
  split <;> omega

theorem and_low (a : Addr) : a &&& 3#64 = (a.setWidth 2).setWidth 64 := by
  have hMask : ∀ i < 64, (3#64 : Addr).getLsbD i = decide (i < 2) := by decide
  ext i hi
  rw [BitVec.getElem_and, ← BitVec.getLsbD_eq_getElem (x := 3#64), hMask i hi]
  rw [BitVec.getElem_setWidth, BitVec.getLsbD_setWidth, BitVec.getLsbD_eq_getElem hi, Bool.and_comm]

/-- The low bits of the address are those of the distance, since the instruction was aligned. -/
theorem absoluteAddr_low {e : Addr} (he : Aligned e) (h : referrer w = some (kind, d)) :
    absoluteAddr e w kind &&& 3#64 = (d.setWidth 2).setWidth 64 := by
  have hCancel : ∀ z : BitVec 64, e + z - e = z := fun z => by grind
  rw [and_low, ← setWidth_sub_aligned he]
  congr 1
  rcases referrer_masks h with ⟨link, hOp, rfl, rfl⟩ |
    ⟨t, lmask, n, rfl, hMask, hField, hWidth, rfl, hTest⟩ | ⟨hOp, rfl, rfl⟩
  · rw [absoluteAddr, branchOffset_field, hCancel]
  · rw [absoluteAddr, hMask, Option.getD_some, hField.unsigned, hCancel,
      branchOffset_low]
    ext i hi
    simp
  · rw [setWidth_sub_aligned he, adrImm_low]
    exact adrAddress_low he w

/-! ## Words that are taken to refer out of the window -/

variable {e a : Addr} {ws : List Word} {lmask : Word}

/-- If the first word refers to an address, then to `a` or to the third word. -/
def FirstRefers (e a : Addr) (ws : List Word) : Prop :=
  ∃ v rest, ws = v :: rest ∧ ∀ kind d, referrer v = some (kind, d) →
    e + d = a ∨ d = 8#64 ∧ 2 < ws.length

theorem firstRefers_of_none {v : Word} (h : referrer v = none) (e a : Addr) (ws : List Word) :
    FirstRefers e a (v :: ws) := by
  refine ⟨v, ws, rfl, fun kind d hSome => ?_⟩
  rw [h] at hSome
  cases hSome

/-- Padding hides what the words refer to. -/
theorem firstRefers_padded {l : List Word} (hNops : ∀ w ∈ l, w = aarch64Nop)
    (h : FirstRefers e a ws) : FirstRefers e a (l ++ ws) := by
  cases l with
  | nil => exact h
  | cons w l =>
    rw [hNops w (by simp)]
    exact firstRefers_of_none (by decide) ..

/-- A branch that is far from its target. -/
theorem firstRefers_farBranch (link : Bool) (e a t : Addr) : FirstRefers e a
    (if link then alignPadLink e ++ absoluteCallWords t else alignPad e ++ absoluteJumpWords t) := by
  split
  · exact firstRefers_padded (alignPadLink_nops e) (firstRefers_of_none (by decide) ..)
  · exact firstRefers_padded (alignPad_nops e) (firstRefers_of_none (by decide) ..)

theorem firstRefers_branchWords (link : Bool) (he : Aligned e) (ha : Aligned a) :
    FirstRefers e a (branchWords link e a) := by
  unfold branchWords
  split
  · exact firstRefers_farBranch ..
  · rename_i hNear
    refine ⟨_, _, rfl, fun kind d hSome => .inl ?_⟩
    rw [Bool.not_eq_true] at hNear
    rw [referrer_core (decode_branchWord link (hookOffset e a)), referrer_branchInstr] at hSome
    cases hSome
    rw [branchOffset_hookOffset he ha hNear]
    grind

theorem firstRefers_condWords {test : Test} (hField : FieldOf lmask n)
    (hTest : ∀ x : Word, decodePcRel (withField lmask w x) =
      some (.branch test (branchOffset (x.extractLsb' 5 (n + 1)))))
    (he : Aligned e) (ha : Aligned a) : FirstRefers e a (condWords lmask w e a) := by
  have hBounds := hField.le
  unfold condWords
  rw [hField.threshold]
  split
  · refine firstRefers_padded (condPad_nops e) ⟨_, _, rfl, fun kind d hSome => .inr ⟨?_, ?_⟩⟩
    · rw [referrer_pcRel (hTest _)] at hSome
      cases hSome
      cases hField <;> rfl
    · simp [absoluteJumpWords]
  · rename_i hNear
    refine ⟨_, _, rfl, fun kind d hSome => .inl ?_⟩
    rw [referrer_pcRel (hTest _), extractLsb'_shifted (by omega)] at hSome
    cases hSome
    rw [branchOffset_of_fit (by omega) he ha (by omega)]
    grind

theorem firstRefers_adrWords (hOp : w &&& 0x9f000000#32 = 0x10000000#32)
    (hLow : (a - e).setWidth 2 = w.extractLsb' 29 2) : FirstRefers e a (adrWords w e a) := by
  unfold adrWords
  split
  · refine firstRefers_padded (alignPad_nops e) (firstRefers_of_none ?_ ..)
    rw [referrer_core (decode_addressLoad w)]
    rfl
  · rename_i hNear
    refine ⟨_, _, rfl, fun kind d hSome => .inl ?_⟩
    rw [referrer_pcRel (decode_nearAdr hOp hLow)] at hSome
    cases hSome
    unfold llabs at hNear
    rw [signExtend_setWidth (n := 20) (by omega) _ (by omega) (by omega)]
    grind

/-- What a word becomes that is taken to refer out of the window. -/
theorem fixInstruction_outside (hReady : Ready s) (h : referrer (s.ins mmu) = some (kind, d))
    (hOutside : s.ctx.isInFixingRange (absoluteAddr s.inprx (s.ins mmu) kind) = false) :
    ∃ u e ws, fixInstruction mmu s = some u ∧ Turned mmu s u e ws none ∧
      FirstRefers s.outrx (absoluteAddr s.inprx (s.ins mmu) kind) ws := by
  have hNot := referrer_not_adrp h
  have hFix := fun {t : Reloc} => fixInstruction_referrer (t := t) h
  rcases referrer_masks h with ⟨link, hOp, rfl, -⟩ | ⟨test, lmask, n, rfl, hMask, hField, -, -, hTest⟩ |
    ⟨hOp, rfl, -⟩
  · have hAddr : absoluteAddr s.inprx (s.ins mmu) (.jump link) =
        s.inprx + branchOffset ((s.ins mmu).setWidth 26) := by
      rw [absoluteAddr, branchOffset_field]
    rw [hAddr] at hOutside ⊢
    obtain ⟨u, hTurn, hAppends⟩ := fixBranchImm_appends (decode_branchOpcode hOp) hOutside
    have hLength := (length_branchWords link s.outrx
      (s.inprx + branchOffset ((s.ins mmu).setWidth 26))).1
    exact ⟨_, _, _, hFix hTurn, hAppends.turned (by omega) (placed_of_front hNot (front_branchWords ..)),
      firstRefers_branchWords link hReady.output (hReady.source.add_shifted _)⟩
  · have hAddr : absoluteAddr s.inprx (s.ins mmu) (.test test) =
        s.inprx + ((s.ins mmu &&& ~~~lmask) >>> 3).setWidth 64 := by
      rw [absoluteAddr, hMask, Option.getD_some]
    rw [hAddr] at hOutside ⊢
    obtain ⟨u, hTurn, hAppends⟩ := fixCondCompTestBranch_appends hMask rfl hOutside
    have hLength := length_condWords lmask (s.ins mmu) s.outrx
      (s.inprx + ((s.ins mmu &&& ~~~lmask) >>> 3).setWidth 64)
    refine ⟨_, _, _, hFix hTurn, hAppends.turned (by omega) (placed_of_front hNot (Front.start ..)),
      firstRefers_condWords hField hTest hReady.output ?_⟩
    rw [hField.unsigned]
    exact hReady.source.add_shifted _
  · have hTurn : fixPcreladdr mmu s = _ := fixPcreladdr_adr hOp
    have hLength := length_adrWords (s.ins mmu) s.outrx (absoluteAddr s.inprx (s.ins mmu)
      (.address ((s.ins mmu).setWidth 5)))
    refine ⟨_, _, _, hFix hTurn, (adrFrom_appends mmu hOutside).turned (by omega)
      (placed_of_front hNot (front_adrWords ..)), firstRefers_adrWords hOp ?_⟩
    rw [setWidth_sub_aligned hReady.output]
    exact adrAddress_low hReady.source _

end Wondar.Hook
