import Wondar.Hook.FixSpec
import Wondar.Hook.Jump

/-!
# What a relocation emits

As long as no reference inside the window is open, relocating a word appends to the output and
writes nothing else. `Emits s s' n ws` says that a run from `s` to `s'` has consumed `n` words
and appended exactly `ws`; it composes (`Emits.trans`), and the operations of the relocation
keep it.

A word that none of the `fix` functions recognises is emitted as it is (`fixLoop_plain`). When
a whole window is emitted the slot ends in the jump back (`fixInstructions_emits`); when only
its first words are known, they are at the start of the slot whatever the others become
(`fixInstructions_head`).
-/

namespace Wondar.Hook

open A64 Coherence

variable {mmu : Mmu} {slot : Slot} {s t t' : Reloc} {n n' count : Nat} {ws ws' : List Word}

/-! ## Open references -/

/-- No reference is open. -/
def Context.NoRefs (c : Context) : Prop := ∀ idx, (c.dat idx).fmap = []

theorem Context.NoRefs.setDat {c : Context} (h : c.NoRefs) (idx : Nat) (info : InsnsInfo)
    (hInfo : info.fmap = []) : (c.setDat idx info).NoRefs := by
  intro i
  by_cases hi : i = idx
  · subst hi
    simpa [Context.setDat] using hInfo
  · simpa [Context.setDat, hi] using h i

theorem Context.NoRefs.setCurrentIndex (h : s.ctx.NoRefs) (outp : Addr) :
    (s.setCurrentIndex outp).ctx.NoRefs :=
  h.setDat s.currentIdx { s.ctx.dat s.currentIdx with ins := outp } (h _)

theorem Context.NoRefs.resetCurrentIns (h : s.ctx.NoRefs) (idx : Nat) :
    (s.resetCurrentIns idx).ctx.NoRefs :=
  h.setDat idx { s.ctx.dat idx with ins := s.outrx } (h _)

theorem Context.NoRefs.processFixMap (h : s.ctx.NoRefs) (mmu : Mmu) (idx : Nat) :
    (s.processFixMap mmu idx).ctx.NoRefs ∧ (s.processFixMap mmu idx).mach = s.mach := by
  refine ⟨h.setDat _ _ rfl, ?_⟩
  rw [Reloc.processFixMap, h idx]
  rfl

/-! ## Emitted words -/

/-- `n` words have been consumed and `ws` appended. -/
structure Emits (mmu : Mmu) (s t : Reloc) (n : Nat) (ws : List Word) : Prop where
  phys : t.mach.phys = storeWords mmu s.mach.phys s.outrw ws
  outrw : t.outrw = wordAt s.outrw ws.length
  outrx : t.outrx = wordAt s.outrx ws.length
  inprw : t.inprw = wordAt s.inprw n
  inprx : t.inprx = wordAt s.inprx n
  basep : t.ctx.basep = s.ctx.basep
  endp : t.ctx.endp = s.ctx.endp
  refs : t.ctx.NoRefs

theorem Emits.refl (mmu : Mmu) (h : s.ctx.NoRefs) : Emits mmu s s 0 [] where
  phys := rfl
  outrw := (wordAt_zero _).symm
  outrx := (wordAt_zero _).symm
  inprw := (wordAt_zero _).symm
  inprx := (wordAt_zero _).symm
  basep := rfl
  endp := rfl
  refs := h

theorem Emits.trans (h : Emits mmu s t n ws) (h' : Emits mmu t t' n' ws') :
    Emits mmu s t' (n + n') (ws ++ ws') where
  phys := by rw [h'.phys, h.phys, h.outrw, storeWords_append]
  outrw := by rw [h'.outrw, h.outrw, wordAt_wordAt, List.length_append]
  outrx := by rw [h'.outrx, h.outrx, wordAt_wordAt, List.length_append]
  inprw := by rw [h'.inprw, h.inprw, wordAt_wordAt]
  inprx := by rw [h'.inprx, h.inprx, wordAt_wordAt]
  basep := h'.basep.trans h.basep
  endp := h'.endp.trans h.endp
  refs := h'.refs

theorem Emits.setCurrentIndex (h : Emits mmu s t n ws) (outp : Addr) :
    Emits mmu s (t.setCurrentIndex outp) n ws :=
  { h with refs := h.refs.setCurrentIndex outp }

theorem Emits.resetCurrentIns (h : Emits mmu s t n ws) (idx : Nat) :
    Emits mmu s (t.resetCurrentIns idx) n ws :=
  { h with refs := h.refs.resetCurrentIns idx }

theorem Emits.consume (h : Emits mmu s t n ws) : Emits mmu s t.consume (n + 1) ws :=
  { h with
    inprw := by rw [Reloc.consume, h.inprw, wordAt_wordAt]
    inprx := by rw [Reloc.consume, h.inprx, wordAt_wordAt] }

theorem Emits.processFixMap (h : Emits mmu s t n ws) (idx : Nat) :
    Emits mmu s (t.processFixMap mmu idx) n ws := by
  obtain ⟨hRefs, hMach⟩ := h.refs.processFixMap mmu idx
  exact { h with
    phys := by rw [hMach, h.phys]
    refs := hRefs }

/-- Words that have been stored at the output, and the cursors behind them. -/
theorem Emits.block (h : Emits mmu s t n ws) (ws' : List Word) {m : Machine}
    (hPhys : m.phys = storeWords mmu t.mach.phys t.outrw ws') :
    Emits mmu s (({ t with mach := m } : Reloc).advance ws'.length) n (ws ++ ws') := by
  have hBlock : Emits mmu t (({ t with mach := m } : Reloc).advance ws'.length) 0 ws' :=
    { Emits.refl mmu h.refs with
      phys := hPhys
      outrw := rfl
      outrx := rfl }
  exact h.trans hBlock

theorem Emits.put (h : Emits mmu s t n ws) (w : Word) :
    Emits mmu s ((t.put mmu 0 w).advance 1) n (ws ++ [w]) :=
  h.block [w] (by simp [Mach.store, storeWords])

theorem Emits.nop (h : Emits mmu s t n ws) : Emits mmu s (t.nop mmu) n (ws ++ [aarch64Nop]) :=
  h.put aarch64Nop

theorem Emits.absoluteJump (h : Emits mmu s t n ws) (target : Addr) :
    Emits mmu s ((t.putAbsoluteJump mmu 0 target).advance 4) n (ws ++ absoluteJumpWords target) :=
  h.block (absoluteJumpWords target) (putAbsoluteJump_phys mmu t target)

theorem fixLoop_add (n count : Nat) (s : Reloc) :
    fixLoop mmu (n + count) s = (fixLoop mmu n s).bind (fixLoop mmu count) := by
  induction n generalizing s with
  | zero => simp [fixLoop]
  | succ n ih =>
    rw [Nat.succ_add, fixLoop, fixLoop, Option.bind_assoc]
    exact congrArg _ (funext ih)

/-! ## Plain words -/

/-- None of the four functions recognises the word. -/
def Unrecognised (w : Word) : Prop := ∀ (mmu : Mmu) (s : Reloc), s.ins mmu = w →
  fixBranchImm mmu s = .skipped ∧ fixCondCompTestBranch mmu s = .skipped ∧
    fixLoadlit mmu s = .skipped ∧ fixPcreladdr mmu s = .skipped

/-- The masks of the four functions. -/
def recognised (w : Word) : Bool :=
  w &&& 0xfc000000#32 == 0x14000000#32 || w &&& 0xfc000000#32 == 0x94000000#32 ||
    (condLmask w).isSome || w &&& 0xff000000#32 == 0xd8000000#32 || (loadlitMask w).isSome ||
    w &&& 0x9f000000#32 == 0x10000000#32 || w &&& 0x9f000000#32 == 0x90000000#32

theorem unrecognised_of_masks {w : Word} (h : recognised w = false) : Unrecognised w := by
  simp only [recognised, Bool.or_eq_false_iff, beq_eq_false_iff_ne, Option.isSome_eq_false_iff,
    Option.isNone_iff_eq_none] at h
  obtain ⟨⟨⟨⟨⟨⟨hB, hBl⟩, hCond⟩, hPrfm⟩, hLoad⟩, hAdr⟩, hAdrp⟩ := h
  rintro mmu s rfl
  refine ⟨?_, ?_, ?_, ?_⟩
  · simp only [fixBranchImm, hB, hBl, or_self, if_false]
  · simp only [fixCondCompTestBranch, hCond]
  · simp only [fixLoadlit, hPrfm, hLoad, if_false]
  · simp only [fixPcreladdr, hAdr, hAdrp, if_false]

theorem fixInstruction_plain (h : Unrecognised (s.ins mmu)) :
    fixInstruction mmu s = some (copyInstruction mmu s) := by
  obtain ⟨hBranch, hCond, hLoad, hAddr⟩ := h mmu s rfl
  simp only [fixInstruction, hBranch, hCond, hLoad, hAddr]

theorem fixLoop_one (s : Reloc) : fixLoop mmu 1 s = fixInstruction mmu s :=
  Option.bind_fun_some _

/-- Without open references a plain word is copied. -/
theorem copyInstruction_emits (mmu : Mmu) (h : s.ctx.NoRefs) :
    Emits mmu s (copyInstruction mmu s) 1 [s.ins mmu] := by
  have hSet := ((Emits.refl mmu h).setCurrentIndex s.outrx).processFixMap s.currentIdx
  have hIns : ((s.setCurrentIndex s.outrx).processFixMap mmu s.currentIdx).ins mmu = s.ins mmu := by
    rw [Reloc.ins, ((h.setCurrentIndex s.outrx).processFixMap mmu s.currentIdx).2]
    rfl
  rw [← hIns]
  exact (hSet.put _).consume

/-- The words of memory from `a` on. -/
def wordsAt (mmu : Mmu) (m : Machine) (a : Addr) (n : Nat) : List Word :=
  (List.range n).map fun i => m.read mmu (wordAt a i)

theorem length_wordsAt (mmu : Mmu) (m : Machine) (a : Addr) (n : Nat) :
    (wordsAt mmu m a n).length = n := by
  simp [wordsAt]

theorem jumpWords_le (e t : Addr) : (jumpWords e t).length ≤ maxInstructions := by
  rw [length_jumpWords]
  exact patchCount_le e t

theorem wordsAt_succ (mmu : Mmu) (m : Machine) (a : Addr) (n : Nat) :
    wordsAt mmu m a (n + 1) = m.read mmu a :: wordsAt mmu m (wordAt a 1) n := by
  simp [wordsAt, List.range_succ_eq_map, Function.comp_def, Nat.add_comm]

/-- Words elsewhere are not affected by what is emitted. -/
theorem Emits.read (h : Emits mmu s t n ws) {a : Addr}
    (hApart : ∀ j < ws.length, mmu.tr a ≠ mmu.tr (wordAt s.outrw j)) :
    t.mach.read mmu a = s.mach.read mmu a := by
  rw [Mach.read, h.phys, storeWords_frame hApart]
  rfl

/-- A window of plain words is copied in order. -/
theorem fixLoop_plain (hRefs : s.ctx.NoRefs)
    (hPlain : ∀ i < count, Unrecognised (s.mach.read mmu (wordAt s.inprw i)))
    (hApart : mmu.Apart s.inprw count s.outrw count) :
    ∃ t, fixLoop mmu count s = some t ∧ Emits mmu s t count (wordsAt mmu s.mach s.inprw count) := by
  induction count generalizing s with
  | zero => exact ⟨s, rfl, Emits.refl mmu hRefs⟩
  | succ count ih =>
    have hFirst := hPlain 0 (by omega)
    rw [wordAt_zero] at hFirst
    have hStep := fixInstruction_plain (s := s) hFirst
    have hNext := copyInstruction_emits mmu hRefs
    generalize copyInstruction mmu s = u at hStep hNext
    -- the words still to be copied are where they were
    have hRead : ∀ i < count, u.mach.read mmu (wordAt u.inprw i) =
        s.mach.read mmu (wordAt s.inprw (i + 1)) := by
      intro i hi
      rw [hNext.inprw, wordAt_wordAt, Nat.add_comm]
      refine hNext.read fun j hj => hApart (i + 1) j (by omega) ?_
      rw [List.length_singleton] at hj
      omega
    obtain ⟨t, hLoop, hEmits⟩ := ih hNext.refs
      (fun i hi => by rw [hRead i hi]; exact hPlain (i + 1) (by omega))
      (fun i j hi hj => by
        rw [hNext.inprw, hNext.outrw, wordAt_wordAt, wordAt_wordAt, List.length_singleton]
        exact hApart _ _ (by omega) (by omega))
    refine ⟨t, by rw [fixLoop, hStep]; exact hLoop, ?_⟩
    have hRest : wordsAt mmu u.mach u.inprw count = wordsAt mmu s.mach (wordAt s.inprw 1) count := by
      refine List.map_congr_left fun i hi => ?_
      rw [hRead i (List.mem_range.mp hi), wordAt_wordAt, Nat.add_comm]
    rw [hRest] at hEmits
    rw [wordsAt_succ, Nat.add_comm]
    exact hNext.trans hEmits

/-! ## The slot -/

section

variable {ctrlRw f : Addr} {m m' : Machine}

/-- The slot of a window whose words are all emitted. -/
theorem fixInstructions_emits
    (hLoop : fixLoop mmu count (startReloc ctrlRw f count slot.rw slot.rx m) = some t)
    (h : Emits mmu (startReloc ctrlRw f count slot.rw slot.rx m) t count ws)
    (hUnfolded : mmu.Unfolded slot.rw trampolineSize) (hFits : ws.length + maxInstructions ≤ trampolineSize) :
    ∃ m', fixInstructions mmu ctrlRw f count slot.rw slot.rx m = some m' ∧
      CodeAt (m'.view mmu) slot.rw (ws ++ jumpWords (wordAt slot.rx ws.length) (wordAt f count)) := by
  have hJump := jumpWords_le (wordAt slot.rx ws.length) (wordAt f count)
  have hPhys := putJumpBack_phys mmu t
  rw [h.outrw, h.outrx, h.inprx, h.phys] at hPhys
  -- the cursors started at the slot and at the target
  replace hPhys : (putJumpBack mmu t).mach.phys = storeWords mmu m.phys slot.rw
      (ws ++ jumpWords (wordAt slot.rx ws.length) (wordAt f count)) := by
    rw [hPhys, storeWords_append]
    rfl
  refine ⟨_, by rw [fixInstructions, hLoop]; rfl, ?_⟩
  change CodeAt (fun a => (putJumpBack mmu t).mach.phys (mmu.tr a)) _ _
  rw [hPhys]
  refine codeAt_store (fun i j hi hj => hUnfolded i j ?_ ?_) fun _ _ => rfl
  · rw [List.length_append] at hi
    omega
  · rw [List.length_append] at hj
    omega

/-- The first instructions of a window that was relocated. -/
theorem fixLoop_first (hn : n ≤ count)
    (hFix : fixInstructions mmu ctrlRw f count slot.rw slot.rx m = some m') :
    ∃ u, fixLoop mmu n (startReloc ctrlRw f count slot.rw slot.rx m) = some u := by
  obtain ⟨t, hLoop, -⟩ := Option.map_eq_some_iff.mp hFix
  rw [← Nat.add_sub_cancel' hn, fixLoop_add, Nat.add_sub_cancel' hn] at hLoop
  obtain ⟨u, hFirst, -⟩ := Option.bind_eq_some_iff.mp hLoop
  exact ⟨u, hFirst⟩

/-- The start of the slot, when the first `n` words of the window are emitted. -/
theorem fixInstructions_head (hn : n ≤ count) (hCount : count ≤ maxInstructions)
    (hLoop : fixLoop mmu n (startReloc ctrlRw f count slot.rw slot.rx m) = some t)
    (h : Emits mmu (startReloc ctrlRw f count slot.rw slot.rx m) t n ws)
    (hUnfolded : mmu.Unfolded slot.rw trampolineSize) (hFits : ws.length ≤ 9 * n)
    (hFix : fixInstructions mmu ctrlRw f count slot.rw slot.rx m = some m') :
    CodeAt (m'.view mmu) slot.rw ws := by
  have hMax : maxInstructions = 5 := rfl
  have hSize : trampolineSize = 50 := rfl
  obtain ⟨u, hRest, rfl⟩ := Option.map_eq_some_iff.mp hFix
  rw [← Nat.add_sub_cancel' hn, fixLoop_add, Nat.add_sub_cancel' hn, hLoop, Option.bind_some] at hRest
  -- the rest of the window writes behind the words that are known
  have hStart : Cursor mmu slot ws.length t ws.length 0 t :=
    .start h.outrw h.outrx (Nat.le_refl _) fun idx f hf => by
      rw [h.refs idx] at hf
      cases hf
  obtain ⟨k, -, hk, hCursor⟩ := fixLoop_cursor hStart hRest
  obtain ⟨k', -, hk', hEnd⟩ := putJumpBack_cursor hCursor
  change CodeAt (fun a => (putJumpBack mmu u).mach.phys (mmu.tr a)) _ _
  have hKept : CodeAt (fun a => t.mach.phys (mmu.tr a)) slot.rw ws := by
    rw [h.phys]
    exact codeAt_store (fun i j hi hj => hUnfolded i j (by omega) (by omega)) fun _ _ => rfl
  have hSame : ∀ i < ws.length, (putJumpBack mmu u).mach.phys (mmu.tr (wordAt slot.rw i)) =
      t.mach.phys (mmu.tr (wordAt slot.rw i)) := fun i hi =>
    hEnd.frame _ fun j hj hjk hSame => by
      have := hUnfolded i j (by omega) (by omega) hSame
      omega
  exact (codeAt_congr hSame).mpr hKept

end

end Wondar.Hook
