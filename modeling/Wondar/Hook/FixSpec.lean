import Wondar.Hook.Fix

/-!
# Where a relocation writes

Whatever the words of a window are, a relocation keeps its two output cursors in step,
consumes one input word for each turn of the loop, and writes only words of the slot behind
the one it started at. `Cursor` is this invariant, relative to a starting state: word `k` of
the slot is the next to be written, `c` input words have been consumed, and of all physical
words only those of the slot from `lo` on may have changed, and the log has grown by stores.
References that are still open
lie there too, so that closing them stays inside.

Each operation of the relocation keeps the invariant; a block of stores moves it when the
cursors are advanced behind it (`Cursor.block`). `fixInstruction_cursor` puts the operations
together for one instruction, which takes at most nine words, `fixLoop_cursor` is the
induction over the window, and `putJumpBack_cursor` adds at most five words.
-/

namespace Wondar.Hook

open A64 Coherence

variable {mmu : Mmu} {slot : Slot} {lo : Nat} {s₀ s s' : Reloc} {k c n : Nat}

/-! ## The invariant -/

variable (mmu slot lo s₀) in
structure Cursor (k c : Nat) (s : Reloc) : Prop where
  outrw : s.outrw = wordAt slot.rw k
  outrx : s.outrx = wordAt slot.rx k
  inprw : s.inprw = wordAt s₀.inprw c
  inprx : s.inprx = wordAt s₀.inprx c
  basep : s.ctx.basep = s₀.ctx.basep
  endp : s.ctx.endp = s₀.ctx.endp
  low : lo ≤ k
  pending : ∀ idx, ∀ f ∈ (s.ctx.dat idx).fmap, ∃ j, lo ≤ j ∧ j < k ∧ f.bprw = wordAt slot.rw j
  frame : ∀ p, (∀ j, lo ≤ j → j < k → p ≠ mmu.tr (wordAt slot.rw j)) →
    s.mach.phys p = s₀.mach.phys p
  log : Grows s₀.mach.log s.mach.log

/-- A state whose open references lie before its output cursor is a start of its own. -/
theorem Cursor.start (hRw : s.outrw = wordAt slot.rw k) (hRx : s.outrx = wordAt slot.rx k)
    (hLow : lo ≤ k) (hPending : ∀ idx, ∀ f ∈ (s.ctx.dat idx).fmap,
      ∃ j, lo ≤ j ∧ j < k ∧ f.bprw = wordAt slot.rw j) : Cursor mmu slot lo s k 0 s where
  outrw := hRw
  outrx := hRx
  inprw := (wordAt_zero _).symm
  inprx := (wordAt_zero _).symm
  basep := rfl
  endp := rfl
  low := hLow
  pending := hPending
  frame := fun _ _ => rfl
  log := Grows.refl _

/-! ## The context -/

theorem setDat_fmap {ctx : Context} {idx : Nat} {info : InsnsInfo} {P : FixInfo → Prop}
    (h : ∀ i, ∀ f ∈ (ctx.dat i).fmap, P f) (hInfo : ∀ f ∈ info.fmap, P f) :
    ∀ i, ∀ f ∈ ((ctx.setDat idx info).dat i).fmap, P f := by
  intro i
  by_cases hi : i = idx
  · subst hi
    simpa [Context.setDat] using hInfo
  · simpa [Context.setDat, hi] using h i

theorem Cursor.setCurrentIndex (h : Cursor mmu slot lo s₀ k c s) (outp : Addr) :
    Cursor mmu slot lo s₀ k c (s.setCurrentIndex outp) :=
  { h with pending := setDat_fmap h.pending (h.pending _) }

theorem Cursor.resetCurrentIns (h : Cursor mmu slot lo s₀ k c s) (idx : Nat) :
    Cursor mmu slot lo s₀ k c (s.resetCurrentIns idx) :=
  { h with pending := setDat_fmap h.pending (h.pending _) }

theorem Cursor.consume (h : Cursor mmu slot lo s₀ k c s) :
    Cursor mmu slot lo s₀ k (c + 1) s.consume :=
  { h with
    inprw := by rw [Reloc.consume, h.inprw, wordAt_wordAt]
    inprx := by rw [Reloc.consume, h.inprx, wordAt_wordAt] }

/-! ## Blocks of stores -/

/-- Nothing has happened except stores to the next `n` words of the output. -/
structure Puts (mmu : Mmu) (n : Nat) (s s' : Reloc) : Prop where
  outrw : s'.outrw = s.outrw
  outrx : s'.outrx = s.outrx
  inprw : s'.inprw = s.inprw
  inprx : s'.inprx = s.inprx
  ctx : s'.ctx = s.ctx
  frame : ∀ p, (∀ j < n, p ≠ mmu.tr (wordAt s.outrw j)) → s'.mach.phys p = s.mach.phys p
  log : Grows s.mach.log s'.mach.log

theorem Puts.refl : Puts mmu n s s :=
  ⟨rfl, rfl, rfl, rfl, rfl, fun _ _ => rfl, Grows.refl _⟩

/-- One more store. -/
theorem Puts.store (h : Puts mmu n s s') {i : Nat} {ws : List Word} (hFits : i + ws.length ≤ n) :
    Puts mmu n s { s' with mach := s'.mach.store mmu (wordAt s'.outrw i) ws } where
  outrw := h.outrw
  outrx := h.outrx
  inprw := h.inprw
  inprx := h.inprx
  ctx := h.ctx
  frame := by
    intro p hp
    rw [← h.frame p hp]
    refine Mach.store_frame fun j hj => ?_
    rw [h.outrw, wordAt_wordAt]
    exact hp _ (by omega)
  log := h.log.trans Mach.store_grows

theorem Puts.put (h : Puts mmu n s s') {i : Nat} (hi : i < n) (w : Word) :
    Puts mmu n s (s'.put mmu i w) := h.store (by simp; omega)

theorem Puts.put64 (h : Puts mmu n s s') {i : Nat} (hi : i + 2 ≤ n) (val : BitVec 64) :
    Puts mmu n s (s'.put64 mmu i val) := h.store (by simpa using hi)

theorem Puts.copy (h : Puts mmu n s s') {i count : Nat} (hi : i + count ≤ n) (src : Addr) :
    Puts mmu n s (s'.copy mmu i count src) := h.store (by simpa using hi)

theorem Puts.absoluteJump (h : Puts mmu n s s') {i : Nat} (hi : i + 4 ≤ n) (target : BitVec 64) :
    Puts mmu n s (s'.putAbsoluteJump mmu i target) :=
  ((h.put (by omega) _).put (by omega) _).put64 (by omega) _

/-- The cursors move behind a block. -/
theorem Cursor.block (h : Cursor mmu slot lo s₀ k c s) (hPuts : Puts mmu n s s') :
    Cursor mmu slot lo s₀ (k + n) c (s'.advance n) where
  outrw := by rw [Reloc.advance, hPuts.outrw, h.outrw, wordAt_wordAt]
  outrx := by rw [Reloc.advance, hPuts.outrx, h.outrx, wordAt_wordAt]
  inprw := hPuts.inprw.trans h.inprw
  inprx := hPuts.inprx.trans h.inprx
  basep := (congrArg Context.basep hPuts.ctx).trans h.basep
  endp := (congrArg Context.endp hPuts.ctx).trans h.endp
  low := Nat.le_add_right_of_le h.low
  pending := by
    intro idx f hf
    rw [Reloc.advance, hPuts.ctx] at hf
    obtain ⟨j, hj, hjk, hAddr⟩ := h.pending idx f hf
    exact ⟨j, hj, by omega, hAddr⟩
  frame := by
    intro p hp
    have hLow := h.low
    have hBlock := hPuts.frame p fun j hj => by
      rw [h.outrw, wordAt_wordAt]
      exact hp _ (by omega) (by omega)
    exact hBlock.trans (h.frame p fun j hj hjk => hp j hj (by omega))
  log := h.log.trans hPuts.log

theorem Cursor.nop (h : Cursor mmu slot lo s₀ k c s) :
    Cursor mmu slot lo s₀ (k + 1) c (s.nop mmu) :=
  h.block (Puts.refl.put Nat.zero_lt_one _)

/-! ## References inside the window -/

/-- A word that refers into the window, noted as open or not. -/
theorem Cursor.reference (h : Cursor mmu slot lo s₀ k c s) (currentIdx refIdx shift ls : Nat)
    (ad w : Word) : Cursor mmu slot lo s₀ (k + 1) c
      (((windowReference s currentIdx refIdx shift ls ad).2.put mmu 0 w).advance 1) := by
  have hBlock : Cursor mmu slot lo s₀ (k + 1) c ((s.put mmu 0 w).advance 1) :=
    h.block (Puts.refl.put Nat.zero_lt_one w)
  unfold windowReference
  split
  · exact hBlock
  · unfold Reloc.insertFixMap Context.insertFixMap
    split
    · have hLow := h.low
      refine { hBlock with pending := setDat_fmap hBlock.pending ?_ }
      intro f hf
      rcases List.mem_append.mp hf with hOld | hNew
      · exact hBlock.pending refIdx f hOld
      · cases List.mem_singleton.mp hNew
        exact ⟨k, hLow, by omega, h.outrw⟩
    · exact hBlock

theorem processRefs_frame {ins : BitVec 64} {fs : List FixInfo} {m : Machine} {p : BitVec 64}
    (h : ∀ f ∈ fs, p ≠ mmu.tr f.bprw) : (processRefs mmu ins fs m).phys p = m.phys p := by
  induction fs generalizing m with
  | nil => rfl
  | cons f fs ih =>
    rw [processRefs, ih fun g hg => h g (by simp [hg])]
    refine Mach.store_frame fun i hi => ?_
    simp only [List.length_singleton, Nat.lt_one_iff] at hi
    subst hi
    rw [wordAt_zero]
    exact h f (by simp)

theorem processRefs_log (ins : BitVec 64) (fs : List FixInfo) (m : Machine) :
    Grows m.log (processRefs mmu ins fs m).log := by
  induction fs generalizing m with
  | nil => exact Grows.refl _
  | cons f fs ih =>
    have hStore : Grows m.log (m.store mmu f.bprw [f.value mmu m ins]).log := Mach.store_grows
    exact hStore.trans (ih _)

theorem Cursor.processFixMap (h : Cursor mmu slot lo s₀ k c s) (idx : Nat) :
    Cursor mmu slot lo s₀ k c (s.processFixMap mmu idx) :=
  { h with
    pending := setDat_fmap h.pending fun _ hf => by cases hf
    frame := by
      intro p hp
      rw [Reloc.processFixMap, processRefs_frame, h.frame p hp]
      intro f hf
      obtain ⟨j, hj, hjk, hAddr⟩ := h.pending idx f hf
      rw [hAddr]
      exact hp j hj hjk
    log := h.log.trans (processRefs_log ..) }

/-! ## One instruction -/

/-- The cursor has moved by at most `n` words of output. -/
def Within (mmu : Mmu) (slot : Slot) (lo : Nat) (s₀ : Reloc) (k n c : Nat) (s : Reloc) : Prop :=
  ∃ k', k ≤ k' ∧ k' ≤ k + n ∧ Cursor mmu slot lo s₀ k' c s

theorem Cursor.within (h : Cursor mmu slot lo s₀ k c s) {i : Nat} (hi : i ≤ k) (hk : k ≤ i + n) :
    Within mmu slot lo s₀ i n c s := ⟨k, hi, hk, h⟩

theorem fixBranchImm_cursor (h : Cursor mmu slot lo s₀ k c s) (hFix : fixBranchImm mmu s = .fixed s') :
    Within mmu slot lo s₀ k 6 (c + 1) s' := by
  have hSet := h.setCurrentIndex s.outrx
  unfold fixBranchImm at hFix
  dsimp only at hFix
  split at hFix
  · rw [Outcome.fixed.injEq] at hFix
    subst hFix
    split
    · split
      · split
        · exact ((hSet.block (Puts.refl.absoluteJump (by omega) _)).consume.processFixMap _).within
            (by omega) (by omega)
        · exact (((hSet.nop.resetCurrentIns _).block
            (Puts.refl.absoluteJump (by omega) _)).consume.processFixMap _).within
            (by omega) (by omega)
      · split
        · exact (((hSet.nop.resetCurrentIns _).block
            ((((Puts.refl.put (by omega) _).put (by omega) _).put (by omega) _).put64
              (by omega) _)).consume.processFixMap _).within (by omega) (by omega)
        · exact ((hSet.block
            ((((Puts.refl.put (by omega) _).put (by omega) _).put (by omega) _).put64
              (by omega) _)).consume.processFixMap _).within (by omega) (by omega)
    · split
      · exact ((hSet.reference ..).consume.processFixMap _).within (by omega) (by omega)
      · exact ((hSet.block (Puts.refl.put (by omega) _)).consume.processFixMap _).within
          (by omega) (by omega)
  · cases hFix

theorem fixCondCompTestBranch_cursor (h : Cursor mmu slot lo s₀ k c s)
    (hFix : fixCondCompTestBranch mmu s = .fixed s') :
    Within mmu slot lo s₀ k 7 (c + 1) s' := by
  have hSet := h.setCurrentIndex s.outrx
  unfold fixCondCompTestBranch at hFix
  dsimp only at hFix
  split at hFix
  · cases hFix
  · rw [Outcome.fixed.injEq] at hFix
    subst hFix
    split
    · split
      · exact ((hSet.block (((Puts.refl.put (by omega) _).put (by omega) _).absoluteJump
          (by omega) _)).consume.processFixMap _).within (by omega) (by omega)
      · exact (((hSet.resetCurrentIns _).nop.block
          (((Puts.refl.put (by omega) _).put (by omega) _).absoluteJump
            (by omega) _)).consume.processFixMap _).within (by omega) (by omega)
    · split
      · exact ((hSet.reference ..).consume.processFixMap _).within (by omega) (by omega)
      · exact ((hSet.block (Puts.refl.put (by omega) _)).consume.processFixMap _).within
          (by omega) (by omega)

theorem padWhile_cursor {cond : Reloc → Bool} {fuel : Nat} (h : Cursor mmu slot lo s₀ k c s)
    (hPad : padWhile mmu cond fuel s = some s') : Within mmu slot lo s₀ k fuel c s' := by
  induction fuel generalizing s k with
  | zero =>
    rw [padWhile] at hPad
    split at hPad
    · cases hPad
    · cases hPad
      exact h.within (by omega) (by omega)
  | succ fuel ih =>
    rw [padWhile] at hPad
    split at hPad
    · obtain ⟨k', hk, hk', hCursor⟩ := ih h.nop hPad
      exact hCursor.within (by omega) (by omega)
    · cases hPad
      exact h.within (by omega) (by omega)

/-- The size of a literal, less one, is at most fifteen. -/
theorem loadlitMask_size {ins mask : Word} {faligned : Nat}
    (h : loadlitMask ins = some (mask, faligned)) : faligned ≤ 15 := by
  have hIte : ∀ (P : Prop) [Decidable P] (a b : Nat), a ≤ 15 → b ≤ 15 → (if P then a else b) ≤ 15 := by
    intro P _ a b ha hb
    split <;> assumption
  unfold loadlitMask at h
  dsimp only at h
  split at h
  · cases h
    exact hIte _ _ _ (by omega) (by omega)
  · split at h
    · cases h
      exact hIte _ _ _ (hIte _ _ _ (by omega) (by omega)) (hIte _ _ _ (by omega) (by omega))
    · split at h
      · cases h
        omega
      · cases h

theorem fixLoadlit_cursor (h : Cursor mmu slot lo s₀ k c s) (hFix : fixLoadlit mmu s = .fixed s') :
    Within mmu slot lo s₀ k 9 (c + 1) s' := by
  have hSet := h.setCurrentIndex s.outrx
  unfold fixLoadlit at hFix
  dsimp only at hFix
  split at hFix
  · rw [Outcome.fixed.injEq] at hFix
    subst hFix
    exact (hSet.processFixMap _).consume.within (by omega) (by omega)
  · split at hFix
    · cases hFix
    · rename_i mask faligned hMask
      have hSize := loadlitMask_size hMask
      split at hFix
      · cases hFix
      · rename_i t hEmit
        rw [Outcome.fixed.injEq] at hFix
        subst hFix
        split at hEmit
        · obtain ⟨u, hPad, hEmit⟩ := Option.bind_eq_some_iff.mp hEmit
          obtain ⟨k', hk, hk', hCursor⟩ := padWhile_cursor hSet hPad
          split at hEmit
          · rw [Option.some.injEq] at hEmit
            subst hEmit
            refine (((hCursor.resetCurrentIns _).block
              (((Puts.refl.put (by omega) _).put (by omega) _).copy
                (Nat.le_refl _) _)).consume.processFixMap _).within (by omega) ?_
            change k' ≤ k + 3 at hk'
            omega
          · cases hEmit
        · obtain ⟨u, hPad, hEmit⟩ := Option.map_eq_some_iff.mp hEmit
          obtain ⟨k', hk, hk', hCursor⟩ := padWhile_cursor hSet hPad
          subst hEmit
          refine (((hCursor.resetCurrentIns _).block
            (Puts.refl.put Nat.zero_lt_one _)).consume.processFixMap _).within (by omega) ?_
          change k' ≤ k + 3 at hk'
          omega

theorem putAddress_cursor (h : Cursor mmu slot lo s₀ k c s) (currentIdx : Nat) (ins : Word)
    (absoluteAddr : BitVec 64) :
    Within mmu slot lo s₀ k 5 c (putAddress mmu s currentIdx ins absoluteAddr) := by
  unfold putAddress
  dsimp only
  split
  · exact (h.block (((Puts.refl.put (by omega) _).put (by omega) _).put64
      (by omega) _)).within (by omega) (by omega)
  · exact ((h.nop.resetCurrentIns _).block (((Puts.refl.put (by omega) _).put (by omega) _).put64
      (by omega) _)).within (by omega) (by omega)

theorem fixPcreladdr_cursor (h : Cursor mmu slot lo s₀ k c s)
    (hFix : fixPcreladdr mmu s = .fixed s') : Within mmu slot lo s₀ k 5 (c + 1) s' := by
  unfold fixPcreladdr at hFix
  dsimp only at hFix
  split at hFix
  · cases hFix
  · rename_i t hEmit
    rw [Outcome.fixed.injEq] at hFix
    subst hFix
    suffices hIn : Within mmu slot lo s₀ k 5 c t by
      obtain ⟨k', hk, hk', hCursor⟩ := hIn
      exact (hCursor.processFixMap _).consume.within hk hk'
    split at hEmit
    · split at hEmit
      · rw [Option.some.injEq] at hEmit
        subst hEmit
        exact putAddress_cursor (h.setCurrentIndex _) ..
      · rw [Option.some.injEq] at hEmit
        subst hEmit
        split
        · exact ((h.setCurrentIndex _).reference ..).within (by omega) (by omega)
        · exact ((h.setCurrentIndex _).block (Puts.refl.put Nat.zero_lt_one _)).within
            (by omega) (by omega)
    · split at hEmit
      · split at hEmit
        · rw [Option.some.injEq] at hEmit
          subst hEmit
          exact ((h.setCurrentIndex _).block (Puts.refl.put Nat.zero_lt_one _)).within
            (by omega) (by omega)
        · rw [Option.some.injEq] at hEmit
          subst hEmit
          exact putAddress_cursor (h.setCurrentIndex _) ..
      · cases hEmit

theorem copyInstruction_cursor (h : Cursor mmu slot lo s₀ k c s) :
    Cursor mmu slot lo s₀ (k + 1) (c + 1) (copyInstruction mmu s) :=
  (((h.setCurrentIndex _).processFixMap _).block (Puts.refl.put Nat.zero_lt_one _)).consume

/-- One turn of the loop emits at most nine words. -/
theorem fixInstruction_cursor (h : Cursor mmu slot lo s₀ k c s)
    (hFix : fixInstruction mmu s = some s') : Within mmu slot lo s₀ k 9 (c + 1) s' := by
  have hWiden : ∀ {n}, n ≤ 9 → Within mmu slot lo s₀ k n (c + 1) s' →
      Within mmu slot lo s₀ k 9 (c + 1) s' := by
    rintro n hn ⟨k', hk, hk', hCursor⟩
    exact hCursor.within hk (by omega)
  unfold fixInstruction at hFix
  split at hFix
  · rename_i hBranch
    cases hFix
    exact hWiden (by omega) (fixBranchImm_cursor h hBranch)
  · cases hFix
  · split at hFix
    · rename_i hCond
      cases hFix
      exact hWiden (by omega) (fixCondCompTestBranch_cursor h hCond)
    · cases hFix
    · split at hFix
      · rename_i hLoad
        cases hFix
        exact fixLoadlit_cursor h hLoad
      · cases hFix
      · split at hFix
        · rename_i hAddr
          cases hFix
          exact hWiden (by omega) (fixPcreladdr_cursor h hAddr)
        · cases hFix
        · cases hFix
          exact (copyInstruction_cursor h).within (by omega) (by omega)

/-! ## The window -/

theorem fixLoop_cursor {count : Nat} (h : Cursor mmu slot lo s₀ k c s)
    (hFix : fixLoop mmu count s = some s') :
    Within mmu slot lo s₀ k (9 * count) (c + count) s' := by
  induction count generalizing s k c with
  | zero =>
    cases hFix
    exact h.within (by omega) (by omega)
  | succ count ih =>
    obtain ⟨t, hStep, hRest⟩ := Option.bind_eq_some_iff.mp hFix
    obtain ⟨k', hk, hk', hCursor⟩ := fixInstruction_cursor h hStep
    obtain ⟨k'', hk'', hkk'', hCursor'⟩ := ih hCursor hRest
    rw [Nat.add_assoc, Nat.add_comm 1 count] at hCursor'
    exact hCursor'.within (by omega) (by omega)

theorem putJumpBack_cursor (h : Cursor mmu slot lo s₀ k c s) :
    Within mmu slot lo s₀ k 5 c (putJumpBack mmu s) := by
  unfold putJumpBack
  dsimp only
  split
  · split
    · exact (h.block (Puts.refl.absoluteJump (by omega) _)).within (by omega) (by omega)
    · exact (h.nop.block (Puts.refl.absoluteJump (by omega) _)).within (by omega) (by omega)
  · exact (h.block (Puts.refl.put Nat.zero_lt_one _)).within (by omega) (by omega)

/-- The cursor at the start of a slot. -/
theorem startReloc_cursor (inprw inprx : Addr) (count : Nat) (m : Machine) :
    Cursor mmu slot 0 (startReloc inprw inprx count slot.rw slot.rx m) 0 0
      (startReloc inprw inprx count slot.rw slot.rx m) :=
  .start (wordAt_zero _).symm (wordAt_zero _).symm (Nat.le_refl _) fun _ _ hf => by cases hf

/-- A relocation writes nothing outside its slot. -/
theorem fixInstructions_frame {inprw inprx : Addr} {count : Nat} {m m' : Machine}
    (hCount : count ≤ maxInstructions)
    (h : fixInstructions mmu inprw inprx count slot.rw slot.rx m = some m') {p : BitVec 64}
    (hp : ∀ j < trampolineSize, p ≠ mmu.tr (wordAt slot.rw j)) : m'.phys p = m.phys p := by
  obtain ⟨t, hLoop, rfl⟩ := Option.map_eq_some_iff.mp h
  obtain ⟨k, -, hk, hCursor⟩ := fixLoop_cursor (startReloc_cursor inprw inprx count m) hLoop
  obtain ⟨k', -, hk', hEnd⟩ := putJumpBack_cursor hCursor
  have hMax : maxInstructions = 5 := rfl
  have hSize : trampolineSize = 50 := rfl
  exact hEnd.frame p fun j _ hj => hp j (by omega)

end Wondar.Hook
