import Wondar.Hook.Turn

/-!
# The turns of a window

`Progress` is what holds when the loop has made some turns: the cursors are in step, everything that
was stored went to the words of the slot behind them, and so did the references that are open, which
are to instructions that are still to come. Each turn keeps it (`Progress.turn`).

A relocation fits its slot, whatever its words are, and comes to an end if all literals that it
copies can be read (`fixInstructions_fits`).
-/

namespace Wondar.Hook

open A64 Coherence

variable {mmu : Mmu} {slot : Slot} {s t : Reloc} {inprw f a : Addr} {count k n : Nat} {m m' : Machine}

/-! ## The invariant -/

variable (mmu slot inprw f count m) in
/-- The loop has made `n` turns, and word `k` of the slot is the next to be written. -/
structure Progress (k n : Nat) (s : Reloc) : Prop where
  cursor : Cursor mmu slot 0 (startReloc inprw f count slot.rw slot.rx m) k n s
  words : k ≤ 9 * n
  log : StoresTo (OneOf slot.rw k) m.log s.mach.log
  sites : ∀ idx, ∀ g ∈ (s.ctx.dat idx).fmap,
    ∃ j < k, g.bprw = wordAt slot.rw j ∧ g.bprx = wordAt slot.rx j
  done : ∀ idx < n, (s.ctx.dat idx).fmap = []
  few : ∀ idx, (s.ctx.dat idx).fmap.length ≤ n
  beyond : ∀ idx, count ≤ idx → s.ctx.dat idx = ⟨0#64, []⟩
  places : ∀ idx, Aligned (s.ctx.dat idx).ins

variable (mmu slot inprw f count m) in
theorem Progress.start :
    Progress mmu slot inprw f count m 0 0 (startReloc inprw f count slot.rw slot.rx m) where
  cursor := startReloc_cursor inprw f count m
  words := Nat.le_refl 0
  log := StoresTo.refl ..
  sites := nofun
  done := nofun
  few := fun _ => Nat.le_refl 0
  beyond := fun _ _ => rfl
  places := fun _ => rfl

theorem getRefInsIndex_wordAt {c : Context} (hBase : c.basep = f) {i : Nat} (hi : 4 * i < 2 ^ 64) :
    c.getRefInsIndex (wordAt f i) = i := by
  rw [Context.getRefInsIndex, hBase, BitVec.toNat_udiv, wordAt_sub f hi]
  exact Nat.mul_div_cancel_left i (by decide)

/-- The input of a relocation, and the cursors that it starts with. -/
structure Input (slot : Slot) (f : Addr) (count : Nat) : Prop where
  count_le : count ≤ maxInstructions
  source : Aligned f
  output : Aligned slot.rx
  written : Aligned slot.rw

section

variable (hInput : Input slot f count) (h : Progress mmu slot inprw f count m k n s)

include hInput h

/-- There is room for the next `c` turns, and for the jump back. -/
theorem Progress.room {c : Nat} (hc : n + c ≤ count) : k + 9 * c + 5 ≤ trampolineSize := by
  have hMax : maxInstructions = 5 := rfl
  have hSize : trampolineSize = 50 := rfl
  have hCount := hInput.count_le
  have hWords := h.words
  omega

theorem Progress.currentIdx (hn : n ≤ count) : s.currentIdx = n := by
  have hMax : maxInstructions = 5 := rfl
  have hCount := hInput.count_le
  rw [Reloc.currentIdx, h.cursor.inprx]
  exact getRefInsIndex_wordAt h.cursor.basep (by omega)

/-- An address that the context takes for one of the window is in one of its instructions. -/
theorem Progress.ref_lt (ha : s.ctx.isInFixingRange a = true) : s.ctx.getRefInsIndex a < count := by
  have hBase : s.ctx.basep = f := h.cursor.basep
  have hWindow := inWindow_of_range hInput.count_le hBase h.cursor.endp ha
  unfold InWindow at hWindow
  rw [Context.getRefInsIndex, hBase, BitVec.toNat_udiv]
  exact Nat.div_lt_of_lt_mul hWindow

theorem Progress.ready (hn : n ≤ count) : Ready s where
  source := by
    rw [h.cursor.inprx]
    exact hInput.source.wordAt n
  output := by
    rw [h.cursor.outrx]
    exact hInput.output.wordAt k
  written := by
    rw [h.cursor.outrw]
    exact hInput.written.wordAt k
  base := by
    rw [h.cursor.basep]
    exact hInput.source
  places := h.places
  short := fun idx => by
    have hMax : maxInstructions = 5 := rfl
    have hReferences : maxReferences = 10 := rfl
    have hFew := h.few idx
    have hCount := hInput.count_le
    omega

/-- One turn. -/
theorem Progress.turn (hn : n < count) {e : Addr} {ws : List Word} {r : Option (Nat × FixInfo)}
    (hStep : fixInstruction mmu s = some t) (hTurned : Turned mmu s t e ws r) :
    Progress mmu slot inprw f count m (k + ws.length) (n + 1) t := by
  have hSize : trampolineSize = 50 := rfl
  have hRoom := h.room hInput (c := 1) hn
  have hWords := h.words
  have hIdx := h.currentIdx hInput (Nat.le_of_lt hn)
  have hReady := h.ready hInput (Nat.le_of_lt hn)
  have hRelocates := hTurned.relocates
  have hLength := hTurned.length
  have hPlaced := hTurned.placed
  have hOpens := hTurned.opens
  have hKept := hRelocates.kept
  rw [hIdx] at hKept hOpens
  -- a reference that is opened is to a later instruction of the window
  have hLater : ∀ idx, ∀ g ∈ opened r idx, n < idx ∧ idx < count := by
    intro idx g hg
    obtain ⟨⟨a, ha, hRef⟩, hLt, -⟩ := hOpens idx g (mem_opened hg)
    exact ⟨hLt, hRef ▸ h.ref_lt hInput ha⟩
  refine ⟨?_, by omega, ?_, ?_, ?_, ?_, ?_, ?_⟩
  · obtain ⟨k', -, hk', hCursor⟩ := fixInstruction_cursor h.cursor hStep
    have hSame : k' = k + ws.length := by
      refine wordAt_inj (p := slot.rx) (by omega) (by omega) ?_
      rw [← hCursor.outrx, hRelocates.outrx, h.cursor.outrx, wordAt_wordAt]
    rw [← hSame]
    exact hCursor
  · refine (h.log.mono fun p hp => hp.widen (by omega)).trans (hRelocates.log.mono fun p hp => ?_)
    rw [h.cursor.outrw] at hp
    rcases hp with hNew | ⟨g, hg, rfl⟩
    · exact hNew.part (Nat.le_refl _)
    · obtain ⟨j, hj, hRw, -⟩ := h.sites _ g hg
      exact ⟨j, by omega, hRw⟩
  · intro idx g hg
    rcases hTurned.pending hg with hOld | hNew
    · obtain ⟨j, hj, hSite⟩ := h.sites idx g hOld
      exact ⟨j, by omega, hSite⟩
    · obtain ⟨-, -, hRx, hRw, hPos, -⟩ := hOpens idx g hNew
      exact ⟨k, by omega, hRw.trans h.cursor.outrw, hRx.trans h.cursor.outrx⟩
  · intro idx hLt
    by_cases hNow : idx = n
    · rw [hNow, ← hIdx, hRelocates.done]
    · have hNone : opened r idx = [] := List.eq_nil_iff_forall_not_mem.mpr fun g hg => by
        have := (hLater idx g hg).1
        omega
      rw [hKept idx hNow, h.done idx (by omega), hNone]
      rfl
  · intro idx
    by_cases hNow : idx = n
    · rw [hNow, ← hIdx, hRelocates.done]
      exact Nat.zero_le _
    · have hFew := h.few idx
      have hOne := length_opened_le r idx
      rw [hKept idx hNow, List.length_append]
      omega
  · intro idx hBeyond
    have hNone : opened r idx = [] := List.eq_nil_iff_forall_not_mem.mpr fun g hg => by
      have := (hLater idx g hg).2
      omega
    rw [hKept idx (by omega), h.beyond idx hBeyond, hNone]
    rfl
  · intro idx
    by_cases hNow : idx = n
    · rw [hNow, ← hIdx, hRelocates.place]
      exact hPlaced.aligned hReady
    · rw [hKept idx hNow]
      exact h.places idx

end

/-! ## The loop -/

theorem fixLoop_succ (n : Nat) (s : Reloc) :
    fixLoop mmu (n + 1) s = (fixLoop mmu n s).bind (fixInstruction mmu) := by
  rw [fixLoop_add]
  exact congrArg _ (funext fixLoop_one)

/-- A turn that ends, from a state that the loop has come to. -/
theorem Progress.next (hInput : Input slot f count) (h : Progress mmu slot inprw f count m k n s)
    (hn : n < count) (hStep : fixInstruction mmu s = some t) :
    ∃ e ws r, Turned mmu s t e ws r ∧ Progress mmu slot inprw f count m (k + ws.length) (n + 1) t := by
  rcases fixInstruction_turned mmu (h.ready hInput (Nat.le_of_lt hn)) with
    ⟨-, t', e, ws, r, hTurn, hTurned⟩ | ⟨-, hStuck⟩
  · rw [hStep] at hTurn
    cases hTurn
    exact ⟨e, ws, r, hTurned, h.turn hInput hn hStep hTurned⟩
  · rw [hStep] at hStuck
    cases hStuck

theorem fixLoop_progress (hInput : Input slot f count) (hn : n ≤ count)
    (hRun : fixLoop mmu n (startReloc inprw f count slot.rw slot.rx m) = some s) :
    ∃ k, Progress mmu slot inprw f count m k n s := by
  induction n generalizing s with
  | zero =>
    cases hRun
    exact ⟨0, Progress.start ..⟩
  | succ n ih =>
    rw [fixLoop_succ] at hRun
    obtain ⟨u, hFirst, hLast⟩ := Option.bind_eq_some_iff.mp hRun
    obtain ⟨k, hProgress⟩ := ih (by omega) hFirst
    obtain ⟨e, ws, r, -, hNext⟩ := hProgress.next hInput (by omega) hLast
    exact ⟨_, hNext⟩

/-- The loop ends when the literals that it copies can be read, and only then. -/
theorem fixLoop_ends_iff (hInput : Input slot f count) (hn : n ≤ count) :
    (∃ s, fixLoop mmu n (startReloc inprw f count slot.rw slot.rx m) = some s) ↔
      ∀ i < n, ∀ s, fixLoop mmu i (startReloc inprw f count slot.rw slot.rx m) = some s →
        literalReadable mmu s = true := by
  induction n with
  | zero => exact ⟨nofun, fun _ => ⟨_, rfl⟩⟩
  | succ n ih =>
    -- whether the last turn ends
    have hLast : ∀ u, fixLoop mmu n (startReloc inprw f count slot.rw slot.rx m) = some u →
        ((∃ s, fixInstruction mmu u = some s) ↔ literalReadable mmu u = true) := by
      intro u hRun
      obtain ⟨k, hProgress⟩ := fixLoop_progress hInput (by omega) hRun
      rcases fixInstruction_turned mmu (hProgress.ready hInput (by omega)) with
        ⟨hReadable, t, e, ws, r, hTurn, -⟩ | ⟨hNot, hStuck⟩
      · exact ⟨fun _ => hReadable, fun _ => ⟨t, hTurn⟩⟩
      · rw [hNot, hStuck]
        constructor
        · rintro ⟨s, hSome⟩
          cases hSome
        · nofun
    rw [fixLoop_succ]
    constructor
    · rintro ⟨s, hRun⟩ i hi u hu
      obtain ⟨v, hFirst, hStep⟩ := Option.bind_eq_some_iff.mp hRun
      by_cases hBefore : i < n
      · exact (ih (by omega)).mp ⟨v, hFirst⟩ i hBefore u hu
      · obtain rfl : i = n := by omega
        have hSame : v = u := Option.some.inj (hFirst.symm.trans hu)
        exact hSame ▸ (hLast v hFirst).mp ⟨s, hStep⟩
    · intro hReadable
      obtain ⟨u, hFirst⟩ := (ih (by omega)).mpr fun i hi => hReadable i (by omega)
      obtain ⟨s, hStep⟩ := (hLast u hFirst).mpr (hReadable n (by omega) u hFirst)
      exact ⟨s, by rw [hFirst, Option.bind_some, hStep]⟩

theorem fixInstructions_ends_iff (hInput : Input slot f count) :
    (∃ m', fixInstructions mmu inprw f count slot.rw slot.rx m = some m') ↔
      ∀ n < count, ∀ s, fixLoop mmu n (startReloc inprw f count slot.rw slot.rx m) = some s →
        literalReadable mmu s = true := by
  rw [← fixLoop_ends_iff hInput (Nat.le_refl count)]
  unfold fixInstructions
  simp only [Option.map_eq_some_iff]
  exact ⟨fun ⟨m', t, hRun, _⟩ => ⟨t, hRun⟩, fun ⟨t, hRun⟩ => ⟨_, t, hRun, rfl⟩⟩

/-! ## The slot -/

theorem putJumpBack_appends (mmu : Mmu) (s : Reloc) : ∃ ws, ws.length ≤ 5 ∧
    Appends mmu s (putJumpBack mmu s) (s.ctx.dat s.currentIdx).ins ws := by
  have hRefl := Appends.refl mmu s
  unfold putJumpBack
  dsimp only
  split
  · split
    · exact ⟨_, by simp [absoluteJumpWords], hRefl.absoluteJump _⟩
    · exact ⟨_, by simp [absoluteJumpWords], hRefl.nop.absoluteJump _⟩
  · exact ⟨_, by simp, hRefl.put _⟩

/-- What holds of a relocation that has made `n` turns. -/
structure AfterTurns (slot : Slot) (inprw f : Addr) (count : Nat) (m : Machine) (n : Nat) (s : Reloc) :
    Prop where
  consumed : s.inprw = wordAt inprw n ∧ s.inprx = wordAt f n
  inStep : s.outrx - slot.rx = s.outrw - slot.rw
  stores : StoresTo (OneOf slot.rw trampolineSize) m.log s.mach.log
  current : s.currentIdx = n
  reference : ∀ a, s.ctx.isInFixingRange a = true →
    s.ctx.getRefInsIndex a < count ∧ s.ctx.getRefInsIndex (a &&& ~~~3#64) < count
  untouched : ∀ idx, count ≤ idx → s.ctx.dat idx = ⟨0#64, []⟩
  room : ∀ idx, (s.ctx.dat idx).fmap.length < maxReferences

/-- What holds of a relocation as a whole. -/
structure FitsSlot (mmu : Mmu) (slot : Slot) (inprw f : Addr) (count : Nat) (m : Machine) : Prop where
  ends : (∃ m', fixInstructions mmu inprw f count slot.rw slot.rx m = some m') ↔
    ∀ n < count, ∀ s, fixLoop mmu n (startReloc inprw f count slot.rw slot.rx m) = some s →
      literalReadable mmu s = true
  turns : ∀ n ≤ count, ∀ s,
    fixLoop mmu n (startReloc inprw f count slot.rw slot.rx m) = some s →
      AfterTurns slot inprw f count m n s
  result : ∀ m', fixInstructions mmu inprw f count slot.rw slot.rx m = some m' →
    ∃ t total, fixLoop mmu count (startReloc inprw f count slot.rw slot.rx m) = some t ∧
      (putJumpBack mmu t).outrx - slot.rx = (putJumpBack mmu t).outrw - slot.rw ∧
      StoresTo (OneOf slot.rw trampolineSize) m.log (putJumpBack mmu t).mach.log ∧
      m' = (putJumpBack mmu t).mach.clearCache slot.rw total

theorem wordAt_sub_self (a b : Addr) (k : Nat) : wordAt a k - a = wordAt b k - b := by
  unfold wordAt
  bv_omega

theorem Progress.afterTurns (hInput : Input slot f count) (hn : n ≤ count)
    (h : Progress mmu slot inprw f count m k n s) : AfterTurns slot inprw f count m n s := by
  have hReady := h.ready hInput hn
  have hRoom := h.room hInput (c := 0) hn
  refine ⟨⟨h.cursor.inprw, h.cursor.inprx⟩, ?_, h.log.mono fun p hp => hp.widen (by omega),
    h.currentIdx hInput hn, fun a ha => ?_, h.beyond, hReady.short⟩
  · rw [h.cursor.outrx, h.cursor.outrw]
    exact wordAt_sub_self ..
  · rw [getRefInsIndex_aligned hReady.base, and_self]
    exact h.ref_lt hInput ha

/-- **A relocated window fits its slot.** The relocation of at most five words, whatever they are,
ends when the literals that it copies can be read, and only then. Before and after every turn the two
output cursors are in step, as many words have been consumed as turns were made, nothing was stored
outside of the slot, the instructions that are looked up are ones of the window, and no list of
references is full; the jump back is in the slot, too. -/
theorem fixInstructions_fits (mmu : Mmu) (inprw : Addr) (m : Machine) (hCount : count ≤ maxInstructions)
    (hSource : Aligned f) (hOutput : Aligned slot.rx) (hWritten : Aligned slot.rw) :
    FitsSlot mmu slot inprw f count m := by
  have hInput : Input slot f count := ⟨hCount, hSource, hOutput, hWritten⟩
  refine ⟨fixInstructions_ends_iff hInput, fun n hn s hRun => ?_, fun m' hFix => ?_⟩
  · obtain ⟨k, hProgress⟩ := fixLoop_progress hInput hn hRun
    exact hProgress.afterTurns hInput hn
  · obtain ⟨t, hRun, rfl⟩ := Option.map_eq_some_iff.mp hFix
    obtain ⟨k, hProgress⟩ := fixLoop_progress hInput (Nat.le_refl count) hRun
    obtain ⟨ws, hFive, hAppends⟩ := putJumpBack_appends mmu t
    have hRoom := hProgress.room hInput (c := 0) (Nat.le_refl count)
    refine ⟨t, _, hRun, ?_, ?_, rfl⟩
    · rw [hAppends.outrx, hAppends.outrw, hProgress.cursor.outrx, hProgress.cursor.outrw,
        wordAt_wordAt, wordAt_wordAt]
      exact wordAt_sub_self ..
    · refine (hProgress.log.mono fun p hp => hp.widen (by omega)).trans
        (hAppends.log.mono fun p hp => ?_)
      rw [hProgress.cursor.outrw] at hp
      exact hp.part (by omega)

/-- Five words of which each is a branch to itself. -/
theorem fixInstructions_fits_branches :
    FitsSlot flat ⟨0x2000#64, 0x2000#64⟩ 0x1000#64 0x1000#64 5 ⟨fun _ => 0x14000000#32, []⟩ :=
  fixInstructions_fits flat 0x1000#64 _ (by decide) (by decide) (by decide) (by decide)

/-- Memory of which the page at 0x2000 cannot be read. -/
def hole : Mmu := ⟨id, fun p => p >>> 12 != 2#64⟩

/-- `LDR X0, #0x1000` at 0x1000, far from the slot. -/
theorem fixInstructions_unreadable :
    ¬ ∃ m', fixInstructions hole 0x1000#64 0x1000#64 1 0x10000000#64 0x10000000#64
      ⟨fun _ => 0x58008000#32, []⟩ = some m' := by
  have hReady : Ready (startReloc 0x1000#64 0x1000#64 1 0x10000000#64 0x10000000#64
      ⟨fun _ => 0x58008000#32, []⟩) :=
    ⟨by decide, by decide, by decide, by decide, fun _ => rfl, fun _ => Nat.zero_lt_succ 9⟩
  rcases fixInstruction_turned hole hReady with ⟨hReadable, -⟩ | ⟨-, hStuck⟩
  · exact absurd hReadable (by decide)
  · rw [fixInstructions, fixLoop_one, hStuck]
    rintro ⟨m', hSome⟩
    cases hSome

end Wondar.Hook
