import Wondar.Hook.Emit

/-!
# A hook is transparent

When none of the overwritten words depends on its address, relocating the window copies it
word by word (`fixLoop_plain`), and the copy ends in a jump behind the window. So the slot
executes what the jump at the function has overwritten.

`Installable` collects what a call relies on: aligned addresses, the RW aliases of both
ranges, and that none of the `fix` functions recognises an overwritten word.
`hookFuncImpl_transparent` concludes for the three parts: the function reaches the callback,
the slot relays the overwritten words, and nothing else is modified.
-/

namespace Wondar.Hook

open A64 Coherence

variable {mmu : Mmu} {slot : Slot}

/-- The slot of a plain window: the words, and the jump behind them. -/
theorem fixInstructions_plain (f : Addr) {ctrlRw : Addr} {count : Nat} {m : Machine}
    (hCount : count ≤ maxInstructions)
    (hPlain : ∀ i < count, Unrecognised (m.read mmu (wordAt ctrlRw i)))
    (hUnfolded : mmu.Unfolded slot.rw trampolineSize)
    (hApart : mmu.Apart ctrlRw count slot.rw trampolineSize) :
    ∃ m', fixInstructions mmu ctrlRw f count slot.rw slot.rx m = some m' ∧
      CodeAt (m'.view mmu) slot.rw
        (wordsAt mmu m ctrlRw count ++ jumpWords (wordAt slot.rx count) (wordAt f count)) := by
  have hMax : maxInstructions = 5 := rfl
  have hSize : trampolineSize = 50 := rfl
  obtain ⟨t, hLoop, hEmits⟩ := fixLoop_plain
    (s := startReloc ctrlRw f count slot.rw slot.rx m) (fun _ => rfl) hPlain
    (fun i j hi hj => hApart i j hi (by omega))
  have hSlot := fixInstructions_emits hLoop hEmits hUnfolded (by rw [length_wordsAt]; omega)
  rwa [length_wordsAt] at hSlot

/-! ## The hook -/

/-- The addresses of a call of `HookFuncImpl` with a trampoline, and their aliases. -/
structure Mapped (mmu : Mmu) (ctrlRw f c : Addr) (slot : Slot) : Prop where
  aligned : Aligned f
  alignedCallback : Aligned c
  alignedSlot : Aligned slot.rx
  rx_ne : slot.rx ≠ 0#64
  rw_ne : slot.rw ≠ 0#64
  /-- The claim maps the words to be overwritten. -/
  targetAlias : mmu.Alias ctrlRw f (patchCount f c)
  slotAlias : mmu.Alias slot.rw slot.rx trampolineSize
  targetUnfolded : mmu.Unfolded f (patchCount f c)
  slotUnfolded : mmu.Unfolded slot.rx trampolineSize
  apart : mmu.Apart f (patchCount f c) slot.rx trampolineSize

/-- What a call relies on. -/
structure Installable (mmu : Mmu) (ctrlRw f c : Addr) (slot : Slot) (m : Machine) : Prop
    extends Mapped mmu ctrlRw f c slot where
  plain : ∀ i < patchCount f c, Unrecognised (m.read mmu (wordAt f i))

section

variable {ctrlRw f c : Addr} {m t : Machine}

/-- The overwritten words, read through the claim. -/
theorem Mapped.read (h : Mapped mmu ctrlRw f c slot) {i : Nat} (hi : i < patchCount f c) :
    m.read mmu (wordAt ctrlRw i) = m.read mmu (wordAt f i) := by
  rw [Mach.read, h.targetAlias i hi]
  rfl

theorem Mapped.unfoldedRw (h : Mapped mmu ctrlRw f c slot) : mmu.Unfolded slot.rw trampolineSize :=
  fun i j hi hj hSame => h.slotUnfolded i j hi hj (by rw [← h.slotAlias i hi, ← h.slotAlias j hj, hSame])

theorem Mapped.apartRw (h : Mapped mmu ctrlRw f c slot) :
    mmu.Apart ctrlRw (patchCount f c) slot.rw trampolineSize :=
  fun i j hi hj hSame => h.apart i j hi hj (by rw [← h.targetAlias i hi, hSame, h.slotAlias j hj])

/-- Behind a relocation: the jump at the function, the slot as the relocation left it, and
everything else as it was. -/
theorem Mapped.patched (h : Mapped mmu ctrlRw f c slot)
    (hFix : fixInstructions mmu ctrlRw f (patchCount f c) slot.rw slot.rx m = some t) :
    CodeAt ((patchTarget mmu ctrlRw f c t).view mmu) f (jumpWords f c) ∧
      (∀ j < trampolineSize, (patchTarget mmu ctrlRw f c t).view mmu (wordAt slot.rx j) =
        t.read mmu (wordAt slot.rw j)) ∧
      ∀ a, (∀ i < patchCount f c, mmu.tr a ≠ mmu.tr (wordAt f i)) →
        (∀ j < trampolineSize, mmu.tr a ≠ mmu.tr (wordAt slot.rx j)) →
        (patchTarget mmu ctrlRw f c t).view mmu a = m.view mmu a := by
  have hLength : (jumpWords f c).length = patchCount f c := length_jumpWords f c
  have hPatch := patchTarget_phys mmu ctrlRw f c t
  refine ⟨patchTarget_code t h.targetAlias h.targetUnfolded, fun j hj => ?_, fun a ha hSlotA => ?_⟩
  · rw [Mach.view, Mach.read, hPatch, storeWords_frame fun i hi hSame => ?_, ← h.slotAlias j hj]
    · rfl
    · rw [h.targetAlias i (by omega)] at hSame
      exact h.apart i j (by omega) hj hSame.symm
  · rw [Mach.view, Mach.read, hPatch, storeWords_frame fun i hi => ?_,
      fixInstructions_frame (patchCount_le f c) hFix fun j hj => ?_]
    · rfl
    · rw [h.slotAlias j hj]
      exact hSlotA j hj
    · rw [h.targetAlias i (by omega)]
      exact ha i (by omega)

end

/-- The code of a hook: the overwritten words of the function, and the slot. -/
def HookCode (f c : Addr) (slot : Slot) (a : Addr) : Prop :=
  (∃ i < patchCount f c, a = wordAt f i) ∨ ∃ j < trampolineSize, a = wordAt slot.rx j

/-- How many words are overwritten: one when the callback is within reach of a branch, and
otherwise as many as leave the address of the callback aligned. -/
theorem patchCount_eq (f c : Addr) : patchCount f c =
    if llabs ((c - f).sshiftRight 2) < 0x1ffffff then 1 else if f.toNat % 8 = 0 then 4 else 5 := by
  unfold patchCount isFar farCount hookOffset
  simp only [decide_eq_true_eq, aligned8_behind]
  by_cases hFar : 0x1ffffff ≤ llabs ((c - f).sshiftRight 2)
  · have hNear : ¬ llabs ((c - f).sshiftRight 2) < 0x1ffffff := by omega
    rw [if_pos hFar, if_neg hNear]
  · have hNear : llabs ((c - f).sshiftRight 2) < 0x1ffffff := by omega
    rw [if_neg hFar, if_pos hNear]

/-- What a call writes: the jump at the function, and in the slot the overwritten words and the
jump behind them. -/
theorem hookFuncImpl_plain {ctrlRw f c : Addr} {m : Machine}
    (h : Installable mmu ctrlRw f c slot m) :
    ∃ m', hookFuncImpl mmu ctrlRw f c slot.rx slot.rw m = some (true, m') ∧
      CodeAt (m'.view mmu) f (jumpWords f c) ∧
      CodeAt (m'.view mmu) slot.rx (wordsAt mmu m f (patchCount f c) ++
        jumpWords (wordAt slot.rx (patchCount f c)) (wordAt f (patchCount f c))) ∧
      ∀ a, (∀ i < patchCount f c, mmu.tr a ≠ mmu.tr (wordAt f i)) →
        (∀ j < trampolineSize, mmu.tr a ≠ mmu.tr (wordAt slot.rx j)) →
        m'.view mmu a = m.view mmu a := by
  have hMax : maxInstructions = 5 := rfl
  have hSize : trampolineSize = 50 := rfl
  have hCount := patchCount_le f c
  have hJump := jumpWords_le (wordAt slot.rx (patchCount f c)) (wordAt f (patchCount f c))
  have hWords : wordsAt mmu m ctrlRw (patchCount f c) = wordsAt mmu m f (patchCount f c) :=
    List.map_congr_left fun i hi => h.read (List.mem_range.mp hi)
  have hPlain : ∀ i < patchCount f c, Unrecognised (m.read mmu (wordAt ctrlRw i)) := fun i hi => by
    rw [h.read hi]
    exact h.plain i hi
  obtain ⟨t, hFix, hSlot⟩ := fixInstructions_plain f hCount hPlain h.unfoldedRw h.apartRw
  rw [hWords] at hSlot
  obtain ⟨hTarget, hSlot', hFrame⟩ := h.patched hFix
  refine ⟨patchTarget mmu ctrlRw f c t, ?_, hTarget, ?_, hFrame⟩
  · rw [hookFuncImpl_slot _ _ _ _ _ h.rx_ne h.rw_ne, hFix]
    rfl
  · refine (codeAt_congr fun j hj => ?_).mpr hSlot
    rw [List.length_append, length_wordsAt] at hj
    exact hSlot' j (by omega)

/-- **A hook is transparent.** After the call the function reaches the callback, the slot
executes the overwritten words and continues behind them, and nothing else is modified. -/
theorem hookFuncImpl_transparent (other : Word → State → State) {mmu : Mmu} {ctrlRw f c : Addr}
    {slot : Slot} {m : Machine} (h : Installable mmu ctrlRw f c slot m) :
    (patchCount f c = if llabs ((c - f).sshiftRight 2) < 0x1ffffff then 1
      else if f.toNat % 8 = 0 then 4 else 5) ∧
    ∃ m', hookFuncImpl mmu ctrlRw f c slot.rx slot.rw m = some (true, m') ∧
      Reaches other 17#5 (HookCode f c slot) (m'.view mmu) ⟨f, none⟩ ⟨c, none⟩ ∧
      Relays other 17#5 (HookCode f c slot) (m'.view mmu) slot.rx
        (wordsAt mmu m f (patchCount f c)) (wordAt f (patchCount f c)) ∧
      ∀ a, (∀ i < patchCount f c, mmu.tr a ≠ mmu.tr (wordAt f i)) →
        (∀ j < trampolineSize, mmu.tr a ≠ mmu.tr (wordAt slot.rx j)) →
        m'.view mmu a = m.view mmu a := by
  have hMax : maxInstructions = 5 := rfl
  have hSize : trampolineSize = 50 := rfl
  have hCount := patchCount_le f c
  have hJump := jumpWords_le (wordAt slot.rx (patchCount f c)) (wordAt f (patchCount f c))
  obtain ⟨m', hCall, hTarget, hSlot, hFrame⟩ := hookFuncImpl_plain h
  obtain ⟨hWords, hBack⟩ := codeAt_append.mp hSlot
  rw [length_wordsAt] at hBack
  refine ⟨patchCount_eq f c, m', hCall, ?_, ?_, hFrame⟩
  · refine reaches_jump h.aligned h.alignedCallback hTarget fun i hi => Or.inl ⟨i, ?_, rfl⟩
    rwa [length_jumpWords] at hi
  · have hExit : Reaches other 17#5 (HookCode f c slot) (m'.view mmu)
        ⟨wordAt slot.rx (patchCount f c), none⟩ ⟨wordAt f (patchCount f c), none⟩ := by
      refine reaches_jump (h.alignedSlot.wordAt _) (h.aligned.wordAt _) hBack fun i hi => ?_
      rw [wordAt_wordAt]
      exact Or.inr ⟨_, by omega, rfl⟩
    refine relays_of_code hWords (fun i hi => Or.inr ⟨i, ?_, rfl⟩) ?_
    · rw [length_wordsAt] at hi
      omega
    · rw [length_wordsAt]
      exact hExit

/-- The first slot, a function of NOPs, and a callback out of reach of a branch. -/
theorem sample_installable : Installable sampleMmu 0xb0100#64 0x50100#64 0x100060000#64
    (.ofIndex sampleEnv.hookJit 0#32) sampleState.mach where
  aligned := by decide
  alignedCallback := by decide
  alignedSlot := by decide
  rx_ne := by decide
  rw_ne := by decide
  targetAlias := by decide +kernel
  slotAlias := by decide +kernel
  targetUnfolded := by decide +kernel
  slotUnfolded := Mmu.unfolded_of_id (by decide) (by decide +kernel)
  apart := by decide +kernel
  plain := fun _ _ => unrecognised_of_masks (w := aarch64Nop) (by decide)

theorem hookFuncImpl_transparent_far : ∃ m',
    hookFuncImpl sampleMmu 0xb0100#64 0x50100#64 0x100060000#64 0x20000#64 0x90000#64
      sampleState.mach = some (true, m') ∧
    Reaches (fun _ s => s.next) 17#5 (HookCode 0x50100#64 0x100060000#64 ⟨0x20000#64, 0x90000#64⟩)
      (m'.view sampleMmu) ⟨0x50100#64, none⟩ ⟨0x100060000#64, none⟩ := by
  obtain ⟨-, m', hCall, hReach, -⟩ :=
    hookFuncImpl_transparent (fun _ s => s.next) sample_installable
  exact ⟨m', hCall, hReach⟩

end Wondar.Hook
