import Wondar.Hook.Rehook

/-!
# Two hooks on one function

`Hook(f, a, true)` and then `Hook(f, b, true)`: the second call relocates the code of the first
into its own trampoline. So a call of `f` enters `b`, and the trampoline of `b` enters `a`
(`hooks_compose`), with two exceptions for the trampolines:

* when the first hook is a branch and the second is not, the second overwrites words of the
  function that the trampoline of `a` jumps back to;
* when the first hook is a literal load on an 8-byte aligned function and the second is a
  branch, the indirect branch of the first stays in the function, and a trampoline of `b` that
  is out of reach of it goes there through the register it branches to.
-/

namespace Wondar.Hook

open A64 Coherence Sys

/-! ## Execution -/

/-- The code of both hooks. -/
def ComposedCode (f a b : Addr) (slot₁ slot₂ : Slot) (x : Addr) : Prop :=
  HookCode f a slot₁ x ∨ HookCode f b slot₂ x

section

variable {mmu : Mmu} {ctrl₁ ctrl₂ f a b : Addr} {slot₁ slot₂ : Slot} {m m₁ t : Machine}
  {other : Word → State → State}

/-- The second trampoline is executed as it was written. -/
theorem Composable.slot (h : Composable mmu ctrl₁ ctrl₂ f a b slot₁ slot₂ m)
    (hFix : fixInstructions mmu ctrl₂ f (patchCount f b) slot₂.rw slot₂.rx m₁ = some t)
    {ws : List Word} (hWords : CodeAt (t.view mmu) slot₂.rw ws) (hLength : ws.length ≤ trampolineSize) :
    CodeAt ((patchTarget mmu ctrl₂ f b t).view mmu) slot₂.rx ws :=
  (codeAt_congr fun j hj => (h.second.patched hFix).2.1 j (by omega)).mpr hWords

theorem Composable.inSlot {j : Nat} (hj : j < trampolineSize) :
    ComposedCode f a b slot₁ slot₂ (wordAt slot₂.rx j) := Or.inr (Or.inr ⟨j, hj, rfl⟩)

/-- Words of the first hook that the second does not overwrite. -/
theorem Composable.kept (h : Composable mmu ctrl₁ ctrl₂ f a b slot₁ slot₂ m)
    (hFix : fixInstructions mmu ctrl₂ f (patchCount f b) slot₂.rw slot₂.rx m₁ = some t) {i : Nat}
    (hLow : patchCount f b ≤ i) (hHigh : i < patchCount f a) :
    (patchTarget mmu ctrl₂ f b t).view mmu (wordAt f i) = m₁.view mmu (wordAt f i) := by
  refine (h.second.patched hFix).2.2 _ (fun j hj hSame => ?_) fun j hj => h.firstApart i j hHigh hj
  have := h.first.targetUnfolded i j hHigh (by omega) hSame
  omega

theorem older_of_branch (h : Composable mmu ctrl₁ ctrl₂ f a b slot₁ slot₂ m)
    (hJump : CodeAt (m₁.view mmu) f (jumpWords f a)) (hNear : isFar f a = false)
    (hOutside : ∀ i < patchCount f b, a ≠ wordAt f i)
    (hFix : fixInstructions mmu ctrl₂ f (patchCount f b) slot₂.rw slot₂.rx m₁ = some t) :
    Reaches other 17#5 (ComposedCode f a b slot₁ slot₂) ((patchTarget mmu ctrl₂ f b t).view mmu)
      ⟨slot₂.rx, none⟩ ⟨a, none⟩ := by
  have hSize : maxInstructions < trampolineSize := by decide
  have hLe := jumpWords_le slot₂.rx a
  have hSlot := h.slot hFix (branch_relocated h hJump hNear hOutside hFix) (by omega)
  exact reaches_jump h.second.alignedSlot h.first.alignedCallback hSlot fun i hi =>
    Composable.inSlot (by omega)

theorem older_of_copied (h : Composable mmu ctrl₁ ctrl₂ f a b slot₁ slot₂ m)
    (hJump : CodeAt (m₁.view mmu) f (jumpWords f a)) (hFar : isFar f a = true)
    (hFar' : isFar f b = true)
    (hFix : fixInstructions mmu ctrl₂ f (patchCount f b) slot₂.rw slot₂.rx m₁ = some t) :
    Reaches other 17#5 (ComposedCode f a b slot₁ slot₂) ((patchTarget mmu ctrl₂ f b t).view mmu)
      ⟨slot₂.rx, none⟩ ⟨a, none⟩ := by
  have hSize : trampolineSize = 50 := rfl
  have hLe := length_alignPad f
  have hCopied : ∀ e lo hi, (copiedJump e lo hi).length ≤ 6 := fun e lo hi => by
    have := length_alignPad e
    simp only [copiedJump, List.length_append, List.length_cons, List.length_nil]
    omega
  have hLength := hCopied (wordAt slot₂.rx (alignPad f).length) (loWord a) (hiWord a)
  have hSlot := h.slot hFix (absoluteJump_relocated h hJump hFar hFar' hFix)
    (by rw [List.length_append]; omega)
  obtain ⟨hPad, hRest⟩ := codeAt_append.mp hSlot
  have hFirst := reaches_alignPad other (v := none) (C := ComposedCode f a b slot₁ slot₂)
    hPad fun i hi => Composable.inSlot (by omega)
  have hSecond := reaches_copiedJump other (v := none)
    (C := ComposedCode f a b slot₁ slot₂) hRest fun i hi => by
      rw [wordAt_wordAt]
      exact Composable.inSlot (by omega)
  exact hFirst.trans hSecond.drop

/-- A literal within reach of the trampoline leaves the function within reach of a branch. -/
theorem isFar_of_literal {e : Addr} (h : literalFar e (wordAt f 2) = false) :
    isFar (wordAt e 1) (wordAt f 1) = false := by
  have hOff : wordAt f 1 - wordAt e 1 = (wordAt f 2 - e) - 8#64 := by
    unfold wordAt
    bv_omega
  rw [literalFar, decide_eq_false_iff_not, llabs] at h
  rw [isFar, decide_eq_false_iff_not, llabs, hookOffset, hOff]
  have hLit := toInt_sshiftRight_two (wordAt f 2 - e)
  have hBack := toInt_sshiftRight_two (wordAt f 2 - e - 8#64)
  generalize wordAt f 2 - e = d at h hLit hBack ⊢
  have hSub : (d - 8#64).toInt = (d.toInt - 8).bmod (2 ^ 64) := BitVec.toInt_sub ..
  rw [Int.bmod_eq_of_le (by omega) (by omega)] at hSub
  omega

/-- The words of an absolute jump that the second hook leaves. -/
theorem Composable.rest (h : Composable mmu ctrl₁ ctrl₂ f a b slot₁ slot₂ m)
    (hFix : fixInstructions mmu ctrl₂ f (patchCount f b) slot₂.rw slot₂.rx m₁ = some t)
    (hNear : isFar f b = false) {ws : List Word} (hWords : CodeAt (m₁.view mmu) (wordAt f 1) ws)
    (hLength : 1 + ws.length ≤ patchCount f a) :
    CodeAt ((patchTarget mmu ctrl₂ f b t).view mmu) (wordAt f 1) ws := by
  have hCount : patchCount f b = 1 := by rw [patchCount, if_neg (by rw [hNear]; decide)]
  refine (codeAt_congr fun i hi => ?_).mpr hWords
  rw [wordAt_wordAt]
  exact h.kept hFix (by omega) (by omega)

theorem older_of_nop (h : Composable mmu ctrl₁ ctrl₂ f a b slot₁ slot₂ m)
    (hJump : CodeAt (m₁.view mmu) f (jumpWords f a)) (hFar : isFar f a = true)
    (hNear : isFar f b = false) (hPad : (alignPad f).length = 1)
    (hFix : fixInstructions mmu ctrl₂ f (patchCount f b) slot₂.rw slot₂.rx m₁ = some t) :
    Reaches other 17#5 (ComposedCode f a b slot₁ slot₂) ((patchTarget mmu ctrl₂ f b t).view mmu)
      ⟨slot₂.rx, none⟩ ⟨a, none⟩ := by
  have hSize : trampolineSize = 50 := rfl
  have hMax : maxInstructions = 5 := rfl
  have hCount : patchCount f a = 5 := by rw [patchCount, if_pos hFar, farCount_eq, hPad]
  rw [jumpWords_far hFar] at hJump
  obtain ⟨hNop, hWords⟩ := codeAt_append.mp hJump
  obtain ⟨s, hFirst, hEmits⟩ := alignPad_emits h hNop
  rw [hPad] at hWords hEmits hFirst
  rw [fixLoop_one] at hFirst
  have hLe := jumpWords_le (wordAt slot₂.rx 1) (wordAt f 1)
  have hCode := slot_of_first hNear h hFirst hEmits hPad (by omega) hFix
  have hSlot := h.slot hFix hCode (by rw [List.length_append, hPad]; omega)
  obtain ⟨hNop', hBack⟩ := codeAt_append.mp hSlot
  have hPadReach := reaches_alignPad other (v := none)
    (C := ComposedCode f a b slot₁ slot₂) hNop' fun i hi => Composable.inSlot (by omega)
  rw [hPad] at hPadReach hBack
  have hBackReach : Reaches other 17#5 (ComposedCode f a b slot₁ slot₂)
      ((patchTarget mmu ctrl₂ f b t).view mmu) ⟨wordAt slot₂.rx 1, none⟩ ⟨wordAt f 1, none⟩ :=
    reaches_jump (h.second.alignedSlot.wordAt 1) (h.first.aligned.wordAt 1) hBack fun i hi => by
      rw [wordAt_wordAt]
      exact Composable.inSlot (by omega)
  have hRest := h.rest hFix hNear hWords (by simp [absoluteJumpWords, hCount])
  have hJumpReach : Reaches other 17#5 (ComposedCode f a b slot₁ slot₂)
      ((patchTarget mmu ctrl₂ f b t).view mmu) ⟨wordAt f 1, none⟩ ⟨a, some a⟩ :=
    reaches_absoluteJump hRest fun i hi => by
      rw [wordAt_wordAt]
      exact Or.inl (Or.inl ⟨_, by omega, rfl⟩)
  exact hPadReach.trans (hBackReach.trans hJumpReach.drop)

theorem older_of_literal (h : Composable mmu ctrl₁ ctrl₂ f a b slot₁ slot₂ m)
    (hJump : CodeAt (m₁.view mmu) f (jumpWords f a)) (hFar : isFar f a = true)
    (hNear : isFar f b = false) (hAligned : f.toNat % 8 = 0)
    (hBack : isFar (wordAt slot₂.rx 4) (wordAt f 1) = false)
    (hFix : fixInstructions mmu ctrl₂ f (patchCount f b) slot₂.rw slot₂.rx m₁ = some t) :
    Reaches other 17#5 (ComposedCode f a b slot₁ slot₂) ((patchTarget mmu ctrl₂ f b t).view mmu)
      ⟨slot₂.rx, none⟩ ⟨a, none⟩ := by
  have hSize : trampolineSize = 50 := rfl
  have hNoPad : alignPad f = [] := by rw [alignPad, if_pos ((aligned8_behind f).mpr hAligned)]
  have hCount : patchCount f a = 4 := by rw [patchCount, if_pos hFar, farCount_eq, hNoPad]; rfl
  have hInFirst : ∀ i < 4, ComposedCode f a b slot₁ slot₂ (wordAt f i) := fun i hi =>
    Or.inl (Or.inl ⟨i, by omega, rfl⟩)
  rw [jumpWords_far hFar, hNoPad, List.nil_append] at hJump
  -- what is left of the jump in the function
  have hRest := h.rest hFix hNear (codeAt_cons.mp hJump).2 (by simp [hCount])
  simp only [codeAt_cons, wordAt_wordAt] at hRest
  obtain ⟨hBr, hLo, hHi, -⟩ := hRest
  have hTail : ∀ x, Aligned x → ComposedCode f a b slot₁ slot₂ x → isFar x (wordAt f 1) = false →
      (patchTarget mmu ctrl₂ f b t).view mmu x = nearBranch x (wordAt f 1) →
      Reaches other 17#5 (ComposedCode f a b slot₁ slot₂) ((patchTarget mmu ctrl₂ f b t).view mmu)
        ⟨x, some a⟩ ⟨a, none⟩ := fun x hx hC hFit hWord =>
    ((reaches_nearBranch hx (h.first.aligned.wordAt 1) hFit hWord hC).trans
      (reaches_br (by decide) (hInFirst 1 (by omega)) (by rw [hBr]; exact decode_brX17))).drop
  obtain ⟨u, hFirst⟩ := fixLoop_first (n := 1) (patchCount_pos f b) hFix
  rw [fixLoop_one] at hFirst
  rcases ldrX17_relocated h hJump hFar hAligned hNear hFirst with ⟨-, hEmits⟩ | ⟨hLit, hEmits⟩
  · have hCode := slot_of_first (n := 4) hNear h hFirst hEmits rfl (by decide) hFix
    rw [jumpWords_near hBack] at hCode
    obtain ⟨hLoad, hBranch⟩ := codeAt_append.mp (h.slot hFix hCode (by simp [hSize]))
    have hLoadReach := reaches_copiedLiteral other (v := none)
      (C := ComposedCode f a b slot₁ slot₂) hLoad fun i hi => Composable.inSlot (by omega)
    rw [ofWords_lo_hi] at hLoadReach
    exact hLoadReach.trans (hTail _ (h.second.alignedSlot.wordAt 4)
      (Composable.inSlot (by omega)) hBack (codeAt_cons.mp hBranch).1)
  · have hFit := isFar_of_literal hLit
    have hCode := slot_of_first (n := 1) hNear h hFirst hEmits rfl (by decide) hFix
    rw [jumpWords_near hFit] at hCode
    obtain ⟨hLoad, hBranch⟩ := codeAt_append.mp (h.slot hFix hCode (by simp [hSize]))
    have hValue : load64 ((patchTarget mmu ctrl₂ f b t).view mmu) (wordAt f 2) = a := by
      rw [load64, wordAt_wordAt, hLo, hHi, ofWords_lo_hi]
    have hLoadReach := reaches_ldrX17At other (v := none)
      (C := ComposedCode f a b slot₁ slot₂) h.second.alignedSlot (h.first.aligned.wordAt 2) hLit
      (codeAt_cons.mp hLoad).1 (wordAt_zero slot₂.rx ▸ Composable.inSlot (by omega))
      (hInFirst 2 (by omega)) (by rw [wordAt_wordAt]; exact hInFirst 3 (by omega))
    rw [hValue] at hLoadReach
    exact hLoadReach.trans (hTail _ (h.second.alignedSlot.wordAt 1)
      (Composable.inSlot (by omega)) hFit (codeAt_cons.mp hBranch).1)

/-- The second trampoline enters the first callback. -/
theorem older_reached (h : Composable mmu ctrl₁ ctrl₂ f a b slot₁ slot₂ m)
    (hJump : CodeAt (m₁.view mmu) f (jumpWords f a))
    (hOutside : ∀ i < patchCount f b, a ≠ wordAt f i)
    (hBack : ¬ (isFar f a = true ∧ isFar f b = false ∧ f.toNat % 8 = 0 ∧
      isFar (wordAt slot₂.rx 4) (wordAt f 1) = true))
    (hFix : fixInstructions mmu ctrl₂ f (patchCount f b) slot₂.rw slot₂.rx m₁ = some t) :
    Reaches other 17#5 (ComposedCode f a b slot₁ slot₂) ((patchTarget mmu ctrl₂ f b t).view mmu)
      ⟨slot₂.rx, none⟩ ⟨a, none⟩ := by
  cases hA : isFar f a with
  | false => exact older_of_branch h hJump hA hOutside hFix
  | true =>
    cases hB : isFar f b with
    | true => exact older_of_copied h hJump hA hB hFix
    | false =>
      by_cases hAligned : f.toNat % 8 = 0
      · refine older_of_literal h hJump hA hB hAligned ?_ hFix
        rw [← Bool.not_eq_true]
        exact fun hFar => hBack ⟨hA, hB, hAligned, hFar⟩
      · refine older_of_nop h hJump hA hB ?_ hFix
        rw [alignPad, if_neg (by rw [aligned8_behind]; exact hAligned)]
        rfl

theorem patchCount_le_patchCount (h : isFar f a = true ∨ isFar f b = false) :
    patchCount f b ≤ patchCount f a := by
  unfold patchCount
  rcases h with hFar | hNear
  · rw [if_pos hFar]
    split
    · exact Nat.le_refl _
    · rw [farCount_eq]
      omega
  · rw [if_neg (by rw [hNear]; decide)]
    exact patchCount_pos f a

/-- A second hook that overwrites no more than the first leaves the first trampoline and the rest
of the function. -/
theorem original_kept (h : Composable mmu ctrl₁ ctrl₂ f a b slot₁ slot₂ m)
    (hSlot : CodeAt (m₁.view mmu) slot₁.rx (wordsAt mmu m f (patchCount f a) ++
      jumpWords (wordAt slot₁.rx (patchCount f a)) (wordAt f (patchCount f a))))
    (hFix : fixInstructions mmu ctrl₂ f (patchCount f b) slot₂.rw slot₂.rx m₁ = some t) :
    Relays other 17#5 (ComposedCode f a b slot₁ slot₂) ((patchTarget mmu ctrl₂ f b t).view mmu)
      slot₁.rx (wordsAt mmu m f (patchCount f a)) (wordAt f (patchCount f a)) := by
  have hMax : maxInstructions = 5 := rfl
  have hSize : trampolineSize = 50 := rfl
  have hCount := patchCount_le f a
  have hJump := jumpWords_le (wordAt slot₁.rx (patchCount f a)) (wordAt f (patchCount f a))
  have hIn : ∀ j < trampolineSize, ComposedCode f a b slot₁ slot₂ (wordAt slot₁.rx j) :=
    fun j hj => Or.inl (Or.inr ⟨j, hj, rfl⟩)
  -- neither the second patch nor the second slot touches the first slot
  have hKept : ∀ j < trampolineSize, (patchTarget mmu ctrl₂ f b t).view mmu (wordAt slot₁.rx j) =
      m₁.view mmu (wordAt slot₁.rx j) := fun j hj =>
    (h.second.patched hFix).2.2 _ (fun i hi => (h.secondApart i j hi hj).symm)
      fun i hi => h.slotsApart j i hj hi
  obtain ⟨hWords, hBack⟩ := codeAt_append.mp ((codeAt_congr fun j hj => hKept j (by
    rw [List.length_append, length_wordsAt] at hj
    omega)).mpr hSlot)
  rw [length_wordsAt] at hBack
  refine relays_of_code hWords (fun i hi => hIn i ?_) ?_
  · rw [length_wordsAt] at hi
    omega
  · rw [length_wordsAt]
    refine reaches_jump (h.first.alignedSlot.wordAt _) (h.first.aligned.wordAt _) hBack fun i hi => ?_
    rw [wordAt_wordAt]
    exact hIn _ (by omega)

/-- The first hook, on a function of plain words. -/
theorem Installable.hooked {c : Addr} {slot : Slot} {ctrlRw : Addr}
    (h : Installable mmu ctrlRw f c slot m)
    (hFix : fixInstructions mmu ctrlRw f (patchCount f c) slot.rw slot.rx m = some t) :
    CodeAt ((patchTarget mmu ctrlRw f c t).view mmu) f (jumpWords f c) ∧
      CodeAt ((patchTarget mmu ctrlRw f c t).view mmu) slot.rx (wordsAt mmu m f (patchCount f c) ++
        jumpWords (wordAt slot.rx (patchCount f c)) (wordAt f (patchCount f c))) := by
  obtain ⟨m', hCall, hTarget, hSlot, -⟩ := hookFuncImpl_plain h
  rw [hookFuncImpl_slot _ _ _ _ _ h.rx_ne h.rw_ne, hFix] at hCall
  cases hCall
  exact ⟨hTarget, hSlot⟩

end

/-! ## Two hooks -/

/-- `Hook(f, a, true)` and then `Hook(f, b, true)`, with trampolines `ta` and `tb`. -/
structure Hooked (env : Env) (ctrl₁ ctrl₂ f a b ta tb : Addr) (slot₁ slot₂ : Slot)
    (s s₁ s₂ : HookState) : Prop
    extends Composable env.mmu ctrl₁ ctrl₂ f a b slot₁ slot₂ s.mach where
  alloc₁ : (allocForTrampoline env.hookJit s.index).2 = .ok slot₁
  alloc₂ : (allocForTrampoline env.hookJit (s.index + 1#32)).2 = .ok slot₂
  call₁ : hook env ctrl₁ f a true s = some (ta, s₁)
  call₂ : hook env ctrl₂ f b true s₁ = some (tb, s₂)

section

variable (other : Word → State → State) (env : Env) (f a b ta tb : Addr) (slot₁ slot₂ : Slot)
  (s s₂ : HookState)

/-- A call of the function enters the second callback. -/
def NewerEntered : Prop :=
  Reaches other 17#5 (ComposedCode f a b slot₁ slot₂) (s₂.mach.view env.mmu) ⟨f, none⟩ ⟨b, none⟩

/-- Executing the second trampoline enters the first callback. -/
def OlderEntered : Prop :=
  Reaches other 17#5 (ComposedCode f a b slot₁ slot₂) (s₂.mach.view env.mmu) ⟨tb, none⟩ ⟨a, none⟩

/-- The first trampoline executes the words its hook overwrote, and the rest of the function is
as it was. -/
def OriginalExecuted : Prop :=
  Relays other 17#5 (ComposedCode f a b slot₁ slot₂) (s₂.mach.view env.mmu) ta
      (wordsAt env.mmu s.mach f (patchCount f a)) (wordAt f (patchCount f a)) ∧
    ∀ x, (∀ i < patchCount f a, env.mmu.tr x ≠ env.mmu.tr (wordAt f i)) →
      (∀ j < trampolineSize, env.mmu.tr x ≠ env.mmu.tr (wordAt slot₁.rx j)) →
      (∀ j < trampolineSize, env.mmu.tr x ≠ env.mmu.tr (wordAt slot₂.rx j)) →
      s₂.mach.view env.mmu x = s.mach.view env.mmu x

end

/-- **Hooks on one function.** A call of the function enters the second callback. The second
trampoline enters the first callback, unless that lies in the words the second hook relocates or
the second trampoline jumps back to an indirect branch through the register it has overwritten.
The first trampoline executes the original function, unless the second hook overwrites more words
than the first. -/
theorem hooks_compose (other : Word → State → State) {env : Env} {ctrl₁ ctrl₂ f a b ta tb : Addr}
    {slot₁ slot₂ : Slot} {s s₁ s₂ : HookState}
    (h : Hooked env ctrl₁ ctrl₂ f a b ta tb slot₁ slot₂ s s₁ s₂) :
    NewerEntered other env f a b slot₁ slot₂ s₂ ∧
      ((∀ i < patchCount f b, a ≠ wordAt f i) →
        ¬ (isFar f a = true ∧ isFar f b = false ∧ f.toNat % 8 = 0 ∧
          isFar (wordAt tb 4) (wordAt f 1) = true) →
        OlderEntered other env f a b tb slot₁ slot₂ s₂) ∧
      (isFar f a = true ∨ isFar f b = false →
        OriginalExecuted other env f a b ta slot₁ slot₂ s s₂) := by
  obtain ⟨h, hSlot₁, hSlot₂, hFirst, hSecond⟩ := h
  obtain ⟨notes, t₁, -, hFix₁, rfl, rfl⟩ := hook_of_slot hSlot₁ h.first.rx_ne h.first.rw_ne hFirst
  obtain ⟨notes', t, -, hFix, rfl, rfl⟩ := hook_of_slot (s := { s with
    index := s.index + 1#32
    mach := (patchTarget env.mmu ctrl₁ f a t₁).record env.hookJit.flush })
    hSlot₂ h.second.rx_ne h.second.rw_ne hSecond
  obtain ⟨hJump, hSlot⟩ := Installable.hooked (m := s.mach.record (notes.map .note))
    { h.first with plain := h.first.plain } hFix₁
  have hFirstFrame := (h.first.patched hFix₁).2.2
  -- what the first call has left in memory
  dsimp only at hFix
  generalize hMach : Mach.record (Mach.record (patchTarget env.mmu ctrl₁ f a t₁)
    env.hookJit.flush) (notes'.map .note) = m₁ at hFix
  have hView : (patchTarget env.mmu ctrl₁ f a t₁).view env.mmu = m₁.view env.mmu := by
    rw [← hMach]
    rfl
  rw [hView] at hJump hSlot hFirstFrame
  obtain ⟨hTarget, -, hFrame⟩ := h.second.patched hFix
  refine ⟨?_, fun hOutside hBack => older_reached h hJump hOutside hBack hFix, fun hCount => ⟨?_, ?_⟩⟩
  · refine reaches_jump h.second.aligned h.second.alignedCallback hTarget fun i hi =>
      Or.inr (Or.inl ⟨i, ?_, rfl⟩)
    rwa [length_jumpWords] at hi
  · exact original_kept h hSlot hFix
  · intro x hWindow hFirstSlot hSecondSlot
    have hLe := patchCount_le_patchCount hCount
    exact (hFrame x (fun i hi => hWindow i (by omega)) hSecondSlot).trans
      (hFirstFrame x hWindow hFirstSlot)

/-! ## Hooks of one site -/

/-- A function and a slot that fit every hook of the function, whatever its callback. -/
structure Site (mmu : Mmu) (ctrlRw f : Addr) (slot : Slot) : Prop where
  aligned : Aligned f
  slotAligned : slot.rx.toNat % 8 = 0
  rx_ne : slot.rx ≠ 0#64
  rw_ne : slot.rw ≠ 0#64
  targetAlias : mmu.Alias ctrlRw f maxInstructions
  slotAlias : mmu.Alias slot.rw slot.rx trampolineSize
  targetUnfolded : mmu.Unfolded f maxInstructions
  slotUnfolded : mmu.Unfolded slot.rx trampolineSize
  apart : mmu.Apart f maxInstructions slot.rx trampolineSize

theorem Site.installable {mmu : Mmu} {ctrlRw f c : Addr} {slot : Slot} {m : Machine}
    (h : Site mmu ctrlRw f slot) (hc : Aligned c)
    (hPlain : ∀ i < maxInstructions, Unrecognised (m.read mmu (wordAt f i))) :
    Installable mmu ctrlRw f c slot m where
  aligned := h.aligned
  alignedCallback := hc
  alignedSlot := by
    have := h.slotAligned
    unfold Aligned
    omega
  rx_ne := h.rx_ne
  rw_ne := h.rw_ne
  targetAlias := h.targetAlias.mono (patchCount_le f c)
  slotAlias := h.slotAlias
  targetUnfolded := h.targetUnfolded.mono (patchCount_le f c)
  slotUnfolded := h.slotUnfolded
  apart := h.apart.mono (patchCount_le f c)
  plain i hi := hPlain i (Nat.lt_of_lt_of_le hi (patchCount_le f c))

theorem Site.composable {mmu : Mmu} {ctrl₁ ctrl₂ f a b : Addr} {slot₁ slot₂ : Slot} {m : Machine}
    (h₁ : Site mmu ctrl₁ f slot₁) (h₂ : Site mmu ctrl₂ f slot₂) (ha : Aligned a) (hb : Aligned b)
    (hSlots : mmu.Apart slot₁.rx trampolineSize slot₂.rx trampolineSize)
    (hSpace : f.toNat + 4 * maxInstructions < 2 ^ 63)
    (hPlain : ∀ i < maxInstructions, Unrecognised (m.read mmu (wordAt f i))) :
    Composable mmu ctrl₁ ctrl₂ f a b slot₁ slot₂ m where
  first := h₁.installable ha hPlain
  second := h₂.installable hb hPlain
  slotsApart := hSlots
  firstApart := h₂.apart.mono (patchCount_le f a)
  secondApart := h₁.apart.mono (patchCount_le f b)
  slotAligned := h₂.slotAligned
  userSpace := hSpace

/-- The first two slots. -/
def sampleSlot (i : BitVec 32) : Slot := .ofIndex sampleEnv.hookJit i

/-- The trampolines out of reach of the function. -/
def farMmu : Mmu where
  tr a :=
    if 0x90000#64 ≤ a ∧ a < 0x93000#64 then a + 0xfff90000#64
    else if 0xb0000#64 ≤ a ∧ a < 0xb1000#64 then a - 0x60000#64
    else a
  readable _ := true

def farEnv : Env :=
  { sampleEnv with mmu := farMmu, hookJit := ⟨0x100020000#64, 0x90000#64, 0x3000#64, some 0⟩ }

def farSlot (i : BitVec 32) : Slot := .ofIndex farEnv.hookJit i

theorem sample_site {env : Env} (hEnv : env = sampleEnv ∨ env = farEnv) (i : BitVec 32)
    (hi : i = 0#32 ∨ i = 1#32) :
    Site env.mmu 0xb0100#64 0x50100#64 (.ofIndex env.hookJit i) := by
  rcases hEnv with rfl | rfl <;> rcases hi with rfl | rfl
  all_goals exact {
    aligned := by decide
    slotAligned := by decide
    rx_ne := by decide
    rw_ne := by decide
    targetAlias := by decide +kernel
    slotAlias := by decide +kernel
    targetUnfolded := by decide +kernel
    slotUnfolded := Mmu.unfolded_of_id (by decide) (by decide +kernel)
    apart := by decide +kernel }

theorem sample_hooked {env : Env} {a b ta tb : Addr} {s₁ s₂ : HookState}
    (hEnv : env = sampleEnv ∨ env = farEnv) (ha : Aligned a) (hb : Aligned b)
    (hFirst : hook env 0xb0100#64 0x50100#64 a true sampleState = some (ta, s₁))
    (hSecond : hook env 0xb0100#64 0x50100#64 b true s₁ = some (tb, s₂)) :
    Hooked env 0xb0100#64 0xb0100#64 0x50100#64 a b ta tb (.ofIndex env.hookJit 0)
      (.ofIndex env.hookJit 1) sampleState s₁ s₂ := by
  have hApart : env.mmu.Apart (Slot.ofIndex env.hookJit 0).rx trampolineSize
      (Slot.ofIndex env.hookJit 1).rx trampolineSize := by
    rcases hEnv with rfl | rfl <;> decide +kernel
  exact ⟨(sample_site hEnv 0 (Or.inl rfl)).composable (sample_site hEnv 1 (Or.inr rfl)) ha hb hApart
    (by decide) fun _ _ => unrecognised_nop, rfl, rfl, hFirst, hSecond⟩

/-- Two callbacks out of reach of the function. -/
theorem hooks_compose_far : ∃ s₁ s₂,
    hook sampleEnv 0xb0100#64 0x50100#64 0x100060000#64 true sampleState = some (0x20000#64, s₁) ∧
    hook sampleEnv 0xb0100#64 0x50100#64 0x200060000#64 true s₁ = some (0x200c8#64, s₂) ∧
    OlderEntered (fun _ s => s.next) sampleEnv 0x50100#64 0x100060000#64 0x200060000#64 0x200c8#64
      (sampleSlot 0) (sampleSlot 1) s₂ := by
  obtain ⟨s₁, s₂, hFirst, hSecond⟩ : ∃ s₁ s₂,
      hook sampleEnv 0xb0100#64 0x50100#64 0x100060000#64 true sampleState = some (0x20000#64, s₁) ∧
      hook sampleEnv 0xb0100#64 0x50100#64 0x200060000#64 true s₁ = some (0x200c8#64, s₂) :=
    ⟨_, _, rfl, rfl⟩
  obtain ⟨-, hOlder, -⟩ := hooks_compose (fun _ s => s.next)
    (sample_hooked (.inl rfl) (by decide) (by decide) hFirst hSecond)
  exact ⟨s₁, s₂, hFirst, hSecond, hOlder (by decide) (by decide)⟩

/-! ## Hooks that do not compose -/

/-- A far hook behind a near one overwrites the word the first trampoline jumps back to. -/
theorem original_overwritten : ∃ s₁ s₂,
    hook sampleEnv 0xb0100#64 0x50100#64 0x60000#64 true sampleState = some (0x20000#64, s₁) ∧
    hook sampleEnv 0xb0100#64 0x50100#64 0x100060000#64 true s₁ = some (0x200c8#64, s₂) ∧
    s₂.mach.view sampleMmu 0x50104#64 ≠ sampleState.mach.view sampleMmu 0x50104#64 :=
  ⟨_, _, rfl, rfl, by decide +kernel⟩

/-- A state about to execute the second trampoline, in memory `mem`. -/
def olderCall (tb : Addr) (mem : Addr → Word) : State :=
  ⟨tb, fun _ => 0#64, 0x80000#64, 0#4, fun _ => 0#128, mem⟩

theorem step_brX17 {other : Word → State → State} {u : State} (hWord : u.mem u.pc = brX17)
    (hX : u.x 17#5 = u.pc) : step other u = u := by
  have hGpr : u.gpr 17#5 = u.pc := hX
  simp only [step, exec, hWord, decode_brX17, Instr.exec, State.jump, hGpr]

theorem step_self {other : Word → State → State} {u : State} (hWord : u.mem u.pc = 0x14000000#32) :
    step other u = u := by
  have hDecode : decode 0x14000000#32 = some (.b 0#26) := by decide
  have hOffset : u.pc + branchOffset 0#26 = u.pc := BitVec.add_zero _
  simp only [step, exec, hWord, hDecode, Instr.exec, State.jump, hOffset]

/-- A near hook behind a far one, with a trampoline out of reach of the function: X17 is
overwritten on the way back to `BR X17`. -/
theorem older_spins : ∃ s₁ s₂,
    hook farEnv 0xb0100#64 0x50100#64 0x200060000#64 true sampleState = some (0x100020000#64, s₁) ∧
    hook farEnv 0xb0100#64 0x50100#64 0x60000#64 true s₁ = some (0x1000200c8#64, s₂) ∧
    ¬ OlderEntered (fun _ s => s.next) farEnv 0x50100#64 0x200060000#64 0x60000#64 0x1000200c8#64
      (farSlot 0) (farSlot 1) s₂ := by
  refine ⟨_, _, rfl, rfl, ?_⟩
  refine not_reaches_of_loop (n := 4) (s := olderCall 0x1000200c8#64 _) ⟨rfl, nofun⟩
    (fun _ _ => rfl) (step_brX17 (by decide +kernel) (by decide +kernel)) (by decide +kernel)

/-- A callback in the word that is relocated: the branch to it is pointed at itself. -/
theorem older_inside : ∃ s₁ s₂,
    hook sampleEnv 0xb0100#64 0x50100#64 0x50100#64 true sampleState = some (0x20000#64, s₁) ∧
    hook sampleEnv 0xb0100#64 0x50100#64 0x60000#64 true s₁ = some (0x200c8#64, s₂) ∧
    ¬ OlderEntered (fun _ s => s.next) sampleEnv 0x50100#64 0x50100#64 0x60000#64 0x200c8#64
      (sampleSlot 0) (sampleSlot 1) s₂ := by
  refine ⟨_, _, rfl, rfl, ?_⟩
  exact not_reaches_of_loop (n := 0) (s := olderCall 0x200c8#64 _) ⟨rfl, nofun⟩
    (fun _ _ => rfl) (step_self (by decide +kernel)) (by decide +kernel)

/-- Neither trampoline does what it should in every case: the first when only the second hook is
far, the second when only the first is far, and when its callback lies in the window. -/
theorem hooks_do_not_compose :
    (¬ ∀ (other : Word → State → State) (env : Env) (ctrl₁ ctrl₂ f a b ta tb : Addr)
      (slot₁ slot₂ : Slot) (s s₁ s₂ : HookState),
      Hooked env ctrl₁ ctrl₂ f a b ta tb slot₁ slot₂ s s₁ s₂ →
      isFar f a = false → isFar f b = true →
      OriginalExecuted other env f a b ta slot₁ slot₂ s s₂) ∧
    (¬ ∀ (other : Word → State → State) (env : Env) (ctrl₁ ctrl₂ f a b ta tb : Addr)
      (slot₁ slot₂ : Slot) (s s₁ s₂ : HookState),
      Hooked env ctrl₁ ctrl₂ f a b ta tb slot₁ slot₂ s s₁ s₂ →
      isFar f a = true → isFar f b = false →
      OlderEntered other env f a b tb slot₁ slot₂ s₂) ∧
    ¬ ∀ (other : Word → State → State) (env : Env) (ctrl₁ ctrl₂ f a b ta tb : Addr)
      (slot₁ slot₂ : Slot) (s s₁ s₂ : HookState),
      Hooked env ctrl₁ ctrl₂ f a b ta tb slot₁ slot₂ s s₁ s₂ →
      isFar f a = false → isFar f b = false →
      OlderEntered other env f a b tb slot₁ slot₂ s₂ := by
  refine ⟨fun h => ?_, fun h => ?_, fun h => ?_⟩
  · obtain ⟨s₁, s₂, hFirst, hSecond, hChanged⟩ := original_overwritten
    have hKept := (h (fun _ s => s.next) _ _ _ _ _ _ _ _ _ _ _ _ _
      (sample_hooked (.inl rfl) (by decide) (by decide) hFirst hSecond) (by decide) (by decide)).2
    exact hChanged (hKept _ (by decide +kernel) (by decide +kernel) (by decide +kernel))
  · obtain ⟨s₁, s₂, hFirst, hSecond, hSpins⟩ := older_spins
    exact hSpins (h _ _ _ _ _ _ _ _ _ _ _ _ _ _
      (sample_hooked (.inr rfl) (by decide) (by decide) hFirst hSecond) (by decide) (by decide))
  · obtain ⟨s₁, s₂, hFirst, hSecond, hSpins⟩ := older_inside
    exact hSpins (h _ _ _ _ _ _ _ _ _ _ _ _ _ _
      (sample_hooked (.inl rfl) (by decide) (by decide) hFirst hSecond) (by decide) (by decide))

end Wondar.Hook
