import Wondar.Hook.Chain

/-!
# The trampoline of a second hook

The second hook of a function relocates what the first wrote there. A branch becomes a jump from
the trampoline (`branch_relocated`). An absolute jump is copied with its literal when all of it
is relocated (`absoluteJump_relocated`); when only its first word is, the trampoline loads the
address (`ldrX17_relocated`) and jumps back to the rest (`slot_of_first`). The words of the
address are relocated like instructions, but behind the indirect branch, so whatever they become
is not executed.
-/

namespace Wondar.Hook

open A64 Coherence

/-! ## The window of the second hook -/

/-- Addresses in user space are compared as naturals. -/
theorem isInFixingRange_iff {c : Context} {f x : Addr} {count : Nat} (hBase : c.basep = f)
    (hEnd : c.endp = wordAt f count) (hSpace : f.toNat + 4 * count < 2 ^ 63) :
    c.isInFixingRange x = true ↔ f.toNat ≤ x.toNat ∧ x.toNat < f.toNat + 4 * count := by
  have hNat : (wordAt f count).toNat = f.toNat + 4 * count := by
    unfold wordAt
    rw [BitVec.toNat_add, BitVec.toNat_ofNat]
    omega
  have := x.isLt
  rw [Context.isInFixingRange, hBase, hEnd, Bool.and_eq_true, BitVec.sle_iff_toInt_le,
    BitVec.slt_iff_toInt_lt]
  simp only [BitVec.toInt_eq_toNat_cond, hNat]
  split <;> split <;> split <;> omega

theorem not_isInFixingRange {c : Context} {f x : Addr} {count : Nat} (hBase : c.basep = f)
    (hEnd : c.endp = wordAt f count) (hSpace : f.toNat + 4 * count < 2 ^ 63) (hf : Aligned f)
    (hx : Aligned x) (hOutside : ∀ i < count, x ≠ wordAt f i) : c.isInFixingRange x = false := by
  rw [← Bool.not_eq_true, isInFixingRange_iff hBase hEnd hSpace]
  rintro ⟨hLow, hHigh⟩
  unfold Aligned at hf hx
  refine hOutside ((x.toNat - f.toNat) / 4) (by omega) (BitVec.eq_of_toNat_eq ?_)
  unfold wordAt
  rw [BitVec.toNat_add, BitVec.toNat_ofNat]
  omega

/-! ## The trampoline of the second hook -/

/-- What two calls rely on: each of them on its own, and that their trampolines lie apart. -/
structure Composable (mmu : Mmu) (ctrl₁ ctrl₂ f a b : Addr) (slot₁ slot₂ : Slot) (m : Machine) :
    Prop where
  first : Installable mmu ctrl₁ f a slot₁ m
  second : Installable mmu ctrl₂ f b slot₂ m
  slotsApart : mmu.Apart slot₁.rx trampolineSize slot₂.rx trampolineSize
  firstApart : mmu.Apart f (patchCount f a) slot₂.rx trampolineSize
  secondApart : mmu.Apart f (patchCount f b) slot₁.rx trampolineSize
  /-- Slots are aligned to 8 bytes. -/
  slotAligned : slot₂.rx.toNat % 8 = 0
  userSpace : f.toNat + 4 * maxInstructions < 2 ^ 63

section

variable {mmu : Mmu} {ctrl₁ ctrl₂ f a b : Addr} {slot₁ slot₂ : Slot} {m m₁ t : Machine}

/-- Where the relocation of the second hook starts. -/
def secondStart (ctrl₂ f b : Addr) (slot₂ : Slot) (m₁ : Machine) : Reloc :=
  startReloc ctrl₂ f (patchCount f b) slot₂.rw slot₂.rx m₁

theorem Composable.ins (h : Composable mmu ctrl₁ ctrl₂ f a b slot₁ slot₂ m) :
    (secondStart ctrl₂ f b slot₂ m₁).ins mmu = m₁.read mmu f := by
  have hRead := h.second.read (m := m₁) (patchCount_pos f b)
  rwa [wordAt_zero, wordAt_zero] at hRead

theorem Composable.space (h : Composable mmu ctrl₁ ctrl₂ f a b slot₁ slot₂ m) :
    f.toNat + 4 * patchCount f b < 2 ^ 63 := by
  have := patchCount_le f b
  have := h.userSpace
  omega

/-- A branch of the first hook becomes a jump to its callback. -/
theorem branch_relocated (h : Composable mmu ctrl₁ ctrl₂ f a b slot₁ slot₂ m)
    (hJump : CodeAt (m₁.view mmu) f (jumpWords f a)) (hNear : isFar f a = false)
    (hOutside : ∀ i < patchCount f b, a ≠ wordAt f i)
    (hFix : fixInstructions mmu ctrl₂ f (patchCount f b) slot₂.rw slot₂.rx m₁ = some t) :
    CodeAt (t.view mmu) slot₂.rw (jumpWords slot₂.rx a) := by
  have hWord : m₁.read mmu f = nearBranch f a := by
    rw [jumpWords_near hNear] at hJump
    exact (codeAt_cons.mp hJump).1
  obtain ⟨u, hFirst, hEmits⟩ := fixInstruction_branch (t := a)
    (s := secondStart ctrl₂ f b slot₂ m₁) (h.ins.trans hWord) h.first.aligned
    h.first.alignedCallback hNear
    (not_isInFixingRange rfl rfl h.space h.first.aligned h.first.alignedCallback hOutside)
    fun _ => rfl
  have hLe := jumpWords_le slot₂.rx a
  refine fixInstructions_head (n := 1) (patchCount_pos f b) (patchCount_le f b) ?_ hEmits
    h.second.unfoldedRw ?_ hFix
  · rw [fixLoop, show startReloc _ _ _ _ _ _ = secondStart ctrl₂ f b slot₂ m₁ from rfl, hFirst]
    rfl
  · change _ ≤ 9
    exact Nat.le_trans hLe (by decide)

/-- Words of the function that the relocation has not come to, read through the claim. -/
theorem Composable.read (h : Composable mmu ctrl₁ ctrl₂ f a b slot₁ slot₂ m) {s : Reloc} {n : Nat}
    {ws : List Word} (hEmits : Emits mmu (secondStart ctrl₂ f b slot₂ m₁) s n ws)
    (hLength : ws.length ≤ trampolineSize) {i : Nat} (hi : i < patchCount f b) :
    s.mach.read mmu (wordAt ctrl₂ i) = m₁.read mmu (wordAt f i) ∧
      s.mach.read mmu (wordAt f i) = m₁.read mmu (wordAt f i) := by
  have hKept := hEmits.read (a := wordAt ctrl₂ i) fun j hj => h.second.apartRw i j hi (by omega)
  rw [← h.second.read (m := s.mach) hi, and_self, hKept]
  exact h.second.read hi

/-- An absolute jump in the window, behind `k` words that have been emitted. -/
theorem absoluteJump_emits (h : Composable mmu ctrl₁ ctrl₂ f a b slot₁ slot₂ m) {k : Nat}
    (hWords : CodeAt (m₁.view mmu) (wordAt f k) (absoluteJumpWords a)) (hk : k + 4 ≤ patchCount f b)
    {s u : Reloc} {ws : List Word} (hLength : ws.length = k)
    (hEmits : Emits mmu (secondStart ctrl₂ f b slot₂ m₁) s k ws)
    (hLoop : fixLoop mmu 2 s = some u) :
    Emits mmu (secondStart ctrl₂ f b slot₂ m₁) u (k + 2)
      (ws ++ copiedJump (wordAt slot₂.rx k) (loWord a) (hiWord a)) := by
  have hMax : maxInstructions = 5 := rfl
  have hSize : trampolineSize = 50 := rfl
  have hCount := patchCount_le f b
  have hSpace := h.space
  -- the cursors of `s`
  have hInprw : s.inprw = wordAt ctrl₂ k := hEmits.inprw
  have hInprx : s.inprx = wordAt f k := hEmits.inprx
  have hOutrw : s.outrw = wordAt slot₂.rw k := by rw [← hLength]; exact hEmits.outrw
  have hOutrx : s.outrx = wordAt slot₂.rx k := by rw [← hLength]; exact hEmits.outrx
  have hLit : jumpLiteral s = wordAt f (k + 2) := by rw [jumpLiteral, hInprx, wordAt_wordAt]
  -- and the words that it reads
  simp only [absoluteJumpWords, codeAt_cons, wordAt_wordAt] at hWords
  obtain ⟨hLdr, hBr, hLo, hHi, -⟩ := hWords
  have hRead := fun i (hi : i < patchCount f b) => h.read hEmits (by omega) hi
  have hCopied := fixLoop_absoluteJump hLoop
    (by rw [Reloc.ins, hInprw, (hRead k (by omega)).1]; exact hLdr)
    (by rw [hInprw, wordAt_wordAt, (hRead (k + 1) (by omega)).1]; exact hBr) hEmits.refs
    (by rw [hOutrx]; exact h.second.alignedSlot.wordAt k)
    (by
      rw [hLit, isInFixingRange_iff hEmits.basep hEmits.endp hSpace]
      change f.toNat ≤ _ ∧ _ < f.toNat + 4 * patchCount f b
      unfold wordAt
      rw [BitVec.toNat_add, BitVec.toNat_ofNat]
      omega)
    (fun i j hi hj => by
      rw [hLit, hOutrw, wordAt_wordAt, wordAt_wordAt, h.second.slotAlias _ (by omega)]
      exact h.second.apart _ _ (by omega) (by omega))
    (fun j hj => by
      rw [hInprw, hOutrw, wordAt_wordAt, wordAt_wordAt]
      exact h.second.apartRw _ _ (by omega) (by omega))
  rw [hOutrx, hLit, wordAt_wordAt, (hRead (k + 2) (by omega)).2,
    (hRead (k + 3) (by omega)).2] at hCopied
  rw [← hLo, ← hHi]
  exact hEmits.trans hCopied

/-- The NOP before it. -/
theorem alignPad_emits (h : Composable mmu ctrl₁ ctrl₂ f a b slot₁ slot₂ m)
    (hPad : CodeAt (m₁.view mmu) f (alignPad f)) :
    ∃ s, fixLoop mmu (alignPad f).length (secondStart ctrl₂ f b slot₂ m₁) = some s ∧
      Emits mmu (secondStart ctrl₂ f b slot₂ m₁) s (alignPad f).length (alignPad f) := by
  have hRefs : (secondStart ctrl₂ f b slot₂ m₁).ctx.NoRefs := fun _ => rfl
  unfold alignPad at hPad ⊢
  split at hPad
  · rename_i hAligned
    rw [if_pos hAligned]
    exact ⟨_, rfl, Emits.refl mmu hRefs⟩
  · rename_i hAligned
    rw [if_neg hAligned]
    have hIns : (secondStart ctrl₂ f b slot₂ m₁).ins mmu = aarch64Nop :=
      h.ins.trans (codeAt_cons.mp hPad).1
    have hCopy := copyInstruction_emits mmu hRefs
    rw [hIns] at hCopy
    refine ⟨_, ?_, hCopy⟩
    rw [List.length_singleton, fixLoop, fixInstruction_plain (by rw [hIns]; exact unrecognised_nop)]
    rfl

/-- An absolute jump of the first hook is copied when the second one overwrites all of it. -/
theorem absoluteJump_relocated (h : Composable mmu ctrl₁ ctrl₂ f a b slot₁ slot₂ m)
    (hJump : CodeAt (m₁.view mmu) f (jumpWords f a)) (hFar : isFar f a = true)
    (hFar' : isFar f b = true)
    (hFix : fixInstructions mmu ctrl₂ f (patchCount f b) slot₂.rw slot₂.rx m₁ = some t) :
    CodeAt (t.view mmu) slot₂.rw (alignPad f ++
      copiedJump (wordAt slot₂.rx (alignPad f).length) (loWord a) (hiWord a)) := by
  rw [jumpWords_far hFar] at hJump
  obtain ⟨hPad, hWords⟩ := codeAt_append.mp hJump
  have hCount : patchCount f b = (alignPad f).length + 4 := by
    rw [patchCount, if_pos hFar', farCount_eq]
  obtain ⟨s, hFirst, hEmits⟩ := alignPad_emits h hPad
  obtain ⟨u, hLoop⟩ := fixLoop_first (n := (alignPad f).length + 2) (by omega) hFix
  have hRest := hLoop
  rw [fixLoop_add, show startReloc _ _ _ _ _ _ = secondStart ctrl₂ f b slot₂ m₁ from rfl, hFirst,
    Option.bind_some] at hRest
  have hAll := absoluteJump_emits h hWords (by omega) rfl hEmits hRest
  refine fixInstructions_head (by omega) (patchCount_le f b) hLoop hAll h.second.unfoldedRw ?_ hFix
  have hLe := length_alignPad f
  have hLe' := length_alignPad (wordAt slot₂.rx (alignPad f).length)
  simp only [copiedJump, List.length_append, List.length_cons, List.length_nil]
  omega

/-- The literal of an absolute jump on an aligned function is copied when it is out of reach of the
trampoline, and otherwise it is read where it is. -/
theorem ldrX17_relocated (h : Composable mmu ctrl₁ ctrl₂ f a b slot₁ slot₂ m)
    (hWords : CodeAt (m₁.view mmu) f (absoluteJumpWords a)) (hFar : isFar f a = true)
    (hAligned : f.toNat % 8 = 0) (hNear : isFar f b = false) {u : Reloc}
    (hFirst : fixInstruction mmu (secondStart ctrl₂ f b slot₂ m₁) = some u) :
    (literalFar slot₂.rx (wordAt f 2) = true ∧ Emits mmu (secondStart ctrl₂ f b slot₂ m₁) u 1
      [ldrX17, skipLiteral, loWord a, hiWord a]) ∨
    (literalFar slot₂.rx (wordAt f 2) = false ∧ Emits mmu (secondStart ctrl₂ f b slot₂ m₁) u 1
      [ldrX17At slot₂.rx (wordAt f 2)]) := by
  have hSize : trampolineSize = 50 := rfl
  have hCount : patchCount f b = 1 := by rw [patchCount, if_neg (by rw [hNear]; decide)]
  have hCount' : patchCount f a = 4 := by
    rw [patchCount, if_pos hFar, farCount, if_pos ((aligned8_behind f).mpr hAligned)]
  simp only [absoluteJumpWords, codeAt_cons, wordAt_wordAt] at hWords
  obtain ⟨hLdr, -, hLo, hHi, -⟩ := hWords
  have hIns : (secondStart ctrl₂ f b slot₂ m₁).ins mmu = ldrX17 := h.ins.trans hLdr
  have hRefs : (secondStart ctrl₂ f b slot₂ m₁).ctx.NoRefs := fun _ => rfl
  have hNoPad : alignPad slot₂.rx = [] := by
    rw [alignPad, if_pos ((aligned8_behind _).mpr h.slotAligned)]
  cases hLit : literalFar slot₂.rx (wordAt f 2) with
  | true =>
    have hCopy := fixInstruction_ldrX17_copy hIns hRefs h.second.alignedSlot (Or.inr hLit)
      (fun i j hi hj => by
        change mmu.tr (wordAt (wordAt f 2) i) ≠ mmu.tr (wordAt slot₂.rw j)
        rw [wordAt_wordAt, h.second.slotAlias _ (by omega)]
        exact h.firstApart _ _ (by omega) (by omega)) hFirst
    change Emits mmu _ u 1 (alignPad slot₂.rx ++ [ldrX17, skipLiteral, m₁.read mmu (wordAt f 2),
      m₁.read mmu (wordAt (wordAt f 2) 1)]) at hCopy
    rw [hNoPad, wordAt_wordAt] at hCopy
    rw [← hLo, ← hHi]
    exact Or.inl ⟨rfl, hCopy⟩
  | false =>
    have hOutside : (secondStart ctrl₂ f b slot₂ m₁).ctx.isInFixingRange (wordAt f 2) = false :=
      not_isInFixingRange rfl rfl h.space h.first.aligned (h.first.aligned.wordAt 2) fun i hi hSame => by
        have := wordAt_inj (by omega) (by omega) hSame
        omega
    obtain ⟨u', hFix, hEmits⟩ := fixInstruction_ldrX17_reach hIns hRefs h.slotAligned
      ((aligned8_iff _).mp ((aligned8_behind f).mpr hAligned)) hOutside hLit
    rw [hFirst] at hFix
    cases hFix
    exact Or.inr ⟨rfl, hEmits⟩

/-- When the second hook overwrites one word of an absolute jump, its trampoline ends in a jump
back to the others. -/
theorem slot_of_first (hNear : isFar f b = false) {u : Reloc} {ws : List Word} {n : Nat}
    (h : Composable mmu ctrl₁ ctrl₂ f a b slot₁ slot₂ m)
    (hLoop : fixInstruction mmu (secondStart ctrl₂ f b slot₂ m₁) = some u)
    (hEmits : Emits mmu (secondStart ctrl₂ f b slot₂ m₁) u 1 ws) (hLength : ws.length = n)
    (hn : n ≤ 9)
    (hFix : fixInstructions mmu ctrl₂ f (patchCount f b) slot₂.rw slot₂.rx m₁ = some t) :
    CodeAt (t.view mmu) slot₂.rw (ws ++ jumpWords (wordAt slot₂.rx n) (wordAt f 1)) := by
  have hCount : patchCount f b = 1 := by rw [patchCount, if_neg (by rw [hNear]; decide)]
  unfold secondStart at hLoop hEmits
  rw [hCount] at hLoop hEmits hFix
  have hMax : maxInstructions = 5 := rfl
  have hSize : trampolineSize = 50 := rfl
  obtain ⟨t', hFix', hSlot⟩ := fixInstructions_emits
    (by rw [fixLoop, hLoop]; rfl) hEmits h.second.unfoldedRw (by omega)
  rw [hFix] at hFix'
  cases hFix'
  rwa [hLength] at hSlot

end

end Wondar.Hook
