import Wondar.A64.Run
import Wondar.Hook.Impl

/-!
# The jump that hooks are made of

`HookFuncImpl` and `__fix_instructions` write the same jump: a branch when the target is
within reach, and otherwise a literal load into X17, an indirect branch and the address,
behind a NOP when the address would not be aligned (`jumpWords`). The one writes it at the
function (`patchTarget_phys`), the other behind the relocated words (`putJumpBack_phys`).
Executing it arrives at the target with nothing but X17 changed (`reaches_jump`).
-/

namespace Wondar.Hook

open A64

/-! ## The words -/

def absoluteJumpWords (t : Addr) : List Word := [ldrX17, brX17, loWord t, hiWord t]

/-- `"B" ADDR_PCREL26`. -/
def nearBranch (e t : Addr) : Word :=
  0x14000000#32 ||| ((hookOffset e t).setWidth 32 &&& 0x03ffffff#32)

/-- A jump from `e` to `t`. -/
def jumpWords (e t : Addr) : List Word :=
  if isFar e t then
    if aligned8 (wordAt e 2) then absoluteJumpWords t else aarch64Nop :: absoluteJumpWords t
  else [nearBranch e t]

theorem aligned8_iff (p : Addr) : aligned8 p = true ↔ p.toNat % 8 = 0 := by
  have hLow := and_low_eq_zero_iff p (n := 3) (by omega)
  rwa [aligned8, beq_iff_eq]

theorem aligned8_behind (e : Addr) : aligned8 (wordAt e 2) = true ↔ e.toNat % 8 = 0 := by
  rw [aligned8_iff, wordAt, BitVec.toNat_add, BitVec.toNat_ofNat]
  omega

/-- The NOP that aligns an address two words behind `e`. -/
def alignPad (e : Addr) : List Word := if aligned8 (wordAt e 2) then [] else [aarch64Nop]

theorem length_alignPad (e : Addr) : (alignPad e).length ≤ 1 := by
  unfold alignPad
  split <;> decide

theorem jumpWords_far {e t : Addr} (hFar : isFar e t = true) :
    jumpWords e t = alignPad e ++ absoluteJumpWords t := by
  rw [jumpWords, if_pos hFar, alignPad]
  split <;> rfl

theorem jumpWords_near {e t : Addr} (hNear : isFar e t = false) : jumpWords e t = [nearBranch e t] := by
  rw [jumpWords, if_neg (by rw [hNear]; decide)]

theorem farCount_eq (e : Addr) : farCount e = (alignPad e).length + 4 := by
  unfold farCount alignPad
  split <;> rfl

theorem length_jumpWords (e t : Addr) : (jumpWords e t).length = patchCount e t := by
  unfold jumpWords patchCount farCount
  split
  · split <;> rfl
  · rfl

theorem storeWords_append (mmu : Mmu) (phys : BitVec 64 → Word) (a : Addr) (ws ws' : List Word) :
    storeWords mmu phys a (ws ++ ws') =
      storeWords mmu (storeWords mmu phys a ws) (wordAt a ws.length) ws' := by
  induction ws generalizing phys a with
  | nil => simp [storeWords]
  | cons w ws ih => simp [storeWords, ih, Nat.add_comm]

/-- The three stores of an absolute jump. -/
theorem putAbsoluteJump_phys (mmu : Mmu) (s : Reloc) (t : BitVec 64) :
    (s.putAbsoluteJump mmu 0 t).mach.phys =
      storeWords mmu s.mach.phys s.outrw (absoluteJumpWords t) := by
  simp [Reloc.putAbsoluteJump, Reloc.put, Reloc.put64, Mach.store64, Mach.store, storeWords,
    absoluteJumpWords]

theorem putJumpBack_phys (mmu : Mmu) (s : Reloc) : (putJumpBack mmu s).mach.phys =
    storeWords mmu s.mach.phys s.outrw (jumpWords s.outrx s.inprx) := by
  unfold putJumpBack jumpWords isFar hookOffset
  simp only [decide_eq_true_eq]
  split
  · split
    · exact putAbsoluteJump_phys mmu s s.inprx
    · refine (putAbsoluteJump_phys mmu (s.nop mmu) s.inprx).trans ?_
      simp [Reloc.nop, Reloc.put, Reloc.advance, Mach.store, storeWords]
  · simp [Reloc.put, Reloc.advance, Mach.store, storeWords, nearBranch, hookOffset]

theorem patchTarget_phys (mmu : Mmu) (ctrlRw symbol replace : Addr) (m : Machine) :
    (patchTarget mmu ctrlRw symbol replace m).phys =
      storeWords mmu m.phys ctrlRw (jumpWords symbol replace) := by
  unfold patchTarget jumpWords
  split
  · unfold farCount
    split
    · simp [writeFarJump, Mach.store64, Mach.store, storeWords, absoluteJumpWords]
    · simp [writeFarJump, Mach.store64, Mach.store, storeWords, absoluteJumpWords]
  · rfl

/-! ## Execution -/

section

variable {other : Word → State → State} {C : Addr → Prop} {view : Addr → Word} {e t : Addr}
  {v : Option (BitVec 64)}

theorem decode_ldrX17 : decode ldrX17 = some (.ldrLiteral .x 2#19 17#5) := by decide

theorem decode_brX17 : decode brX17 = some (.br 17#5) := by decide

/-- `LDR X17, #0x8` loads the doubleword two words behind. -/
theorem reaches_ldrX17 (hLdr : view e = ldrX17) (hLoad : load64 view (wordAt e 2) = t)
    (hC : ∀ i < 4, C (wordAt e i)) :
    Reaches other 17#5 C view ⟨e, v⟩ ⟨wordAt e 1, some t⟩ := by
  have hDecode : decode (view e) = some (.ldrLiteral .x 2#19 17#5) := by
    rw [hLdr]
    exact decode_ldrX17
  have hLit : e + branchOffset 2#19 = wordAt e 2 := rfl
  rw [← hLoad]
  exact reaches_ldr (by decide) (wordAt_zero e ▸ hC 0 (by omega)) hDecode hLit (hC 2 (by omega))
    (by rw [wordAt_wordAt]; exact hC 3 (by omega))

theorem reaches_absoluteJump (hWords : CodeAt view e (absoluteJumpWords t))
    (hC : ∀ i < 4, C (wordAt e i)) :
    Reaches other 17#5 C view ⟨e, v⟩ ⟨t, some t⟩ := by
  simp only [absoluteJumpWords, codeAt_cons] at hWords
  obtain ⟨hLdr, hBr, hLo, hHi, -⟩ := hWords
  have hLoad : load64 view (wordAt e 2) = t := by
    rw [load64, ← wordAt_wordAt e 1 1, hLo, hHi, ofWords_lo_hi]
  exact (reaches_ldrX17 hLdr hLoad hC).trans
    (reaches_br (by decide) (hC 1 (by omega)) (by rw [hBr]; exact decode_brX17))

/-- A displacement that fits is not cut. -/
theorem branchOffset_of_fit {n : Nat} (hn : n < 64) (he : Aligned e) (ht : Aligned t)
    (hFit : llabs (hookOffset e t) < 2 ^ n) :
    branchOffset ((hookOffset e t).setWidth (n + 1)) = t - e := by
  have hCast : ((2 ^ n : Nat) : Int) = 2 ^ n := by
    push_cast
    rfl
  unfold llabs hookOffset at hFit
  rw [branchOffset, hookOffset]
  exact scaled_round_trip hn _ (ht.sub he) (by omega) (by omega)

/-- The displacement of a near branch fits. -/
theorem branchOffset_hookOffset (he : Aligned e) (ht : Aligned t) (hNear : isFar e t = false) :
    branchOffset ((hookOffset e t).setWidth 26) = t - e := by
  have hFit : llabs (hookOffset e t) < 0x1ffffff := by
    simpa [isFar] using hNear
  exact branchOffset_of_fit (n := 25) (by omega) he ht (by omega)

theorem reaches_nearBranch (he : Aligned e) (ht : Aligned t) (hNear : isFar e t = false)
    (hWord : view e = nearBranch e t) (hC : C e) :
    Reaches other 17#5 C view ⟨e, v⟩ ⟨t, v⟩ := by
  have hDecode : decode (nearBranch e t) = some (.b ((hookOffset e t).setWidth 26)) := by
    rw [nearBranch, decode_b_word, BitVec.setWidth_setWidth_of_le _ (by omega)]
  refine reaches_b hC (by rw [hWord]; exact hDecode) ?_
  rw [branchOffset_hookOffset he ht hNear]
  grind

/-- A jump from `e` arrives at `t`. -/
theorem reaches_jump (he : Aligned e) (ht : Aligned t) (hWords : CodeAt view e (jumpWords e t))
    (hC : ∀ i < (jumpWords e t).length, C (wordAt e i)) :
    Reaches other 17#5 C view ⟨e, v⟩ ⟨t, none⟩ := by
  unfold jumpWords at hWords hC
  split at hWords
  · rename_i hFar
    rw [if_pos hFar] at hC
    split at hWords
    · rename_i hAligned
      rw [if_pos hAligned] at hC
      exact (reaches_absoluteJump hWords hC).drop
    · rename_i hAligned
      rw [if_neg hAligned] at hC
      have hNop : Reaches other 17#5 C view ⟨e, v⟩ ⟨wordAt e 1, v⟩ :=
        reaches_nop (wordAt_zero e ▸ hC 0 (by simp)) (codeAt_cons.mp hWords).1
      refine (hNop.trans (reaches_absoluteJump (codeAt_cons.mp hWords).2 fun i hi => ?_)).drop
      rw [wordAt_wordAt]
      exact hC _ (by simp [absoluteJumpWords]; omega)
  · rename_i hFar
    rw [if_neg hFar] at hC
    refine (reaches_nearBranch he ht (by simpa using hFar) (codeAt_cons.mp hWords).1 ?_).drop
    exact wordAt_zero e ▸ hC 0 (by simp)

end

/-! ## Words in memory -/

/-- Words that have been stored are code at the alias of their address. -/
theorem codeAt_store {mmu : Mmu} {phys : BitVec 64 → Word} {rw rx : Addr} {ws : List Word}
    (hUnfolded : mmu.Unfolded rw ws.length) (hAlias : mmu.Alias rw rx ws.length) :
    CodeAt (fun a => storeWords mmu phys rw ws (mmu.tr a)) rx ws := by
  intro i hi
  change storeWords mmu phys rw ws (mmu.tr (wordAt rx i)) = ws[i]
  rw [← hAlias i hi]
  exact storeWords_at hUnfolded hi

/-- The target jumps to the callback once it is patched. -/
theorem patchTarget_code {mmu : Mmu} {ctrlRw f c : Addr} (m : Machine)
    (hAlias : mmu.Alias ctrlRw f (patchCount f c)) (hUnfolded : mmu.Unfolded f (patchCount f c)) :
    CodeAt ((patchTarget mmu ctrlRw f c m).view mmu) f (jumpWords f c) := by
  have hView : (patchTarget mmu ctrlRw f c m).view mmu =
      fun a => storeWords mmu m.phys ctrlRw (jumpWords f c) (mmu.tr a) := by
    rw [← patchTarget_phys]
    rfl
  rw [← length_jumpWords] at hAlias hUnfolded
  rw [hView]
  refine codeAt_store (fun i j hi hj hSame => ?_) hAlias
  rw [hAlias i hi, hAlias j hj] at hSame
  exact hUnfolded i j hi hj hSame

end Wondar.Hook
