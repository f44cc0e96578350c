import Wondar.Hook.Emission

/-!
# Relocating B and BL

A branch out of the window becomes one branch when the target is near enough to the output, and
otherwise a jump through X17; a branch with link then sets X30 by hand (`branchWords`). The two
far forms keep the address they load aligned by opposite tests, because it lies two words behind
the one and three words behind the other.

`fixBranchImm_appends` says that `__fix_branch_imm` emits these words, `exits_branchWords` what
they do, and `fixBranchImm_faithful` puts the two together. The near form is chosen only for
displacements that a branch can hold.
-/

namespace Wondar.Hook

open A64 Coherence

variable {mmu : Mmu} {slot : Slot} {s : Reloc} {e t p : Addr}

/-! ## The words -/

/-- `LDR X17, #12`. -/
def ldrX17Link : Word := 0x58000071#32
/-- `ADR X30, #16`. -/
def adrX30 : Word := 0x1000009e#32

/-- The NOP that aligns an address three words behind `e`. -/
def alignPadLink (e : Addr) : List Word := if aligned8 (wordAt e 2) then [aarch64Nop] else []

def absoluteCallWords (t : Addr) : List Word := [ldrX17Link, adrX30, brX17, loWord t, hiWord t]

def branchOpcode (link : Bool) : Word := if link then 0x94000000#32 else 0x14000000#32

/-- What a branch to `t` becomes at `e`. -/
def branchWords (link : Bool) (e t : Addr) : List Word :=
  if isFar e t then
    if link then alignPadLink e ++ absoluteCallWords t else alignPad e ++ absoluteJumpWords t
  else [branchOpcode link ||| ((hookOffset e t).setWidth 32 &&& 0x03ffffff#32)]

theorem length_alignPadLink (e : Addr) : (alignPadLink e).length ≤ 1 := by
  unfold alignPadLink
  split <;> decide

theorem length_branchWords (link : Bool) (e t : Addr) :
    (branchWords link e t).length ≤ 6 ∧ ((branchWords link e t).length = 1 → isFar e t = false) := by
  have hPad := length_alignPad e
  have hLink := length_alignPadLink e
  unfold branchWords
  split
  · split
    · simp only [List.length_append, absoluteCallWords, List.length_cons, List.length_nil]
      omega
    · simp only [List.length_append, absoluteJumpWords, List.length_cons, List.length_nil]
      omega
  · rename_i hNear
    exact ⟨by simp, fun _ => by simpa using hNear⟩

/-! ## Emission -/

/-- The bits of a branch. The core decodes it from its opcode alone. -/
theorem opcode_of_decode {w : Word} {link : Bool} {imm : BitVec 26}
    (h : decode w = some (branchInstr link imm)) :
    w &&& 0xfc000000#32 = branchOpcode link ∧ imm = w.setWidth 26 := by
  unfold decode at h
  dsimp only at h
  cases link with
  | false =>
    by_cases hB : w &&& 0xfc000000#32 = 0x14000000#32
    · rw [if_pos hB] at h
      cases h
      exact ⟨hB, rfl⟩
    · exfalso
      rw [if_neg hB] at h
      iterate 13 replace h := of_ite_some h nofun
      obtain ⟨kind, -, hKind⟩ := Option.map_eq_some_iff.mp h
      cases hKind
  | true =>
    replace h := of_ite_some h nofun
    by_cases hBl : w &&& 0xfc000000#32 = 0x94000000#32
    · rw [if_pos hBl] at h
      cases h
      exact ⟨hBl, rfl⟩
    · exfalso
      rw [if_neg hBl] at h
      iterate 12 replace h := of_ite_some h nofun
      obtain ⟨kind, -, hKind⟩ := Option.map_eq_some_iff.mp h
      cases hKind

theorem Appends.absoluteJump {u : Reloc} {ws : List Word} (h : Appends mmu s u p ws) (target : Addr) :
    Appends mmu s ((u.putAbsoluteJump mmu 0 target).advance 4) p (ws ++ absoluteJumpWords target) :=
  h.block ((Writes.refl mmu u).absoluteJump target)

theorem Appends.absoluteCall {u : Reloc} {ws : List Word} (h : Appends mmu s u p ws) (target : Addr) :
    Appends mmu s (((((u.put mmu 0 ldrX17Link).put mmu 1 adrX30).put mmu 2 brX17).put64 mmu 3
      target).advance 5) p (ws ++ absoluteCallWords target) :=
  h.block (((((Writes.refl mmu u).put ldrX17Link).put adrX30).put brX17).put64 target)

/-- The padding of a jump. -/
theorem Appends.alignPad {u : Reloc} (h : Appends mmu s u p []) :
    Appends mmu s (if aligned8 (wordAt u.outrx 2) then u else (u.nop mmu).resetCurrentIns s.currentIdx)
      (if aligned8 (wordAt s.outrx 2) then p else wordAt s.outrx 1) (alignPad s.outrx) := by
  have hOut : u.outrx = s.outrx := by rw [h.outrx, List.length_nil, wordAt_zero]
  rw [hOut, Hook.alignPad]
  split
  · exact h
  · exact h.nop.resetCurrentIns

/-- The padding of a call. -/
theorem Appends.alignPadLink {u : Reloc} (h : Appends mmu s u p []) :
    Appends mmu s (if aligned8 (wordAt u.outrx 2) then (u.nop mmu).resetCurrentIns s.currentIdx else u)
      (if aligned8 (wordAt s.outrx 2) then wordAt s.outrx 1 else p) (alignPadLink s.outrx) := by
  have hOut : u.outrx = s.outrx := by rw [h.outrx, List.length_nil, wordAt_zero]
  rw [hOut, Hook.alignPadLink]
  split
  · exact h.nop.resetCurrentIns
  · exact h

/-- Where a branch to `t` is noted, when it is relocated to `e`. -/
def branchPlace (link : Bool) (e t : Addr) : Addr :=
  if isFar e t then
    if link then (if aligned8 (wordAt e 2) then wordAt e 1 else e)
    else (if aligned8 (wordAt e 2) then e else wordAt e 1)
  else e

/-- A branch whose target is outside of the window. -/
theorem fixBranchImm_appends {link : Bool} {imm : BitVec 26}
    (hDecode : decode (s.ins mmu) = some (branchInstr link imm))
    (hOutside : s.ctx.isInFixingRange (s.inprx + branchOffset imm) = false) :
    ∃ u, fixBranchImm mmu s = .fixed (u.consume.processFixMap mmu s.currentIdx) ∧
      Appends mmu s u (branchPlace link s.outrx (s.inprx + branchOffset imm))
        (branchWords link s.outrx (s.inprx + branchOffset imm)) := by
  obtain ⟨hOp, rfl⟩ := opcode_of_decode hDecode
  have hStart := Appends.start mmu s s.outrx
  have hKind : branchOpcode link = 0x14000000#32 ∨ branchOpcode link = 0x94000000#32 := by
    cases link <;> decide
  unfold fixBranchImm branchWords branchPlace
  simp only [hOp, if_pos hKind, branchOffset_field, setCurrentIndex_range, setCurrentIndex_inprx,
    setCurrentIndex_outrx, hOutside, Bool.not_false, Bool.true_and]
  refine ⟨_, rfl, ?_⟩
  change Appends mmu s (if isFar s.outrx _ = true then _ else _) _ _
  by_cases hFar : isFar s.outrx (s.inprx + branchOffset ((s.ins mmu).setWidth 26)) = true
  · rw [if_pos hFar, if_pos hFar, if_pos hFar]
    cases link with
    | false => exact hStart.alignPad.absoluteJump _
    | true => exact hStart.alignPadLink.absoluteCall _
  · rw [if_neg hFar, if_neg hFar, if_neg hFar]
    exact hStart.put _

/-! ## Execution -/

section

variable {other : Word → State → State} {σ τ : State} {n i : Nat}

theorem alignPad_nops (e : Addr) : ∀ w ∈ alignPad e, w = aarch64Nop := by
  unfold alignPad
  split <;> simp

theorem alignPadLink_nops (e : Addr) : ∀ w ∈ alignPadLink e, w = aarch64Nop := by
  unfold alignPadLink
  split <;> simp

/-- A displacement of many words leads out of a block of fewer. -/
theorem outside_of_llabs {d : BitVec 64} {k : Nat} (h : k ≤ llabs (d.sshiftRight 2)) (hn : n < k)
    (hSmall : n ≤ trampolineSize) : 4 * n ≤ d.toNat := by
  have hSize : trampolineSize = 50 := rfl
  have hQuot := toInt_sshiftRight_two d
  have hLt := d.isLt
  unfold llabs at h
  rw [BitVec.toInt_eq_toNat_cond (x := d)] at hQuot
  split at hQuot <;> omega

/-- The absolute jump at word `i` of a block leaves it for its target. -/
theorem exits_absoluteJump (hAt : σ.AtWord e i)
    (hCode : CodeAt σ.mem (wordAt e i) (absoluteJumpWords t)) (hi : i + 4 ≤ n)
    (hn : 4 * n < 2 ^ 64) (hOut : 4 * n ≤ (t - e).toNat) :
    Exits other e n σ { σ with pc := t, x := Function.update σ.x 17#5 t } := by
  simp only [absoluteJumpWords, codeAt_cons, wordAt_wordAt] at hCode
  obtain ⟨hLdr, hBr, hLo, hHi, -⟩ := hCode
  rw [← hAt] at hLdr
  have hLoad : load64 σ.mem (wordAt e (i + 2)) = t := by
    rw [load64, wordAt_wordAt, hLo, hHi, ofWords_lo_hi]
  have hLit : σ.pc + branchOffset 2#19 = wordAt e (i + 2) := by
    rw [hAt, ← wordAt_wordAt]
    rfl
  have hFirst := step_ldrX other hLdr decode_ldrX17 (by decide) hLit
  rw [hLoad, hAt.succ] at hFirst
  refine .fall hFirst hAt rfl (by omega) hn (.away (step_br _ hBr decode_brX17 (by decide)) ?_)
  change 4 * n ≤ (Function.update σ.x 17#5 t 17#5 - e).toNat
  rwa [Function.update_self]

theorem decode_ldrX17Link : decode ldrX17Link = some (.ldrLiteral .x 3#19 17#5) := by decide

theorem decode_adrX30 : decodePcRel adrX30 = some (.adr 30#5 16#21) := by decide

/-- The absolute call also sets X30 to the address behind the block that it ends. -/
theorem exits_absoluteCall (hAt : σ.AtWord e i)
    (hCode : CodeAt σ.mem (wordAt e i) (absoluteCallWords t)) (hi : i + 5 = n)
    (hn : 4 * n < 2 ^ 64) (hOut : 4 * n ≤ (t - e).toNat) :
    Exits (withPcRel other) e n σ
      { σ with pc := t, x := Function.update (Function.update σ.x 30#5 (wordAt e n)) 17#5 t } := by
  simp only [absoluteCallWords, codeAt_cons, wordAt_wordAt] at hCode
  obtain ⟨hLdr, hAdr, hBr, hLo, hHi, -⟩ := hCode
  rw [← hAt] at hLdr
  have hLoad : load64 σ.mem (wordAt e (i + 3)) = t := by
    rw [load64, wordAt_wordAt, hLo, hHi, ofWords_lo_hi]
  have hLit : σ.pc + branchOffset 3#19 = wordAt e (i + 3) := by
    rw [hAt, ← wordAt_wordAt]
    rfl
  have hFirst := step_ldrX (withPcRel other) hLdr decode_ldrX17Link (by decide) hLit
  rw [hLoad, hAt.succ] at hFirst
  -- X30 is four words behind the ADR
  have hLink : wordAt e (i + 1) + (16#21).signExtend 64 = wordAt e n := by
    rw [← hi, ← wordAt_wordAt e (i + 1) 4]
    rfl
  have hSwap : Function.update (Function.update σ.x 17#5 t) 30#5 (wordAt e n) =
      Function.update (Function.update σ.x 30#5 (wordAt e n)) 17#5 t :=
    Function.update_comm (by decide) ..
  have hSecond : step (withPcRel other) { σ with pc := wordAt e (i + 1), x := Function.update σ.x 17#5 t } =
      { σ with
        pc := wordAt e (i + 2)
        x := Function.update (Function.update σ.x 30#5 (wordAt e n)) 17#5 t } := by
    rw [step_pcRel _ hAdr decode_adrX30, PcRel.exec, State.setGpr, if_neg (by decide)]
    dsimp only
    rw [hLink, hSwap, State.next, State.jump, ← wordAt_wordAt e (i + 1) 1, wordAt_one]
  refine .fall hFirst hAt rfl (by omega) hn (.fall hSecond rfl rfl (by omega) hn ?_)
  refine .away (step_br _ hBr decode_brX17 (by decide)) ?_
  change 4 * n ≤ (Function.update (Function.update σ.x 30#5 (wordAt e n)) 17#5 t 17#5 - e).toNat
  rwa [Function.update_self]

theorem decode_branchWord (link : Bool) (q : BitVec 64) :
    decode (branchOpcode link ||| (q.setWidth 32 &&& 0x03ffffff#32)) =
      some (branchInstr link (q.setWidth 26)) := by
  cases link with
  | false => exact (decode_b_word _).trans (by rw [BitVec.setWidth_setWidth_of_le _ (by omega)]; rfl)
  | true => exact (decode_bl_word _).trans (by rw [BitVec.setWidth_setWidth_of_le _ (by omega)]; rfl)

/-- The words of a branch arrive at its target. -/
theorem exits_branchWords (link : Bool) (he : Aligned e) (ht : Aligned t) (hAt : σ.AtWord e 0)
    (hCode : CodeAt σ.mem e (branchWords link e t)) :
    ∃ v, Exits (withPcRel other) e (branchWords link e t).length σ
      { σ with
        pc := t
        x := Function.update (linked link σ.x (wordAt e (branchWords link e t).length)) 17#5 v } := by
  have hLength := (length_branchWords link e t).1
  have hSize : trampolineSize = 50 := rfl
  have hPc : σ.pc = e := hAt.trans (wordAt_zero e)
  unfold branchWords at hCode hLength ⊢
  split at hCode
  · rename_i hFar
    have hOut : ∀ n ≤ 6, 4 * n ≤ (t - e).toNat := fun n hn =>
      outside_of_llabs (of_decide_eq_true hFar) (by omega) (by omega)
    rw [if_pos hFar] at hLength ⊢
    cases link with
    | false =>
      obtain ⟨hPad, hJump⟩ := codeAt_append.mp hCode
      simp only [Bool.false_eq_true, if_false, List.length_append] at hLength ⊢
      refine ⟨t, exits_nops (alignPad_nops e) hAt (by rwa [wordAt_zero]) ?_ (by omega) ?_⟩
      · simp [absoluteJumpWords]
      · rw [Nat.zero_add]
        exact exits_absoluteJump rfl hJump (by simp [absoluteJumpWords]) (by omega) (hOut _ hLength)
    | true =>
      obtain ⟨hPad, hCall⟩ := codeAt_append.mp hCode
      simp only [if_true, List.length_append] at hLength ⊢
      refine ⟨t, exits_nops (alignPadLink_nops e) hAt (by rwa [wordAt_zero]) ?_ (by omega) ?_⟩
      · simp [absoluteCallWords]
      · rw [Nat.zero_add]
        exact exits_absoluteCall rfl hCall (by simp [absoluteCallWords]) (by omega) (hOut _ hLength)
  · rename_i hFar
    have hNear : isFar e t = false := by simpa using hFar
    rw [if_neg hFar]
    have hWord : σ.mem σ.pc =
        branchOpcode link ||| ((hookOffset e t).setWidth 32 &&& 0x03ffffff#32) := by
      rw [hPc]
      exact (codeAt_cons.mp hCode).1
    have hStep := step_branch (withPcRel other) hWord (decode_branchWord link (hookOffset e t))
    have hTarget : σ.pc + branchOffset ((hookOffset e t).setWidth 26) = t := by
      rw [hPc, branchOffset_hookOffset he ht hNear]
      grind
    rw [hTarget, hAt.succ] at hStep
    refine ⟨linked link σ.x (wordAt e 1) 17#5, ?_⟩
    rw [List.length_singleton, Function.update_eq_self]
    exact .single hStep hAt (ht.sub he)

end

/-! ## The instruction -/

section

variable {inprw f : Addr} {count k : Nat} {m : Machine}

/-- **Relocating a branch.** A branch out of the window becomes words that go to its target from
wherever they are; they change X17 at most, and X30 holds the address behind them when the branch
is one with link. Only a distance that a branch can hold is left to one. -/
theorem fixBranchImm_faithful (h : Midway mmu slot inprw f count k m s) {link : Bool}
    {imm : BitVec 26} (hDecode : decode (s.ins mmu) = some (branchInstr link imm))
    (hOutside : ¬ InWindow f count (s.inprx + branchOffset imm)) :
    ∃ s', fixBranchImm mmu s = .fixed s' ∧
      Faithful mmu s s' (fun _ => True) (fun σ τ => ∃ v, τ =
        { σ with
          pc := s.inprx + branchOffset imm
          x := Function.update (linked link σ.x s'.outrx) 17#5 v }) ∧
      (emittedCount s s' = 1 →
        ∃ near : BitVec 26, s.outrx + branchOffset near = s.inprx + branchOffset imm) := by
  obtain ⟨u, hFix, hAppends⟩ := fixBranchImm_appends hDecode (h.outside hOutside)
  have hTarget : Aligned (s.inprx + branchOffset imm) := h.source_aligned.add_shifted _
  generalize s.inprx + branchOffset imm = t at hAppends hTarget
  have hLength := length_branchWords link s.outrx t
  have hSize : trampolineSize = 50 := rfl
  have hBecame := hAppends.consume_process (h.room (by omega)) s.currentIdx
  refine ⟨_, hFix, hBecame.faithful (by omega) fun other σ hAt hCode _ => ?_, fun hOne => ?_⟩
  · obtain ⟨v, hExits⟩ := exits_branchWords link h.output_aligned hTarget hAt hCode
    rw [hBecame.outrx]
    exact ⟨_, hExits, v, rfl⟩
  · rw [hBecame.count (by omega)] at hOne
    refine ⟨(hookOffset s.outrx t).setWidth 26, ?_⟩
    rw [branchOffset_hookOffset h.output_aligned hTarget (hLength.2 hOne)]
    grind

/-- A call that was 4 KiB before the output. -/
theorem fixBranchImm_faithful_call :
    let s := startReloc 0x1000#64 0x1000#64 1 0x2000#64 0x2000#64 ⟨fun _ => 0x97ffffff#32, []⟩
    ∃ s', fixBranchImm flat s = .fixed s' ∧
      Faithful flat s s' (fun _ => True) (fun σ τ => ∃ v, τ =
        { σ with
          pc := s.inprx + branchOffset 0x3ffffff#26
          x := Function.update (linked true σ.x s'.outrx) 17#5 v }) ∧
      (emittedCount s s' = 1 →
        ∃ near : BitVec 26, s.outrx + branchOffset near = s.inprx + branchOffset 0x3ffffff#26) :=
  fixBranchImm_faithful (midway_flat (by decide) (by decide) (by decide) (by decide) _) (by decide)
    (by decide)

end

end Wondar.Hook
