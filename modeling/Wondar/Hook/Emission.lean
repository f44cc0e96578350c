import Wondar.A64.Exit
import Wondar.Hook.Emit

/-!
# What one instruction becomes

In the middle of a relocation references inside the window may be open, so the words that are
appended for one instruction are followed by the ones that close references in front of them.
`Room` says that the output has place for some words that no open reference lies in,
`Appends` that a run from one state to another has appended words and opened nothing, and
`Became` that in the end these words are where the instruction went, in both aliases.

`Midway` collects what holds of a relocation that has come to one of its words; it gives the
room that any instruction needs (`Midway.room`). `Faithful` is how a claim about one instruction
is stated: whoever executes the words, with other code around them and unknown words doing
anything, leaves them in the state that is asked for.
-/

namespace Wondar.Hook

open A64 Coherence

variable {mmu : Mmu} {slot : Slot} {s t t' : Reloc} {ws ws' : List Word} {n : Nat}

/-! ## Room -/

variable (mmu s n) in
/-- The next `n` words of the output are ready to be written. -/
structure Room : Prop where
  unfolded : mmu.Unfolded s.outrw n
  aliased : mmu.Alias s.outrw s.outrx n
  closed : ∀ idx, ∀ f ∈ (s.ctx.dat idx).fmap, ∀ i < n, mmu.tr f.bprw ≠ mmu.tr (wordAt s.outrw i)

/-- Behind the cursor of a slot there is room for the rest of it. -/
theorem Cursor.room {lo k c : Nat} {s₀ : Reloc} (h : Cursor mmu slot lo s₀ k c s)
    (hUnfolded : mmu.Unfolded slot.rw trampolineSize)
    (hAlias : mmu.Alias slot.rw slot.rx trampolineSize) (hn : k + n ≤ trampolineSize) :
    Room mmu s n where
  unfolded := by
    intro i j hi hj hSame
    rw [h.outrw, wordAt_wordAt, wordAt_wordAt] at hSame
    have := hUnfolded _ _ (by omega) (by omega) hSame
    omega
  aliased := by
    intro i hi
    rw [h.outrw, h.outrx, wordAt_wordAt, wordAt_wordAt]
    exact hAlias _ (by omega)
  closed := by
    intro idx f hf i hi hSame
    obtain ⟨j, -, hjk, hAddr⟩ := h.pending idx f hf
    rw [hAddr, h.outrw, wordAt_wordAt] at hSame
    have := hUnfolded _ _ (by omega) (by omega) hSame
    omega

/-! ## Stores -/

/-- `p` is one of the `n` words at `a`. -/
def OneOf (a : Addr) (n : Nat) (p : Addr) : Prop := ∃ i < n, p = wordAt a i

theorem OneOf.part {a p : Addr} {k : Nat} (h : OneOf (wordAt a k) n p) {l : Nat} (hl : k + n ≤ l) :
    OneOf a l p := by
  obtain ⟨i, hi, rfl⟩ := h
  exact ⟨k + i, by omega, wordAt_wordAt ..⟩

theorem OneOf.widen {a p : Addr} (h : OneOf a n p) {l : Nat} (hl : n ≤ l) : OneOf a l p :=
  OneOf.part (k := 0) (by rwa [wordAt_zero]) (by omega)

/-- The log has grown by stores to words that `P` holds of. -/
def StoresTo (P : Addr → Prop) (log log' : List (Event Note)) : Prop :=
  ∃ more, log' = log ++ more ∧ ∀ e ∈ more, ∃ a k, e = .store a (4 * k) ∧ ∀ i < k, P (wordAt a i)

section

variable {P Q : Addr → Prop} {log log' log'' : List (Event Note)}

theorem StoresTo.refl (P : Addr → Prop) (log : List (Event Note)) : StoresTo P log log :=
  ⟨[], by simp, by simp⟩

theorem StoresTo.trans (h : StoresTo P log log') (h' : StoresTo P log' log'') :
    StoresTo P log log'' := by
  obtain ⟨more, rfl, hMore⟩ := h
  obtain ⟨more', rfl, hMore'⟩ := h'
  refine ⟨more ++ more', List.append_assoc .., fun e he => ?_⟩
  rcases List.mem_append.mp he with hOld | hNew
  · exact hMore e hOld
  · exact hMore' e hNew

theorem StoresTo.mono (h : StoresTo P log log') (hPQ : ∀ p, P p → Q p) : StoresTo Q log log' := by
  obtain ⟨more, hLog, hMore⟩ := h
  refine ⟨more, hLog, fun e he => ?_⟩
  obtain ⟨a, k, hStore, hWords⟩ := hMore e he
  exact ⟨a, k, hStore, fun i hi => hPQ _ (hWords i hi)⟩

/-- One more store. -/
theorem StoresTo.store {m : Machine} (h : StoresTo P log m.log) {a : Addr} {ws : List Word}
    (hWords : ∀ i < ws.length, P (wordAt a i)) : StoresTo P log (m.store mmu a ws).log :=
  h.trans ⟨_, Mach.store_log, fun e he => by
    rw [List.mem_singleton.mp he]
    exact ⟨a, ws.length, rfl, hWords⟩⟩

end

/-- From `t` to `u` the words `ws` have been stored at the output, and nothing else has happened. -/
structure Writes (mmu : Mmu) (t u : Reloc) (ws : List Word) : Prop where
  only : u = { t with mach := u.mach }
  phys : u.mach.phys = storeWords mmu t.mach.phys t.outrw ws
  log : StoresTo (OneOf t.outrw ws.length) t.mach.log u.mach.log

section

variable {u : Reloc}

theorem Writes.refl (mmu : Mmu) (t : Reloc) : Writes mmu t t [] := ⟨rfl, rfl, StoresTo.refl ..⟩

theorem Writes.store (h : Writes mmu t u ws) (ws' : List Word) :
    Writes mmu t { u with mach := u.mach.store mmu (wordAt u.outrw ws.length) ws' } (ws ++ ws') := by
  have hOut : u.outrw = t.outrw := by rw [h.only]
  refine ⟨?_, ?_, ?_⟩
  · rw [h.only]
  · dsimp only
    rw [Mach.store, h.phys, hOut, storeWords_append]
  · dsimp only
    rw [hOut, List.length_append]
    refine (h.log.mono fun p hp => hp.widen (by omega)).store fun i hi => ?_
    rw [wordAt_wordAt]
    exact ⟨_, by omega, rfl⟩

theorem Writes.put (h : Writes mmu t u ws) (w : Word) :
    Writes mmu t (u.put mmu ws.length w) (ws ++ [w]) := h.store [w]

theorem Writes.put64 (h : Writes mmu t u ws) (val : BitVec 64) :
    Writes mmu t (u.put64 mmu ws.length val) (ws ++ [loWord val, hiWord val]) :=
  h.store [loWord val, hiWord val]

theorem Writes.absoluteJump (h : Writes mmu t u ws) (target : Addr) :
    Writes mmu t (u.putAbsoluteJump mmu ws.length target) (ws ++ absoluteJumpWords target) := by
  have hJump := ((h.put ldrX17).put brX17).put64 target
  rw [List.append_assoc, List.append_assoc, List.length_append, List.length_append] at hJump
  exact hJump

theorem Writes.copy (h : Writes mmu t u ws) (n : Nat) (src : Addr) :
    Writes mmu t (u.copy mmu ws.length n src)
      (ws ++ (List.range n).map fun i => u.mach.read mmu (wordAt src i)) := h.store _

end

/-! ## Appending -/

section

variable (outp : Addr) (a : BitVec 64)

@[simp] theorem setCurrentIndex_outrx : (s.setCurrentIndex outp).outrx = s.outrx := rfl

@[simp] theorem setCurrentIndex_inprx : (s.setCurrentIndex outp).inprx = s.inprx := rfl

@[simp] theorem setCurrentIndex_range :
    (s.setCurrentIndex outp).ctx.isInFixingRange a = s.ctx.isInFixingRange a := rfl

end

variable (mmu s t) in
/-- From `s` to `t` the words `ws` have been appended, and `e` has been noted as the place of the
current instruction. No reference has been opened. -/
structure Appends (e : Addr) (ws : List Word) : Prop where
  phys : t.mach.phys = storeWords mmu s.mach.phys s.outrw ws
  log : StoresTo (OneOf s.outrw ws.length) s.mach.log t.mach.log
  outrw : t.outrw = wordAt s.outrw ws.length
  outrx : t.outrx = wordAt s.outrx ws.length
  inprw : t.inprw = s.inprw
  inprx : t.inprx = s.inprx
  basep : t.ctx.basep = s.ctx.basep
  endp : t.ctx.endp = s.ctx.endp
  noted : (t.ctx.dat s.currentIdx).ins = e
  kept : ∀ idx ≠ s.currentIdx, t.ctx.dat idx = s.ctx.dat idx
  fmap : (t.ctx.dat s.currentIdx).fmap = (s.ctx.dat s.currentIdx).fmap

variable {e : Addr}

theorem Appends.refl (mmu : Mmu) (s : Reloc) : Appends mmu s s (s.ctx.dat s.currentIdx).ins [] where
  phys := rfl
  log := StoresTo.refl ..
  outrw := (wordAt_zero _).symm
  outrx := (wordAt_zero _).symm
  inprw := rfl
  inprx := rfl
  basep := rfl
  endp := rfl
  noted := rfl
  kept := fun _ _ => rfl
  fmap := rfl

/-- The place of the instruction is noted first. -/
theorem Appends.start (mmu : Mmu) (s : Reloc) (outp : Addr) :
    Appends mmu s (s.setCurrentIndex outp) outp [] :=
  { Appends.refl mmu s with
    noted := by
      change (Function.update s.ctx.dat s.currentIdx _ s.currentIdx).ins = outp
      rw [Function.update_self]
    kept := fun _ hIdx => Function.update_of_ne hIdx ..
    fmap := by
      change (Function.update s.ctx.dat s.currentIdx _ s.currentIdx).fmap = _
      rw [Function.update_self]
      rfl }

/-- It is noted again behind padding. -/
theorem Appends.resetCurrentIns (h : Appends mmu s t e ws) :
    Appends mmu s (t.resetCurrentIns s.currentIdx) (wordAt s.outrx ws.length) ws :=
  { h with
    noted := by
      change (Function.update t.ctx.dat s.currentIdx _ s.currentIdx).ins = _
      rw [Function.update_self]
      exact h.outrx
    kept := fun idx hIdx => (Function.update_of_ne hIdx ..).trans (h.kept idx hIdx)
    fmap := by
      change (Function.update t.ctx.dat s.currentIdx _ s.currentIdx).fmap = _
      rw [Function.update_self]
      exact h.fmap }

/-- Words that have been stored at the output, and the cursors behind them. -/
theorem Appends.block {u : Reloc} (h : Appends mmu s t e ws) (hWrites : Writes mmu t u ws') :
    Appends mmu s (u.advance ws'.length) e (ws ++ ws') := by
  obtain ⟨hOnly, hPhys, hLog⟩ := hWrites
  generalize u.mach = m at hOnly hPhys hLog
  subst hOnly
  refine { h with phys := ?_, log := ?_, outrw := ?_, outrx := ?_ }
  · change m.phys = _
    rw [hPhys, h.phys, h.outrw, storeWords_append]
  · rw [h.outrw] at hLog
    rw [List.length_append]
    exact (h.log.mono fun p hp => hp.widen (by omega)).trans
      (hLog.mono fun p hp => hp.part (Nat.le_refl _))
  · rw [Reloc.advance, h.outrw, wordAt_wordAt, List.length_append]
  · rw [Reloc.advance, h.outrx, wordAt_wordAt, List.length_append]

theorem Appends.put (h : Appends mmu s t e ws) (w : Word) :
    Appends mmu s ((t.put mmu 0 w).advance 1) e (ws ++ [w]) := h.block ((Writes.refl mmu t).put w)

theorem Appends.nop (h : Appends mmu s t e ws) : Appends mmu s (t.nop mmu) e (ws ++ [aarch64Nop]) :=
  h.put aarch64Nop

theorem Appends.read (h : Appends mmu s t e ws) {p : Addr}
    (hApart : ∀ j < ws.length, mmu.tr p ≠ mmu.tr (wordAt s.outrw j)) :
    t.mach.read mmu p = s.mach.read mmu p := by
  rw [Mach.read, h.phys, storeWords_frame hApart]
  rfl

theorem Appends.refs (h : Appends mmu s t e ws) (idx : Nat) :
    (t.ctx.dat idx).fmap = (s.ctx.dat idx).fmap := by
  by_cases hIdx : idx = s.currentIdx
  · rw [hIdx]
    exact h.fmap
  · rw [h.kept idx hIdx]

/-! ## One instruction -/

variable (mmu s t ws) in
/-- The instruction at `s` has become `ws`, and the output continues behind them. -/
structure Became : Prop where
  outrx : t.outrx = wordAt s.outrx ws.length
  code : CodeAt (t.mach.view mmu) s.outrx ws

/-- Closing references leaves the new words alone. -/
theorem Appends.became (h : Appends mmu s t e ws) (hRoom : Room mmu s ws.length) (idx : Nat)
    {u : Reloc} (hOut : u.outrx = t.outrx)
    (hMach : u.mach = processRefs mmu (t.ctx.dat idx).ins (t.ctx.dat idx).fmap t.mach) :
    Became mmu s u ws where
  outrx := by rw [hOut, h.outrx]
  code := by
    intro i hi
    change u.mach.phys (mmu.tr (wordAt s.outrx i)) = ws[i]
    rw [hMach, ← hRoom.aliased i hi, processRefs_frame, h.phys]
    · exact storeWords_at hRoom.unfolded hi
    · intro f hf hSame
      rw [h.refs] at hf
      exact hRoom.closed idx f hf i hi hSame.symm

/-- How the branches and the literal loads end. -/
theorem Appends.consume_process (h : Appends mmu s t e ws) (hRoom : Room mmu s ws.length) (idx : Nat) :
    Became mmu s (t.consume.processFixMap mmu idx) ws := h.became hRoom idx rfl rfl

/-- How the address instructions end. -/
theorem Appends.process_consume (h : Appends mmu s t e ws) (hRoom : Room mmu s ws.length) (idx : Nat) :
    Became mmu s (t.processFixMap mmu idx).consume ws := h.became hRoom idx rfl rfl

/-! ## In the middle of a relocation -/

/-- A relocation of the `count` words at `f` into a slot has come to its word `n`. -/
structure Midway (mmu : Mmu) (slot : Slot) (inprw f : Addr) (count n : Nat) (m : Machine)
    (s : Reloc) : Prop where
  count_le : count ≤ maxInstructions
  lt : n < count
  source : Aligned f
  output : Aligned slot.rx
  unfolded : mmu.Unfolded slot.rw trampolineSize
  aliased : mmu.Alias slot.rw slot.rx trampolineSize
  run : fixLoop mmu n (startReloc inprw f count slot.rw slot.rx m) = some s

section

variable {inprw f : Addr} {count n : Nat} {m : Machine}

theorem Midway.cursor (h : Midway mmu slot inprw f count n m s) : ∃ k, k ≤ 9 * n ∧
    Cursor mmu slot 0 (startReloc inprw f count slot.rw slot.rx m) k n s := by
  obtain ⟨k, -, hk, hCursor⟩ := fixLoop_cursor (startReloc_cursor inprw f count m) h.run
  rw [Nat.zero_add] at hk hCursor
  exact ⟨k, hk, hCursor⟩

theorem Midway.room (h : Midway mmu slot inprw f count n m s) {k : Nat} (hk : k ≤ 9) :
    Room mmu s k := by
  obtain ⟨i, hi, hCursor⟩ := h.cursor
  have hCount := h.count_le
  have hLt := h.lt
  have hMax : maxInstructions = 5 := rfl
  have hSize : trampolineSize = 50 := rfl
  exact hCursor.room h.unfolded h.aliased (by omega)

theorem Midway.inprx (h : Midway mmu slot inprw f count n m s) : s.inprx = wordAt f n := by
  obtain ⟨_, -, hCursor⟩ := h.cursor
  exact hCursor.inprx

theorem Midway.source_aligned (h : Midway mmu slot inprw f count n m s) : Aligned s.inprx := by
  rw [h.inprx]
  exact h.source.wordAt n

theorem Midway.output_aligned (h : Midway mmu slot inprw f count n m s) : Aligned s.outrx := by
  obtain ⟨k, -, hCursor⟩ := h.cursor
  rw [hCursor.outrx]
  exact h.output.wordAt k

/-- Memory without aliases. -/
def flat : Mmu := ⟨id, fun _ => true⟩

/-- A relocation that starts. -/
theorem midway_flat {f out : Addr} {count : Nat} (hf : Aligned f) (hOut : Aligned out)
    (hPos : 0 < count) (hCount : count ≤ maxInstructions) (m : Machine) :
    Midway flat ⟨out, out⟩ f f count 0 m (startReloc f f count out out m) where
  count_le := hCount
  lt := hPos
  source := hf
  output := hOut
  unfolded := Mmu.unfolded_of_id (by decide) fun _ _ => rfl
  aliased := fun _ _ => rfl
  run := rfl

/-- The address is one of the window. -/
def InWindow (f : Addr) (count : Nat) (a : Addr) : Prop := (a - f).toNat < 4 * count

instance (f : Addr) (count : Nat) (a : Addr) : Decidable (InWindow f count a) :=
  inferInstanceAs (Decidable (_ < _))

/-- What the context takes for an address of the window is one. -/
theorem inWindow_of_range {c : Context} {a : Addr} (hCount : count ≤ maxInstructions)
    (hBase : c.basep = f) (hEnd : c.endp = wordAt f count) (h : c.isInFixingRange a = true) :
    InWindow f count a := by
  have hMax : maxInstructions = 5 := rfl
  simp only [Context.isInFixingRange, hBase, hEnd, Bool.and_eq_true, BitVec.sle_iff_toInt_le,
    BitVec.slt_iff_toInt_lt] at h
  obtain ⟨hLow, hHigh⟩ := h
  unfold InWindow
  unfold wordAt at hHigh
  simp only [BitVec.toInt_eq_toNat_cond] at hLow hHigh
  rw [BitVec.toNat_add, BitVec.toNat_ofNat] at hHigh
  have hf := f.isLt
  have ha := a.isLt
  rw [BitVec.toNat_sub]
  split at hLow <;> split at hLow <;> split at hHigh <;> omega

theorem Midway.window (h : Midway mmu slot inprw f count n m s) :
    s.ctx.basep = f ∧ s.ctx.endp = wordAt f count := by
  obtain ⟨_, -, hCursor⟩ := h.cursor
  exact ⟨hCursor.basep, hCursor.endp⟩

theorem Midway.outside (h : Midway mmu slot inprw f count n m s) {a : Addr}
    (ha : ¬ InWindow f count a) : s.ctx.isInFixingRange a = false := by
  rw [Bool.eq_false_iff]
  exact fun hRange => ha (inWindow_of_range h.count_le h.window.1 h.window.2 hRange)

end

/-! ## Executing the words -/

/-- How many words the instruction has become. -/
def emittedCount (s t : Reloc) : Nat := (t.outrx - s.outrx).toNat / 4

theorem Became.count (h : Became mmu s t ws) (hSmall : ws.length ≤ trampolineSize) :
    emittedCount s t = ws.length := by
  have hSize : trampolineSize = 50 := rfl
  rw [emittedCount, h.outrx, wordAt_sub _ (by omega)]
  omega

variable (mmu s t) in
/-- Execution of what the instruction has become ends in `exit`, for all executions that `start`
admits. -/
def Faithful (start : State → Prop) (exit : State → State → Prop) : Prop :=
  ∀ (other : Word → State → State) (σ : State), σ.pc = s.outrx →
    (∀ i < emittedCount s t, σ.mem (wordAt s.outrx i) = t.mach.read mmu (wordAt s.outrx i)) →
    start σ → ∃ τ, Exits (withPcRel other) s.outrx (emittedCount s t) σ τ ∧ exit σ τ

/-- It suffices to execute the words. -/
theorem Became.faithful (h : Became mmu s t ws) (hSmall : ws.length ≤ trampolineSize)
    {start : State → Prop} {exit : State → State → Prop}
    (hRun : ∀ (other : Word → State → State) (σ : State), σ.AtWord s.outrx 0 →
      CodeAt σ.mem s.outrx ws → start σ →
      ∃ τ, Exits (withPcRel other) s.outrx ws.length σ τ ∧ exit σ τ) :
    Faithful mmu s t start exit := by
  intro other σ hPc hMem hStart
  rw [h.count hSmall] at hMem ⊢
  refine hRun other σ ?_ (fun i hi => ?_) hStart
  · rw [State.AtWord, wordAt_zero]
    exact hPc
  · rw [hMem i hi]
    exact h.code i hi

end Wondar.Hook
