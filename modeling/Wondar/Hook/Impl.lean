import Wondar.Hook.Fix

/-!
# Installing a hook

`HookFuncImpl` overwrites the first words of a function through an RW alias that lives as
long as the call: one word with a branch when the callback is within reach, and otherwise
four or five with a literal load, an indirect branch and the callback's address. With a
trampoline it relocates the overwritten words first.

`Hook` guards it: the arguments, the trampoline pool, the result. A failed guard calls
`AbortImpl`, and whether that returns to its caller depends on who handles the exception it
raises, so it is a parameter (`abortReturns`).
-/

namespace Wondar.Hook

open A64 Coherence Sys

/-- What the hook code finds in the process. -/
structure Env where
  mmu : Mmu
  /-- The pages of `s_HookJit`. -/
  hookJit : Claim
  /-- The pages of `s_InlineHookJit`. -/
  inlineHookJit : Claim
  /-- `exl_inline_hook_impl`. -/
  impl : Addr
  abortReturns : Bool

/-- The state of the hook code: the counters of both pools, and memory. -/
structure HookState where
  index : BitVec 32
  entryIndex : Nat
  mach : Machine

/-- `EXL_ABORT`. -/
def HookState.abort (env : Env) (r : Result) (s : HookState) : Option HookState :=
  if env.abortReturns then some { s with mach := s.mach.record [.note (.abort r)] } else none

/-- `EXL_ABORT` when the guard fails. -/
def HookState.ensure (env : Env) (guard : Bool) (r : Result) (s : HookState) : Option HookState :=
  if guard then some s else s.abort env r

/-- The claim of `HookFuncImpl` on `words` words of the function, mapped at `ctrlRw`. Its
reservation plays no part here. -/
def ctrlClaim (symbol ctrlRw : Addr) (words : Nat) : Claim :=
  ⟨symbol, ctrlRw, BitVec.ofNat 64 (4 * words), none⟩

/-- How many words a far hook overwrites. -/
def farCount (symbol : Addr) : Nat := if aligned8 (wordAt symbol 2) then 4 else 5

/-- `LDR X17, #0x8; BR X17` and the callback, behind a NOP when the address would not be
aligned. -/
def writeFarJump (mmu : Mmu) (original replace : Addr) (count : Nat) (m : Machine) : Machine :=
  let m := if count = 5 then m.store mmu original [aarch64Nop] else m
  let original := if count = 5 then wordAt original 1 else original
  let m := m.store mmu original [ldrX17]
  let m := m.store mmu (wordAt original 1) [brX17]
  m.store64 mmu (wordAt original 2) replace

/-- The displacement of a branch from the function to the callback, in words. -/
def hookOffset (symbol replace : Addr) : BitVec 64 := (replace - symbol).sshiftRight 2

/-- `llabs(pc_offset) >= (mask >> 1)`. -/
def isFar (symbol replace : Addr) : Bool := 0x1ffffff ≤ llabs (hookOffset symbol replace)

/-- `HookFuncImpl`. -/
def hookFuncImpl (mmu : Mmu) (ctrlRw symbol replace rxtrampoline rwtrampoline : Addr) (m : Machine) :
    Option (Bool × Machine) :=
  if isFar symbol replace then
    let ctrl := ctrlClaim symbol ctrlRw 5
    let count := farCount symbol
    if rxtrampoline ≠ 0#64 ∧ trampolineSize < count * 10 then
      some (false, m.record ctrl.destructorFlush)
    else
      (if rxtrampoline ≠ 0#64 then
        fixInstructions mmu ctrl.rw ctrl.ro count rwtrampoline rxtrampoline m
      else some m).map fun m =>
        let m := writeFarJump mmu ctrl.rw replace count m
        let m := m.clearCache symbol 20
        (true, m.record ctrl.destructorFlush)
  else
    let ctrl := ctrlClaim symbol ctrlRw 1
    if rwtrampoline ≠ 0#64 ∧ trampolineSize < 1 * 10 then
      some (false, m.record ctrl.destructorFlush)
    else
      (if rwtrampoline ≠ 0#64 then
        fixInstructions mmu ctrl.rw ctrl.ro 1 rwtrampoline rxtrampoline m
      else some m).map fun m =>
        let m := m.store mmu ctrl.rw
          [0x14000000#32 ||| ((hookOffset symbol replace).setWidth 32 &&& 0x03ffffff#32)]
        let m := m.clearCache symbol 4
        (true, m.record ctrl.destructorFlush)

/-- The slot for the trampoline, and null pointers when none is asked for or none is left. -/
def allocSlot (env : Env) (doTrampoline : Bool) (s : HookState) : Option (Slot × HookState) :=
  if doTrampoline then
    let r := allocForTrampoline env.hookJit s.index
    let s := { s with index := r.1 }
    match r.2 with
    | .ok slot => some (slot, s)
    | .error e => (s.ensure env (!rFailed e) e).map fun s => (⟨0#64, 0#64⟩, s)
  else some (⟨0#64, 0#64⟩, s)

/-- `Hook`, where `HookFuncImpl` maps its claim at `ctrlRw`. -/
def hook (env : Env) (ctrlRw target callback : Addr) (doTrampoline : Bool) (s : HookState) :
    Option (Addr × HookState) := do
  let s ← s.ensure env (target != 0#64) 0#32
  let s ← s.ensure env (callback != 0#64) 0#32
  let (slot, s) ← allocSlot env doTrampoline s
  let (ok, m) ← hookFuncImpl env.mmu ctrlRw target callback slot.rx slot.rw s.mach
  let s ← { s with mach := m }.ensure env ok Results.hookFailed
  some (slot.rx, { s with mach := s.mach.record env.hookJit.flush })

/-! ## A call with a trampoline -/

/-- How many words a hook overwrites. -/
def patchCount (symbol replace : Addr) : Nat := if isFar symbol replace then farCount symbol else 1

/-- What `HookFuncImpl` does once the trampoline is written. -/
def patchTarget (mmu : Mmu) (ctrlRw symbol replace : Addr) (m : Machine) : Machine :=
  if isFar symbol replace then
    ((writeFarJump mmu ctrlRw replace (farCount symbol) m).clearCache symbol 20).record
      (ctrlClaim symbol ctrlRw 5).destructorFlush
  else
    ((m.store mmu ctrlRw
      [0x14000000#32 ||| ((hookOffset symbol replace).setWidth 32 &&& 0x03ffffff#32)]).clearCache
        symbol 4).record (ctrlClaim symbol ctrlRw 1).destructorFlush

theorem farCount_le (symbol : Addr) : farCount symbol ≤ maxInstructions := by
  unfold farCount
  split <;> decide

theorem patchCount_le (symbol replace : Addr) : patchCount symbol replace ≤ maxInstructions := by
  unfold patchCount
  split
  · exact farCount_le symbol
  · decide

theorem patchCount_pos (symbol replace : Addr) : 0 < patchCount symbol replace := by
  unfold patchCount farCount
  split
  · split <;> decide
  · decide

/-- The slot is large enough for every window, so the call succeeds when the relocation does. -/
theorem hookFuncImpl_slot (mmu : Mmu) (ctrlRw symbol replace : Addr) {slot : Slot} (m : Machine)
    (hRx : slot.rx ≠ 0#64) (hRw : slot.rw ≠ 0#64) :
    hookFuncImpl mmu ctrlRw symbol replace slot.rx slot.rw m =
      (fixInstructions mmu ctrlRw symbol (patchCount symbol replace) slot.rw slot.rx m).map
        fun m => (true, patchTarget mmu ctrlRw symbol replace m) := by
  have hFits : ¬ trampolineSize < farCount symbol * 10 := by
    unfold farCount
    split <;> decide
  have hFits' : ¬ trampolineSize < 1 * 10 := by decide
  unfold hookFuncImpl patchCount patchTarget
  dsimp only
  by_cases hFar : isFar symbol replace = true
  · simp only [if_pos hFar, hFits, and_false, if_false, if_pos hRx]
    rfl
  · simp only [if_neg hFar, hFits', and_false, if_false, if_pos hRw]
    rfl

/-- Whatever the trampoline is, a call refuses it, or relocates into it or not, and then patches
the target. -/
theorem hookFuncImpl_cases {mmu : Mmu} {ctrlRw symbol replace rx rw : Addr} {m m' : Machine}
    {ok : Bool} (h : hookFuncImpl mmu ctrlRw symbol replace rx rw m = some (ok, m')) :
    (∃ n, ok = false ∧ m' = m.record (ctrlClaim symbol ctrlRw n).destructorFlush) ∨
    ∃ t, (t = m ∨ ∃ count, fixInstructions mmu ctrlRw symbol count rw rx m = some t) ∧
      ok = true ∧ m' = patchTarget mmu ctrlRw symbol replace t := by
  unfold hookFuncImpl at h
  dsimp only at h
  unfold patchTarget
  split at h
  all_goals
    rename_i hFar
    split at h
    · cases h
      exact Or.inl ⟨_, rfl, rfl⟩
    · obtain ⟨t, hFix, hEnd⟩ := Option.map_eq_some_iff.mp h
      obtain ⟨rfl, rfl⟩ := Prod.mk.inj hEnd
      refine Or.inr ⟨t, ?_, rfl, by simp only [hFar]; rfl⟩
      split at hFix
      · exact Or.inr ⟨_, hFix⟩
      · cases hFix
        exact Or.inl rfl

/-! ## The guards of `Hook` -/

/-- A guard leaves nothing but notes of its failure in the log. -/
theorem ensure_notes {env : Env} {guard : Bool} {r : Result} {s s' : HookState}
    (h : s.ensure env guard r = some s') :
    ∃ notes : List Note, (∀ n ∈ notes, n = .abort r) ∧ (guard = true → notes = []) ∧
      (guard = false → notes = [.abort r]) ∧
      s' = { s with mach := s.mach.record (notes.map .note) } := by
  unfold HookState.ensure HookState.abort at h
  cases guard with
  | true =>
    cases h
    exact ⟨[], by simp, by simp, by simp, by simp [Mach.record]⟩
  | false =>
    rw [if_neg (by decide)] at h
    split at h
    · cases h
      exact ⟨[.abort r], by simp, by simp, by simp, rfl⟩
    · cases h

@[simp] theorem record_record {ν : Type} (m : Mach ν) (es es' : List (Event ν)) :
    (m.record es).record es' = m.record (es ++ es') := by
  simp [Mach.record]

/-- The parts of a call that returns. -/
theorem hook_cases {env : Env} {ctrlRw target callback rx : Addr} {doTrampoline : Bool}
    {s s' : HookState} (h : hook env ctrlRw target callback doTrampoline s = some (rx, s')) :
    ∃ (notes notes' : List Note) (slot : Slot) (s₁ : HookState) (ok : Bool) (t : Machine),
      (∀ n ∈ notes, n = .abort 0#32) ∧ (target ≠ 0#64 → callback ≠ 0#64 → notes = []) ∧
      allocSlot env doTrampoline { s with mach := s.mach.record (notes.map .note) } =
        some (slot, s₁) ∧
      hookFuncImpl env.mmu ctrlRw target callback slot.rx slot.rw s₁.mach = some (ok, t) ∧
      (∀ n ∈ notes', n = .abort Results.hookFailed) ∧ (ok = true → notes' = []) ∧ rx = slot.rx ∧
      s' = { s₁ with mach := t.record (notes'.map .note ++ env.hookJit.flush) } := by
  unfold hook at h
  simp only [Option.bind_eq_bind] at h
  obtain ⟨s₁, hTarget, hRest⟩ := Option.bind_eq_some_iff.mp h
  obtain ⟨s₂, hCallback, hRest⟩ := Option.bind_eq_some_iff.mp hRest
  obtain ⟨⟨slot, s₃⟩, hAlloc, hRest⟩ := Option.bind_eq_some_iff.mp hRest
  obtain ⟨⟨ok, t⟩, hImpl, hRest⟩ := Option.bind_eq_some_iff.mp hRest
  obtain ⟨s₅, hOk, hEnd⟩ := Option.bind_eq_some_iff.mp hRest
  clear h hRest
  obtain ⟨notes₁, hNotes₁, hPassed₁, -, rfl⟩ := ensure_notes hTarget
  obtain ⟨notes₂, hNotes₂, hPassed₂, -, rfl⟩ := ensure_notes hCallback
  obtain ⟨notes₃, hNotes₃, hPassed, -, rfl⟩ := ensure_notes hOk
  cases hEnd
  refine ⟨notes₁ ++ notes₂, notes₃, slot, s₃, ok, t, fun n hn => ?_, fun hT hC => ?_, ?_, hImpl, hNotes₃,
    hPassed, rfl, by simp⟩
  · rcases List.mem_append.mp hn with hn | hn
    · exact hNotes₁ n hn
    · exact hNotes₂ n hn
  · rw [hPassed₁ (by simpa using hT), hPassed₂ (by simpa using hC), List.nil_append]
  · rw [List.map_append, ← record_record]
    exact hAlloc

/-- A call that got the slot of the counter relocates into it, patches the target, flushes the
pool, and returns the slot. -/
theorem hook_of_slot {env : Env} {slot : Slot} {ctrlRw target callback rx : Addr} {s s' : HookState}
    (hSlot : (allocForTrampoline env.hookJit s.index).2 = .ok slot)
    (hRx : slot.rx ≠ 0#64) (hRw : slot.rw ≠ 0#64)
    (h : hook env ctrlRw target callback true s = some (rx, s')) :
    ∃ (notes : List Note) (t : Machine),
      (target ≠ 0#64 → callback ≠ 0#64 → notes = []) ∧
      fixInstructions env.mmu ctrlRw target (patchCount target callback) slot.rw slot.rx
        (s.mach.record (notes.map .note)) = some t ∧
      rx = slot.rx ∧
      s' = { s with
        index := s.index + 1#32
        mach := (patchTarget env.mmu ctrlRw target callback t).record env.hookJit.flush } := by
  obtain ⟨notes, notes', slot', s₁, ok, t, -, hNone, hAlloc, hImpl, -, hOk, rfl, rfl⟩ := hook_cases h
  simp only [allocSlot, if_true, hSlot, Option.some.injEq, Prod.mk.injEq, alloc_index] at hAlloc
  obtain ⟨rfl, rfl⟩ := hAlloc
  rw [hookFuncImpl_slot _ _ _ _ _ hRx hRw] at hImpl
  obtain ⟨t', hFix, hEnd⟩ := Option.map_eq_some_iff.mp hImpl
  cases hEnd
  rw [hOk rfl]
  exact ⟨notes, t', hNone, hFix, rfl, rfl⟩

/-! ## A process -/

/-- Both pools and one page of code, each mapped a second time for writing. -/
def sampleMmu : Mmu where
  tr a :=
    if 0x90000#64 ≤ a ∧ a < 0x93000#64 then a - 0x70000#64
    else if 0xa0000#64 ≤ a ∧ a < 0xa3000#64 then a - 0x70000#64
    else if 0xb0000#64 ≤ a ∧ a < 0xb1000#64 then a - 0x60000#64
    else a
  readable _ := true

def sampleEnv : Env where
  mmu := sampleMmu
  hookJit := ⟨0x20000#64, 0x90000#64, 0x3000#64, some 0⟩
  inlineHookJit := ⟨0x30000#64, 0xa0000#64, 0x3000#64, some 1⟩
  impl := 0x40000#64
  abortReturns := false

/-- Before the first hook, in memory full of NOPs. -/
def sampleState : HookState := ⟨initialIndex, 0, ⟨fun _ => aarch64Nop, []⟩⟩

end Wondar.Hook
