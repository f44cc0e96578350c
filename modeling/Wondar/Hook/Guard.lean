import Wondar.Hook.Log
import Wondar.Program.ExceptionHandler
import Wondar.Runs

/-!
# What a failed guard stops

`AbortImpl` stores through an address that is never mapped, and relies on the fault to end the
program. `DbgGui` installs a handler that adds 4 to the program counter and asks to continue,
so the thread is resumed behind the store (`abort_returns`), `AbortImpl` returns, and the call
goes on with what the guard was to prevent.

`Process` is the state of the hook code with the hooks installed so far, and `Guarded` what the
guards are for: nothing has happened after a failed one, and every hook has an entry of the
pool and a trampoline. `guards_stop_iff` states that a run keeps this exactly when no guard
fails in it.
-/

namespace Wondar.Hook

open A64 Coherence Sys Runs

/-! ## Returning from an abort -/

/-- The handler that `DbgGui` installs, but for what it shows. -/
def dbgGuiHandler : Handler.CatchFunc := fun info => (true, { info with pc := info.pc + 4#64 })

/-- The thread is resumed behind the store of `AbortImpl`, whatever its registers are, and the
next fault is handled in the same way. -/
def AbortReturns (layout : Handler.Layout) (h : Handler.Handlers) : Prop :=
  ∀ (syndrome trap : Handler.Syndrome) (scratch t : Handler.Thread) (e : Handler.ExceptionInfo),
    e.exceptionState = .firstChance → trap.esr &&& 0xffff#32 = 0xbeef#32 →
    ∃ t' e', Handler.handleException layout h .dataAbort syndrome trap scratch t e = some (t', e') ∧
      t'.Same { t with pc := t.pc + 4#64 } ∧ e'.exceptionState = .firstChance

theorem abort_returns {layout : Handler.Layout} {h : Handler.Handlers} (hStack : h.catchStack = [])
    (hFunc : h.handlerFunc = some dbgGuiHandler) : AbortReturns layout h := by
  intro syndrome trap scratch t e hFirst hTrap
  have hType : Handler.ExceptionType.dataAbort ≠ .invalidSystemCall := by decide
  obtain ⟨t', e', hHandled, hSame, hState⟩ := Handler.handleException_continues layout syndrome
    scratch t hStack hFunc hType (by rw [hFirst]; decide) hTrap rfl
  refine ⟨t', e', hHandled, ?_, hState⟩
  obtain ⟨hX, hSp, hPc, hPstate⟩ := Handler.savedInfo_same layout .dataAbort syndrome t e
  obtain ⟨hX', hSp', hPc', hPstate'⟩ := hSame
  exact ⟨fun r hr => (hX' r hr).trans (hX r hr), hSp'.trans hSp,
    hPc'.trans (congrArg (· + 4#64) hPc), hPstate'.trans hPstate⟩

/-! ## Runs of the hook code -/

inductive HookOp
  | hook (ctrlRw target callback : Addr) (doTrampoline : Bool)
  | hookInline (ctrlRw target callback : Addr)

/-- A hook that a call has installed: its entry if it is an inline hook, and its trampoline. -/
structure Installed where
  target : Addr
  entry : Option Nat
  doTrampoline : Bool
  trampoline : Addr

structure Process where
  state : HookState
  installed : List Installed

/-- The slot that a call finds, and a null pointer when there is none. -/
def slotRx (env : Env) (s : HookState) : Addr :=
  match (allocForTrampoline env.hookJit s.index).2 with
  | .ok slot => slot.rx
  | .error _ => 0#64

/-- A call that returns. -/
def callStep (env : Env) : HookOp → Process → Option Process
  | .hook ctrlRw target callback doTrampoline, p =>
    (hook env ctrlRw target callback doTrampoline p.state).map fun (trampoline, s) =>
      ⟨s, p.installed ++ [⟨target, none, doTrampoline, trampoline⟩]⟩
  | .hookInline ctrlRw target callback, p =>
    (hookInline env ctrlRw target callback p.state).map fun s =>
      ⟨s, p.installed ++ [⟨target, some p.state.entryIndex, true, slotRx env p.state⟩]⟩

/-- What both guards note when they fail. -/
def guardNote : Event Note := .note (.abort Results.hookTrampolineAllocFail)

/-- The entries and trampolines of the installed hooks. -/
structure Process.Sound (p : Process) : Prop where
  entries : ∀ c ∈ p.installed, ∀ i, c.entry = some i → i < inlinePoolCount
  trampolines : ∀ c ∈ p.installed, c.doTrampoline = true → c.trampoline ≠ 0#64

/-- Nothing has happened after a failed guard, and every installed hook is sound. -/
structure Guarded (p : Process) : Prop extends p.Sound where
  stopped : guardNote ∉ p.state.mach.log.dropLast

/-- No guard has failed. -/
structure Process.Unfailed (p : Process) : Prop extends p.Sound where
  notes : guardNote ∉ p.state.mach.log

/-- Neither guard fails in the call. -/
def GuardsHold (p : Process) : HookOp → Prop
  | .hook _ _ _ doTrampoline => doTrampoline = true → (p.state.index + 1#32).toNat ≤ hookMax
  | .hookInline _ _ _ =>
    p.state.entryIndex < inlinePoolCount ∧ (p.state.index + 1#32).toNat ≤ hookMax

/-- No slot is at address zero. -/
def PoolNonNull (env : Env) : Prop :=
  ∀ index slot, (allocForTrampoline env.hookJit index).2 = .ok slot → slot.rx ≠ 0#64

section

variable {env : Env} {ctrlRw target callback rx : Addr} {doTrampoline : Bool} {s s' : HookState}

theorem guardNote_not_mem_notes {notes : List Note} {r : Result}
    (h : ∀ n ∈ notes, n = .abort r) (hr : r ≠ Results.hookTrampolineAllocFail) :
    guardNote ∉ notes.map .note := by
  intro hMem
  obtain ⟨n, hn, hNote⟩ := List.mem_map.mp hMem
  rw [h n hn, guardNote, Event.note.injEq, Note.abort.injEq] at hNote
  exact hr hNote

/-! ## Hook -/

/-- A call that gets a slot, or asks for none, fails no guard of the pool. -/
theorem hook_unfailed (hGuard : doTrampoline = true → (s.index + 1#32).toNat ≤ hookMax)
    (h : hook env ctrlRw target callback doTrampoline s = some (rx, s')) :
    (guardNote ∈ s'.mach.log ↔ guardNote ∈ s.mach.log) ∧
      (doTrampoline = true → rx = slotRx env s) := by
  obtain ⟨notes, notes', slot, s₁, ok, t, hNotes, -, hAlloc, hImpl, hNotes', -, rfl, rfl⟩ := hook_cases h
  have hQuiet := guardNote_not_mem_notes hNotes (by decide)
  have hQuiet' := guardNote_not_mem_notes hNotes' (by decide)
  have hTail : guardNote ∈ t.log ↔ guardNote ∈ s₁.mach.log := (hookFuncImpl_grows hImpl).note_mem
  have hFlush : guardNote ∉ (env.hookJit.flush : List (Event Note)) := Claim.flush_notes _ _
  unfold allocSlot at hAlloc
  dsimp only at hAlloc
  split at hAlloc
  · rename_i hTr
    simp only [alloc_of_le (hGuard hTr), Option.some.injEq, Prod.mk.injEq] at hAlloc
    obtain ⟨rfl, rfl⟩ := hAlloc
    refine ⟨?_, fun _ => by rw [slotRx, alloc_of_le (hGuard hTr)]⟩
    simp only [Mach.record_log, List.mem_append, hTail, hQuiet, hQuiet', hFlush, or_false]
  · rename_i hTr
    simp only [Option.some.injEq, Prod.mk.injEq] at hAlloc
    obtain ⟨rfl, rfl⟩ := hAlloc
    refine ⟨?_, fun h => absurd h hTr⟩
    simp only [Mach.record_log, List.mem_append, hTail, hQuiet, hQuiet', hFlush, or_false]

theorem mem_dropLast_append {α : Type} {x : α} {l l' : List α} (h : x ∈ l) (hl' : l' ≠ []) :
    x ∈ (l ++ l').dropLast := by
  rw [List.dropLast_append_of_ne_nil hl']
  exact List.mem_append_left _ h

theorem flush_ne_nil (claim : Claim) (es : List (Event Note)) : es ++ claim.flush ≠ [] := by
  simp [Claim.flush]

/-- A call that finds the pool full goes on behind the failed guard. -/
theorem hook_failed (hFull : hookMax < (s.index + 1#32).toNat)
    (h : hook env ctrlRw target callback true s = some (rx, s')) :
    guardNote ∈ s'.mach.log.dropLast := by
  obtain ⟨notes, notes', slot, s₁, ok, t, -, -, hAlloc, hImpl, -, -, -, rfl⟩ := hook_cases h
  simp only [allocSlot, if_true, alloc_of_gt hFull] at hAlloc
  obtain ⟨u, hEnsure, hEnd⟩ := Option.map_eq_some_iff.mp hAlloc
  obtain ⟨failed, -, -, hFailed, rfl⟩ := ensure_notes hEnsure
  cases hEnd
  rw [hFailed (by decide)] at hImpl
  refine mem_dropLast_append ((hookFuncImpl_grows hImpl).note_mem.mpr ?_) (flush_ne_nil _ _)
  simp

theorem hookFuncImpl_null (mmu : Mmu) (ctrlRw symbol replace : Addr) (m : Machine) :
    ∃ r, hookFuncImpl mmu ctrlRw symbol replace 0#64 0#64 m = some r := by
  unfold hookFuncImpl
  dsimp only
  split
  · exact ⟨_, rfl⟩
  · exact ⟨_, rfl⟩

theorem ensure_returns (hAbort : env.abortReturns = true) (guard : Bool) (r : Result)
    (s : HookState) : ∃ s', s.ensure env guard r = some s' ∧ s'.index = s.index := by
  unfold HookState.ensure HookState.abort
  rw [if_pos hAbort]
  split
  · exact ⟨_, rfl, rfl⟩
  · exact ⟨_, rfl, rfl⟩

/-- When aborts return, so does a call that finds the pool full. -/
theorem hook_full_returns (hAbort : env.abortReturns = true)
    (hFull : hookMax < (s.index + 1#32).toNat) (ctrlRw target callback : Addr) :
    ∃ rx s', hook env ctrlRw target callback true s = some (rx, s') := by
  obtain ⟨s₁, hTarget, hIndex₁⟩ := ensure_returns hAbort (target != 0#64) 0#32 s
  obtain ⟨s₂, hCallback, hIndex₂⟩ := ensure_returns hAbort (callback != 0#64) 0#32 s₁
  rw [← hIndex₁, ← hIndex₂] at hFull
  obtain ⟨s₃, hAlloc, -⟩ := ensure_returns hAbort (!rFailed Results.hookTrampolineAllocFail)
    Results.hookTrampolineAllocFail { s₂ with index := s₂.index + 1#32 }
  have hSlot : allocSlot env true s₂ = some (⟨0#64, 0#64⟩, s₃) := by
    simp only [allocSlot, if_true, alloc_of_gt hFull, alloc_index, hAlloc, Option.map_some]
  obtain ⟨⟨ok, m⟩, hImpl⟩ := hookFuncImpl_null env.mmu ctrlRw target callback s₃.mach
  obtain ⟨s₅, hOk, -⟩ := ensure_returns hAbort ok Results.hookFailed { s₃ with mach := m }
  exact ⟨_, _, by simp [hook, hTarget, hCallback, hSlot, hImpl, hOk]; exact ⟨rfl, rfl⟩⟩

/-! ## HookInline -/

theorem writeEntry_grows (entryRw entryCb trampoline callback : Addr) (m : Machine) :
    Grows m.log (writeEntry env entryRw entryCb trampoline callback m).log :=
  (Mach.store_grows.trans (Mach.store64_grows _)).trans
    (Mach.record_grows (Claim.flush_notes _))

theorem writeEntry_log (env : Env) (entryRw entryCb trampoline callback : Addr) (m : Machine) :
    ∃ more, more ≠ [] ∧ (writeEntry env entryRw entryCb trampoline callback m).log = m.log ++ more :=
  ⟨[.store entryRw 16, .store (wordAt entryRw 4) 8] ++ env.inlineHookJit.flush,
    flush_ne_nil _ _, by simp [writeEntry, Mach.store64, entryWords]⟩

theorem hookInline_unfailed
    (hGuard : s.entryIndex < inlinePoolCount ∧ (s.index + 1#32).toNat ≤ hookMax)
    (h : hookInline env ctrlRw target callback s = some s') :
    guardNote ∈ s'.mach.log ↔ guardNote ∈ s.mach.log := by
  obtain ⟨notes, trampoline, t, hPassed, -, hHook, rfl⟩ := hookInline_cases h
  have hNone := hPassed hGuard.1
  subst hNone
  have hLog : guardNote ∈ t.mach.log ↔ guardNote ∈ s.mach.log := by
    have hIndex : ∀ m : Machine, (({ s with entryIndex := s.entryIndex + 1, mach := m } :
        HookState).index + 1#32).toNat ≤ hookMax := fun _ => hGuard.2
    rw [(hook_unfailed (fun _ => hIndex _) hHook).1]
    simp
  exact (writeEntry_grows _ _ _ _ _).note_mem.trans hLog

theorem hookInline_failed
    (hGuard : ¬ (s.entryIndex < inlinePoolCount ∧ (s.index + 1#32).toNat ≤ hookMax))
    (h : hookInline env ctrlRw target callback s = some s') :
    guardNote ∈ s'.mach.log.dropLast := by
  obtain ⟨notes, trampoline, t, -, hFailed, hHook, rfl⟩ := hookInline_cases h
  obtain ⟨more, hMore, hLog⟩ := writeEntry_log env
    (entryAt env.inlineHookJit.rw s.entryIndex) (entryAt env.inlineHookJit.ro s.entryIndex)
    trampoline callback t.mach
  dsimp only
  rw [hLog]
  refine mem_dropLast_append ?_ hMore
  by_cases hEntry : s.entryIndex < inlinePoolCount
  · have hLt : hookMax < (s.index + 1#32).toNat := by
      by_contra hLe
      exact hGuard ⟨hEntry, by omega⟩
    have hFull : ∀ m : Machine, hookMax < (({ s with entryIndex := s.entryIndex + 1, mach := m } :
        HookState).index + 1#32).toNat := fun _ => hLt
    exact List.dropLast_subset _ (hook_failed (hFull _) hHook)
  · refine (hook_extends hHook).subset ?_
    rw [hFailed (by omega)]
    simp [guardNote]

end

/-! ## Runs -/

section

variable {env : Env} {p p' : Process} {o : HookOp}

theorem poolNonNull_of_fits (hRo : 0 < env.hookJit.ro.toNat)
    (hFits : env.hookJit.ro.toNat + 4 * (trampolineSize * hookMax) < 2 ^ 64) : PoolNonNull env := by
  intro index slot hSlot
  by_cases hLe : (index + 1#32).toNat ≤ hookMax
  · rw [alloc_of_le hLe, Except.ok.injEq] at hSlot
    have hScaled := Nat.mul_le_mul_left trampolineSize hLe
    rw [← hSlot]
    exact wordAt_ne_zero hRo (by omega)
  · rw [alloc_of_gt (by omega)] at hSlot
    cases hSlot

/-- A call whose guards hold keeps the invariant. -/
theorem callStep_unfailed (hPool : PoolNonNull env) (h : p.Unfailed) (hGuard : GuardsHold p o)
    (hStep : callStep env o p = some p') : p'.Unfailed := by
  have hSlot : (p.state.index + 1#32).toNat ≤ hookMax → slotRx env p.state ≠ 0#64 := fun hLe => by
    rw [slotRx, alloc_of_le hLe]
    exact hPool _ _ (alloc_of_le hLe)
  cases o with
  | hook ctrlRw target callback doTrampoline =>
    obtain ⟨⟨trampoline, s⟩, hHook, rfl⟩ := Option.map_eq_some_iff.mp hStep
    obtain ⟨hNotes, hRx⟩ := hook_unfailed hGuard hHook
    refine ⟨⟨?_, ?_⟩, fun hMem => h.notes (hNotes.mp hMem)⟩
    · intro c hc i hi
      rcases List.mem_append.mp hc with hOld | hNew
      · exact h.entries c hOld i hi
      · cases List.mem_singleton.mp hNew
        cases hi
    · intro c hc hTr
      rcases List.mem_append.mp hc with hOld | hNew
      · exact h.trampolines c hOld hTr
      · cases List.mem_singleton.mp hNew
        exact hRx hTr ▸ hSlot (hGuard hTr)
  | hookInline ctrlRw target callback =>
    obtain ⟨s, hHook, rfl⟩ := Option.map_eq_some_iff.mp hStep
    refine ⟨⟨?_, ?_⟩, fun hMem => h.notes ((hookInline_unfailed hGuard hHook).mp hMem)⟩
    · intro c hc i hi
      rcases List.mem_append.mp hc with hOld | hNew
      · exact h.entries c hOld i hi
      · cases List.mem_singleton.mp hNew
        cases hi
        exact hGuard.1
    · intro c hc hTr
      rcases List.mem_append.mp hc with hOld | hNew
      · exact h.trampolines c hOld hTr
      · cases List.mem_singleton.mp hNew
        exact hSlot hGuard.2

/-- A call that returns although a guard failed has gone on. -/
theorem callStep_failed (hGuard : ¬ GuardsHold p o) (hStep : callStep env o p = some p') :
    ¬ Guarded p' := by
  intro hAfter
  refine hAfter.stopped ?_
  cases o with
  | hook ctrlRw target callback doTrampoline =>
    obtain ⟨⟨trampoline, s⟩, hHook, rfl⟩ := Option.map_eq_some_iff.mp hStep
    simp only [GuardsHold, Classical.not_imp, Nat.not_le] at hGuard
    obtain ⟨rfl, hFull⟩ := hGuard
    exact hook_failed hFull hHook
  | hookInline ctrlRw target callback =>
    obtain ⟨s, hHook, rfl⟩ := Option.map_eq_some_iff.mp hStep
    exact hookInline_failed hGuard hHook

theorem Process.Unfailed.guarded (h : p.Unfailed) : Guarded p :=
  ⟨h.toSound, fun hMem => h.notes (List.dropLast_subset _ hMem)⟩

/-- When aborts return, so does a call that finds the pool full, and nothing is stopped. -/
theorem callStep_full (hAbort : env.abortReturns = true)
    (hFull : hookMax < (p.state.index + 1#32).toNat) (ctrlRw target callback : Addr) :
    ∃ p', callStep env (.hook ctrlRw target callback true) p = some p' ∧ ¬ Guarded p' := by
  obtain ⟨rx, s, hHook⟩ := hook_full_returns hAbort hFull ctrlRw target callback
  have hStep : callStep env (.hook ctrlRw target callback true) p =
      some ⟨s, p.installed ++ [⟨target, none, true, rx⟩]⟩ := by
    rw [callStep, hHook]
    rfl
  exact ⟨_, hStep, callStep_failed (by simpa [GuardsHold] using hFull) hStep⟩

/-- **Guards.** With the handler of `DbgGui` installed, every state of a run is guarded exactly
when no guard fails in the run: a call that finds the trampoline pool full returns, and has gone
on behind the guard. -/
theorem guards_stop_iff (env : Env) (layout : Handler.Layout) (h : Handler.Handlers)
    (hStack : h.catchStack = []) (hFunc : h.handlerFunc = some dbgGuiHandler)
    (hAbort : AbortReturns layout h → env.abortReturns = true) (hPool : PoolNonNull env) :
    (∀ os (p p' : Process), p.Unfailed → run (callStep env) os p = some p' →
      (Throughout (callStep env) Guarded os p ↔ Along (callStep env) GuardsHold os p)) ∧
    ∀ (p : Process) (ctrlRw target callback : Addr), hookMax < (p.state.index + 1#32).toNat →
      ∃ p', callStep env (.hook ctrlRw target callback true) p = some p' ∧ ¬ Guarded p' :=
  ⟨fun _ _ _ hStart hRun => throughout_iff_along (fun _ h => h.guarded)
      (fun _ _ _ h hGuard hStep => callStep_unfailed hPool h hGuard hStep)
      (fun _ _ _ _ hGuard hStep => callStep_failed hGuard hStep) hStart hRun,
    fun _ _ _ _ hFull => callStep_full (hAbort (abort_returns hStack hFunc)) hFull _ _ _⟩

end

/-! ## A process with the handler -/

/-- The process of the examples, with the handler installed. -/
def guiEnv : Env := { sampleEnv with abortReturns := true }

def guiStart : Process := ⟨sampleState, []⟩

def guiOp : HookOp := .hook 0xb0100#64 0x50100#64 0x60000#64 true

theorem guiStart_unfailed : guiStart.Unfailed where
  entries := by simp [guiStart]
  trampolines := by simp [guiStart]
  notes := by simp [guiStart, sampleState]

/-- A run of two hooks. -/
theorem guards_stop_iff_two : ∃ p', run (callStep guiEnv) [guiOp, guiOp] guiStart = some p' ∧
    (Throughout (callStep guiEnv) Guarded [guiOp, guiOp] guiStart ↔
      Along (callStep guiEnv) GuardsHold [guiOp, guiOp] guiStart) := by
  obtain ⟨p', hRun⟩ := Option.isSome_iff_exists.mp
    (by decide +kernel : (run (callStep guiEnv) [guiOp, guiOp] guiStart).isSome = true)
  exact ⟨p', hRun, (guards_stop_iff guiEnv ⟨0#64, 0#64, 0#64⟩ ⟨some dbgGuiHandler, []⟩ rfl rfl
    (fun _ => rfl) (poolNonNull_of_fits (by decide) (by decide))).1 _ _ _ guiStart_unfailed hRun⟩

/-- The 63rd hook of a process goes on behind its guard. -/
theorem guard_passed : ¬ ∀ (env : Env) (layout : Handler.Layout) (h : Handler.Handlers)
    (os : List HookOp) (m : Machine) (p' : Process), h.catchStack = [] →
    h.handlerFunc = some dbgGuiHandler → (AbortReturns layout h → env.abortReturns = true) →
    PoolNonNull env → guardNote ∉ m.log →
    run (callStep env) os ⟨⟨initialIndex, 0, m⟩, []⟩ = some p' →
    Throughout (callStep env) Guarded os ⟨⟨initialIndex, 0, m⟩, []⟩ := by
  intro hAll
  -- 62 calls leave the counter at its limit
  have hFirst : ((run (callStep guiEnv) (List.replicate 62 guiOp) guiStart).map fun p =>
      p.state.index) = some 61#32 := by decide +kernel
  obtain ⟨p, hRun, hIndex⟩ := Option.map_eq_some_iff.mp hFirst
  have hAborts : guiEnv.abortReturns = true := rfl
  have hFull : hookMax < (p.state.index + 1#32).toNat := by
    rw [hIndex]
    decide
  obtain ⟨p', hStep, hPassed⟩ := callStep_full hAborts hFull 0xb0100#64 0x50100#64 0x60000#64
  have hAfter : run (callStep guiEnv) (List.replicate 62 guiOp ++ [guiOp]) guiStart = some p' := by
    rw [run_append, hRun, Option.bind_some, Runs.run, guiOp, hStep]
    rfl
  exact hPassed ((hAll guiEnv ⟨0#64, 0#64, 0#64⟩ ⟨some dbgGuiHandler, []⟩ _ sampleState.mach p' rfl
    rfl (fun _ => rfl) (poolNonNull_of_fits (by decide) (by decide)) (by simp [sampleState])
    hAfter).final hAfter)

end Wondar.Hook
