import Wondar.Hook.InlineCall
import Wondar.Hook.Log
import Wondar.Runs

/-!
# Installing while the function is called

`HookInline` and the install functions of `TrampolineHook` hook the target first and complete
the hook afterwards: the entry, its callback and the reference to the original function are
written when the target already jumps. Nothing keeps another thread from calling the target in
between.

`Installation.stmts` are the statements of an installation, in the order of the source;
running all of them is what the calls do (`hookInline_stmts`, `installAtPtr_stmts`). A
`Config` adds a thread that calls the target, and `step` interleaves the two. A call is
published when it runs the original words or a complete jump, and in the hook meets nothing that
has not been written (`Published`). It is when no call is under way while the hook is incomplete
(`published_of_waits`), and else it need not be (`hook_unfinished`).
-/

namespace Wondar.Hook

open A64 Coherence Sys Runs

/-! ## TrampolineHook -/

/-- `InstallAtPtr`: what `OrigRef()` refers to, and the state. -/
def installAtPtr (env : Env) (ctrlRw ptr callback : Addr) (s : HookState) :
    Option (Addr × HookState) :=
  hook env ctrlRw ptr callback true s

/-- `InstallAtOffset`, in the module that starts at `targetStart`. -/
def installAtOffset (env : Env) (ctrlRw targetStart address callback : Addr) (s : HookState) :
    Option (Addr × HookState) :=
  installAtPtr env ctrlRw (targetStart + address) callback s

/-- `InstallAtSymbol`, where `LookupSymbol` finds `symbol`. -/
def installAtSymbol (env : Env) (ctrlRw : Addr) (symbol : Option Addr) (callback : Addr)
    (s : HookState) : Option (Addr × HookState) := do
  let s ← s.ensure env symbol.isSome 1#32
  installAtPtr env ctrlRw (symbol.getD 0#64) callback s

/-! ## Statements -/

/-- What the installing thread writes: memory, and `OrigRef()`. -/
structure Shared where
  mach : Machine
  orig : Addr

inductive Stmt
  /-- `__fix_instructions`. -/
  | relocate (ctrlRw target : Addr) (count : Nat) (slot : Slot)
  | store (a : Addr) (ws : List Word)
  /-- Cache operations. -/
  | maintain (es : List (Event Note))
  | assignOrig (orig : Addr)

def Stmt.exec (mmu : Mmu) : Stmt → Shared → Option Shared
  | .relocate ctrlRw target count slot, sh =>
    (fixInstructions mmu ctrlRw target count slot.rw slot.rx sh.mach).map
      fun m => { sh with mach := m }
  | .store a ws, sh => some { sh with mach := sh.mach.store mmu a ws }
  | .maintain es, sh => some { sh with mach := sh.mach.record es }
  | .assignOrig orig, sh => some { sh with orig := orig }

/-- The statements of `writeFarJump`. -/
def farJumpStmts (original replace : Addr) : List Stmt :=
  [.store original [ldrX17], .store (wordAt original 1) [brX17],
    .store (wordAt original 2) [loWord replace, hiWord replace]]

/-- The statements of `patchTarget`. -/
def patchStmts (ctrlRw symbol replace : Addr) : List Stmt :=
  if isFar symbol replace then
    (if farCount symbol = 5 then
      .store ctrlRw [aarch64Nop] :: farJumpStmts (wordAt ctrlRw 1) replace
    else farJumpStmts ctrlRw replace) ++
      [.maintain [.dcacheFlush symbol 20, .icacheInvalidate symbol 20],
        .maintain (ctrlClaim symbol ctrlRw 5).destructorFlush]
  else
    [.store ctrlRw [nearBranch symbol replace],
      .maintain [.dcacheFlush symbol 4, .icacheInvalidate symbol 4],
      .maintain (ctrlClaim symbol ctrlRw 1).destructorFlush]

theorem run_patchStmts (mmu : Mmu) (ctrlRw symbol replace : Addr) (sh : Shared) :
    Runs.run (Stmt.exec mmu) (patchStmts ctrlRw symbol replace) sh =
      some { sh with mach := patchTarget mmu ctrlRw symbol replace sh.mach } := by
  unfold patchStmts patchTarget writeFarJump
  split
  · split
    · rfl
    · rfl
  · rfl

/-! ## Installations -/

/-- Who asks for the hook. -/
inductive Kind
  /-- `HookInline`, with entry `i`. -/
  | inline (i : Nat) (callback : Addr)
  /-- `TrampolineHook`. -/
  | trampoline (callback : Addr)

structure Installation where
  env : Env
  ctrlRw : Addr
  target : Addr
  slot : Slot
  kind : Kind

namespace Installation

variable (I : Installation)

/-- Where the hooked target jumps to. -/
def replace : Addr :=
  match I.kind with
  | .inline i _ => entryAt I.env.inlineHookJit.ro i
  | .trampoline callback => callback

def count : Nat := patchCount I.target I.replace

/-- The statements behind the call of `Hook`. -/
def fill : List Stmt :=
  match I.kind with
  | .inline i callback =>
    let entryRw := entryAt I.env.inlineHookJit.rw i
    [.store entryRw (entryWords (entryAt I.env.inlineHookJit.ro i) I.env.impl I.slot.rx),
      .store (wordAt entryRw 4) [loWord callback, hiWord callback],
      .maintain I.env.inlineHookJit.flush]
  | .trampoline _ => [.assignOrig I.slot.rx]

/-- The statements from the first one that overwrites the target. -/
def patch : List Stmt :=
  patchStmts I.ctrlRw I.target I.replace ++ .maintain I.env.hookJit.flush :: I.fill

def stmts : List Stmt := .relocate I.ctrlRw I.target I.count I.slot :: I.patch

/-- What `fill` makes of memory. -/
def filled (sh : Shared) : Shared :=
  match I.kind with
  | .inline i callback =>
    { sh with
      mach := writeEntry I.env (entryAt I.env.inlineHookJit.rw i)
        (entryAt I.env.inlineHookJit.ro i) I.slot.rx callback sh.mach }
  | .trampoline _ => { sh with orig := I.slot.rx }

theorem run_fill (sh : Shared) : Runs.run (Stmt.exec I.env.mmu) I.fill sh = some (I.filled sh) := by
  unfold fill filled
  split
  · rfl
  · rfl

/-- A hook, and what completes it. -/
theorem run_stmts (sh : Shared) : Runs.run (Stmt.exec I.env.mmu) I.stmts sh =
    (fixInstructions I.env.mmu I.ctrlRw I.target I.count I.slot.rw I.slot.rx sh.mach).map
      fun t => I.filled { sh with
        mach := (patchTarget I.env.mmu I.ctrlRw I.target I.replace t).record I.env.hookJit.flush } := by
  rw [stmts, Runs.run, Stmt.exec, Option.bind_map, Option.map_eq_bind]
  refine congrArg _ (funext fun t => ?_)
  simp only [Function.comp_apply, patch, run_append, run_patchStmts, Option.bind_some, Runs.run,
    Stmt.exec, run_fill]

end Installation

/-! ## The calls -/

section

variable {env : Env} {slot : Slot} {ctrlRw target callback : Addr} {s s' : HookState}

/-- A call that passes its guards does what its statements do. -/
theorem installAtPtr_stmts {orig : Addr} (hTarget : target ≠ 0#64) (hCallback : callback ≠ 0#64)
    (hSlot : (allocForTrampoline env.hookJit s.index).2 = .ok slot)
    (hRx : slot.rx ≠ 0#64) (hRw : slot.rw ≠ 0#64)
    (h : installAtPtr env ctrlRw target callback s = some (orig, s')) :
    Runs.run (Stmt.exec env.mmu)
      (Installation.stmts ⟨env, ctrlRw, target, slot, .trampoline callback⟩) ⟨s.mach, 0#64⟩ =
        some ⟨s'.mach, orig⟩ := by
  obtain ⟨notes, t, hNotes, hFix, rfl, rfl⟩ := hook_of_slot hSlot hRx hRw h
  rw [hNotes hTarget hCallback] at hFix
  simp only [Mach.record, List.map_nil, List.append_nil] at hFix
  have hRun := Installation.run_stmts ⟨env, ctrlRw, target, slot, .trampoline callback⟩
    ⟨s.mach, 0#64⟩
  dsimp only [Installation.count, Installation.replace, Installation.filled] at hRun
  rw [hRun, hFix, Option.map_some]

theorem hookInline_stmts (hIndex : s.entryIndex < inlinePoolCount) (hTarget : target ≠ 0#64)
    (hEntry : entryAt env.inlineHookJit.ro s.entryIndex ≠ 0#64)
    (hSlot : (allocForTrampoline env.hookJit s.index).2 = .ok slot)
    (hRx : slot.rx ≠ 0#64) (hRw : slot.rw ≠ 0#64)
    (h : hookInline env ctrlRw target callback s = some s') :
    Runs.run (Stmt.exec env.mmu)
      (Installation.stmts ⟨env, ctrlRw, target, slot, .inline s.entryIndex callback⟩)
        ⟨s.mach, 0#64⟩ = some ⟨s'.mach, 0#64⟩ := by
  obtain ⟨notes, trampoline, u, hNone, -, hHook, rfl⟩ := hookInline_cases h
  rw [hNone hIndex] at hHook
  obtain ⟨notes', t, hNotes, hFix, rfl, rfl⟩ := hook_of_slot (s := { s with
    entryIndex := s.entryIndex + 1
    mach := s.mach.record [] }) hSlot hRx hRw hHook
  rw [hNotes hTarget hEntry] at hFix
  simp only [Mach.record, List.map_nil, List.append_nil] at hFix
  have hRun := Installation.run_stmts ⟨env, ctrlRw, target, slot, .inline s.entryIndex callback⟩
    ⟨s.mach, 0#64⟩
  dsimp only [Installation.count, Installation.replace, Installation.filled] at hRun
  rw [hRun, hFix, Option.map_some]

end

/-! ## Interleavings -/

/-- The thread that calls the target. -/
inductive Caller
  /-- No call is under way, or it runs the original function or the trampoline. -/
  | idle
  /-- In the words that the hook overwrites. -/
  | target (s : State)
  | hook (s : State)
  /-- In the callback of an inline hook, which will return to the implementation. -/
  | callback

structure Config where
  shared : Shared
  /-- The statements still to be executed. -/
  todo : List Stmt
  caller : Caller

inductive Act
  /-- The installing thread executes its next statement. -/
  | install
  /-- The target is called. -/
  | enter (s : State)
  /-- The call executes one instruction. -/
  | exec
  /-- The callback returns. -/
  | resume (s : State)

namespace Installation

variable (other : Word → State → State) (I : Installation) (m : Machine)

/-- The words that the hook overwrites. -/
def InWindow (a : Addr) : Prop := ∃ k < I.count, a = wordAt I.target k

/-- What a call of the hooked target executes until the callback or the trampoline. -/
def InHook (a : Addr) : Prop :=
  match I.kind with
  | .inline i _ => InlineCode I.env i a
  | .trampoline callback => a = callback

instance (a : Addr) : Decidable (I.InWindow a) := inferInstanceAs (Decidable (∃ k < _, _))

instance (a : Addr) : Decidable (I.InHook a) := by
  unfold InHook
  split <;> infer_instance

def view (sh : Shared) : Addr → Word := sh.mach.view I.env.mmu

/-- The target is as it was in `m`. -/
def Intact (sh : Shared) : Prop :=
  ∀ k < I.count, I.view sh (wordAt I.target k) = m.view I.env.mmu (wordAt I.target k)

instance (sh : Shared) : Decidable (I.Intact m sh) := inferInstanceAs (Decidable (∀ k < _, _))

/-- One instruction of the call: the code is what the installing thread has written so far, and
all other memory its own. -/
def fetchExec (sh : Shared) (s : State) : State :=
  step other { s with mem := fun a => if I.InWindow a ∨ I.InHook a then I.view sh a else s.mem a }

/-- A call that has left the window runs the original function if the window was intact. -/
def leaveTarget (sh : Shared) (s : State) : Caller :=
  if I.InWindow s.pc then .target s else if I.Intact m sh then .idle else .hook s

def leaveHook (s : State) : Caller :=
  if I.InHook s.pc then .hook s
  else
    match I.kind with
    | .inline _ callback => if s.pc = callback then .callback else .idle
    | .trampoline _ => .idle

/-- Where `exl_inline_hook_impl` goes on behind the callback. -/
def returnAddr : Addr := wordAt I.env.impl 20

def step : Act → Config → Option Config
  | .install, c =>
    match c.todo with
    | [] => none
    | st :: todo => (st.exec I.env.mmu c.shared).map fun sh => { c with shared := sh, todo := todo }
  | .enter s, c =>
    match c.caller with
    | .idle => if s.pc = I.target then some { c with caller := .target s } else none
    | _ => none
  | .exec, c =>
    match c.caller with
    | .target s => some { c with caller := I.leaveTarget m c.shared (I.fetchExec other c.shared s) }
    | .hook s => some { c with caller := I.leaveHook (I.fetchExec other c.shared s) }
    | _ => none
  | .resume s, c =>
    match c.caller with
    | .callback => if s.pc = I.returnAddr then some { c with caller := .hook s } else none
    | _ => none

/-- Before the first statement. -/
def start : Config := ⟨⟨m, 0#64⟩, I.stmts, .idle⟩

/-! ## Publication -/

/-- What a call is about to execute in the hook has been written: the words of the entry, its
callback when it is loaded (by word 18 of the implementation), and `OrigRef()` at the callback
of a trampoline hook. -/
def Initialised (sh : Shared) (s : State) : Prop :=
  match I.kind with
  | .inline i callback =>
    let entryCb := entryAt I.env.inlineHookJit.ro i
    (∀ k (h : k < (entryWords entryCb I.env.impl I.slot.rx).length), s.pc = wordAt entryCb k →
      I.view sh s.pc = (entryWords entryCb I.env.impl I.slot.rx)[k]) ∧
    (s.pc = wordAt I.env.impl 18 → load64 (I.view sh) (wordAt entryCb 4) = callback)
  | .trampoline callback => s.pc = callback → sh.orig ≠ 0#64

/-- A call runs the original function, or a hook whose parts are initialised. -/
def Published (c : Config) : Prop :=
  match c.caller with
  | .target _ =>
    I.Intact m c.shared ∨ CodeAt (I.view c.shared) I.target (jumpWords I.target I.replace)
  | .hook s => I.Initialised c.shared s
  | _ => True

/-- Only cache operations are left. -/
def Settled (todo : List Stmt) : Prop := ∀ st ∈ todo, ∃ es, st = .maintain es

/-- No call is in the window when it is overwritten, and none enters until the hook is
complete. -/
def Waits (c : Config) : Act → Prop
  | .install => c.todo = I.patch → c.caller = .idle
  | .enter _ => I.patch <:+ c.todo ∨ Settled c.todo
  | _ => True

/-- The aliases that the installation writes through, and that its parts lie apart. -/
structure Sound : Prop where
  targetAlias : I.env.mmu.Alias I.ctrlRw I.target I.count
  targetUnfolded : I.env.mmu.Unfolded I.target I.count
  targetApart : I.env.mmu.Apart I.target I.count I.slot.rw trampolineSize
  rx_ne : I.slot.rx ≠ 0#64
  entryAlias : ∀ i callback, I.kind = .inline i callback →
    I.env.mmu.Alias (entryAt I.env.inlineHookJit.rw i) (entryAt I.env.inlineHookJit.ro i) entrySize
  entryUnfolded : ∀ i callback, I.kind = .inline i callback →
    I.env.mmu.Unfolded (entryAt I.env.inlineHookJit.rw i) entrySize
  entryApart : ∀ i callback, I.kind = .inline i callback →
    I.env.mmu.Apart I.target I.count (entryAt I.env.inlineHookJit.rw i) entrySize

variable {other I m}

/-! ## Before and after -/

/-- A relocation leaves the target as it was. -/
theorem intact_relocated (h : I.Sound) {t : Machine} {orig : Addr}
    (hFix : fixInstructions I.env.mmu I.ctrlRw I.target I.count I.slot.rw I.slot.rx m = some t) :
    I.Intact m ⟨t, orig⟩ := fun k hk =>
  fixInstructions_frame (patchCount_le _ _) hFix fun j hj => h.targetApart k j hk hj

/-- The hook is complete. -/
structure Complete (sh : Shared) : Prop where
  jump : CodeAt (I.view sh) I.target (jumpWords I.target I.replace)
  initialised : ∀ s, I.Initialised sh s

theorem complete_filled (h : I.Sound) {sh : Shared}
    (hJump : CodeAt (I.view sh) I.target (jumpWords I.target I.replace)) :
    I.Complete (I.filled sh) := by
  have hLength : (jumpWords I.target I.replace).length = I.count := length_jumpWords _ _
  cases hKind : I.kind with
  | inline i callback =>
    have hAlias := h.entryAlias i callback hKind
    have hUnfolded := h.entryUnfolded i callback hKind
    have hApart := h.entryApart i callback hKind
    have hEntry := writeEntry_code I.slot.rx callback sh.mach hAlias hUnfolded
    have hPhys := writeEntry_phys I.env (entryAt I.env.inlineHookJit.rw i)
      (entryAt I.env.inlineHookJit.ro i) I.slot.rx callback sh.mach
    have hFilled : I.view (I.filled sh) = (writeEntry I.env (entryAt I.env.inlineHookJit.rw i)
        (entryAt I.env.inlineHookJit.ro i) I.slot.rx callback sh.mach).view I.env.mmu := by
      unfold filled
      rw [hKind]
      rfl
    refine ⟨?_, fun s => ?_⟩
    · -- the entry is not in the window
      refine (codeAt_congr fun k hk => ?_).mpr hJump
      rw [hFilled, Mach.view, Mach.read, hPhys]
      exact storeWords_frame fun j hj => hApart k j (by omega) hj
    · unfold Initialised
      rw [hKind, hFilled]
      exact ⟨fun k hk hPc => by rw [hPc, (codeAt_append.mp hEntry).1 k hk],
        fun _ => load64_callback hEntry⟩
  | trampoline callback =>
    have hFilled : I.filled sh = { sh with orig := I.slot.rx } := by
      unfold filled
      rw [hKind]
    rw [hFilled]
    refine ⟨hJump, fun s => ?_⟩
    unfold Initialised
    rw [hKind]
    exact fun _ => h.rx_ne

/-- All statements together complete the hook. -/
theorem complete_stmts (h : I.Sound) {sh sh' : Shared}
    (hRun : Runs.run (Stmt.exec I.env.mmu) I.stmts sh = some sh') : I.Complete sh' := by
  rw [run_stmts] at hRun
  obtain ⟨t, -, rfl⟩ := Option.map_eq_some_iff.mp hRun
  exact complete_filled h (patchTarget_code t h.targetAlias h.targetUnfolded)

/-- Cache operations change nothing that a call sees. -/
theorem run_settled {todo : List Stmt} (h : Settled todo) (sh : Shared) :
    ∃ es, Runs.run (Stmt.exec I.env.mmu) todo sh = some { sh with mach := sh.mach.record es } := by
  induction todo generalizing sh with
  | nil => exact ⟨[], by simp [Runs.run, Mach.record]⟩
  | cons st todo ih =>
    obtain ⟨es, rfl⟩ := h st (by simp)
    obtain ⟨es', hRest⟩ := ih (fun st hst => h st (by simp [hst])) { sh with mach := sh.mach.record es }
    refine ⟨es ++ es', ?_⟩
    rw [Runs.run, Stmt.exec, Option.bind_some, hRest]
    simp

/-! ## The invariant -/

/-- After the statements `done`: the target is not overwritten yet, or no call is under way, or
the hook is complete. -/
def Phase (done : List Stmt) (c : Config) : Prop :=
  (done.length ≤ 1 ∧ (c.caller = .idle ∨ ∃ s, c.caller = .target s)) ∨
    c.caller = .idle ∨ Settled c.todo

variable (I m) in
def Inv (c : Config) : Prop :=
  ∃ done, done ++ c.todo = I.stmts ∧
    Runs.run (Stmt.exec I.env.mmu) done ⟨m, 0#64⟩ = some c.shared ∧ Phase done c

variable {done todo : List Stmt} {sh : Shared} {c c' : Config}

/-- A call that is in the hook finds it complete. -/
theorem Phase.settled (h : Phase done c) (hIdle : c.caller ≠ .idle)
    (hTarget : ∀ s, c.caller ≠ .target s) : Settled c.todo := by
  rcases h with ⟨-, hCaller | ⟨s, hCaller⟩⟩ | hCaller | hSettled
  · exact absurd hCaller hIdle
  · exact absurd hCaller (hTarget s)
  · exact absurd hCaller hIdle
  · exact hSettled

theorem intact_of_early (h : I.Sound) (hStmts : done ++ todo = I.stmts)
    (hRun : Runs.run (Stmt.exec I.env.mmu) done ⟨m, 0#64⟩ = some sh) (hEarly : done.length ≤ 1) :
    I.Intact m sh := by
  match done with
  | [] =>
    cases hRun
    exact fun _ _ => rfl
  | [st] =>
    cases (List.cons.inj hStmts).1
    rw [Runs.run_cons] at hRun
    obtain ⟨sh', hStep, hEnd⟩ := hRun
    cases hEnd
    obtain ⟨t, hFix, rfl⟩ := Option.map_eq_some_iff.mp hStep
    exact intact_relocated h hFix

theorem complete_of_settled (h : I.Sound) (hStmts : done ++ todo = I.stmts)
    (hRun : Runs.run (Stmt.exec I.env.mmu) done ⟨m, 0#64⟩ = some sh) (hSettled : Settled todo) :
    I.Complete sh := by
  obtain ⟨es, hRest⟩ := run_settled (I := I) hSettled sh
  have hAll : Runs.run (Stmt.exec I.env.mmu) I.stmts ⟨m, 0#64⟩ =
      some { sh with mach := sh.mach.record es } := by
    rw [← hStmts, run_append, hRun, Option.bind_some, hRest]
  obtain ⟨hJump, hInit⟩ := complete_stmts h hAll
  exact ⟨hJump, hInit⟩

theorem Inv.published (h : I.Sound) (hInv : I.Inv m c) : I.Published m c := by
  obtain ⟨done, hStmts, hRun, hPhase⟩ := hInv
  unfold Published
  split
  · rename_i s hCaller
    rcases hPhase with ⟨hEarly, -⟩ | hIdle | hSettled
    · exact Or.inl (intact_of_early h hStmts hRun hEarly)
    · rw [hCaller] at hIdle
      cases hIdle
    · exact Or.inr (complete_of_settled h hStmts hRun hSettled).jump
  · rename_i s hCaller
    have hSettled := hPhase.settled (by simp [hCaller]) (by simp [hCaller])
    exact (complete_of_settled h hStmts hRun hSettled).initialised s
  · trivial

/-- The installing thread goes on: no call is in the window when it is overwritten. -/
theorem Inv.install (hInv : I.Inv m c) (hWaits : I.Waits c .install)
    (hStep : I.step other m .install c = some c') : I.Inv m c' := by
  obtain ⟨done, hStmts, hRun, hPhase⟩ := hInv
  rw [Installation.step] at hStep
  split at hStep
  · cases hStep
  · rename_i st todo hTodo
    obtain ⟨sh, hExec, rfl⟩ := Option.map_eq_some_iff.mp hStep
    rw [hTodo] at hStmts
    refine ⟨done ++ [st], by simpa using hStmts, ?_, ?_⟩
    · rw [run_append, hRun, Option.bind_some, Runs.run, hExec]
      rfl
    · rcases hPhase with ⟨hEarly, hCaller⟩ | hIdle | hSettled
      · rcases done with _ | ⟨patch, done⟩
        · exact Or.inl ⟨by simp, hCaller⟩
        · -- the function is patched, and nothing else has been done
          have hNil : done = [] := List.eq_nil_of_length_eq_zero (by simpa using hEarly)
          subst hNil
          exact Or.inr (Or.inl (hWaits (hTodo.trans (List.cons.inj hStmts).2)))
      · exact Or.inr (Or.inl hIdle)
      · rw [hTodo] at hSettled
        exact Or.inr (Or.inr fun st' hst' => hSettled st' (by simp [hst']))

theorem Inv.enter {s : State} (hInv : I.Inv m c) (hWaits : I.Waits c (.enter s))
    (hStep : I.step other m (.enter s) c = some c') : I.Inv m c' := by
  obtain ⟨done, hStmts, hRun, -⟩ := hInv
  rw [Installation.step] at hStep
  split at hStep
  · split at hStep
    · cases hStep
      refine ⟨done, hStmts, hRun, ?_⟩
      rcases hWaits with hPatch | hSettled
      · have hLength := congrArg List.length hStmts
        have hLe := hPatch.length_le
        rw [List.length_append, stmts, List.length_cons] at hLength
        exact Or.inl ⟨by omega, Or.inr ⟨s, rfl⟩⟩
      · exact Or.inr (Or.inr hSettled)
    · cases hStep
  · cases hStep

theorem Inv.exec (h : I.Sound) (hInv : I.Inv m c) (hStep : I.step other m .exec c = some c') :
    I.Inv m c' := by
  obtain ⟨done, hStmts, hRun, hPhase⟩ := hInv
  rw [Installation.step] at hStep
  split at hStep
  · rename_i s hCaller
    cases hStep
    refine ⟨done, hStmts, hRun, ?_⟩
    rcases hPhase with ⟨hEarly, -⟩ | hIdle | hSettled
    · -- a call that leaves an intact window is over
      refine Or.inl ⟨hEarly, ?_⟩
      dsimp only [leaveTarget]
      split
      · exact Or.inr ⟨_, rfl⟩
      · rw [if_pos (intact_of_early h hStmts hRun hEarly)]
        exact Or.inl rfl
    · rw [hCaller] at hIdle
      cases hIdle
    · exact Or.inr (Or.inr hSettled)
  · rename_i s hCaller
    cases hStep
    have hSettled := hPhase.settled (by simp [hCaller]) (by simp [hCaller])
    exact ⟨done, hStmts, hRun, Or.inr (Or.inr hSettled)⟩
  · cases hStep

theorem Inv.resume {s : State} (hInv : I.Inv m c)
    (hStep : I.step other m (.resume s) c = some c') : I.Inv m c' := by
  obtain ⟨done, hStmts, hRun, hPhase⟩ := hInv
  rw [Installation.step] at hStep
  split at hStep
  · rename_i hCaller
    split at hStep
    · cases hStep
      have hSettled := hPhase.settled (by simp [hCaller]) (by simp [hCaller])
      exact ⟨done, hStmts, hRun, Or.inr (Or.inr hSettled)⟩
    · cases hStep
  · cases hStep

/-- **Publication.** In every interleaving in which no call is under way while the hook is
incomplete, every call runs the original function or an initialised hook. -/
theorem published_of_waits (h : I.Sound) {acts : List Act}
    (hWaits : Along (I.step other m) I.Waits acts (I.start m)) :
    Throughout (I.step other m) (I.Published m) acts (I.start m) := by
  refine throughout_of_along (fun c => Inv.published h) (fun c act c' hInv hAct hStep => ?_)
    ⟨[], rfl, rfl, Or.inr (Or.inl rfl)⟩ hWaits
  cases act with
  | install => exact hInv.install hAct hStep
  | enter s => exact hInv.enter hAct hStep
  | exec => exact hInv.exec h hStep
  | resume s => exact hInv.resume hStep

/-- Without a call, the installing thread never has to wait. -/
theorem along_installs {n : Nat} {acts : List Act} (hIdle : c.caller = .idle)
    (hRest : ∀ c', c'.caller = .idle → c'.todo = c.todo.drop n →
      Along (I.step other m) I.Waits acts c') :
    Along (I.step other m) I.Waits (List.replicate n .install ++ acts) c := by
  induction n generalizing c with
  | zero => exact hRest c hIdle rfl
  | succ n ih =>
    refine ⟨fun _ => hIdle, fun c' hStep => ?_⟩
    rw [Installation.step] at hStep
    split at hStep
    · cases hStep
    · rename_i st todo hTodo
      obtain ⟨sh, -, rfl⟩ := Option.map_eq_some_iff.mp hStep
      refine ih hIdle fun c'' hIdle'' hTodo'' => hRest c'' hIdle'' ?_
      rw [hTodo'', hTodo, List.drop_succ_cons]

end Installation

/-! ## The first hook -/

def sampleInstallation (kind : Kind) : Installation :=
  ⟨sampleEnv, 0xb0100#64, 0x50100#64, .ofIndex sampleEnv.hookJit 0#32, kind⟩

def sampleInline : Installation := sampleInstallation (.inline 0 0x60000#64)

def sampleTrampoline : Installation := sampleInstallation (.trampoline 0x60000#64)

def sampleCall : State := ⟨0x50100#64, fun _ => 0#64, 0x80000#64, 0#4, fun _ => 0#128, fun _ => 0#32⟩

theorem sampleInline_sound : sampleInline.Sound where
  targetAlias := by decide +kernel
  targetUnfolded := by decide +kernel
  targetApart := by decide +kernel
  rx_ne := by decide
  entryAlias := by
    rintro i callback ⟨⟩
    decide +kernel
  entryUnfolded := by
    rintro i callback ⟨⟩
    decide +kernel
  entryApart := by
    rintro i callback ⟨⟩
    decide +kernel

theorem sampleTrampoline_sound : sampleTrampoline.Sound where
  targetAlias := by decide +kernel
  targetUnfolded := by decide +kernel
  targetApart := by decide +kernel
  rx_ne := by decide
  entryAlias := nofun
  entryUnfolded := nofun
  entryApart := nofun

/-- A call that enters the target behind the last statement. -/
theorem published_of_waits_late : Throughout
    (sampleInline.step (fun _ s => s.next) sampleState.mach)
    (sampleInline.Published sampleState.mach)
    (List.replicate 8 .install ++ [.enter sampleCall, .exec]) (sampleInline.start sampleState.mach) := by
  refine Installation.published_of_waits sampleInline_sound ?_
  refine Installation.along_installs rfl fun c _ hTodo => ?_
  have hDone : c.todo = [] := hTodo
  refine ⟨Or.inr fun st hst => ?_, fun c' _ => ⟨trivial, fun _ _ => trivial⟩⟩
  rw [hDone] at hst
  cases hst

/-- A call between the statements of `Hook` and those that complete the hook. -/
def earlyCall : List Act := List.replicate 5 .install ++ [.enter sampleCall, .exec]

theorem sampleInline_early : ∃ c,
    Runs.run (sampleInline.step (fun _ s => s.next) sampleState.mach) earlyCall
      (sampleInline.start sampleState.mach) = some c ∧
    ¬ sampleInline.Published sampleState.mach c := by
  refine ⟨_, rfl, fun h => ?_⟩
  exact absurd (h.1 0 (by decide) (by decide +kernel)) (by decide +kernel)

theorem sampleTrampoline_early : ∃ c,
    Runs.run (sampleTrampoline.step (fun _ s => s.next) sampleState.mach) earlyCall
      (sampleTrampoline.start sampleState.mach) = some c ∧
    ¬ sampleTrampoline.Published sampleState.mach c := by
  refine ⟨_, rfl, fun h => ?_⟩
  exact h (by decide +kernel) rfl

/-- A call may reach an entry that has not been written, or a callback whose `OrigRef()` is
still null. -/
theorem hook_unfinished :
    (¬ ∀ (other : Word → State → State) (I : Installation) (m : Machine) (acts : List Act)
      (i : Nat) (callback : Addr), I.kind = .inline i callback → I.Sound →
        Throughout (I.step other m) (I.Published m) acts (I.start m)) ∧
    ¬ ∀ (other : Word → State → State) (I : Installation) (m : Machine) (acts : List Act)
      (callback : Addr), I.kind = .trampoline callback → I.Sound →
        Throughout (I.step other m) (I.Published m) acts (I.start m) := by
  constructor
  · intro h
    obtain ⟨c, hRun, hBreak⟩ := sampleInline_early
    exact hBreak ((h _ _ _ _ _ _ rfl sampleInline_sound).final hRun)
  · intro h
    obtain ⟨c, hRun, hBreak⟩ := sampleTrampoline_early
    exact hBreak ((h _ _ _ _ _ rfl sampleTrampoline_sound).final hRun)

end Wondar.Hook
