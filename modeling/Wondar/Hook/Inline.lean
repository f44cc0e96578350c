import Wondar.Armv8
import Wondar.Hook.Impl

/-!
# Inline hooks

`HookInline` takes the next entry of the inline pool, hooks the target with the entry as the
callback, and fills the entry: four instructions that save LR, call the common
implementation, restore LR and branch to the trampoline, and behind them the address of the
user's callback.
-/

namespace Wondar.Hook

open A64 Coherence Sys

/-- The size of `Entry` in words: four instructions and the callback. -/
def entrySize : Nat := 6

def inlinePoolCount : Nat := Setting.inlinePoolSize / (entrySize * 4)

/-- `&pool[i]`. -/
def entryAt (pool : Addr) (i : Nat) : Addr := wordAt pool (entrySize * i)

/-- The instructions of an entry at `entryCb`. -/
def entryWords (entryCb impl trampoline : Addr) : List Word :=
  [ -- Backup LR register to stack, as we are about to trash it.
    Armv8.sturUnscaledImmediate .lr .sp (-0x10#16),
    -- Branch to implementation.
    Armv8.branchLink ((impl - (entryCb + 4#64)).setWidth 32),
    -- Restore proper LR.
    Armv8.ldurUnscaledImmediate .lr .sp (-0x10#16),
    -- Branch to trampoline.
    Armv8.branch ((trampoline - (entryCb + 8#64)).setWidth 32)]

/-- Fill the entry through its RW address, and flush. -/
def writeEntry (env : Env) (entryRw entryCb trampoline callback : Addr) (m : Machine) : Machine :=
  let m := m.store env.mmu entryRw (entryWords entryCb env.impl trampoline)
  let m := m.store64 env.mmu (wordAt entryRw 4) callback
  m.record env.inlineHookJit.flush

/-- `HookInline`, where `HookFuncImpl` maps its claim at `ctrlRw`. -/
def hookInline (env : Env) (ctrlRw target callback : Addr) (s : HookState) : Option HookState := do
  let s ← s.ensure env (s.entryIndex < inlinePoolCount) Results.hookTrampolineAllocFail
  let entryCb := entryAt env.inlineHookJit.ro s.entryIndex
  let entryRw := entryAt env.inlineHookJit.rw s.entryIndex
  let s := { s with entryIndex := s.entryIndex + 1 }
  let (trampoline, s) ← hook env ctrlRw target entryCb true s
  some { s with mach := writeEntry env entryRw entryCb trampoline callback s.mach }

end Wondar.Hook
