import Wondar.Packing
import Wondar.PushPop

/-!
# System calls

Each wrapper of `svc.s` enters the kernel once, with the registers that it was called with. The
kernel answers in registers. What it answers besides the result belongs at a pointer that the caller
gave; the wrapper keeps the pointer on the stack meanwhile.

* `svc_marshals`: whatever the kernel answers, the wrapper returns it, stores each output through
  its pointer and nothing else, and gives the stack back.
* `svc_declared_iff`: the outputs have the sizes that `svc.h` declares, but for `svcGetProcessInfo`,
  which stores one half of its output.
-/

namespace Wondar.Sys

open Blocks Packing Updates
open PushPop (Core Reg)

/-! ## Instructions -/

/-- How wide an access is. -/
inductive Width
  | w
  | x
deriving DecidableEq, Repr

inductive SvcInstr
  /-- `str rt, [sp, #-16]!` -/
  | push (rt : Reg)
  /-- `stp rt, rt2, [sp, #-16]!` -/
  | pushPair (rt rt2 : Reg)
  /-- `ldr rt, [sp], #16` -/
  | pop (rt : Reg)
  /-- `ldp rt, rt2, [sp], #16` -/
  | popPair (rt rt2 : Reg)
  /-- `str rt, [rn, #imm]` -/
  | str (width : Width) (rt rn : Reg) (imm : Nat)
  /-- `stp rt, rt2, [rn, #imm]` -/
  | stp (rt rt2 rn : Reg) (imm : Nat)
  /-- `ldp rt, rt2, [rn, #imm]` -/
  | ldp (rt rt2 rn : Reg) (imm : Nat)
  | mov (rd rn : Reg)
deriving DecidableEq, Repr

/-- The low half, or all, of a register. -/
def Width.bytes (val : BitVec 64) : Width → List (BitVec 8)
  | .w => bytesOf32 (val.setWidth 32)
  | .x => bytesOf val

/-- The number of its bytes. -/
def Width.size : Width → Nat
  | .w => 4
  | .x => 8

/-- The address of an access. -/
def addrAt (s : Core) (rn : Reg) (imm : Nat) : Nat := (s.x rn + BitVec.ofNat 64 imm).toNat

/-- What an instruction does. -/
def SvcInstr.exec (s : Core) : SvcInstr → Core
  | .push rt =>
    { s with sp := s.sp - 16#64, mem := store64 s.mem (s.sp - 16#64).toNat (s.x rt) }
  | .pushPair rt rt2 => s.push (.x rt rt2)
  | .pop rt =>
    { s with x := Function.update s.x rt (load64 s.mem s.sp.toNat), sp := s.sp + 16#64 }
  | .popPair rt rt2 => s.pop (.x rt rt2)
  | .str width rt rn imm => { s with mem := write s.mem (addrAt s rn imm) (width.bytes (s.x rt)) }
  | .stp rt rt2 rn imm =>
    { s with
      mem := store64 (store64 s.mem (addrAt s rn imm) (s.x rt)) (addrAt s rn (imm + 8)) (s.x rt2) }
  | .ldp rt rt2 rn imm =>
    { s with
      x := Function.update (Function.update s.x rt (load64 s.mem (addrAt s rn imm))) rt2
        (load64 s.mem (addrAt s rn (imm + 8))) }
  | .mov rd rn => { s with x := Function.update s.x rd (s.x rn) }

/-! ## Wrappers -/

/-- What is done around the `svc`. -/
inductive Wrapper
  | plain
  /-- The pointer in `saved` is for `w1` or `x1`. -/
  | output (saved : Reg) (width : Width)
  /-- The pointers in `x0` and `x1` are for `w1` or `x1`, and for `w2`. -/
  | outputs (first : Width)
  /-- The pointer in `x0` is for `x1`, `x2` and `x3`. -/
  | words
  /-- The pointer in `x0` is for `x0` to `x7`, which are loaded first. -/
  | secureMonitor
deriving DecidableEq, Repr

namespace Wrapper

/-- The instructions in front of the `svc`. -/
def before : Wrapper → List SvcInstr
  | .plain => []
  | .output saved _ => [.push saved]
  | .outputs _ => [.pushPair 0 1]
  | .words => [.push 0]
  | .secureMonitor =>
    [.push 0, .mov 8 0, .ldp 0 1 8 0, .ldp 2 3 8 0x10, .ldp 4 5 8 0x20, .ldp 6 7 8 0x30]

/-- Behind it is `ret`. -/
def after : Wrapper → List SvcInstr
  | .plain => []
  | .output _ width => [.pop 2, .str width 1 2 0]
  | .outputs first => [.popPair 3 4, .str first 1 3 0, .str .w 2 4 0]
  | .words => [.pop 4, .stp 1 2 4 0, .str .x 3 4 16]
  | .secureMonitor => [.pop 8, .stp 0 1 8 0, .stp 2 3 8 0x10, .stp 4 5 8 0x20, .stp 6 7 8 0x30]

end Wrapper

/-- The functions of `svc.s`, in its order. -/
inductive Svc
  | svcSetHeapSize | svcSetMemoryPermission | svcSetMemoryAttribute | svcMapMemory
  | svcUnmapMemory | svcQueryMemory | svcExitProcess | svcCreateThread | svcStartThread
  | svcExitThread | svcSleepThread | svcGetThreadPriority | svcSetThreadPriority
  | svcGetThreadCoreMask | svcSetThreadCoreMask | svcGetCurrentProcessorNumber | svcSignalEvent
  | svcClearEvent | svcMapSharedMemory | svcUnmapSharedMemory | svcCreateTransferMemory
  | svcCloseHandle | svcResetSignal | svcWaitSynchronization | svcCancelSynchronization
  | svcArbitrateLock | svcArbitrateUnlock | svcWaitProcessWideKeyAtomic | svcSignalProcessWideKey
  | svcGetSystemTick | svcConnectToNamedPort | svcSendSyncRequest
  | svcSendSyncRequestWithUserBuffer | svcSendAsyncRequestWithUserBuffer | svcGetProcessId
  | svcGetThreadId | svcBreak | svcOutputDebugString | svcReturnFromException | svcGetInfo
  | svcMapPhysicalMemory | svcUnmapPhysicalMemory | svcGetResourceLimitLimitValue
  | svcGetResourceLimitCurrentValue | svcSetThreadActivity | svcGetThreadContext3
  | svcCreateSession | svcAcceptSession | svcReplyAndReceive | svcReplyAndReceiveWithUserBuffer
  | svcCreateEvent | svcMapPhysicalMemoryUnsafe | svcUnmapPhysicalMemoryUnsafe | svcSetUnsafeLimit
  | svcCreateCodeMemory | svcControlCodeMemory | svcReadWriteRegister | svcCreateSharedMemory
  | svcMapTransferMemory | svcUnmapTransferMemory | svcCreateInterruptEvent
  | svcQueryPhysicalAddress | svcQueryIoMapping | svcCreateDeviceAddressSpace
  | svcAttachDeviceAddressSpace | svcDetachDeviceAddressSpace | svcMapDeviceAddressSpaceByForce
  | svcMapDeviceAddressSpaceAligned | svcUnmapDeviceAddressSpace | svcDebugActiveProcess
  | svcBreakDebugProcess | svcTerminateDebugProcess | svcGetDebugEvent
  | svcLegacyContinueDebugEvent | svcContinueDebugEvent | svcGetProcessList | svcGetThreadList
  | svcGetDebugThreadContext | svcSetDebugThreadContext | svcQueryDebugProcessMemory
  | svcReadDebugProcessMemory | svcWriteDebugProcessMemory | svcGetDebugThreadParam
  | svcGetSystemInfo | svcCreatePort | svcManageNamedPort | svcConnectToPort
  | svcSetProcessMemoryPermission | svcMapProcessMemory | svcUnmapProcessMemory
  | svcQueryProcessMemory | svcMapProcessCodeMemory | svcUnmapProcessCodeMemory | svcCreateProcess
  | svcStartProcess | svcTerminateProcess | svcGetProcessInfo | svcCreateResourceLimit
  | svcSetResourceLimitLimitValue | svcCallSecureMonitor
deriving DecidableEq, Repr

/-- The wrapper and the number of the call. -/
def Svc.entry : Svc → Wrapper × BitVec 16
  | .svcSetHeapSize => (.output 0 .x, 0x1)
  | .svcSetMemoryPermission => (.plain, 0x2)
  | .svcSetMemoryAttribute => (.plain, 0x3)
  | .svcMapMemory => (.plain, 0x4)
  | .svcUnmapMemory => (.plain, 0x5)
  | .svcQueryMemory => (.output 1 .w, 0x6)
  | .svcExitProcess => (.plain, 0x7)
  | .svcCreateThread => (.output 0 .w, 0x8)
  | .svcStartThread => (.plain, 0x9)
  | .svcExitThread => (.plain, 0xa)
  | .svcSleepThread => (.plain, 0xb)
  | .svcGetThreadPriority => (.output 0 .w, 0xc)
  | .svcSetThreadPriority => (.plain, 0xd)
  | .svcGetThreadCoreMask => (.outputs .w, 0xe)
  | .svcSetThreadCoreMask => (.plain, 0xf)
  | .svcGetCurrentProcessorNumber => (.plain, 0x10)
  | .svcSignalEvent => (.plain, 0x11)
  | .svcClearEvent => (.plain, 0x12)
  | .svcMapSharedMemory => (.plain, 0x13)
  | .svcUnmapSharedMemory => (.plain, 0x14)
  | .svcCreateTransferMemory => (.output 0 .w, 0x15)
  | .svcCloseHandle => (.plain, 0x16)
  | .svcResetSignal => (.plain, 0x17)
  | .svcWaitSynchronization => (.output 0 .w, 0x18)
  | .svcCancelSynchronization => (.plain, 0x19)
  | .svcArbitrateLock => (.plain, 0x1a)
  | .svcArbitrateUnlock => (.plain, 0x1b)
  | .svcWaitProcessWideKeyAtomic => (.plain, 0x1c)
  | .svcSignalProcessWideKey => (.plain, 0x1d)
  | .svcGetSystemTick => (.plain, 0x1e)
  | .svcConnectToNamedPort => (.output 0 .w, 0x1f)
  | .svcSendSyncRequest => (.plain, 0x21)
  | .svcSendSyncRequestWithUserBuffer => (.plain, 0x22)
  | .svcSendAsyncRequestWithUserBuffer => (.output 0 .w, 0x23)
  | .svcGetProcessId => (.output 0 .x, 0x24)
  | .svcGetThreadId => (.output 0 .x, 0x25)
  | .svcBreak => (.plain, 0x26)
  | .svcOutputDebugString => (.plain, 0x27)
  | .svcReturnFromException => (.plain, 0x28)
  | .svcGetInfo => (.output 0 .x, 0x29)
  | .svcMapPhysicalMemory => (.plain, 0x2c)
  | .svcUnmapPhysicalMemory => (.plain, 0x2d)
  | .svcGetResourceLimitLimitValue => (.output 0 .x, 0x30)
  | .svcGetResourceLimitCurrentValue => (.output 0 .x, 0x31)
  | .svcSetThreadActivity => (.plain, 0x32)
  | .svcGetThreadContext3 => (.plain, 0x33)
  | .svcCreateSession => (.outputs .w, 0x40)
  | .svcAcceptSession => (.output 0 .w, 0x41)
  | .svcReplyAndReceive => (.output 0 .w, 0x43)
  | .svcReplyAndReceiveWithUserBuffer => (.output 0 .w, 0x44)
  | .svcCreateEvent => (.outputs .w, 0x45)
  | .svcMapPhysicalMemoryUnsafe => (.plain, 0x48)
  | .svcUnmapPhysicalMemoryUnsafe => (.plain, 0x49)
  | .svcSetUnsafeLimit => (.plain, 0x4a)
  | .svcCreateCodeMemory => (.output 0 .w, 0x4b)
  | .svcControlCodeMemory => (.plain, 0x4c)
  | .svcReadWriteRegister => (.output 0 .w, 0x4e)
  | .svcCreateSharedMemory => (.output 0 .w, 0x50)
  | .svcMapTransferMemory => (.plain, 0x51)
  | .svcUnmapTransferMemory => (.plain, 0x52)
  | .svcCreateInterruptEvent => (.output 0 .w, 0x53)
  | .svcQueryPhysicalAddress => (.words, 0x54)
  | .svcQueryIoMapping => (.output 0 .x, 0x55)
  | .svcCreateDeviceAddressSpace => (.output 0 .w, 0x56)
  | .svcAttachDeviceAddressSpace => (.plain, 0x57)
  | .svcDetachDeviceAddressSpace => (.plain, 0x58)
  | .svcMapDeviceAddressSpaceByForce => (.plain, 0x59)
  | .svcMapDeviceAddressSpaceAligned => (.plain, 0x5a)
  | .svcUnmapDeviceAddressSpace => (.plain, 0x5c)
  | .svcDebugActiveProcess => (.output 0 .w, 0x60)
  | .svcBreakDebugProcess => (.plain, 0x61)
  | .svcTerminateDebugProcess => (.plain, 0x62)
  | .svcGetDebugEvent => (.plain, 0x63)
  | .svcLegacyContinueDebugEvent => (.plain, 0x64)
  | .svcContinueDebugEvent => (.plain, 0x64)
  | .svcGetProcessList => (.output 0 .w, 0x65)
  | .svcGetThreadList => (.output 0 .w, 0x66)
  | .svcGetDebugThreadContext => (.plain, 0x67)
  | .svcSetDebugThreadContext => (.plain, 0x68)
  | .svcQueryDebugProcessMemory => (.output 1 .w, 0x69)
  | .svcReadDebugProcessMemory => (.plain, 0x6a)
  | .svcWriteDebugProcessMemory => (.plain, 0x6b)
  | .svcGetDebugThreadParam => (.outputs .x, 0x6d)
  | .svcGetSystemInfo => (.output 0 .x, 0x6f)
  | .svcCreatePort => (.outputs .w, 0x70)
  | .svcManageNamedPort => (.output 0 .w, 0x71)
  | .svcConnectToPort => (.output 0 .w, 0x72)
  | .svcSetProcessMemoryPermission => (.plain, 0x73)
  | .svcMapProcessMemory => (.plain, 0x74)
  | .svcUnmapProcessMemory => (.plain, 0x75)
  | .svcQueryProcessMemory => (.output 1 .w, 0x76)
  | .svcMapProcessCodeMemory => (.plain, 0x77)
  | .svcUnmapProcessCodeMemory => (.plain, 0x78)
  | .svcCreateProcess => (.output 0 .w, 0x79)
  | .svcStartProcess => (.plain, 0x7a)
  | .svcTerminateProcess => (.plain, 0x7b)
  | .svcGetProcessInfo => (.output 0 .w, 0x7c)
  | .svcCreateResourceLimit => (.output 0 .w, 0x7d)
  | .svcSetResourceLimitLimitValue => (.plain, 0x7e)
  | .svcCallSecureMonitor => (.secureMonitor, 0x7f)

/-- What the kernel does with the number of a call. -/
abbrev SvcKernel := BitVec 16 → Core → Core

namespace Svc

/-- At the `svc`. -/
def enter (c : Svc) (s : Core) : Core := c.entry.1.before.foldl SvcInstr.exec s

/-- Behind the `svc`. -/
def answer (K : SvcKernel) (c : Svc) (s : Core) : Core := K c.entry.2 (c.enter s)

/-- A call: the instructions in front, the kernel, and the instructions behind it. -/
def run (K : SvcKernel) (c : Svc) (s : Core) : Core :=
  c.entry.1.after.foldl SvcInstr.exec (c.answer K s)

end Svc

/-! ## Outputs -/

/-- A register of the answer, and where it goes. -/
structure Output where
  argument : Reg
  offset : Nat
  width : Width
  reg : Reg
deriving DecidableEq, Repr

namespace Output

/-- Where an output goes. -/
def addr (pointer : Reg → BitVec 64) (o : Output) : Nat :=
  (pointer o.argument + BitVec.ofNat 64 o.offset).toNat

/-- What is stored of it. -/
def bytes (k : Core) (o : Output) : List (BitVec 8) := o.width.bytes (k.x o.reg)

/-- The store of an output. -/
def copy (pointer : Reg → BitVec 64) (k : Core) (o : Output) : Nat × List (BitVec 8) :=
  (o.addr pointer, o.bytes k)

/-- Registers one after the other. -/
def array (argument reg : Reg) (n : Nat) : List Output :=
  (List.range n).map fun i => ⟨argument, 8 * i, .x, reg + BitVec.ofNat 5 i⟩

end Output

namespace Wrapper

/-- The outputs of a wrapper, in the order of their stores. -/
def stored : Wrapper → List Output
  | .plain => []
  | .output saved width => [⟨saved, 0, width, 1⟩]
  | .outputs first => [⟨0, 0, first, 1⟩, ⟨1, 0, .w, 2⟩]
  | .words => Output.array 0 1 3
  | .secureMonitor => Output.array 0 0 8

/-- The registers that hold the pointers at the end. -/
def scratch : Wrapper → List Reg
  | .plain => []
  | .output _ _ => [2]
  | .outputs _ => [3, 4]
  | .words => [4]
  | .secureMonitor => [8]

/-- What the kernel is given in a register. -/
def argument (s : Core) (r : Reg) : Wrapper → BitVec 64
  | .secureMonitor =>
    if r.toNat < 8 then load64 s.mem (addrAt s 0 (8 * r.toNat)) else if r = 8 then s.x 0 else s.x r
  | _ => s.x r

/-- How many bytes below the stack pointer a wrapper uses. -/
def frameSize : Wrapper → Nat
  | .plain => 0
  | _ => 16

end Wrapper

/-! ## Around the kernel -/

/-- The pointers, from where they are kept. -/
def Wrapper.pointers (mem : Memory) (sp : Nat) : Wrapper → Reg → BitVec 64
  | .outputs _, r => if r = 0 then load64 mem sp else load64 mem (sp + 8)
  | _, _ => load64 mem sp

/-- What a wrapper needs of its caller, and what the kernel keeps: the stack below the caller's. -/
structure Svc.Callable (K : SvcKernel) (c : Svc) (s : Core) : Prop where
  room : 16 ≤ s.sp.toNat
  sp : (c.answer K s).sp = (c.enter s).sp
  frame : ∀ b, s.sp.toNat - 16 ≤ b → b < s.sp.toNat → (c.answer K s).mem b = (c.enter s).mem b
  outputs : c.entry.1.stored.Pairwise fun o o' =>
    Block.Apart ⟨o.addr s.x, o.width.size⟩ ⟨o'.addr s.x, o'.width.size⟩
  stack : ∀ o ∈ c.entry.1.stored,
    Block.Apart ⟨o.addr s.x, o.width.size⟩ ⟨s.sp.toNat - 16, 16⟩

/-- The kernel is given what the wrapper was given, and the caller gets what the kernel answers. -/
structure Svc.Marshals (K : SvcKernel) (c : Svc) (s : Core) : Prop where
  arguments : ∀ r, (c.enter s).x r = c.entry.1.argument s r
  memory : ∀ b, b < s.sp.toNat - 16 ∨ s.sp.toNat ≤ b → (c.enter s).mem b = s.mem b
  sp : (c.run K s).sp = s.sp
  registers : ∀ r, r ∉ c.entry.1.scratch → (c.run K s).x r = (c.answer K s).x r
  vectors : (c.run K s).v = (c.answer K s).v
  outputs : ∀ o ∈ c.entry.1.stored,
    ReadsAs (c.run K s).mem (o.addr s.x) (o.bytes (c.answer K s))
  others : ∀ b, (∀ o ∈ c.entry.1.stored, b < o.addr s.x ∨ o.addr s.x + o.width.size ≤ b) →
    (c.run K s).mem b = (c.answer K s).mem b

@[simp]
theorem Width.length_bytes (width : Width) (val : BitVec 64) :
    (width.bytes val).length = width.size := by
  cases width <;> rfl

/-- The registers at the end. -/
def Wrapper.registers (k : Core) : Wrapper → Reg → BitVec 64
  | .plain => k.x
  | .output _ _ => Function.update k.x 2 (load64 k.mem k.sp.toNat)
  | .outputs _ =>
    Function.update (Function.update k.x 3 (load64 k.mem k.sp.toNat)) 4
      (load64 k.mem (k.sp.toNat + 8))
  | .words => Function.update k.x 4 (load64 k.mem k.sp.toNat)
  | .secureMonitor => Function.update k.x 8 (load64 k.mem k.sp.toNat)

theorem registers_eq (w : Wrapper) (k : Core) {r : Reg} (hr : r ∉ w.scratch) :
    w.registers k r = k.x r := by
  cases w with
  | plain => rfl
  | outputs first =>
    simp only [Wrapper.scratch, List.mem_cons, List.not_mem_nil, or_false, not_or] at hr
    exact (Function.update_of_ne hr.2 _ _).trans (Function.update_of_ne hr.1 _ _)
  | output | words | secureMonitor =>
    exact Function.update_of_ne (List.ne_of_not_mem_cons hr) _ _

theorem after_eq (w : Wrapper) (k : Core) : w.after.foldl SvcInstr.exec k =
    { k with
      x := w.registers k
      sp := k.sp + BitVec.ofNat 64 w.frameSize
      mem := copyAll k.mem (w.stored.map (Output.copy (w.pointers k.mem k.sp.toNat) k)) } := by
  cases w <;>
    simp [Wrapper.after, Wrapper.registers, Wrapper.frameSize, Wrapper.stored, Wrapper.pointers,
      SvcInstr.exec, addrAt, copyAll, Output.copy, Output.addr, Output.bytes, Output.array,
      List.range_succ, store64, Width.bytes, Core.pop, PushPop.Pair.load, PushPop.Pair.size]

theorem before_sp (w : Wrapper) (s : Core) :
    (w.before.foldl SvcInstr.exec s).sp = s.sp - BitVec.ofNat 64 w.frameSize := by
  cases w <;>
    simp [Wrapper.before, Wrapper.frameSize, SvcInstr.exec, Core.push, PushPop.Pair.size]

theorem before_mem (w : Wrapper) {s : Core} (hRoom : 16 ≤ s.sp.toNat) {b : Nat}
    (hb : b < s.sp.toNat - 16 ∨ s.sp.toNat ≤ b) :
    (w.before.foldl SvcInstr.exec s).mem b = s.mem b := by
  have hSp : (s.sp - 16#64).toNat = s.sp.toNat - 16 := by bv_omega
  cases w with
  | plain => rfl
  | output | words | secureMonitor => exact PushPop.store64_frame (by omega)
  | outputs => exact PushPop.push_frame (p := .x 0 1) hRoom hb

/-- The pointers are on the stack. -/
theorem before_pointers {w : Wrapper} (s : Core) {o : Output} (ho : o ∈ w.stored) :
    w.pointers (w.before.foldl SvcInstr.exec s).mem (w.before.foldl SvcInstr.exec s).sp.toNat
      o.argument = s.x o.argument := by
  cases w with
  | plain => cases ho
  | output saved width =>
    obtain rfl := List.mem_singleton.mp ho
    exact load64_store64
  | outputs first =>
    simp only [Wrapper.stored, List.mem_cons, List.not_mem_nil, or_false] at ho
    rcases ho with rfl | rfl
    · exact (load64_of_apart (Or.inl (Nat.le_refl _))).trans load64_store64
    · exact load64_store64
  | words =>
    obtain ⟨i, -, rfl⟩ := List.mem_map.mp ho
    exact load64_store64
  | secureMonitor =>
    obtain ⟨i, -, rfl⟩ := List.mem_map.mp ho
    exact load64_store64

theorem pointers_congr (w : Wrapper) {mem mem' : Memory} {sp : Nat}
    (h : ∀ i < 16, mem (sp + i) = mem' (sp + i)) : w.pointers mem sp = w.pointers mem' sp := by
  have hFirst : load64 mem sp = load64 mem' sp := load64_congr fun i hi => h i (by omega)
  have hSecond : load64 mem (sp + 8) = load64 mem' (sp + 8) := load64_congr fun i hi => by
    rw [Nat.add_assoc]
    exact h (8 + i) (by omega)
  funext r
  cases w <;> simp only [Wrapper.pointers, hFirst, hSecond]

/-- The arguments of the secure monitor are loaded behind the push. -/
theorem before_argument (w : Wrapper) {s : Core} (hRoom : 16 ≤ s.sp.toNat)
    (hStack : ∀ o ∈ w.stored,
      Block.Apart ⟨o.addr s.x, o.width.size⟩ ⟨s.sp.toNat - 16, 16⟩) (r : Reg) :
    (w.before.foldl SvcInstr.exec s).x r = w.argument s r := by
  cases w with
  | plain | output | outputs | words => rfl
  | secureMonitor =>
    have hSp : (s.sp - 16#64).toNat = s.sp.toNat - 16 := by bv_omega
    have hLoad : ∀ i < 8, load64 (store64 s.mem (s.sp - 16#64).toNat (s.x 0)) (addrAt s 0 (8 * i)) =
        load64 s.mem (addrAt s 0 (8 * i)) := by
      intro i hi
      have hApart := hStack _ (List.mem_map_of_mem (List.mem_range.mpr hi))
      have hBlock : Block.Apart ⟨addrAt s 0 (8 * i), 8⟩ ⟨s.sp.toNat - 16, 16⟩ := hApart
      apply load64_of_apart
      simp only [Block.Apart] at hBlock
      omega
    simp only [Wrapper.before, List.foldl_cons, List.foldl_nil, SvcInstr.exec,
      Function.update_apply, Wrapper.argument, addrAt, BitVec.reduceEq, reduceIte]
    by_cases hLow : r.toNat < 8
    · rw [if_pos hLow]
      refine Eq.trans ?_ (hLoad _ hLow)
      have hCases : r = 0 ∨ r = 1 ∨ r = 2 ∨ r = 3 ∨ r = 4 ∨ r = 5 ∨ r = 6 ∨ r = 7 := by bv_omega
      rcases hCases with rfl | rfl | rfl | rfl | rfl | rfl | rfl | rfl <;> rfl
    · have hOther : ∀ i : Reg, i.toNat < 8 → r ≠ i := by
        rintro i hi rfl
        exact hLow hi
      rw [if_neg hLow, if_neg (hOther 7 (by decide)), if_neg (hOther 6 (by decide)),
        if_neg (hOther 5 (by decide)), if_neg (hOther 4 (by decide)), if_neg (hOther 3 (by decide)),
        if_neg (hOther 2 (by decide)), if_neg (hOther 1 (by decide)), if_neg (hOther 0 (by decide))]

theorem frameSize_of_stored {w : Wrapper} {o : Output} (ho : o ∈ w.stored) : w.frameSize = 16 := by
  cases w with
  | plain => cases ho
  | output | outputs | words | secureMonitor => rfl

namespace Svc.Callable

variable {K : SvcKernel} {c : Svc} {s : Core}

theorem pointers (h : c.Callable K s) {o : Output} (ho : o ∈ c.entry.1.stored) :
    c.entry.1.pointers (c.answer K s).mem (c.answer K s).sp.toNat o.argument = s.x o.argument := by
  have hRoom := h.room
  have hSp : (s.sp - 16#64).toNat = s.sp.toNat - 16 := by bv_omega
  have hEnter : (c.enter s).sp.toNat = s.sp.toNat - 16 := by
    rw [Svc.enter, before_sp, frameSize_of_stored ho]
    exact hSp
  have hSame : c.entry.1.pointers (c.answer K s).mem (s.sp.toNat - 16) =
      c.entry.1.pointers (c.enter s).mem (s.sp.toNat - 16) :=
    pointers_congr _ fun i hi => h.frame _ (Nat.le_add_right _ _) (by omega)
  rw [h.sp, hEnter, hSame, ← hEnter]
  exact before_pointers s ho

theorem run_eq (h : c.Callable K s) : c.run K s =
    { c.answer K s with
      x := c.entry.1.registers (c.answer K s)
      sp := s.sp
      mem := copyAll (c.answer K s).mem
        (c.entry.1.stored.map (Output.copy s.x (c.answer K s))) } := by
  have hCopies : c.entry.1.stored.map
      (Output.copy (c.entry.1.pointers (c.answer K s).mem (c.answer K s).sp.toNat) (c.answer K s)) =
      c.entry.1.stored.map (Output.copy s.x (c.answer K s)) := by
    refine List.map_congr_left fun o ho => ?_
    rw [Output.copy, Output.addr, h.pointers ho, Output.copy, Output.addr]
  have hSp : (c.answer K s).sp + BitVec.ofNat 64 c.entry.1.frameSize = s.sp := by
    rw [h.sp, Svc.enter, before_sp, BitVec.sub_add_cancel]
  rw [Svc.run, after_eq, hCopies, hSp]

theorem reads (h : c.Callable K s) {o : Output} (ho : o ∈ c.entry.1.stored) :
    ReadsAs (c.run K s).mem (o.addr s.x) (o.bytes (c.answer K s)) := by
  have hApart := h.outputs
  rw [h.run_eq]
  refine read_copyAll_mem (List.pairwise_map.mpr ?_) (List.mem_map_of_mem ho)
  simp only [Output.copy, Output.bytes, Width.length_bytes]
  exact hApart

theorem others (h : c.Callable K s) {b : Nat}
    (hb : ∀ o ∈ c.entry.1.stored, b < o.addr s.x ∨ o.addr s.x + o.width.size ≤ b) :
    (c.run K s).mem b = (c.answer K s).mem b := by
  rw [h.run_eq]
  have hApart : ∀ copy ∈ c.entry.1.stored.map (Output.copy s.x (c.answer K s)),
      Block.Apart ⟨b, 1⟩ ⟨copy.1, copy.2.length⟩ := by
    intro copy hCopy
    obtain ⟨o, ho, rfl⟩ := List.mem_map.mp hCopy
    have hOutside := hb o ho
    simp only [Block.Apart, Output.copy, Output.bytes, Width.length_bytes]
    omega
  exact List.head_eq_of_cons_eq (read_copyAll_of_apart hApart)

end Svc.Callable

/-- **Marshalling.** -/
theorem svc_marshals {K : SvcKernel} {c : Svc} {s : Core} (h : c.Callable K s) :
    c.Marshals K s where
  arguments := before_argument _ h.room h.stack
  memory _ hb := before_mem _ h.room hb
  sp := by rw [h.run_eq]
  registers r hr := by
    rw [h.run_eq]
    exact registers_eq _ _ hr
  vectors := by rw [h.run_eq]
  outputs _ ho := h.reads ho
  others _ hb := h.others hb

/-! ## Two calls -/

/-- Handles that take more than one half of a register. -/
def sampleKernel : SvcKernel := fun _ s => { s with x := fun r => 0x100000000#64 + r.setWidth 64 }

/-- A core whose registers hold addresses above its stack. -/
def sampleCore : Core where
  x r := 0x2000#64 + 8#64 * r.setWidth 64
  v _ := 0#128
  sp := 0x1000#64
  mem _ := 0#8

theorem session_callable : Svc.svcCreateSession.Callable sampleKernel sampleCore where
  room := by decide
  sp := rfl
  frame _ _ _ := rfl
  outputs := by decide
  stack := by decide

theorem svc_marshals_session : Svc.svcCreateSession.Marshals sampleKernel sampleCore :=
  svc_marshals session_callable

theorem info_callable : Svc.svcGetProcessInfo.Callable sampleKernel sampleCore where
  room := by decide
  sp := rfl
  frame _ _ _ := rfl
  outputs := List.pairwise_singleton _ _
  stack := by decide

/-! ## The declarations -/

/-- The type of an output parameter. `u64 n` is an array. -/
inductive OutType
  | u32
  | u64 (n : Nat)
deriving DecidableEq, Repr

/-- An output parameter, and the first of the registers that the kernel answers in. -/
structure Declared where
  argument : Reg
  type : OutType
  reg : Reg
deriving DecidableEq, Repr

/-- The value of the parameter. -/
def Declared.bytes (k : Core) (d : Declared) : List (BitVec 8) :=
  match d.type with
  | .u32 => bytesOf32 ((k.x d.reg).setWidth 32)
  | .u64 n => (List.range n).flatMap fun i => bytesOf (k.x (d.reg + BitVec.ofNat 5 i))

/-- The parameters of `svc.h` that the kernel does not write to itself. -/
def Svc.declared : Svc → List Declared
  | .svcSetHeapSize | .svcGetProcessId | .svcGetThreadId | .svcGetInfo
  | .svcGetResourceLimitLimitValue | .svcGetResourceLimitCurrentValue | .svcQueryIoMapping
  | .svcGetSystemInfo | .svcGetProcessInfo => [⟨0, .u64 1, 1⟩]
  | .svcQueryMemory | .svcQueryDebugProcessMemory | .svcQueryProcessMemory => [⟨1, .u32, 1⟩]
  | .svcCreateThread | .svcGetThreadPriority | .svcCreateTransferMemory
  | .svcWaitSynchronization | .svcConnectToNamedPort | .svcSendAsyncRequestWithUserBuffer
  | .svcAcceptSession | .svcReplyAndReceive | .svcReplyAndReceiveWithUserBuffer
  | .svcCreateCodeMemory | .svcReadWriteRegister | .svcCreateSharedMemory
  | .svcCreateInterruptEvent | .svcCreateDeviceAddressSpace | .svcDebugActiveProcess
  | .svcGetProcessList | .svcGetThreadList | .svcManageNamedPort | .svcConnectToPort
  | .svcCreateProcess | .svcCreateResourceLimit => [⟨0, .u32, 1⟩]
  | .svcGetThreadCoreMask | .svcCreateSession | .svcCreateEvent | .svcCreatePort =>
    [⟨0, .u32, 1⟩, ⟨1, .u32, 2⟩]
  | .svcQueryPhysicalAddress => [⟨0, .u64 3, 1⟩]
  | .svcGetDebugThreadParam => [⟨0, .u64 1, 1⟩, ⟨1, .u32, 2⟩]
  | .svcCallSecureMonitor => [⟨0, .u64 8, 0⟩]
  | _ => []

/-- The type of the C header that is as wide. -/
def Width.type : Width → OutType
  | .w => .u32
  | .x => .u64 1

/-- The parameters that a wrapper fills. -/
def Wrapper.filled : Wrapper → List Declared
  | .plain => []
  | .output saved width => [⟨saved, width.type, 1⟩]
  | .outputs first => [⟨0, first.type, 1⟩, ⟨1, .u32, 2⟩]
  | .words => [⟨0, .u64 3, 1⟩]
  | .secureMonitor => [⟨0, .u64 8, 0⟩]

theorem declared_eq {c : Svc} (h : c ≠ .svcGetProcessInfo) : c.declared = c.entry.1.filled := by
  cases c <;> first | rfl | exact absurd rfl h

section

variable {mem : Memory} {s k : Core} {argument reg : Reg}

theorem readsAs_width {width : Width}
    (h : ReadsAs mem (Output.addr s.x ⟨argument, 0, width, reg⟩)
      (Output.bytes k ⟨argument, 0, width, reg⟩)) :
    ReadsAs mem (s.x argument).toNat (Declared.bytes k ⟨argument, width.type, reg⟩) := by
  have hAddr : Output.addr s.x ⟨argument, 0, width, reg⟩ = (s.x argument).toNat :=
    congrArg BitVec.toNat (BitVec.add_zero _)
  rw [hAddr] at h
  cases width with
  | w => exact h
  | x =>
    have hBytes : Declared.bytes k ⟨argument, .u64 1, reg⟩ = bytesOf (k.x (reg + 0#5)) := by
      simp [Declared.bytes, List.range_succ]
    rw [Width.type, hBytes, BitVec.add_zero]
    exact h

theorem length_words (n : Nat) : (Declared.bytes k ⟨argument, .u64 n, reg⟩).length = 8 * n := by
  have hWord : ∀ i, (bytesOf (k.x (reg + BitVec.ofNat 5 i))).length = 8 := fun _ => rfl
  rw [Declared.bytes, length_flatMap_bytes hWord, List.length_range, Nat.mul_comm]

/-- Registers that are stored one behind the other are an array. -/
theorem readsAs_array {n : Nat} (hFits : (s.x argument).toNat + 8 * n ≤ 2 ^ 64)
    (h : ∀ o ∈ Output.array argument reg n, ReadsAs mem (o.addr s.x) (o.bytes k)) :
    ReadsAs mem (s.x argument).toNat (Declared.bytes k ⟨argument, .u64 n, reg⟩) := by
  induction n with
  | zero => rfl
  | succ n ih =>
    have hBytes : Declared.bytes k ⟨argument, .u64 (n + 1), reg⟩ =
        Declared.bytes k ⟨argument, .u64 n, reg⟩ ++ bytesOf (k.x (reg + BitVec.ofNat 5 n)) := by
      simp [Declared.bytes, List.range_succ]
    have hAddr : (s.x argument + BitVec.ofNat 64 (8 * n)).toNat = (s.x argument).toNat + 8 * n := by
      rw [BitVec.toNat_add, BitVec.toNat_ofNat]
      omega
    have hLast : ReadsAs mem ((s.x argument).toNat + 8 * n)
        (bytesOf (k.x (reg + BitVec.ofNat 5 n))) := by
      rw [← hAddr]
      exact h _ (List.mem_map_of_mem (List.mem_range.mpr (Nat.lt_succ_self n)))
    rw [hBytes]
    refine (ih (by omega) fun o ho => ?_).append (by rwa [length_words])
    obtain ⟨i, hi, rfl⟩ := List.mem_map.mp ho
    exact h _ (List.mem_map_of_mem (List.mem_range.mpr (Nat.lt_succ_of_lt (List.mem_range.mp hi))))

theorem readsAs_filled {w : Wrapper} {d : Declared} (hd : d ∈ w.filled)
    (hFits : (s.x d.argument).toNat + (d.bytes s).length ≤ 2 ^ 64)
    (h : ∀ o ∈ w.stored, ReadsAs mem (o.addr s.x) (o.bytes k)) :
    ReadsAs mem (s.x d.argument).toNat (d.bytes k) := by
  cases w with
  | plain => cases hd
  | output saved width =>
    obtain rfl := List.mem_singleton.mp hd
    exact readsAs_width (h _ (List.mem_singleton_self _))
  | outputs first =>
    rcases List.mem_cons.mp hd with rfl | hd
    · exact readsAs_width (h _ List.mem_cons_self)
    · obtain rfl := List.mem_singleton.mp hd
      have hSecond := h ⟨1, 0, .w, 2⟩ (List.mem_cons_of_mem _ (List.mem_singleton_self _))
      exact readsAs_width hSecond
  | words =>
    obtain rfl := List.mem_singleton.mp hd
    rw [length_words] at hFits
    exact readsAs_array hFits h
  | secureMonitor =>
    obtain rfl := List.mem_singleton.mp hd
    rw [length_words] at hFits
    exact readsAs_array hFits h

end

/-- The other half of the output is as it was. -/
theorem info_kept :
    ¬ ReadsAs (Svc.svcGetProcessInfo.run sampleKernel sampleCore).mem 0x2000
      (Declared.bytes (Svc.svcGetProcessInfo.answer sampleKernel sampleCore) ⟨0, .u64 1, 1⟩) := by
  rw [ReadsAs]
  decide

/-- **The declared outputs.** -/
theorem svc_declared_iff (c : Svc) :
    (∀ (K : SvcKernel) (s : Core), c.Callable K s →
      (∀ d ∈ c.declared, (s.x d.argument).toNat + (d.bytes s).length ≤ 2 ^ 64) →
      ∀ d ∈ c.declared,
        ReadsAs (c.run K s).mem (s.x d.argument).toNat (d.bytes (c.answer K s))) ↔
      c ≠ .svcGetProcessInfo := by
  constructor
  · rintro h rfl
    have hWhole := h sampleKernel sampleCore info_callable (by decide)
    exact info_kept (hWhole _ (List.mem_singleton_self _))
  · intro hOther K s hCallable hFits d hd
    have hFilled : d ∈ c.entry.1.filled := declared_eq hOther ▸ hd
    exact readsAs_filled hFilled (hFits d hd) fun _ ho => hCallable.reads ho

end Wondar.Sys
