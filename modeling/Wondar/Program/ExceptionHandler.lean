import Mathlib.Tactic.IntervalCases
import Wondar.A64.Machine
import Wondar.Setting

/-!
# The exception handler

A fault is handled in four phases, the first of which runs twice. The kernel delivers the
fault to `phaseOneHandler` with a part of the registers, which saves them in the global
`exceptionInfo` and redirects the thread to `phaseTwoHandler`; that saves the other registers,
`phaseThreeHandler` asks a catch frame or the installed handler what to do, and
`phaseFourHandler` restores the registers it saved and traps back into `phaseOneHandler`,
which returns to the kernel with the rest.

`handleException` is the whole way of one thread. With no catch frame and an installed handler
that asks to continue, the handler is given the registers of the fault and the thread is resumed
with the registers the handler left (`handleException_exact`).
-/

namespace Wondar.Handler

open A64

/-! ## Records -/

inductive ExceptionType
  | init
  | instructionAbort
  | dataAbort
  | unalignedInstruction
  | unalignedData
  | undefinedInstruction
  | exceptionInstruction
  | memorySystemError
  | fpuException
  | invalidSystemCall
  | systemCallBreak
  | atmosphereStdAbort
deriving DecidableEq, Repr

inductive ExceptionState
  | firstChance
  | secondChance
  | continue
  | exit
deriving DecidableEq, Repr

structure ExceptionInfo where
  r : Fin 29 → BitVec 64
  fp : BitVec 64
  lr : BitVec 64
  sp : BitVec 64
  pc : BitVec 64
  pstate : BitVec 32
  afsr0 : BitVec 32
  afsr1 : BitVec 32
  esr : BitVec 32
  far : BitVec 64
  type : ExceptionType
  exceptionState : ExceptionState

/-- What the kernel passes to `phaseOneHandler` and takes back from it. -/
structure KernelExceptionInfo where
  r : Fin 9 → BitVec 64
  lr : BitVec 64
  sp : BitVec 64
  pc : BitVec 64
  pstate : BitVec 32
  afsr0 : BitVec 32
  afsr1 : BitVec 32
  esr : BitVec 32
  far : BitVec 64

/-- `CatchFunc`, with the changes it makes to the record. -/
abbrev CatchFunc := ExceptionInfo → Bool × ExceptionInfo

structure CatchStackFrame where
  sp : BitVec 64
  fp : BitVec 64
  lr : BitVec 64
  pc : BitVec 64
  /-- `none` for an empty function. -/
  catchFunc : Option CatchFunc

/-- What is installed, and the catch frames of the thread, the innermost first. -/
structure Handlers where
  handlerFunc : Option CatchFunc
  catchStack : List CatchStackFrame

/-- The addresses that `phaseOneHandler` puts into registers. -/
structure Layout where
  exceptionInfo : Addr
  phaseTwoHandler : Addr
  handlerStackEnd : Addr

/-! ## Phase one -/

/-- A return to the kernel: the record it resumes from, `exceptionInfo`, and the argument of
`svcReturnFromException`. -/
structure Return where
  info : KernelExceptionInfo
  exceptionInfo : ExceptionInfo
  result : Result

/-- `r[i]`, for the registers that the kernel passes. -/
def ExceptionInfo.low (e : ExceptionInfo) (i : Fin 9) : BitVec 64 := e.r (i.castLE (by decide))

/-- Caused by phase four: jump to the restore and return. -/
def trapReturn (e : ExceptionInfo) : Return where
  info :=
    { r := e.low
      lr := e.lr
      sp := e.sp
      pc := e.pc
      pstate := e.pstate
      afsr0 := e.afsr0
      afsr1 := e.afsr1
      esr := e.esr
      far := e.far }
  exceptionInfo := { e with exceptionState := .firstChance }
  result := if e.exceptionState = .exit then 1#32 else 0#32

/-- Caused by a fault: save what the kernel passed, and redirect to phase two. -/
def faultReturn (layout : Layout) (exceptionType : ExceptionType) (info : KernelExceptionInfo)
    (e : ExceptionInfo) : Return where
  info :=
    { info with
      pc := layout.phaseTwoHandler
      sp := layout.handlerStackEnd
      r := Function.update info.r 0 layout.exceptionInfo }
  exceptionInfo :=
    { e with
      exceptionState := .secondChance
      r := fun i => if h : i.val < 9 then info.r ⟨i, h⟩ else e.r i
      lr := info.lr
      sp := info.sp
      pc := info.pc
      pstate := info.pstate
      afsr0 := info.afsr0
      afsr1 := info.afsr1
      esr := info.esr
      far := info.far
      type := exceptionType }
  result := Results.success

/-- `phaseOneHandler`. -/
def phaseOneHandler (layout : Layout) (exceptionType : ExceptionType) (info : KernelExceptionInfo)
    (e : ExceptionInfo) : Return :=
  if exceptionType = .invalidSystemCall ∧ info.esr &&& 0xffff#32 = 0xbeef#32 then trapReturn e
  else if e.exceptionState = .secondChance then
    { info := info, exceptionInfo := e, result := 1#32 }
  else faultReturn layout exceptionType info e

/-- The trap of phase four, and no fault. -/
def IsTrap (exceptionType : ExceptionType) (esr : BitVec 32) : Prop :=
  exceptionType = .invalidSystemCall ∧ esr &&& 0xffff#32 = 0xbeef#32

instance (exceptionType : ExceptionType) (esr : BitVec 32) : Decidable (IsTrap exceptionType esr) :=
  inferInstanceAs (Decidable (_ ∧ _))

/-! ## Phases two and four -/

/-- A store to the record at a byte offset: the registers lie in order from its start. -/
def ExceptionInfo.store (e : ExceptionInfo) (off : Nat) (val : BitVec 64) : ExceptionInfo :=
  if h : off / 8 < 29 then { e with r := Function.update e.r ⟨off / 8, h⟩ val }
  else if off / 8 = 29 then { e with fp := val }
  else if off / 8 = 30 then { e with lr := val }
  else if off / 8 = 31 then { e with sp := val }
  else if off / 8 = 32 then { e with pc := val }
  else e

def ExceptionInfo.load (e : ExceptionInfo) (off : Nat) : BitVec 64 :=
  if h : off / 8 < 29 then e.r ⟨off / 8, h⟩
  else if off / 8 = 29 then e.fp
  else if off / 8 = 30 then e.lr
  else if off / 8 = 31 then e.sp
  else e.pc

/-- The pairs and offsets that both assembly stubs list. -/
def savedPairs : List (Reg × Reg × Nat) :=
  [(9, 10, 0x48), (11, 12, 0x58), (13, 14, 0x68), (15, 16, 0x78), (17, 18, 0x88),
    (19, 20, 0x98), (21, 22, 0xA8), (23, 24, 0xB8), (25, 26, 0xC8), (27, 28, 0xD8)]

/-- `phaseTwoHandler`: store registers into exception info. -/
def phaseTwoHandler (x : Reg → BitVec 64) (e : ExceptionInfo) : ExceptionInfo :=
  (savedPairs.foldl (fun e (rt, rt2, off) => (e.store off (x rt)).store (off + 8) (x rt2)) e).store
    0xE8 (x 29)

/-- `phaseFourHandler`: restore, up to the trap. -/
def phaseFourHandler (e : ExceptionInfo) (x : Reg → BitVec 64) : Reg → BitVec 64 :=
  Function.update
    (savedPairs.foldl (fun x (rt, rt2, off) =>
      Function.update (Function.update x rt (e.load off)) rt2 (e.load (off + 8))) x)
    29 (e.load 0xE8)

/-! ## Phase three -/

inductive CatchAction
  | skip
  | continue
  | exit
deriving DecidableEq, Repr

/-- `tryCallCatch`. The catch function sees a copy of the record; the copy of the saved
registers goes behind the frame, not into the record. -/
def tryCallCatch (catchStack : List CatchStackFrame) (info : ExceptionInfo) :
    CatchAction × ExceptionInfo :=
  match catchStack with
  | [] => (.skip, info)
  | frame :: _ =>
    let caught := match frame.catchFunc with
      | none => true
      | some catchFunc => (catchFunc info).1
    if caught then
      (.continue, { info with sp := frame.sp, fp := frame.fp, lr := frame.lr, pc := frame.pc })
    else (.exit, info)

/-- `phaseThreeHandler`. -/
def phaseThreeHandler (h : Handlers) (info : ExceptionInfo) : ExceptionInfo :=
  match tryCallCatch h.catchStack info with
  | (.skip, info) =>
    let (continueRunning, info) := match h.handlerFunc with
      | some handlerFunc => handlerFunc info
      | none => (false, info)
    { info with exceptionState := if continueRunning then .continue else .exit }
  | (action, info) =>
    { info with exceptionState := if action = .continue then .continue else .exit }

/-! ## A fault -/

/-- The registers of a thread. -/
structure Thread where
  x : Reg → BitVec 64
  sp : BitVec 64
  pc : BitVec 64
  pstate : BitVec 32

/-- The registers that describe a fault. -/
structure Syndrome where
  afsr0 : BitVec 32
  afsr1 : BitVec 32
  esr : BitVec 32
  far : BitVec 64

/-- What the kernel delivers. -/
def Thread.deliver (t : Thread) (s : Syndrome) : KernelExceptionInfo where
  r i := t.x (BitVec.ofNat 5 i)
  lr := t.x 30
  sp := t.sp
  pc := t.pc
  pstate := t.pstate
  afsr0 := s.afsr0
  afsr1 := s.afsr1
  esr := s.esr
  far := s.far

/-- The kernel resumes a thread: it sets the registers of the record, and leaves the others. -/
def Thread.resume (t : Thread) (info : KernelExceptionInfo) : Thread where
  x r := if h : r.toNat < 9 then info.r ⟨r.toNat, h⟩ else if r = 30 then info.lr else t.x r
  sp := info.sp
  pc := info.pc
  pstate := info.pstate

/-- The registers of the record. -/
def ExceptionInfo.thread (e : ExceptionInfo) : Thread where
  x r := if h : r.toNat < 29 then e.r ⟨r.toNat, h⟩ else if r = 29 then e.fp else e.lr
  sp := e.sp
  pc := e.pc
  pstate := e.pstate

/-- The way of a faulting thread through the phases; `none` when the process is terminated.
`scratch` is what phase three leaves in the registers, and `trap` the syndrome of the trap of
phase four. -/
def handleException (layout : Layout) (h : Handlers) (exceptionType : ExceptionType)
    (syndrome trap : Syndrome) (scratch t : Thread) (e : ExceptionInfo) :
    Option (Thread × ExceptionInfo) :=
  let one := phaseOneHandler layout exceptionType (t.deliver syndrome) e
  if one.result ≠ 0#32 then none
  else
    let two := phaseTwoHandler (t.resume one.info).x one.exceptionInfo
    let three := phaseThreeHandler h two
    let four := { scratch with x := phaseFourHandler three scratch.x }
    let back := phaseOneHandler layout .invalidSystemCall (four.deliver trap) three
    if back.result ≠ 0#32 then none else some (four.resume back.info, back.exceptionInfo)

/-! ## Continuing -/

theorem phaseFourHandler_x (e : ExceptionInfo) (x : Reg → BitVec 64) (r : Reg)
    (h : 9 ≤ r.toNat ∧ r.toNat < 30) : phaseFourHandler e x r = e.thread.x r := by
  obtain ⟨⟨n, hn⟩⟩ := r
  obtain ⟨hLow, hHigh⟩ := h
  change 9 ≤ n at hLow
  change n < 30 at hHigh
  interval_cases n <;> rfl

/-- The registers that a thread has. -/
def Thread.Same (t t' : Thread) : Prop :=
  (∀ r : Reg, r ≠ 31#5 → t.x r = t'.x r) ∧ t.sp = t'.sp ∧ t.pc = t'.pc ∧ t.pstate = t'.pstate

section

variable {layout : Layout} {h : Handlers} {exceptionType : ExceptionType}
  {syndrome trap : Syndrome} {scratch t : Thread} {e : ExceptionInfo}

theorem phaseOneHandler_fault {info : KernelExceptionInfo}
    (hFault : ¬ IsTrap exceptionType info.esr) (hFirst : e.exceptionState ≠ .secondChance) :
    phaseOneHandler layout exceptionType info e = faultReturn layout exceptionType info e := by
  rw [phaseOneHandler]
  exact (if_neg hFault).trans (if_neg hFirst)

theorem phaseOneHandler_trap {info : KernelExceptionInfo}
    (hTrap : info.esr &&& 0xffff#32 = 0xbeef#32) :
    phaseOneHandler layout .invalidSystemCall info e = trapReturn e :=
  if_pos ⟨rfl, hTrap⟩

/-- The record after phase two. -/
def savedInfo (layout : Layout) (exceptionType : ExceptionType) (syndrome : Syndrome) (t : Thread)
    (e : ExceptionInfo) : ExceptionInfo :=
  let one := faultReturn layout exceptionType (t.deliver syndrome) e
  phaseTwoHandler (t.resume one.info).x one.exceptionInfo

variable (layout exceptionType syndrome t e) in
/-- The record holds the registers of the fault. -/
theorem savedInfo_same : (savedInfo layout exceptionType syndrome t e).thread.Same t := by
  refine ⟨fun r hr => ?_, rfl, rfl, rfl⟩
  obtain ⟨⟨n, hn⟩⟩ := r
  have hLt : n < 31 := by
    have : n ≠ 31 := by
      rintro rfl
      exact hr rfl
    omega
  interval_cases n <;> rfl

/-- The thread is resumed with the registers of the record. -/
theorem resume_same (scratch : Thread) (e : ExceptionInfo) :
    (({ scratch with x := phaseFourHandler e scratch.x } : Thread).resume
      (trapReturn e).info).Same e.thread := by
  refine ⟨fun r hr => ?_, rfl, rfl, rfl⟩
  by_cases hLow : r.toNat < 9
  · simp only [Thread.resume, dif_pos hLow, trapReturn, ExceptionInfo.low, ExceptionInfo.thread,
      dif_pos (show r.toNat < 29 by omega)]
    rfl
  · by_cases hLast : r = 30
    · subst hLast
      rfl
    · have hHigh : r.toNat < 30 := by bv_omega
      rw [← phaseFourHandler_x e scratch.x r ⟨by omega, hHigh⟩]
      simp only [Thread.resume, dif_neg hLow, if_neg hLast]

variable (layout syndrome scratch t) in
/-- Where phase three decides to continue, a fault is answered by resuming the thread with the
registers of the record, and the record takes the next fault. -/
theorem handleException_decided (hFault : ¬ IsTrap exceptionType syndrome.esr)
    (hFirst : e.exceptionState ≠ .secondChance) (hTrap : IsTrap .invalidSystemCall trap.esr)
    {three : ExceptionInfo}
    (hThree : phaseThreeHandler h (savedInfo layout exceptionType syndrome t e) = three)
    (hState : three.exceptionState = .continue) :
    ∃ t' e', handleException layout h exceptionType syndrome trap scratch t e = some (t', e') ∧
      t'.Same three.thread ∧ e'.exceptionState = .firstChance := by
  have hOne : phaseOneHandler layout exceptionType (t.deliver syndrome) e =
      faultReturn layout exceptionType (t.deliver syndrome) e :=
    phaseOneHandler_fault hFault hFirst
  refine ⟨_, (trapReturn three).exceptionInfo, ?_, resume_same scratch three, rfl⟩
  unfold savedInfo at hThree
  simp only [handleException, hOne, hThree]
  rw [if_neg (by simp [faultReturn, Results.success, makeResult]), phaseOneHandler_trap hTrap.2,
    if_neg (by simp [trapReturn, hState])]

variable (layout syndrome scratch t) in
/-- With no catch frame, and an installed handler that asks to continue, the thread is resumed
with the registers the handler left. -/
theorem handleException_resumes {handlerFunc : CatchFunc} (hStack : h.catchStack = [])
    (hFunc : h.handlerFunc = some handlerFunc) (hFault : ¬ IsTrap exceptionType syndrome.esr)
    (hFirst : e.exceptionState ≠ .secondChance) (hTrap : IsTrap .invalidSystemCall trap.esr)
    (hContinue : (handlerFunc (savedInfo layout exceptionType syndrome t e)).1 = true) :
    ∃ t' e', handleException layout h exceptionType syndrome trap scratch t e = some (t', e') ∧
      t'.Same (handlerFunc (savedInfo layout exceptionType syndrome t e)).2.thread ∧
      e'.exceptionState = .firstChance := by
  obtain ⟨three, hThree, hThread, hState⟩ : ∃ three,
      phaseThreeHandler h (savedInfo layout exceptionType syndrome t e) = three ∧
      three.thread = (handlerFunc (savedInfo layout exceptionType syndrome t e)).2.thread ∧
      three.exceptionState = .continue := by
    simp only [phaseThreeHandler, tryCallCatch, hStack, hFunc, hContinue, if_true]
    exact ⟨_, rfl, rfl, rfl⟩
  rw [← hThread]
  exact handleException_decided layout syndrome scratch t hFault hFirst hTrap hThree hState

variable (layout syndrome scratch t) in
theorem handleException_continues {handlerFunc : CatchFunc} (hStack : h.catchStack = [])
    (hFunc : h.handlerFunc = some handlerFunc) (hType : exceptionType ≠ .invalidSystemCall)
    (hFirst : e.exceptionState ≠ .secondChance) (hTrap : trap.esr &&& 0xffff#32 = 0xbeef#32)
    (hContinue : (handlerFunc (savedInfo layout exceptionType syndrome t e)).1 = true) :
    ∃ t' e', handleException layout h exceptionType syndrome trap scratch t e = some (t', e') ∧
      t'.Same (handlerFunc (savedInfo layout exceptionType syndrome t e)).2.thread ∧
      e'.exceptionState = .firstChance :=
  handleException_resumes layout syndrome scratch t hStack hFunc (fun hFault => hType hFault.1)
    hFirst ⟨rfl, hTrap⟩ hContinue

variable (layout exceptionType syndrome trap scratch t e) in
/-- The round trip. There is one record that holds the registers of the fault, such that every
handler that asks to continue is called with it, and the thread goes on with the registers that
the handler made of it. -/
theorem handleException_exact (hFault : ¬ IsTrap exceptionType syndrome.esr)
    (hFirst : e.exceptionState ≠ .secondChance) (hTrap : IsTrap .invalidSystemCall trap.esr) :
    ∃ info : ExceptionInfo, info.thread.Same t ∧
      ∀ handlerFunc : CatchFunc, (handlerFunc info).1 = true →
        ∃ t' e', handleException layout ⟨some handlerFunc, []⟩ exceptionType syndrome trap
            scratch t e = some (t', e') ∧
          t'.Same (handlerFunc info).2.thread ∧ e'.exceptionState = .firstChance := by
  refine ⟨savedInfo layout exceptionType syndrome t e,
    savedInfo_same layout exceptionType syndrome t e, fun handlerFunc hContinue => ?_⟩
  exact handleException_resumes layout syndrome scratch t rfl rfl hFault hFirst hTrap hContinue

end

/-! ## An illegal instruction that is skipped -/

def sampleThread : Thread where
  x r := r.zeroExtend 64
  sp := 0x7000#64
  pc := 0x1000#64
  pstate := 0#32

def sampleInfo : ExceptionInfo where
  r _ := 0#64
  fp := 0#64
  lr := 0#64
  sp := 0#64
  pc := 0#64
  pstate := 0#32
  afsr0 := 0#32
  afsr1 := 0#32
  esr := 0#32
  far := 0#64
  type := .init
  exceptionState := .firstChance

/-- Go on behind the instruction, with another value in X20. -/
def skipInstruction : CatchFunc := fun info =>
  (true, { info with pc := info.pc + 4#64, r := Function.update info.r 20 7#64 })

theorem handleException_exact_skip :
    ∃ info : ExceptionInfo, info.thread.Same sampleThread ∧
      ∃ t' e', handleException ⟨0x10#64, 0x20#64, 0x30#64⟩ ⟨some skipInstruction, []⟩
          .undefinedInstruction ⟨0#32, 0#32, 0x2000000#32, 0#64⟩ ⟨0#32, 0#32, 0x5600beef#32, 0#64⟩
          sampleThread sampleThread sampleInfo = some (t', e') ∧
        t'.Same (skipInstruction info).2.thread ∧ e'.exceptionState = .firstChance := by
  obtain ⟨info, hSaved, hRun⟩ := handleException_exact ⟨0x10#64, 0x20#64, 0x30#64⟩
    .undefinedInstruction ⟨0#32, 0#32, 0x2000000#32, 0#64⟩ ⟨0#32, 0#32, 0x5600beef#32, 0#64⟩
    sampleThread sampleThread sampleInfo (by decide) (by decide) (by decide)
  exact ⟨info, hSaved, hRun skipInstruction rfl⟩

end Wondar.Handler
