import Wondar.Setting
import Wondar.Sys.Svc

/-!
# Secure monitor calls

The functions of `smc.c` put the number of a call and its arguments into a `SecmonArgs` on the stack
and go through `svcCallSecureMonitor`, which returns `x0` as the secure monitor has left it.

* `callSecureMonitor_eq`: the wrapper replaces the arguments by the answer.
* `smc_results`: a call succeeds if and only if `x0` is 0 then. The function has looked at the low
  half of it before, as if it were the result of the system call: where that is not 0, it is what
  the function returns, and an SPL result is only made of a low half that is 0.
* `initSocType_eq`: which answers tell the SoC; the hardware type is stored as a doubleword, over
  the four bytes behind its variable too.
-/

namespace Wondar.Sys

open Blocks Packing Updates
open PushPop (Core Reg)

/-! ## `svcCallSecureMonitor` -/

abbrev SecmonArgs := Fin 8 → BitVec 64

namespace SecmonArgs

/-- The place of `X[i]`. -/
def place (a : BitVec 64) (i : Fin 8) : Nat := (a + BitVec.ofNat 64 (8 * i.val)).toNat

def copies (args : SecmonArgs) (a : BitVec 64) : List (Nat × List (BitVec 8)) :=
  (List.finRange 8).map fun i => (place a i, bytesOf (args i))

def bytes (args : SecmonArgs) : List (BitVec 8) :=
  (List.finRange 8).flatMap fun i => bytesOf (args i)

def load (mem : Memory) (a : BitVec 64) : SecmonArgs := fun i => load64 mem (place a i)

theorem length_bytes (args : SecmonArgs) : args.bytes.length = 64 := by
  have hWord : ∀ i, (bytesOf (args i)).length = 8 := fun _ => rfl
  rw [bytes, length_flatMap_bytes hWord, List.length_finRange]

end SecmonArgs

/-- `svcCallSecureMonitor(&args)`, where `s` is ready for the call: `args` is at `x0`. -/
def callSecureMonitor (K : SvcKernel) (s : Core) (args : SecmonArgs) : Core :=
  Svc.svcCallSecureMonitor.run K { s with mem := copyAll s.mem (args.copies (s.x 0)) }

/-- The secure monitor answers in the registers of its arguments, and the kernel leaves the stack
alone. -/
structure Answers (K : SvcKernel) (monitor : SecmonArgs → SecmonArgs) : Prop where
  x : ∀ (s : Core) (i : Fin 8), (K 0x7f s).x (BitVec.ofNat 5 i.val) =
    monitor (fun j => s.x (BitVec.ofNat 5 j.val)) i
  sp : ∀ s, (K 0x7f s).sp = s.sp
  frame : ∀ s b, s.sp.toNat ≤ b → b < s.sp.toNat + 16 → (K 0x7f s).mem b = s.mem b

/-- `args` lies above the stack pointer. -/
structure Layout (s : Core) : Prop where
  room : 16 ≤ s.sp.toNat
  above : s.sp.toNat ≤ (s.x 0).toNat
  fits : (s.x 0).toNat + 64 ≤ 2 ^ 64

section

variable {K : SvcKernel} {monitor : SecmonArgs → SecmonArgs} {s : Core} {args : SecmonArgs}

theorem place_eq (hFits : (s.x 0).toNat + 64 ≤ 2 ^ 64) (i : Fin 8) :
    SecmonArgs.place (s.x 0) i = (s.x 0).toNat + 8 * i.val := by
  have hi := i.isLt
  rw [SecmonArgs.place, BitVec.toNat_add, BitVec.toNat_ofNat]
  omega

theorem load_copies (hFits : (s.x 0).toNat + 64 ≤ 2 ^ 64) :
    SecmonArgs.load (copyAll s.mem (args.copies (s.x 0))) (s.x 0) = args := by
  funext i
  have hApart : (args.copies (s.x 0)).Pairwise
      fun copy copy' => Block.Apart ⟨copy.1, copy.2.length⟩ ⟨copy'.1, copy'.2.length⟩ := by
    refine List.pairwise_map.mpr ((List.nodup_finRange 8).imp fun {i j} hne => ?_)
    rw [place_eq hFits, place_eq hFits]
    have hVal : i.val ≠ j.val := fun h => hne (Fin.ext h)
    have hLength : ∀ val : BitVec 64, (bytesOf val).length = 8 := fun _ => rfl
    simp only [Block.Apart, hLength]
    omega
  have hReads := @read_copyAll_mem _ s.mem _ hApart _ (List.mem_map_of_mem (List.mem_finRange i))
  rw [SecmonArgs.load, load64]
  exact (congrArg ofBytes hReads).trans (ofBytes_bytesOf _)

theorem Layout.callable (hLayout : Layout s) (hK : Answers K monitor) :
    Svc.svcCallSecureMonitor.Callable K s := by
  have hRoom := hLayout.room
  have hAbove := hLayout.above
  have hFits := hLayout.fits
  have hSp : (Svc.svcCallSecureMonitor.enter s).sp.toNat = s.sp.toNat - 16 := by
    rw [Svc.enter, before_sp]
    exact (show (s.sp - 16#64).toNat = s.sp.toNat - 16 by bv_omega)
  have hAddr : ∀ i < 8, Output.addr s.x ⟨0, 8 * i, .x, 0 + BitVec.ofNat 5 i⟩ =
      (s.x 0).toNat + 8 * i := by
    intro i hi
    rw [Output.addr, BitVec.toNat_add, BitVec.toNat_ofNat]
    dsimp only
    omega
  refine ⟨hRoom, hK.sp _, fun b hLow hHigh => hK.frame _ b (by omega) (by omega), ?_, ?_⟩
  · refine List.pairwise_map.mpr (List.nodup_range.imp_of_mem fun {i j} hi hj hne => ?_)
    rw [hAddr i (List.mem_range.mp hi), hAddr j (List.mem_range.mp hj)]
    simp only [Block.Apart, Width.size]
    omega
  · intro o ho
    obtain ⟨i, hi, rfl⟩ := List.mem_map.mp ho
    rw [hAddr i (List.mem_range.mp hi)]
    simp only [Block.Apart, Width.size]
    omega

theorem answer_secureMonitor (K : SvcKernel) (s : Core) :
    Svc.svcCallSecureMonitor.answer K s = K 0x7f (Svc.svcCallSecureMonitor.enter s) := rfl

theorem enter_secureMonitor (hRoom : 16 ≤ s.sp.toNat)
    (hCallable : Svc.svcCallSecureMonitor.Callable K s) (i : Fin 8) :
    (Svc.svcCallSecureMonitor.enter s).x (BitVec.ofNat 5 i.val) =
      SecmonArgs.load s.mem (s.x 0) i := by
  have hi := i.isLt
  have hReg : (BitVec.ofNat 5 i.val).toNat = i.val := by
    rw [BitVec.toNat_ofNat]
    omega
  have hArgument : Wrapper.argument s (BitVec.ofNat 5 i.val) .secureMonitor =
      SecmonArgs.load s.mem (s.x 0) i := by
    rw [Wrapper.argument, if_pos (by omega), hReg]
    rfl
  rw [← hArgument]
  exact before_argument .secureMonitor hRoom hCallable.stack _

/-- What the wrapper has loaded and stored. -/
theorem run_secureMonitor (hK : Answers K monitor) (hLayout : Layout s) :
    (Svc.svcCallSecureMonitor.run K s).x 0 = monitor (SecmonArgs.load s.mem (s.x 0)) 0 ∧
      ReadsAs (Svc.svcCallSecureMonitor.run K s).mem (s.x 0).toNat
        (SecmonArgs.bytes (monitor (SecmonArgs.load s.mem (s.x 0)))) := by
  have hCallable := hLayout.callable hK
  have hArguments : (fun j : Fin 8 => (Svc.svcCallSecureMonitor.enter s).x (BitVec.ofNat 5 j.val)) =
      SecmonArgs.load s.mem (s.x 0) := funext (enter_secureMonitor hLayout.room hCallable)
  have hAnswer : ∀ i : Fin 8, (Svc.svcCallSecureMonitor.answer K s).x (BitVec.ofNat 5 i.val) =
      monitor (SecmonArgs.load s.mem (s.x 0)) i := by
    intro i
    rw [answer_secureMonitor, hK.x, hArguments]
  constructor
  · rw [← hAnswer 0, hCallable.run_eq]
    exact @registers_eq .secureMonitor _ 0 (by decide)
  · have hArray := @readsAs_array _ s (Svc.svcCallSecureMonitor.answer K s) 0 0 8 hLayout.fits
      fun o ho => hCallable.reads ho
    have hBytes : Declared.bytes (Svc.svcCallSecureMonitor.answer K s) ⟨0, .u64 8, 0⟩ =
        SecmonArgs.bytes (monitor (SecmonArgs.load s.mem (s.x 0))) := by
      simp only [SecmonArgs.bytes, ← hAnswer]
      rfl
    rw [hBytes] at hArray
    exact hArray

/-- The arguments go to the secure monitor, and the answer comes back in their place. -/
theorem callSecureMonitor_eq (hK : Answers K monitor) (hLayout : Layout s) (args : SecmonArgs) :
    (callSecureMonitor K s args).x 0 = monitor args 0 ∧
      ReadsAs (callSecureMonitor K s args).mem (s.x 0).toNat (SecmonArgs.bytes (monitor args)) := by
  have hLayout' : Layout { s with mem := copyAll s.mem (args.copies (s.x 0)) } :=
    ⟨hLayout.room, hLayout.above, hLayout.fits⟩
  have hRun := run_secureMonitor hK hLayout'
  rw [load_copies hLayout.fits] at hRun
  exact hRun

theorem load_callSecureMonitor (hK : Answers K monitor) (hLayout : Layout s) (args : SecmonArgs) :
    SecmonArgs.load (callSecureMonitor K s args).mem (s.x 0) = monitor args := by
  funext i
  have hSize : ∀ i, (bytesOf (monitor args i)).length = 8 := fun _ => rfl
  have hIndex : (List.finRange 8)[i.val]? = some i := by simp
  have hElement := (callSecureMonitor_eq hK hLayout args).2.element hSize hIndex
  rw [SecmonArgs.load, load64, place_eq hLayout.fits, hElement, ofBytes_bytesOf]

end

/-! ## `smc.c` -/

/-- The first elements are assigned. The others are what the stack held. -/
def SecmonArgs.assign (stack : SecmonArgs) (xs : List (BitVec 64)) : SecmonArgs :=
  fun i => xs.getD i.val (stack i)

/-- The functions that return a result, with their arguments. -/
inductive SmcFunction
  | getConfig (configItem : BitVec 32)
  | copyToIram (iramAddr srcAddr : BitVec 64) (size : BitVec 32)
  | copyFromIram (dstAddr iramAddr : BitVec 64) (size : BitVec 32)
  | readWriteRegister (physAddr value mask : BitVec 32)
  | generateRandomBytes (size : BitVec 32)
  | generateRandomU64
deriving DecidableEq, Repr

/-- The arguments of the call that a function makes. -/
def SmcFunction.args (stack : SecmonArgs) : SmcFunction → SecmonArgs
  | .getConfig configItem => stack.assign [0xC3000002#64, configItem.setWidth 64]
  | .copyToIram iramAddr srcAddr size =>
    stack.assign [0xF0000201#64, srcAddr, iramAddr, size.setWidth 64, 1#64]
  | .copyFromIram dstAddr iramAddr size =>
    stack.assign [0xF0000201#64, dstAddr, iramAddr, size.setWidth 64, 0#64]
  | .readWriteRegister physAddr value mask =>
    stack.assign [0xF0000002#64, physAddr.setWidth 64, mask.setWidth 64, value.setWidth 64]
  | .generateRandomBytes size => stack.assign [0xC3000006#64, size.setWidth 64]
  | .generateRandomU64 => stack.assign [0xC3000006#64, 8#64]

/-- "SPL result n = SMC result n". -/
def splResult (x0 : BitVec 64) : Result := 26#32 ||| (x0.setWidth 32 <<< 9)

section

variable (K : SvcKernel) (s : Core) (stack : SecmonArgs)

/-- With the memory then. `out_config` may be null. -/
def smcGetConfig (configItem : BitVec 32) (outConfig : BitVec 64) : Result × Memory :=
  let t := callSecureMonitor K s ((SmcFunction.getConfig configItem).args stack)
  let args := SecmonArgs.load t.mem (s.x 0)
  let rc : Result := (t.x 0).setWidth 32
  if rc = 0#32 then
    if args 0 = 0#64 then
      if outConfig ≠ 0#64 then (rc, store64 t.mem outConfig.toNat (args 1)) else (rc, t.mem)
    else (splResult (args 0), t.mem)
  else (rc, t.mem)

/-- A call of which the functions only look at `X[0]`, and where it returns. -/
def smcCall (args : SecmonArgs) : Result × Core :=
  let t := callSecureMonitor K s args
  let args := SecmonArgs.load t.mem (s.x 0)
  let rc : Result := (t.x 0).setWidth 32
  if rc = 0#32 then if args 0 ≠ 0#64 then (splResult (args 0), t) else (rc, t) else (rc, t)

def smcCopyToIram (iramAddr srcAddr : BitVec 64) (size : BitVec 32) : Result :=
  (smcCall K s ((SmcFunction.copyToIram iramAddr srcAddr size).args stack)).1

def smcCopyFromIram (dstAddr iramAddr : BitVec 64) (size : BitVec 32) : Result :=
  (smcCall K s ((SmcFunction.copyFromIram dstAddr iramAddr size).args stack)).1

def smcReadWriteRegister (physAddr value mask : BitVec 32) : Result :=
  (smcCall K s ((SmcFunction.readWriteRegister physAddr value mask).args stack)).1

/-- With what is copied to `dst`. -/
def smcGenerateRandomBytes (size : BitVec 32) : Result × Option (List (BitVec 8)) :=
  let (rc, t) := smcCall K s ((SmcFunction.generateRandomBytes size).args stack)
  if rc = 0#32 then (rc, some (read t.mem (SecmonArgs.place (s.x 0) 1) size.toNat)) else (rc, none)

def smcGenerateRandomU64 : Result × Option (BitVec 64) :=
  let (rc, random) := smcGenerateRandomBytes K s stack 8#32
  if rFailed rc then (rc, none) else (0#32, random.map ofBytes)

end

/-! ## Results -/

/-- What a function makes of the answer. -/
def smcResult (x0 : BitVec 64) : Result :=
  if x0.setWidth 32 ≠ 0#32 then x0.setWidth 32 else if x0 = 0#64 then 0#32 else 26#32

/-- The result `rc` for the answer `x0`. -/
structure ResultOf (x0 : BitVec 64) (rc : Result) : Prop where
  success : rc = 0#32 ↔ x0 = 0#64
  raw : x0.setWidth 32 ≠ 0#32 → rc = x0.setWidth 32
  spl : x0.setWidth 32 = 0#32 → x0 ≠ 0#64 → rc = 26#32

theorem resultOf_smcResult (x0 : BitVec 64) : ResultOf x0 (smcResult x0) := by
  by_cases hLow : x0.setWidth 32 = 0#32
  · by_cases hZero : x0 = 0#64
    · subst hZero
      exact ⟨by decide, fun h => absurd rfl h, fun _ h => absurd rfl h⟩
    · have hResult : smcResult x0 = 26#32 := by
        rw [smcResult, if_neg (not_not.mpr hLow), if_neg hZero]
      rw [hResult]
      exact ⟨iff_of_false (by decide) hZero, fun h => absurd hLow h, fun _ _ => rfl⟩
  · have hResult : smcResult x0 = x0.setWidth 32 := if_pos hLow
    rw [hResult]
    refine ⟨iff_of_false hLow ?_, fun _ => rfl, fun h => absurd h hLow⟩
    rintro rfl
    exact hLow rfl

theorem splResult_eq {x0 : BitVec 64} (h : x0.setWidth 32 = 0#32) : splResult x0 = 26#32 := by
  rw [splResult, h]
  decide

section

variable {K : SvcKernel} {monitor : SecmonArgs → SecmonArgs} {s : Core}

theorem smcCall_eq (hK : Answers K monitor) (hLayout : Layout s) (args : SecmonArgs) :
    smcCall K s args = (smcResult (monitor args 0), callSecureMonitor K s args) := by
  have hResult := (callSecureMonitor_eq hK hLayout args).1
  have hArgs := load_callSecureMonitor hK hLayout args
  simp only [smcCall, hResult, hArgs, smcResult]
  by_cases hLow : (monitor args 0).setWidth 32 = 0#32
  · rw [if_pos hLow, if_neg (not_not.mpr hLow)]
    by_cases hZero : monitor args 0 = 0#64
    · rw [if_neg (not_not.mpr hZero), if_pos hZero, hLow]
    · rw [if_pos hZero, if_neg hZero, splResult_eq hLow]
  · rw [if_neg hLow, if_pos hLow]

theorem smcGetConfig_eq (hK : Answers K monitor) (hLayout : Layout s) (stack : SecmonArgs)
    (configItem : BitVec 32) (outConfig : BitVec 64) :
    smcGetConfig K s stack configItem outConfig =
      (smcResult (monitor ((SmcFunction.getConfig configItem).args stack) 0),
        if monitor ((SmcFunction.getConfig configItem).args stack) 0 = 0#64 ∧ outConfig ≠ 0#64 then
          store64 (callSecureMonitor K s ((SmcFunction.getConfig configItem).args stack)).mem
            outConfig.toNat (monitor ((SmcFunction.getConfig configItem).args stack) 1)
        else (callSecureMonitor K s ((SmcFunction.getConfig configItem).args stack)).mem) := by
  unfold smcGetConfig
  generalize (SmcFunction.getConfig configItem).args stack = args
  have hResult := (callSecureMonitor_eq hK hLayout args).1
  have hArgs := load_callSecureMonitor hK hLayout args
  simp only [hResult, hArgs, smcResult]
  by_cases hLow : (monitor args 0).setWidth 32 = 0#32
  · rw [if_pos hLow, if_neg (not_not.mpr hLow)]
    by_cases hZero : monitor args 0 = 0#64
    · rw [if_pos hZero, if_pos hZero, hLow]
      by_cases hOut : outConfig = 0#64
      · rw [if_neg (not_not.mpr hOut), if_neg fun h => h.2 hOut]
      · rw [if_pos hOut, if_pos ⟨hZero, hOut⟩]
    · rw [if_neg hZero, if_neg hZero, if_neg fun h => hZero h.1, splResult_eq hLow]
  · have hZero : monitor args 0 ≠ 0#64 := fun h => hLow (by rw [h]; rfl)
    rw [if_neg hLow, if_pos hLow, if_neg fun h => hZero h.1]

/-- **Random bytes.** The answer has 56 of them. -/
theorem smcGenerateRandomBytes_eq (hK : Answers K monitor) (hLayout : Layout s)
    (stack : SecmonArgs) (size : BitVec 32) :
    let args := (SmcFunction.generateRandomBytes size).args stack
    smcGenerateRandomBytes K s stack size = (smcResult (monitor args 0),
      if monitor args 0 = 0#64 then
        some (((SecmonArgs.bytes (monitor args)).drop 8).take size.toNat ++
          read (callSecureMonitor K s args).mem ((s.x 0).toNat + 64) (size.toNat - 56))
      else none) := by
  intro args
  have hReads := (callSecureMonitor_eq hK hLayout args).2
  rw [← List.take_append_drop 8 (SecmonArgs.bytes (monitor args))] at hReads
  have hRest := hReads.split.2.read_eq size.toNat
  rw [List.length_take, List.length_drop, SecmonArgs.length_bytes] at hRest
  have hPlace : SecmonArgs.place (s.x 0) 1 = (s.x 0).toNat + 8 := place_eq hLayout.fits 1
  have hSuccess := (resultOf_smcResult (monitor args 0)).success
  rw [smcGenerateRandomBytes, smcCall_eq hK hLayout, hPlace]
  dsimp only
  by_cases hZero : monitor args 0 = 0#64
  · rw [if_pos (hSuccess.mpr hZero), if_pos hZero]
    exact congrArg (fun bytes => (smcResult (monitor args 0), some bytes)) hRest
  · rw [if_neg (mt hSuccess.mp hZero), if_neg hZero]

theorem smcGenerateRandomU64_eq (hK : Answers K monitor) (hLayout : Layout s)
    (stack : SecmonArgs) :
    let args := (SmcFunction.generateRandomBytes 8#32).args stack
    smcGenerateRandomU64 K s stack = (smcResult (monitor args 0),
      if monitor args 0 = 0#64 then some (monitor args 1) else none) := by
  intro args
  have hSuccess := (resultOf_smcResult (monitor args 0)).success
  rw [smcGenerateRandomU64, smcGenerateRandomBytes_eq hK hLayout]
  dsimp only
  by_cases hZero : monitor args 0 = 0#64
  · have hFirst : ((SecmonArgs.bytes (monitor args)).drop 8).take 8 = bytesOf (monitor args 1) :=
      rfl
    have hNothing : ∀ mem : Memory, ∀ a, read mem a ((8#32).toNat - 56) = [] := fun _ _ => rfl
    rw [if_pos hZero, if_pos hZero, hSuccess.mpr hZero, hNothing, List.append_nil]
    refine congrArg (fun random => ((0#32 : Result), some random)) ?_
    exact (congrArg ofBytes hFirst).trans (ofBytes_bytesOf _)
  · have hFailed : rFailed (smcResult (monitor args 0)) = true :=
      bne_iff_ne.mpr (mt hSuccess.mp hZero)
    rw [if_neg hZero, if_neg hZero, if_pos hFailed]

/-- The result of a function. -/
def SmcFunction.result (K : SvcKernel) (s : Core) (stack : SecmonArgs) (outConfig : BitVec 64) :
    SmcFunction → Result
  | .getConfig configItem => (smcGetConfig K s stack configItem outConfig).1
  | .copyToIram iramAddr srcAddr size => smcCopyToIram K s stack iramAddr srcAddr size
  | .copyFromIram dstAddr iramAddr size => smcCopyFromIram K s stack dstAddr iramAddr size
  | .readWriteRegister physAddr value mask => smcReadWriteRegister K s stack physAddr value mask
  | .generateRandomBytes size => (smcGenerateRandomBytes K s stack size).1
  | .generateRandomU64 => (smcGenerateRandomU64 K s stack).1

/-- **The results.** Each function makes the same of the answer. -/
theorem smc_results (hK : Answers K monitor) (hLayout : Layout s) (stack : SecmonArgs)
    (outConfig : BitVec 64) (f : SmcFunction) :
    ResultOf (monitor (f.args stack) 0) (f.result K s stack outConfig) := by
  have hResult : f.result K s stack outConfig = smcResult (monitor (f.args stack) 0) := by
    cases f with
    | getConfig configItem =>
      exact congrArg Prod.fst (smcGetConfig_eq hK hLayout stack configItem outConfig)
    | copyToIram | copyFromIram | readWriteRegister =>
      exact congrArg Prod.fst (smcCall_eq hK hLayout _)
    | generateRandomBytes size =>
      exact congrArg Prod.fst (smcGenerateRandomBytes_eq hK hLayout stack size)
    | generateRandomU64 => exact congrArg Prod.fst (smcGenerateRandomU64_eq hK hLayout stack)
  rw [hResult]
  exact resultOf_smcResult _

end

/-- A kernel that only answers. -/
def monitorKernel (monitor : SecmonArgs → SecmonArgs) : SvcKernel := fun _ s =>
  { s with
    x := fun r =>
      if h : r.toNat < 8 then monitor (fun j => s.x (BitVec.ofNat 5 j.val)) ⟨r.toNat, h⟩
      else s.x r }

theorem monitorKernel_answers (monitor : SecmonArgs → SecmonArgs) :
    Answers (monitorKernel monitor) monitor where
  x s i := by
    have hi := i.isLt
    have hReg : (BitVec.ofNat 5 i.val).toNat = i.val := by
      rw [BitVec.toNat_ofNat]
      omega
    have hFin : (⟨(BitVec.ofNat 5 i.val).toNat, by omega⟩ : Fin 8) = i := Fin.ext hReg
    rw [monitorKernel]
    dsimp only
    rw [dif_pos (by omega), hFin]
  sp _ := rfl
  frame _ _ _ _ := rfl

/-- The arguments are at the stack pointer. -/
def stackCore : Core where
  x _ := 0x1000#64
  v _ := 0#128
  sp := 0x1000#64
  mem _ := 0#8

theorem stackCore_layout : Layout stackCore := ⟨by decide, by decide, by decide⟩

/-- A call that is not allowed: the answer is 6. -/
theorem smc_results_sample :
    ResultOf 6#64 ((SmcFunction.getConfig 5#32).result (monitorKernel fun _ _ => 6#64) stackCore
      (fun _ => 0#64) 0x1800#64) :=
  smc_results (monitorKernel_answers fun _ _ => 6#64) stackCore_layout (fun _ => 0#64) 0x1800#64
    (.getConfig 5#32)

/-! ## The SoC -/

inductive SocType
  | erista
  | mariko
deriving DecidableEq, Repr

/-- `SplHardwareType`. -/
def socTypeOf (hwtype : BitVec 32) : Option SocType :=
  -- `Icosa`, `Copper`
  if hwtype = 0#32 ∨ hwtype = 1#32 then some .erista
  -- `Hoag`, `Iowa`, `Calcio`, `Aula`
  else if hwtype = 2#32 ∨ hwtype = 3#32 ∨ hwtype = 4#32 ∨ hwtype = 5#32 then some .mariko
  else none

/-- `InitSocType`, with the value that it aborts with, and the memory. `hwtype`, which has four
bytes, is at `hwtype`. -/
def initSocType (K : SvcKernel) (s : Core) (stack : SecmonArgs) (hwtype : BitVec 64) :
    Except (BitVec 32) SocType × Memory :=
  let (rc, mem) := smcGetConfig K s stack 5#32 hwtype
  if rFailed rc then (.error rc, mem)
  else
    match socTypeOf (load32 mem hwtype.toNat) with
    | some soc => (.ok soc, mem)
    -- `EXL_UNREACHABLE_DEFAULT_CASE`
    | none => (.error 0#32, mem)

section

variable {K : SvcKernel} {monitor : SecmonArgs → SecmonArgs} {s : Core}

/-- **The SoC.** -/
theorem initSocType_eq (hK : Answers K monitor) (hLayout : Layout s) (stack : SecmonArgs)
    {hwtype : BitVec 64} (hNull : hwtype ≠ 0#64) :
    let answer := monitor ((SmcFunction.getConfig 5#32).args stack)
    let result := initSocType K s stack hwtype
    (answer 0 ≠ 0#64 → result.1 = .error (smcResult (answer 0))) ∧
    (answer 0 = 0#64 →
      result.1 = (match socTypeOf ((answer 1).setWidth 32) with
        | some soc => .ok soc
        | none => .error 0#32) ∧
      load32 result.2 (hwtype.toNat + 4) = (answer 1).extractLsb' 32 32) := by
  intro answer result
  have hSuccess := (resultOf_smcResult (answer 0)).success
  constructor
  · intro hZero
    have hFailed : rFailed (smcResult (answer 0)) = true := bne_iff_ne.mpr (mt hSuccess.mp hZero)
    simp only [result, initSocType]
    rw [smcGetConfig_eq hK hLayout, if_pos hFailed]
  · intro hZero
    have hOk : rFailed (smcResult (answer 0)) = false := by
      rw [hSuccess.mpr hZero]
      rfl
    have hLow : ∀ mem : Memory, load32 (store64 mem hwtype.toNat (answer 1)) hwtype.toNat =
        (answer 1).setWidth 32 := by
      intro mem
      rw [load32_store64_low, BitVec.setWidth_eq_extractLsb' (by decide)]
    have hMem : smcGetConfig K s stack 5#32 hwtype = (smcResult (answer 0),
        store64 (callSecureMonitor K s ((SmcFunction.getConfig 5#32).args stack)).mem hwtype.toNat
          (answer 1)) := by
      rw [smcGetConfig_eq hK hLayout, if_pos ⟨hZero, hNull⟩]
    simp only [result, initSocType, hMem, hOk, Bool.false_eq_true, if_false, hLow]
    cases socTypeOf ((answer 1).setWidth 32) with
    | some soc => exact ⟨rfl, load32_store64_high _ _ _⟩
    | none => exact ⟨rfl, load32_store64_high _ _ _⟩

end

/-- The hardware type is `Iowa`. -/
theorem initSocType_eq_sample :
    (initSocType (monitorKernel fun _ i => if i = 0 then 0#64 else 3#64) stackCore (fun _ => 0#64)
      0x1800#64).1 = .ok .mariko := by
  have hAnswer := (initSocType_eq (monitorKernel_answers fun _ i => if i = 0 then 0#64 else 3#64)
    stackCore_layout (fun _ => 0#64) (show (0x1800#64 : BitVec 64) ≠ 0#64 by decide)).2 rfl
  exact hAnswer.1.trans rfl

end Wondar.Sys
