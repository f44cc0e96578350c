import Mathlib.Data.List.Perm.Basic
import Wondar.Program.TryCatch
import Wondar.Runs

/-!
# Balanced catch frames

A run of one thread calls `tryCatch` in any nesting; each `tryFunc` returns or faults somewhere,
and each catch function accepts or rejects. Between that the thread stores to memory and uses the
heap, but not what belongs to a catch frame.

In every state of such a run the frames linked in memory from `catchStackBottom` are those of the
active calls, the innermost first; every fault was offered to the innermost one only, and every call
that was left has popped and freed its own frame. A return leaves the innermost call and so does a
fault that its catch function accepts; one that it rejects ends the process (`catch_balanced`).

What `tryCallCatch` copies behind the frame of the call may hit the frame of another call. It ends
before the fields that the balance depends on, but may change where that other call returns to:
a thread that returns with other registers than those of the call is `astray`, and its run ends.
-/

namespace Wondar.Handler.Local

open A64 (Reg)
open Blocks

variable {heap : Type}

/-! ## Runs of a thread -/

/-- A call of `tryCatch` with the registers `entry`, and the catch stack before it. -/
structure Activation where
  frame : Nat
  before : BitVec 64
  entry : Thread

/-- A fault: the frames that `tryCallCatch` asked, with their catch functions, and the call whose
`tryFunc` faulted. -/
structure Offer where
  asked : List (Nat × BitVec 64)
  innermost : Option Activation

/-- A call that was left: the frame that `popCatch` freed, and the catch stack it left. -/
structure Return where
  activation : Activation
  freed : Nat
  after : BitVec 64

/-- `aborted` where an assertion fails, or a caught thread is not resumed at `popCatch`. -/
inductive Status
  | running
  | exited
  | astray
  | aborted
deriving DecidableEq, Repr

structure Run (heap : Type) where
  memory : Memory heap
  active : List Activation
  mallocs : List Nat
  frees : List Nat
  offers : List Offer
  returns : List Return
  status : Status

/-- What the thread does next. `leave` is the return of the innermost `tryFunc`, and `fault` has
the record that phase two saved. -/
inductive Op
  | enter (entry : Thread) (scratch : Reg → BitVec 64) (lr : BitVec 64)
  | leave (t : Thread)
  | fault (info : ExceptionInfo)
  | store (a : Nat) (bytes : List (BitVec 8))
  | malloc (n : Nat)
  | free (p : Nat)

namespace Run

def initial (mem : Nat → BitVec 8) (h : heap) : Run heap where
  memory := ⟨mem, h, 0#64⟩
  active := []
  mallocs := []
  frees := []
  offers := []
  returns := []
  status := .running

/-- The thread is at `t.pc`, which should be `popCatch`, and leaves the innermost call. -/
def back (A : Allocator heap) (popCatch : BitVec 64) (t : Thread) (s : Run heap) : Run heap :=
  match s.active, Local.popCatch A s.memory with
  | a :: active, some memory =>
    if t.pc = popCatch then
      { s with
        memory := memory
        active := active
        frees := s.frees ++ [s.memory.catchStackBottom.toNat]
        returns := s.returns ++
          [⟨a, s.memory.catchStackBottom.toNat, memory.catchStackBottom⟩]
        status :=
          if t.sp = a.entry.sp ∧ t.x 29 = a.entry.x 29 ∧ t.x 30 = a.entry.x 30 then .running
          else .astray }
    else { s with status := .aborted }
  | _, _ => { s with status := .aborted }

/-- A fault, up to the resumed thread. -/
def fault (A : Allocator heap) (catchFuncs : BitVec 64 → Option CatchFunc) (popCatch : BitVec 64)
    (handlerFunc : Option CatchFunc) (info : ExceptionInfo) (s : Run heap) : Run heap :=
  let outcome := tryCallCatch catchFuncs s.memory info
  let s := { s with
    memory := { s.memory with mem := storeAll s.memory.mem outcome.stores }
    offers := s.offers ++ [⟨outcome.asked, s.active.head?⟩] }
  match outcome.action with
  | .continue => s.back A popCatch outcome.info.thread
  | .exit => { s with status := .exited }
  | .skip =>
    if (phaseThreeHandler ⟨handlerFunc, []⟩ info).exceptionState = .continue then s
    else { s with status := .exited }

/-- A call, which `enterTry` left with `memory`. -/
def enter (entry : Thread) (memory : Memory heap) (s : Run heap) : Option (Run heap) :=
  let a : Activation := ⟨memory.catchStackBottom.toNat, s.memory.catchStackBottom, entry⟩
  if StackApart entry a.frame ∧ ∀ b ∈ s.active, StackApart entry b.frame then
    some { s with
      memory := memory
      active := a :: s.active
      mallocs := a.frame :: s.mallocs }
  else none

/-- One step. The stack lies apart from the frames, and only what belongs to no frame is stored
to or freed. -/
def step (A : Allocator heap) (catchFuncs : BitVec 64 → Option CatchFunc) (popCatch : BitVec 64)
    (handlerFunc : Option CatchFunc) (op : Op) (s : Run heap) : Option (Run heap) :=
  if s.status ≠ .running then none
  else
    match op with
    | .enter entry scratch lr =>
      (enterTry A popCatch lr scratch entry s.memory).bind fun (_, memory) => s.enter entry memory
    | .leave t =>
      match s.active with
      | [] => none
      | a :: _ =>
        if t.sp = a.entry.sp - 0x20#64 then
          some (s.back A popCatch (leaveTry popCatch s.memory.mem t))
        else none
    | .fault info => some (s.fault A catchFuncs popCatch handlerFunc info)
    | .store a bytes =>
      if ∀ b ∈ s.active, Block.Apart ⟨b.frame, 0x80⟩ ⟨a, bytes.length⟩ then
        some { s with memory := { s.memory with mem := write s.memory.mem a bytes } }
      else none
    | .malloc n =>
      (A.alloc s.memory.heap n).map fun (_, h) => { s with memory := { s.memory with heap := h } }
    | .free p =>
      if ∀ b ∈ s.active, b.frame ≠ p then
        some { s with memory := { s.memory with heap := A.free s.memory.heap p } }
      else none

end Run

/-! ## Balance -/

/-- From `p` on, the frames of the calls are linked up to the null pointer, each with its catch
function. -/
def Linked (mem : Nat → BitVec 8) (popCatch : BitVec 64) : BitVec 64 → List Activation → Prop
  | p, [] => p = 0#64
  | p, a :: as =>
    p = BitVec.ofNat 64 a.frame ∧ load64 mem (a.frame + 0x68) = popCatch ∧
      load64 mem (a.frame + 0x70) = a.entry.x 1 ∧ load64 mem (a.frame + 0x78) = a.before ∧
      Linked mem popCatch a.before as

structure Balanced (popCatch : BitVec 64) (s : Run heap) : Prop where
  linked : Linked s.memory.mem popCatch s.memory.catchStackBottom s.active
  frames : (s.active.map Activation.frame).Nodup
  offers : ∀ o ∈ s.offers, o.asked = o.innermost.toList.map fun a => (a.frame, a.entry.x 1)
  returns : ∀ r ∈ s.returns, r.freed = r.activation.frame ∧ r.after = r.activation.before
  freed : s.mallocs.Perm (s.frees ++ s.active.map Activation.frame)
  status : s.status ≠ .aborted

/-- The call `a` is left: its frame is popped and freed once, and what the stack was before the call
it is again. -/
structure Left (a : Activation) (active : List Activation) (s s' : Run heap) : Prop where
  active : s'.active = active
  bottom : s'.memory.catchStackBottom = a.before
  frees : s'.frees = s.frees ++ [a.frame]
  returns : s'.returns = s.returns ++ [⟨a, a.frame, a.before⟩]

/-- A return leaves the innermost call. A fault does if the innermost catch function accepts, and
else the process exits with the stack as it is. The thread goes on behind the call, as long as the
frame, and for a return the stack, still hold what the call put there. -/
def Answers (A : Allocator heap) (catchFuncs : BitVec 64 → Option CatchFunc) (popCatch : BitVec 64)
    (handlerFunc : Option CatchFunc) (s : Run heap) (op : Op) : Prop :=
  ∀ a active, s.active = a :: active →
    ∀ s', s.step A catchFuncs popCatch handlerFunc op = some s' →
      match op with
      | .leave _ => Left a active s s' ∧
          (FrameHolds s.memory.mem a.frame popCatch a.before a.entry →
            StackHolds s.memory.mem a.frame a.entry → s'.status = .running)
      | .fault info =>
        if catches (catchFuncs (a.entry.x 1)) info then
          Left a active s s' ∧
            (FrameHolds s.memory.mem a.frame popCatch a.before a.entry → s'.status = .running)
        else s'.status = .exited ∧ s'.active = s.active ∧ s'.frees = s.frees
      | _ => True

/-- The frames are blocks of the heap, and lie apart. -/
structure Framed (A : Allocator heap) (h : heap) (active : List Activation) : Prop where
  blocks : ∀ a ∈ active, ⟨a.frame, 0x80⟩ ∈ A.blocks h
  bounds : ∀ a ∈ active, 0 < a.frame ∧ a.frame + 0x80 ≤ 2 ^ 64
  apart : active.Pairwise fun a b => Block.Apart ⟨a.frame, 0x80⟩ ⟨b.frame, 0x80⟩

structure Inv (A : Allocator heap) (popCatch : BitVec 64) (s : Run heap) : Prop where
  balanced : Balanced popCatch s
  framed : Framed A s.memory.heap s.active

section

variable {A : Allocator heap} {catchFuncs : BitVec 64 → Option CatchFunc} {popCatch p : BitVec 64}
  {handlerFunc : Option CatchFunc} {mem mem' : Nat → BitVec 8} {h h' : heap} {a : Activation}
  {active : List Activation} {s s' : Run heap}

/-! ## Frames of the heap -/

theorem Linked.congr (hLinked : Linked mem popCatch p active)
    (hSame : ∀ a ∈ active, ∀ off, 0x68 ≤ off → off + 8 ≤ 0x80 →
      load64 mem' (a.frame + off) = load64 mem (a.frame + off)) :
    Linked mem' popCatch p active := by
  induction active generalizing p with
  | nil => exact hLinked
  | cons a active ih =>
    obtain ⟨hPointer, hPc, hFunc, hParent, hRest⟩ := hLinked
    obtain ⟨hHead, hTail⟩ := List.forall_mem_cons.mp hSame
    refine ⟨hPointer, ?_, ?_, ?_, ih hRest hTail⟩
    · rw [hHead 0x68 (by omega) (by omega), hPc]
    · rw [hHead 0x70 (by omega) (by omega), hFunc]
    · rw [hHead 0x78 (by omega) (by omega), hParent]

theorem Framed.nodup (hFramed : Framed A h active) : (active.map Activation.frame).Nodup := by
  rw [List.Nodup, List.pairwise_map]
  exact hFramed.apart.imp fun hApart => hApart.addr_ne (Nat.succ_pos _) (Nat.succ_pos _)

theorem Framed.alloc (hA : A.Lawful) (hFramed : Framed A h active) {n q : Nat}
    (hAlloc : A.alloc h n = some (q, h')) : Framed A h' active := by
  refine ⟨fun a ha => ?_, hFramed.bounds, hFramed.apart⟩
  rw [hA.blocks_alloc h n q h' hAlloc]
  exact List.mem_cons_of_mem _ (hFramed.blocks a ha)

theorem Framed.free (hA : A.Lawful) (hFramed : Framed A h active) {q : Nat}
    (hOther : ∀ b ∈ active, b.frame ≠ q) : Framed A (A.free h q) active := by
  refine ⟨fun a ha => ?_, hFramed.bounds, hFramed.apart⟩
  rw [hA.blocks_free]
  exact List.mem_filter.mpr ⟨hFramed.blocks a ha, decide_eq_true (hOther a ha)⟩

/-- A new frame lies apart from the others. -/
theorem Framed.push (hA : A.Lawful)
    (hBound : ∀ h n p h', A.alloc h n = some (p, h') → p + n ≤ 2 ^ 64)
    (hFramed : Framed A h active) (hAlloc : A.alloc h 0x80 = some (a.frame, h')) :
    Framed A h' (a :: active) := by
  have hOld := hFramed.alloc hA hAlloc
  constructor
  · refine List.forall_mem_cons.mpr ⟨?_, hOld.blocks⟩
    rw [hA.blocks_alloc h 0x80 a.frame h' hAlloc]
    exact List.mem_cons_self
  · exact List.forall_mem_cons.mpr
      ⟨⟨hA.addr_pos h 0x80 a.frame h' hAlloc, hBound h 0x80 a.frame h' hAlloc⟩, hOld.bounds⟩
  · exact List.pairwise_cons.mpr
      ⟨fun b hb => hA.apart h 0x80 a.frame h' hAlloc _ (hFramed.blocks b hb), hOld.apart⟩

theorem Framed.pop (hA : A.Lawful) (hFramed : Framed A h (a :: active)) :
    Framed A (A.free h a.frame) active := by
  have hOther : ∀ b ∈ active, b.frame ≠ a.frame := fun b hb hEq =>
    (List.nodup_cons.mp hFramed.nodup).1 (hEq ▸ List.mem_map_of_mem hb)
  exact Framed.free hA ⟨(List.forall_mem_cons.mp hFramed.blocks).2,
    (List.forall_mem_cons.mp hFramed.bounds).2, (List.pairwise_cons.mp hFramed.apart).2⟩ hOther

theorem Framed.toNat (hFramed : Framed A h (a :: active)) :
    (BitVec.ofNat 64 a.frame).toNat = a.frame := by
  have hBounds := hFramed.bounds a List.mem_cons_self
  rw [BitVec.toNat_ofNat, Nat.mod_eq_of_lt (by omega)]

theorem Framed.ne_null (hFramed : Framed A h (a :: active)) : BitVec.ofNat 64 a.frame ≠ 0#64 := by
  intro hNull
  have hFrame := hFramed.toNat
  have hBounds := hFramed.bounds a List.mem_cons_self
  rw [hNull] at hFrame
  simp only [BitVec.toNat_ofNat, Nat.zero_mod] at hFrame
  omega

/-! ## Steps -/

theorem Inv.bottom (hInv : Inv A popCatch s) (hActive : s.active = a :: active) :
    s.memory.catchStackBottom ≠ 0#64 ∧ s.memory.catchStackBottom.toNat = a.frame := by
  obtain ⟨⟨hLinked, -, -, -, -, -⟩, hFramed⟩ := hInv
  rw [hActive] at hLinked hFramed
  exact ⟨hLinked.1 ▸ hFramed.ne_null, by rw [hLinked.1, hFramed.toNat]⟩

theorem Inv.fields (hInv : Inv A popCatch s) (hActive : s.active = a :: active) :
    load64 s.memory.mem (a.frame + 0x68) = popCatch ∧
      load64 s.memory.mem (a.frame + 0x70) = a.entry.x 1 := by
  have hLinked := hInv.balanced.linked
  rw [hActive] at hLinked
  obtain ⟨-, hPc, hFunc, -, -⟩ := hLinked
  exact ⟨hPc, hFunc⟩

/-- Leaving the innermost call pops its frame, and frees it. -/
theorem Inv.back_eq (hInv : Inv A popCatch s) (hActive : s.active = a :: active) {t : Thread}
    (hPc : t.pc = popCatch) :
    s.back A popCatch t =
      { s with
        memory := ⟨s.memory.mem, A.free s.memory.heap a.frame, a.before⟩
        active := active
        frees := s.frees ++ [a.frame]
        returns := s.returns ++ [⟨a, a.frame, a.before⟩]
        status :=
          if t.sp = a.entry.sp ∧ t.x 29 = a.entry.x 29 ∧ t.x 30 = a.entry.x 30 then .running
          else .astray } := by
  obtain ⟨hNe, hFrame⟩ := hInv.bottom hActive
  have hLinked := hInv.balanced.linked
  rw [hActive] at hLinked
  obtain ⟨-, -, -, hParent, -⟩ := hLinked
  have hPop : Local.popCatch A s.memory =
      some ⟨s.memory.mem, A.free s.memory.heap a.frame, a.before⟩ := by
    rw [Local.popCatch, if_neg hNe, hFrame, hParent]
  simp only [Run.back, hActive, hPop, if_pos hPc, hFrame]

theorem Inv.back (hA : A.Lawful) (hInv : Inv A popCatch s) (hActive : s.active = a :: active)
    {t : Thread} (hPc : t.pc = popCatch) : Inv A popCatch (s.back A popCatch t) := by
  rw [hInv.back_eq hActive hPc]
  obtain ⟨⟨hLinked, -, hOffers, hReturns, hFreed, -⟩, hFramed⟩ := hInv
  rw [hActive] at hLinked hFreed hFramed
  obtain ⟨-, -, -, -, hRest⟩ := hLinked
  have hPopped := hFramed.pop hA
  refine ⟨⟨hRest, hPopped.nodup, hOffers, ?_, ?_, ?_⟩, hPopped⟩
  · intro r hr
    rcases List.mem_append.mp hr with hr | hr
    · exact hReturns r hr
    · rw [List.mem_singleton.mp hr]
      exact ⟨rfl, rfl⟩
  · rw [List.append_assoc]
    exact hFreed
  · simp only
    split <;> simp

variable (catchFuncs) in
/-- A fault is offered to the innermost frame. -/
theorem Inv.asked (hInv : Inv A popCatch s) (info : ExceptionInfo) :
    (tryCallCatch catchFuncs s.memory info).asked =
      s.active.head?.toList.map fun a => (a.frame, a.entry.x 1) := by
  cases hActive : s.active with
  | nil =>
    have hLinked := hInv.balanced.linked
    rw [hActive] at hLinked
    have hNull : s.memory.catchStackBottom = 0#64 := hLinked
    rw [tryCallCatch, if_pos hNull]
    rfl
  | cons a active =>
    obtain ⟨hNe, hFrame⟩ := hInv.bottom hActive
    obtain ⟨-, hFunc⟩ := hInv.fields hActive
    simp only [tryCallCatch, if_neg hNe, hFrame, hFunc]
    split <;> rfl

variable (catchFuncs) in
/-- The innermost catch function decides. -/
theorem Inv.action (hInv : Inv A popCatch s) (hActive : s.active = a :: active)
    (info : ExceptionInfo) : (tryCallCatch catchFuncs s.memory info).action =
      if catches (catchFuncs (a.entry.x 1)) info then .continue else .exit := by
  obtain ⟨hNe, hFrame⟩ := hInv.bottom hActive
  obtain ⟨-, hFunc⟩ := hInv.fields hActive
  simp only [tryCallCatch, if_neg hNe, hFrame, hFunc]
  split <;> rfl

/-- A store keeps the balance when it leaves the last fields of the frames alone. -/
theorem Inv.stored (hInv : Inv A popCatch s) (offers : List Offer)
    (hOffers : ∀ o ∈ offers, o.asked = o.innermost.toList.map fun a => (a.frame, a.entry.x 1))
    (hSame : ∀ a ∈ s.active, ∀ off, 0x68 ≤ off → off + 8 ≤ 0x80 →
      load64 mem' (a.frame + off) = load64 s.memory.mem (a.frame + off)) :
    Inv A popCatch
      { s with memory := { s.memory with mem := mem' }, offers := offers } := by
  obtain ⟨⟨hLinked, hFrames, -, hReturns, hFreed, hStatus⟩, hFramed⟩ := hInv
  exact ⟨⟨hLinked.congr hSame, hFrames, hOffers, hReturns, hFreed, hStatus⟩, hFramed⟩

theorem Inv.exit (hInv : Inv A popCatch s) : Inv A popCatch { s with status := .exited } := by
  obtain ⟨⟨hLinked, hFrames, hOffers, hReturns, hFreed, -⟩, hFramed⟩ := hInv
  exact ⟨⟨hLinked, hFrames, hOffers, hReturns, hFreed, by simp⟩, hFramed⟩

theorem Inv.withHeap (hInv : Inv A popCatch s) (hFramed : Framed A h s.active) :
    Inv A popCatch { s with memory := { s.memory with heap := h } } :=
  ⟨⟨hInv.balanced.linked, hInv.balanced.frames, hInv.balanced.offers, hInv.balanced.returns,
    hInv.balanced.freed, hInv.balanced.status⟩, hFramed⟩

/-- The copy ends before the last fields of a frame behind the one it comes from. -/
theorem Framed.copied (hFramed : Framed A h (a :: active)) :
    ∀ b ∈ a :: active, ∀ off, 0x68 ≤ off → off + 8 ≤ 0x80 →
      load64 (storeAll mem (Local.copied mem a.frame)) (b.frame + off) =
        load64 mem (b.frame + off) := by
  have hApart : ∀ b ∈ a :: active, b.frame ≤ a.frame ∨ a.frame + 0x80 ≤ b.frame := by
    refine List.forall_mem_cons.mpr ⟨.inl (Nat.le_refl _), fun b hb => ?_⟩
    have hSplit := (List.pairwise_cons.mp hFramed.apart).1 b hb
    simp only [Block.Apart] at hSplit
    omega
  intro b hb off hLow hHigh
  apply load64_storeAll
  intro s hs
  obtain ⟨i, hi, rfl⟩ := List.mem_map.mp hs
  have hLt := List.mem_range.mp hi
  have hEither := hApart b hb
  simp only
  omega

variable (catchFuncs) in
theorem Inv.offers_fault (hInv : Inv A popCatch s) (info : ExceptionInfo) :
    ∀ o ∈ s.offers ++ [⟨(tryCallCatch catchFuncs s.memory info).asked, s.active.head?⟩],
      o.asked = o.innermost.toList.map fun a => (a.frame, a.entry.x 1) := by
  intro o ho
  rcases List.mem_append.mp ho with ho | ho
  · exact hInv.balanced.offers o ho
  · rw [List.mem_singleton.mp ho]
    exact hInv.asked catchFuncs info

variable (catchFuncs) in
/-- The state in which `popCatch` starts after a fault. -/
theorem Inv.copied (hInv : Inv A popCatch s) (hActive : s.active = a :: active)
    (info : ExceptionInfo) : Inv A popCatch
      { s with
        memory :=
          { s.memory with
            mem := storeAll s.memory.mem (Local.copied s.memory.mem
              s.memory.catchStackBottom.toNat) }
        offers := s.offers ++
          [⟨(tryCallCatch catchFuncs s.memory info).asked, s.active.head?⟩] } := by
  apply hInv.stored _ (hInv.offers_fault catchFuncs info)
  have hFramed := hInv.framed
  rw [hActive] at hFramed ⊢
  rw [(hInv.bottom hActive).2]
  exact hFramed.copied

variable (handlerFunc) in
/-- A fault that is caught: the thread is at `popCatch`, with the SP, FP and LR of the frame. -/
theorem Inv.fault_continue (hInv : Inv A popCatch s) {info : ExceptionInfo}
    (hActive : s.active = a :: active)
    (hAccepts : (tryCallCatch catchFuncs s.memory info).action = .continue) :
    ∃ t s₁, s.fault A catchFuncs popCatch handlerFunc info = s₁.back A popCatch t ∧
      Inv A popCatch s₁ ∧ s₁.active = s.active ∧ s₁.frees = s.frees ∧ s₁.returns = s.returns ∧
      t.pc = popCatch ∧ t = (caught s.memory info).thread := by
  have hCopied := hInv.copied catchFuncs hActive info
  refine ⟨(caught s.memory info).thread, _, ?_, hCopied, rfl, rfl, rfl, ?_, rfl⟩
  · simp only [Run.fault, tryCallCatch_continue hAccepts]
  · rw [← (hInv.fields hActive).1, ← (hInv.bottom hActive).2]
    rfl

/-- A fault that is not caught leaves the frames as they are, and the process goes on or exits. -/
theorem Inv.fault_reject (hInv : Inv A popCatch s) {info : ExceptionInfo}
    (hRejects : (tryCallCatch catchFuncs s.memory info).action ≠ .continue) :
    Inv A popCatch (s.fault A catchFuncs popCatch handlerFunc info) := by
  have hOffered := hInv.stored _ (hInv.offers_fault catchFuncs info) fun _ _ _ _ _ => rfl
  have hExited := hOffered.exit
  simp only [Run.fault, tryCallCatch_stores hRejects]
  cases hAction : (tryCallCatch catchFuncs s.memory info).action with
  | «continue» => exact absurd hAction hRejects
  | exit => exact hExited
  | skip =>
    simp only
    split
    · exact hOffered
    · exact hExited

theorem Inv.fault (hA : A.Lawful) (hInv : Inv A popCatch s) (info : ExceptionInfo) :
    Inv A popCatch (s.fault A catchFuncs popCatch handlerFunc info) := by
  by_cases hAccepts : (tryCallCatch catchFuncs s.memory info).action = .continue
  · have hLinked := hInv.balanced.linked
    cases hActive : s.active with
    | nil =>
      rw [hActive] at hLinked
      exact absurd hLinked (tryCallCatch_bottom hAccepts)
    | cons a active =>
      obtain ⟨t, s₁, hFault, hInv₁, hSame, -, -, hPc, -⟩ :=
        hInv.fault_continue handlerFunc hActive hAccepts
      rw [hFault]
      exact hInv₁.back hA (hSame.trans hActive) hPc
  · exact hInv.fault_reject hAccepts

theorem Inv.enter (hA : A.Lawful)
    (hBound : ∀ h n p h', A.alloc h n = some (p, h') → p + n ≤ 2 ^ 64)
    (hInv : Inv A popCatch s) {entry inside : Thread} {scratch : Reg → BitVec 64} {lr : BitVec 64}
    {memory : Memory heap}
    (hEnter : enterTry A popCatch lr scratch entry s.memory = some (inside, memory))
    (hStep : s.enter entry memory = some s') : Inv A popCatch s' := by
  obtain ⟨-, -, frame, h', hAlloc, hHeap, hBottom, hHolds, hOutside⟩ := enterTry_spec hEnter
  have hFrame : memory.catchStackBottom.toNat = frame := by rw [hBottom, frame_toNat hBound hAlloc]
  simp only [Run.enter, hFrame] at hStep
  split at hStep
  · rename_i hStack
    cases hStep
    obtain ⟨⟨hLinked, -, hOffers, hReturns, hFreed, hStatus⟩, hFramed⟩ := hInv
    obtain ⟨hNew, -⟩ := hHolds hStack.1
    have hPushed : Framed A memory.heap
        (⟨frame, s.memory.catchStackBottom, entry⟩ :: s.active) := by
      rw [hHeap]
      exact hFramed.push hA hBound hAlloc
    have hKept : ∀ b ∈ s.active, ∀ off, 0x68 ≤ off → off + 8 ≤ 0x80 →
        load64 memory.mem (b.frame + off) = load64 s.memory.mem (b.frame + off) := by
      intro b hb off hLow hHigh
      have hApart := (List.pairwise_cons.mp hPushed.apart).1 b hb
      have hBelow := hStack.2 b hb
      simp only [Block.Apart] at hApart
      unfold StackApart at hBelow
      apply hOutside _ <;> omega
    refine ⟨⟨⟨hBottom, hNew.pc, hNew.catchFunc, hNew.parentFrame, hLinked.congr hKept⟩,
      hPushed.nodup, hOffers, hReturns, ?_, hStatus⟩, hPushed⟩
    exact (hFreed.cons frame).trans List.perm_middle.symm
  · cases hStep

theorem Inv.step (hA : A.Lawful)
    (hBound : ∀ h n p h', A.alloc h n = some (p, h') → p + n ≤ 2 ^ 64)
    (hInv : Inv A popCatch s) (op : Op)
    (hStep : s.step A catchFuncs popCatch handlerFunc op = some s') : Inv A popCatch s' := by
  unfold Run.step at hStep
  split at hStep
  · cases hStep
  · cases op with
    | enter entry scratch lr =>
      obtain ⟨⟨inside, memory⟩, hEnter, hStep⟩ := Option.bind_eq_some_iff.mp hStep
      exact hInv.enter hA hBound hEnter hStep
    | leave t =>
      cases hActive : s.active with
      | nil =>
        simp only [hActive] at hStep
        cases hStep
      | cons a active =>
        simp only [hActive] at hStep
        split at hStep
        · cases hStep
          exact hInv.back hA hActive rfl
        · cases hStep
    | fault info =>
      cases hStep
      exact hInv.fault hA info
    | store q bytes =>
      simp only at hStep
      split at hStep
      · rename_i hApart
        cases hStep
        apply hInv.stored s.offers hInv.balanced.offers
        intro a ha off hLow hHigh
        apply load64_congr
        intro i hi
        have hClear := hApart a ha
        simp only [Block.Apart] at hClear
        exact write_outside (by omega)
      · cases hStep
    | malloc n =>
      obtain ⟨⟨q, h⟩, hAlloc, hEq⟩ := Option.map_eq_some_iff.mp hStep
      cases hEq
      exact hInv.withHeap (hInv.framed.alloc hA hAlloc)
    | free q =>
      simp only at hStep
      split at hStep
      · rename_i hOther
        cases hStep
        exact hInv.withHeap (hInv.framed.free hA hOther)
      · cases hStep

theorem inv_initial (mem : Nat → BitVec 8) (h : heap) :
    Inv A popCatch (Run.initial mem h) where
  balanced :=
    { linked := rfl
      frames := List.nodup_nil
      offers := fun _ ho => (List.not_mem_nil ho).elim
      returns := fun _ hr => (List.not_mem_nil hr).elim
      freed := .nil
      status := by simp [Run.initial] }
  framed :=
    { blocks := fun _ ha => (List.not_mem_nil ha).elim
      bounds := fun _ ha => (List.not_mem_nil ha).elim
      apart := .nil }

/-! ## Leaving a call -/

/-- Where a thread comes back to the innermost call. -/
theorem Inv.left (hInv : Inv A popCatch s) (hActive : s.active = a :: active) {t : Thread}
    (hPc : t.pc = popCatch) : Left a active s (s.back A popCatch t) ∧
      (t.sp = a.entry.sp → t.x 29 = a.entry.x 29 → t.x 30 = a.entry.x 30 →
        (s.back A popCatch t).status = .running) := by
  rw [hInv.back_eq hActive hPc]
  exact ⟨⟨rfl, rfl, rfl, rfl⟩, fun hSp hFp hLr => if_pos ⟨hSp, hFp, hLr⟩⟩

theorem Inv.leave_answers (hInv : Inv A popCatch s) (hActive : s.active = a :: active)
    {t : Thread} (hSp : t.sp = a.entry.sp - 0x20#64) :
    let s' := s.back A popCatch (leaveTry popCatch s.memory.mem t)
    Left a active s s' ∧ (FrameHolds s.memory.mem a.frame popCatch a.before a.entry →
      StackHolds s.memory.mem a.frame a.entry → s'.status = .running) := by
  intro s'
  obtain ⟨hLeft, hRunning⟩ := hInv.left hActive (t := leaveTry popCatch s.memory.mem t) rfl
  refine ⟨hLeft, fun hFrame hStack => ?_⟩
  have hBound : a.frame < 2 ^ 64 := by
    have hBounds := hInv.framed.bounds a (hActive ▸ List.mem_cons_self)
    omega
  obtain ⟨-, hReturned⟩ := leaveTry_returns hSp hBound hFrame hStack t.x
  exact hRunning hReturned.sp hReturned.fp hReturned.pc

theorem Inv.fault_answers (hInv : Inv A popCatch s) (hActive : s.active = a :: active)
    (info : ExceptionInfo) :
    let s' := s.fault A catchFuncs popCatch handlerFunc info
    if catches (catchFuncs (a.entry.x 1)) info then
      Left a active s s' ∧
        (FrameHolds s.memory.mem a.frame popCatch a.before a.entry → s'.status = .running)
    else s'.status = .exited ∧ s'.active = s.active ∧ s'.frees = s.frees := by
  intro s'
  have hAction := hInv.action catchFuncs hActive info
  split
  · rename_i hCatches
    rw [if_pos hCatches] at hAction
    obtain ⟨t, s₁, hFault, hInv₁, hSame, hFrees, hReturns, hPc, hThread⟩ :=
      hInv.fault_continue handlerFunc hActive hAction
    obtain ⟨⟨hTail, hBottom, hFreed, hReturned⟩, hRunning⟩ := hInv₁.left (hSame.trans hActive) hPc
    rw [← hFault] at hTail hBottom hFreed hReturned hRunning
    refine ⟨⟨hTail, hBottom, hFrees ▸ hFreed, hReturns ▸ hReturned⟩, fun hFrame => ?_⟩
    rw [← (hInv.bottom hActive).2] at hFrame
    subst hThread
    exact hRunning hFrame.sp hFrame.fp hFrame.lr
  · rename_i hCatches
    rw [if_neg hCatches] at hAction
    refine ⟨?_, ?_, ?_⟩ <;> simp only [s', Run.fault, hAction]

theorem Inv.answers (hInv : Inv A popCatch s) (op : Op) :
    Answers A catchFuncs popCatch handlerFunc s op := by
  intro a active hActive s' hStep
  unfold Run.step at hStep
  split at hStep
  · cases hStep
  · cases op with
    | leave t =>
      simp only [hActive] at hStep
      split at hStep
      · rename_i hSp
        cases hStep
        exact hInv.leave_answers hActive hSp
      · cases hStep
    | fault info =>
      cases hStep
      exact hInv.fault_answers hActive info
    | enter => trivial
    | store => trivial
    | malloc => trivial
    | free => trivial

end

/-! ## A nested fault -/

/-- One call inside of another; the inner one catches a fault, the outer one returns. -/
def sampleOps : List Op :=
  [.enter sampleThread sampleThread.x 0x50#64,
    .enter { sampleThread with sp := 0x6000#64 } sampleThread.x 0x50#64,
    .fault sampleInfo,
    .leave { sampleThread with sp := 0x6fe0#64 }]

end Wondar.Handler.Local
