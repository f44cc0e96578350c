import Wondar.Blocks
import Wondar.Program.ExceptionHandler

/-!
# tryCatch

`tryCatch` pushes a catch frame, saves X19..X28 and LR in it and calls `tryFunc`. When that
returns, it loads the registers back and leaves through `popCatch`; when it faults,
`tryCallCatch` points the exception record at the frame, and the thread resumes at `popCatch`.

Both ways end with the SP, FP and LR of the call (`call_returns`, `caught_resumes`). The first
one restores X19..X28. The second one does not: the saved registers are copied behind the
frame instead of into the record, so that the thread goes on with those of the fault, and memory
that belongs to nobody is written (`caught_unlike_call`).

Memory is an array of bytes. Values of pointer type are addresses in it; `catchFuncs` is the
function object at an address, `none` where it is empty.
-/

namespace Wondar.Handler.Local

open A64 (Reg)
open Blocks

variable {heap : Type}

/-! ## Catch frames -/

/-- The memory of a thread. -/
structure Memory (heap : Type) where
  mem : Nat → BitVec 8
  heap : heap
  catchStackBottom : BitVec 64

/-- The constructor of `CatchStackFrame`: `savedRegisters`, `sp`, `fp`, `lr`, `pc`, `catchFunc`
and `parentFrame`, in order. -/
def constructed (frame : Nat) (func : BitVec 64) : List (Nat × BitVec 64) :=
  (List.range 10).map (fun i => (frame + 8 * i, 0#64)) ++
    [(frame + 0x50, 0#64), (frame + 0x58, 0#64), (frame + 0x60, 0#64), (frame + 0x68, 0#64),
      (frame + 0x70, func), (frame + 0x78, 0#64)]

/-- `pushCatch`; nothing where `malloc` returns null, to which the constructor writes. -/
def pushCatch (A : Allocator heap) (popCatch : BitVec 64) (m : Memory heap)
    (func sp fp : BitVec 64) : Option (Nat × Memory heap) :=
  (A.alloc m.heap 0x80).map fun (newFrame, heap) =>
    (newFrame,
      { mem := storeAll (storeAll m.mem (constructed newFrame func))
          [(newFrame + 0x78, m.catchStackBottom), (newFrame + 0x68, popCatch),
            (newFrame + 0x50, sp), (newFrame + 0x58, fp)]
        heap := heap
        catchStackBottom := BitVec.ofNat 64 newFrame })

/-- `popCatch`; nothing where the assertion fails. -/
def popCatch (A : Allocator heap) (m : Memory heap) : Option (Memory heap) :=
  if m.catchStackBottom = 0#64 then none
  else
    some
      { mem := m.mem
        heap := A.free m.heap m.catchStackBottom.toNat
        catchStackBottom := load64 m.mem (m.catchStackBottom.toNat + 0x78) }

/-- The destination begins at `savedRegisters[startingRegister]`. -/
def copied (mem : Nat → BitVec 8) (frame : Nat) : List (Nat × BitVec 64) :=
  (List.range 10).map fun i => (frame + 8 * (19 + i), load64 mem (frame + 8 * i))

/-- `!frame->catchFunc || frame->catchFunc(tempInfo)`. -/
def catches (catchFunc : Option CatchFunc) (tempInfo : ExceptionInfo) : Bool :=
  catchFunc.elim true fun catchFunc => (catchFunc tempInfo).1

/-- What `tryCallCatch` returns, the record behind it, what it writes to memory, and the frames
whose catch function it asks, with the function object. -/
structure Catching where
  action : CatchAction
  info : ExceptionInfo
  stores : List (Nat × BitVec 64)
  asked : List (Nat × BitVec 64)

/-- `tryCallCatch`. -/
def tryCallCatch (catchFuncs : BitVec 64 → Option CatchFunc) (m : Memory heap)
    (info : ExceptionInfo) : Catching :=
  if m.catchStackBottom = 0#64 then ⟨.skip, info, [], []⟩
  else
    let frame := m.catchStackBottom.toNat
    let catchFunc := load64 m.mem (frame + 0x70)
    if catches (catchFuncs catchFunc) info then
      { action := .continue
        info :=
          { info with
            sp := load64 m.mem (frame + 0x50)
            fp := load64 m.mem (frame + 0x58)
            lr := load64 m.mem (frame + 0x60)
            pc := load64 m.mem (frame + 0x68) }
        stores := copied m.mem frame
        asked := [(frame, catchFunc)] }
    else ⟨.exit, info, [], [(frame, catchFunc)]⟩

/-- The innermost frame, which is all that phase three looks at. -/
def catchStack (catchFuncs : BitVec 64 → Option CatchFunc) (m : Memory heap) :
    List CatchStackFrame :=
  if m.catchStackBottom = 0#64 then []
  else
    let frame := m.catchStackBottom.toNat
    [{ sp := load64 m.mem (frame + 0x50)
       fp := load64 m.mem (frame + 0x58)
       lr := load64 m.mem (frame + 0x60)
       pc := load64 m.mem (frame + 0x68)
       catchFunc := catchFuncs (load64 m.mem (frame + 0x70)) }]

/-- What phase three decides about the frame in memory. -/
theorem tryCallCatch_eq (catchFuncs : BitVec 64 → Option CatchFunc) (m : Memory heap)
    (info : ExceptionInfo) :
    Handler.tryCallCatch (catchStack catchFuncs m) info =
      ((tryCallCatch catchFuncs m info).action, (tryCallCatch catchFuncs m info).info) := by
  by_cases hNull : m.catchStackBottom = 0#64
  · simp only [catchStack, tryCallCatch, if_pos hNull, Handler.tryCallCatch]
  · simp only [catchStack, tryCallCatch, if_neg hNull, Handler.tryCallCatch]
    cases catchFuncs (load64 m.mem (m.catchStackBottom.toNat + 0x70)) with
    | none => rfl
    | some catchFunc =>
      cases hReply : (catchFunc info).1 <;> simp [catches, hReply]

/-! ## The assembly -/

/-- The pairs and offsets of the frame that both halves of `tryCatch` list. -/
def framePairs : List (Reg × Reg × Nat) :=
  [(19, 20, 0x00), (21, 22, 0x10), (23, 24, 0x20), (25, 26, 0x30), (27, 28, 0x40)]

/-- Store registers in the frame. -/
def saved (x : Reg → BitVec 64) (frame : Nat) : List (Nat × BitVec 64) :=
  framePairs.flatMap fun (rt, rt2, off) => [(frame + off, x rt), (frame + off + 8, x rt2)]

/-- A C++ function keeps X19..X29, and leaves anything in the other registers. -/
def called (scratch x : Reg → BitVec 64) (r : Reg) : BitVec 64 :=
  if 19 ≤ r.toNat ∧ r.toNat ≤ 29 then x r else scratch r

/-- `tryCatch` up to the call of `tryFunc`, which returns to `lr`. There have to be four
doublewords below the stack pointer. -/
def enterTry (A : Allocator heap) (popCatch lr : BitVec 64) (scratch : Reg → BitVec 64)
    (t : Thread) (m : Memory heap) : Option (Thread × Memory heap) :=
  let sp := t.sp.toNat
  if sp < 0x20 then none
  else
    let mem := storeAll m.mem [(sp - 0x20, t.x 29), (sp - 0x18, t.x 30), (sp - 0x8, t.x 0)]
    (pushCatch A popCatch { m with mem := mem } (t.x 1) t.sp (t.x 29)).map fun (frame, m) =>
      let mem := store64 m.mem (sp - 0x10) (BitVec.ofNat 64 frame)
      let mem := storeAll mem (saved t.x frame)
      let mem := store64 mem (frame + 0x60) (load64 mem (sp - 0x18))
      let tryFunc := load64 mem (sp - 0x8)
      let target := load64 mem (tryFunc.toNat + 0x18)
      let x := Function.update (called scratch t.x) 18 (BitVec.ofNat 64 frame)
      let x := Function.update (Function.update (Function.update x 0 tryFunc) 9 target) 30 lr
      ({ x := x, sp := t.sp - 0x20#64, pc := target, pstate := t.pstate }, { m with mem := mem })

/-- Load them back. -/
def restored (mem : Nat → BitVec 8) (frame : Nat) (x : Reg → BitVec 64) : Reg → BitVec 64 :=
  framePairs.foldl (fun x (rt, rt2, off) =>
    Function.update (Function.update x rt (load64 mem (frame + off))) rt2
      (load64 mem (frame + off + 8))) x

/-- `tryCatch` from the return of `tryFunc` to the branch to `popCatch`. -/
def leaveTry (popCatch : BitVec 64) (mem : Nat → BitVec 8) (t : Thread) : Thread :=
  let sp := t.sp + 0x20#64
  let frame := load64 mem (sp.toNat - 0x10)
  let x := restored mem frame.toNat (Function.update t.x 0 frame)
  { t with
    x := Function.update (Function.update x 29 (load64 mem (sp.toNat - 0x20))) 30
      (load64 mem (sp.toNat - 0x18))
    sp := sp
    pc := popCatch }

/-- The thread behind `popCatch`. -/
def returned (scratch : Reg → BitVec 64) (t : Thread) : Thread :=
  { t with x := called scratch t.x, pc := t.x 30 }

/-! ## What a call leaves in memory -/

/-- The frame of a call with the registers `entry`. -/
structure FrameHolds (mem : Nat → BitVec 8) (frame : Nat) (popCatch before : BitVec 64)
    (entry : Thread) : Prop where
  savedRegisters : ∀ i < 10, load64 mem (frame + 8 * i) = entry.x (BitVec.ofNat 5 (19 + i))
  sp : load64 mem (frame + 0x50) = entry.sp
  fp : load64 mem (frame + 0x58) = entry.x 29
  lr : load64 mem (frame + 0x60) = entry.x 30
  pc : load64 mem (frame + 0x68) = popCatch
  catchFunc : load64 mem (frame + 0x70) = entry.x 1
  parentFrame : load64 mem (frame + 0x78) = before

/-- The doublewords below the stack pointer of the call. -/
structure StackHolds (mem : Nat → BitVec 8) (frame : Nat) (entry : Thread) : Prop where
  fp : load64 mem (entry.sp.toNat - 0x20) = entry.x 29
  lr : load64 mem (entry.sp.toNat - 0x18) = entry.x 30
  frame : load64 mem (entry.sp.toNat - 0x10) = BitVec.ofNat 64 frame

section

variable {A : Allocator heap} {popCatch lr : BitVec 64} {scratch : Reg → BitVec 64}
  {mem : Nat → BitVec 8} {frame : Nat} {m m' : Memory heap} {entry t : Thread}

theorem constructed_within {func : BitVec 64} :
    ∀ s ∈ constructed frame func, frame ≤ s.1 ∧ s.1 + 8 ≤ frame + 0x80 := by
  intro s hs
  rcases List.mem_append.mp hs with hs | hs
  · obtain ⟨i, hi, rfl⟩ := List.mem_map.mp hs
    have hLt := List.mem_range.mp hi
    simp only
    omega
  · simp only [List.mem_cons, List.not_mem_nil, or_false] at hs
    rcases hs with rfl | rfl | rfl | rfl | rfl | rfl <;> simp only <;> omega

theorem saved_within {x : Reg → BitVec 64} :
    ∀ s ∈ saved x frame, frame ≤ s.1 ∧ s.1 + 8 ≤ frame + 0x50 := by
  intro s hs
  obtain ⟨⟨rt, rt2, off⟩, hPair, hs⟩ := List.mem_flatMap.mp hs
  have hOff : off ≤ 0x40 := by
    simp only [framePairs, List.mem_cons, Prod.mk.injEq, List.not_mem_nil, or_false] at hPair
    omega
  simp only [List.mem_cons, List.not_mem_nil, or_false] at hs
  rcases hs with rfl | rfl <;> simp only <;> omega

theorem mem_saved {x : Reg → BitVec 64} {i : Nat} (hi : i < 10) :
    (frame + 8 * i, x (BitVec.ofNat 5 (19 + i))) ∈ saved x frame := by
  simp only [saved, framePairs, List.flatMap_cons, List.flatMap_nil, List.append_nil,
    List.cons_append, List.nil_append, List.mem_cons, Prod.mk.injEq, List.not_mem_nil, or_false]
  interval_cases i <;> simp

theorem saved_apart (x : Reg → BitVec 64) (frame : Nat) :
    (saved x frame).Pairwise fun s t => s.1 + 8 ≤ t.1 ∨ t.1 + 8 ≤ s.1 := by
  simp only [saved, framePairs, List.flatMap_cons, List.flatMap_nil, List.append_nil,
    List.cons_append, List.nil_append, List.pairwise_cons, List.mem_cons, List.not_mem_nil,
    forall_eq_or_imp]
  simp

theorem load64_constructed {func : BitVec 64} {a : Nat}
    (h : a + 8 ≤ frame ∨ frame + 0x80 ≤ a) :
    load64 (storeAll mem (constructed frame func)) a = load64 mem a := by
  apply load64_storeAll
  intro s hs
  obtain ⟨hLow, hHigh⟩ := constructed_within s hs
  omega

theorem load64_saved {x : Reg → BitVec 64} {a : Nat} (h : a + 8 ≤ frame ∨ frame + 0x50 ≤ a) :
    load64 (storeAll mem (saved x frame)) a = load64 mem a := by
  apply load64_storeAll
  intro s hs
  obtain ⟨hLow, hHigh⟩ := saved_within s hs
  omega

/-- What `pushCatch` leaves. -/
theorem pushCatch_spec {func sp fp : BitVec 64}
    (hPush : pushCatch A popCatch m func sp fp = some (frame, m')) :
    ∃ h', A.alloc m.heap 0x80 = some (frame, h') ∧ m'.heap = h' ∧
      m'.catchStackBottom = BitVec.ofNat 64 frame ∧
      load64 m'.mem (frame + 0x50) = sp ∧ load64 m'.mem (frame + 0x58) = fp ∧
      load64 m'.mem (frame + 0x68) = popCatch ∧ load64 m'.mem (frame + 0x70) = func ∧
      load64 m'.mem (frame + 0x78) = m.catchStackBottom ∧
      ∀ a, a + 8 ≤ frame ∨ frame + 0x80 ≤ a → load64 m'.mem a = load64 m.mem a := by
  obtain ⟨⟨p, h'⟩, hAlloc, hEq⟩ := Option.map_eq_some_iff.mp hPush
  cases hEq
  have hLast : [(frame + 0x78, m.catchStackBottom), (frame + 0x68, popCatch), (frame + 0x50, sp),
      (frame + 0x58, fp)].Pairwise fun s t : Nat × BitVec 64 =>
        s.1 + 8 ≤ t.1 ∨ t.1 + 8 ≤ s.1 := by
    simp [List.pairwise_cons]
  refine ⟨h', hAlloc, rfl, rfl, load64_storeAll_mem hLast (by simp),
    load64_storeAll_mem hLast (by simp), load64_storeAll_mem hLast (by simp), ?_,
    load64_storeAll_mem hLast (by simp), fun a ha => ?_⟩
  · rw [load64_storeAll (by simp), constructed, storeAll_append]
    exact load64_storeAll_mem (by simp [List.pairwise_cons]) (by simp)
  · rw [load64_storeAll (by simp; omega), load64_constructed ha]

/-- A frame that is allocated has an address. -/
theorem frame_toNat {h h' : heap} (hBound : ∀ h n p h', A.alloc h n = some (p, h') → p + n ≤ 2 ^ 64)
    (hAlloc : A.alloc h 0x80 = some (frame, h')) : (BitVec.ofNat 64 frame).toNat = frame := by
  have hEnd := hBound h 0x80 frame h' hAlloc
  rw [BitVec.toNat_ofNat, Nat.mod_eq_of_lt (by omega)]

/-- The doublewords that `tryCatch` uses lie apart from the frame. -/
def StackApart (entry : Thread) (frame : Nat) : Prop :=
  entry.sp.toNat ≤ frame ∨ frame + 0x80 ≤ entry.sp.toNat - 0x20

instance (entry : Thread) (frame : Nat) : Decidable (StackApart entry frame) :=
  inferInstanceAs (Decidable (_ ∨ _))

/-- The slots below the stack pointer that are written first. -/
theorem slots_apart {sp : Nat} (hRoom : 0x20 ≤ sp) (fp lr func : BitVec 64) :
    [(sp - 0x20, fp), (sp - 0x18, lr), (sp - 0x8, func)].Pairwise fun s t : Nat × BitVec 64 =>
      s.1 + 8 ≤ t.1 ∨ t.1 + 8 ≤ s.1 := by
  refine .cons (fun t ht => .inl ?_) (List.pairwise_pair.mpr (.inl (by dsimp only; omega)))
  simp only [List.mem_cons, List.not_mem_nil, or_false] at ht
  rcases ht with rfl | rfl <;> dsimp only <;> omega

/-- What is stored behind `pushCatch`: the slot of the frame, the registers and LR. -/
theorem load64_behind_pushCatch {x : Reg → BitVec 64} {slot a : Nat} (p val : BitVec 64)
    (hSlot : a + 8 ≤ slot ∨ slot + 8 ≤ a) (hSaved : a + 8 ≤ frame ∨ frame + 0x50 ≤ a)
    (hLr : a + 8 ≤ frame + 0x60 ∨ frame + 0x68 ≤ a) :
    load64 (store64 (storeAll (store64 mem slot p) (saved x frame)) (frame + 0x60) val) a =
      load64 mem a := by
  rw [load64_of_apart (by omega), load64_saved hSaved, load64_of_apart hSlot]

/-- What `tryFunc` is called with. -/
theorem enterTry_spec {inside : Thread}
    (hEnter : enterTry A popCatch lr scratch entry m = some (inside, m')) :
    0x20 ≤ entry.sp.toNat ∧ inside.sp = entry.sp - 0x20#64 ∧
      ∃ frame h', A.alloc m.heap 0x80 = some (frame, h') ∧ m'.heap = h' ∧
        m'.catchStackBottom = BitVec.ofNat 64 frame ∧
        (StackApart entry frame →
          FrameHolds m'.mem frame popCatch m.catchStackBottom entry ∧
            StackHolds m'.mem frame entry) ∧
        ∀ a, a + 8 ≤ frame ∨ frame + 0x80 ≤ a →
          a + 8 ≤ entry.sp.toNat - 0x20 ∨ entry.sp.toNat ≤ a →
          load64 m'.mem a = load64 m.mem a := by
  simp only [enterTry] at hEnter
  split at hEnter
  · cases hEnter
  · rename_i hRoom
    obtain ⟨⟨frame, m₁⟩, hPush, hEq⟩ := Option.map_eq_some_iff.mp hEnter
    obtain ⟨h', hAlloc, hHeap, hBottom, hSp, hFp, hPc, hFunc, hParent, hOutside⟩ :=
      pushCatch_spec hPush
    cases hEq
    have hRoom := Nat.not_lt.mp hRoom
    have hSlots := slots_apart hRoom (entry.x 29) (entry.x 30) (entry.x 0)
    refine ⟨hRoom, rfl, frame, h', hAlloc, hHeap, hBottom, fun hApart => ⟨?_, ?_⟩,
      fun a hFrame hStack => ?_⟩
    · unfold StackApart at hApart
      have hLrSlot : load64 m₁.mem (entry.sp.toNat - 0x18) = entry.x 30 := by
        rw [hOutside _ (by omega)]
        exact load64_storeAll_mem hSlots (by simp)
      constructor
      · intro i hi
        rw [load64_of_apart (by omega)]
        exact load64_storeAll_mem (saved_apart entry.x frame) (mem_saved hi)
      · rw [load64_behind_pushCatch _ _ (by omega) (by omega) (by omega), hSp]
      · rw [load64_behind_pushCatch _ _ (by omega) (by omega) (by omega), hFp]
      · rw [load64_store64, load64_saved (by omega), load64_of_apart (by omega), hLrSlot]
      · rw [load64_behind_pushCatch _ _ (by omega) (by omega) (by omega), hPc]
      · rw [load64_behind_pushCatch _ _ (by omega) (by omega) (by omega), hFunc]
      · rw [load64_behind_pushCatch _ _ (by omega) (by omega) (by omega), hParent]
    · unfold StackApart at hApart
      constructor
      · rw [load64_behind_pushCatch _ _ (by omega) (by omega) (by omega), hOutside _ (by omega)]
        exact load64_storeAll_mem hSlots (by simp)
      · rw [load64_behind_pushCatch _ _ (by omega) (by omega) (by omega), hOutside _ (by omega)]
        exact load64_storeAll_mem hSlots (by simp)
      · rw [load64_of_apart (by omega), load64_saved (by omega), load64_store64]
    · rw [load64_behind_pushCatch _ _ (by omega) (by omega) (by omega), hOutside _ hFrame]
      apply load64_storeAll
      intro s hs
      simp only [List.mem_cons, List.not_mem_nil, or_false] at hs
      rcases hs with rfl | rfl | rfl <;> dsimp only <;> omega

theorem FrameHolds.congr {mem' : Nat → BitVec 8} {before : BitVec 64}
    (h : FrameHolds mem frame popCatch before entry)
    (hSame : ∀ b, frame ≤ b → b < frame + 0x80 → mem' b = mem b) :
    FrameHolds mem' frame popCatch before entry := by
  have hLoad : ∀ off, off + 8 ≤ 0x80 → load64 mem' (frame + off) = load64 mem (frame + off) :=
    fun off hOff => load64_congr fun i hi => hSame _ (by omega) (by omega)
  constructor
  · intro i hi
    rw [hLoad _ (by omega), h.savedRegisters i hi]
  · rw [hLoad _ (by omega), h.sp]
  · rw [hLoad _ (by omega), h.fp]
  · rw [hLoad _ (by omega), h.lr]
  · rw [hLoad _ (by omega), h.pc]
  · rw [hLoad _ (by omega), h.catchFunc]
  · rw [hLoad _ (by omega), h.parentFrame]

theorem StackHolds.congr {mem' : Nat → BitVec 8} (h : StackHolds mem frame entry)
    (hRoom : 0x20 ≤ entry.sp.toNat)
    (hSame : ∀ b, entry.sp.toNat - 0x20 ≤ b → b < entry.sp.toNat → mem' b = mem b) :
    StackHolds mem' frame entry := by
  have hLoad : ∀ off, 8 ≤ off → off ≤ 0x20 →
      load64 mem' (entry.sp.toNat - off) = load64 mem (entry.sp.toNat - off) :=
    fun off hLow hHigh => load64_congr fun i hi => hSame _ (by omega) (by omega)
  constructor
  · rw [hLoad _ (by omega) (by omega), h.fp]
  · rw [hLoad _ (by omega) (by omega), h.lr]
  · rw [hLoad _ (by omega) (by omega), h.frame]

/-! ## The two ways out -/

/-- A thread that `tryCatch` returned to the caller. -/
structure Returned (entry t : Thread) : Prop where
  pc : t.pc = entry.x 30
  sp : t.sp = entry.sp
  fp : t.x 29 = entry.x 29
  calleeSaved : ∀ r : Reg, 19 ≤ r.toNat → r.toNat ≤ 28 → t.x r = entry.x r

theorem restored_x {x : Reg → BitVec 64} {r : Reg} (hLow : 19 ≤ r.toNat) (hHigh : r.toNat ≤ 28) :
    restored mem frame x r = load64 mem (frame + 8 * (r.toNat - 19)) := by
  obtain ⟨⟨n, hn⟩⟩ := r
  change 19 ≤ n at hLow
  change n ≤ 28 at hHigh
  interval_cases n <;> rfl

/-- `tryFunc` returns with the stack pointer it was called with. -/
theorem leaveTry_returns {before : BitVec 64} (hSp : t.sp = entry.sp - 0x20#64)
    (hBound : frame < 2 ^ 64) (hFrame : FrameHolds mem frame popCatch before entry)
    (hStack : StackHolds mem frame entry) (scratch : Reg → BitVec 64) :
    (leaveTry popCatch mem t).pc = popCatch ∧
      Returned entry (returned scratch (leaveTry popCatch mem t)) := by
  have hTop : t.sp + 0x20#64 = entry.sp := by rw [hSp, BitVec.sub_add_cancel]
  have hPointer : (load64 mem (entry.sp.toNat - 0x10)).toNat = frame := by
    rw [hStack.frame, BitVec.toNat_ofNat, Nat.mod_eq_of_lt hBound]
  refine ⟨rfl, ?_, hTop, ?_, fun r hLow hHigh => ?_⟩
  · change load64 mem ((t.sp + 0x20#64).toNat - 0x18) = entry.x 30
    rw [hTop, hStack.lr]
  · change load64 mem ((t.sp + 0x20#64).toNat - 0x20) = entry.x 29
    rw [hTop, hStack.fp]
  · have hNe : r ≠ 29 ∧ r ≠ 30 := ⟨by bv_omega, by bv_omega⟩
    have hKept : (returned scratch (leaveTry popCatch mem t)).x r = (leaveTry popCatch mem t).x r :=
      if_pos ⟨hLow, by omega⟩
    rw [hKept, leaveTry]
    dsimp only
    rw [Function.update_of_ne hNe.2, Function.update_of_ne hNe.1, restored_x hLow hHigh, hTop,
      hPointer, hFrame.savedRegisters _ (by omega), Nat.add_sub_cancel' hLow, BitVec.ofNat_toNat,
      BitVec.setWidth_eq]

/-- The record of a caught exception. -/
def caught (m : Memory heap) (info : ExceptionInfo) : ExceptionInfo :=
  { info with
    sp := load64 m.mem (m.catchStackBottom.toNat + 0x50)
    fp := load64 m.mem (m.catchStackBottom.toNat + 0x58)
    lr := load64 m.mem (m.catchStackBottom.toNat + 0x60)
    pc := load64 m.mem (m.catchStackBottom.toNat + 0x68) }

theorem tryCallCatch_continue {catchFuncs : BitVec 64 → Option CatchFunc} {info : ExceptionInfo}
    (hAccepts : (tryCallCatch catchFuncs m info).action = .continue) :
    tryCallCatch catchFuncs m info =
      ⟨.continue, caught m info, copied m.mem m.catchStackBottom.toNat,
        [(m.catchStackBottom.toNat, load64 m.mem (m.catchStackBottom.toNat + 0x70))]⟩ := by
  simp only [tryCallCatch] at hAccepts ⊢
  split at hAccepts
  · cases hAccepts
  · rename_i hNull
    rw [if_neg hNull]
    split at hAccepts
    · rename_i hCatches
      rw [if_pos hCatches]
      rfl
    · cases hAccepts

theorem tryCallCatch_bottom {catchFuncs : BitVec 64 → Option CatchFunc} {info : ExceptionInfo}
    (hAccepts : (tryCallCatch catchFuncs m info).action = .continue) : m.catchStackBottom ≠ 0#64 := by
  intro hNull
  simp only [tryCallCatch, if_pos hNull] at hAccepts
  cases hAccepts

theorem tryCallCatch_stores {catchFuncs : BitVec 64 → Option CatchFunc} {info : ExceptionInfo}
    (hRejects : (tryCallCatch catchFuncs m info).action ≠ .continue) :
    (tryCallCatch catchFuncs m info).stores = [] := by
  simp only [tryCallCatch] at hRejects ⊢
  split
  · rfl
  · rename_i hNull
    rw [if_neg hNull] at hRejects
    split
    · rename_i hCatches
      rw [if_pos hCatches] at hRejects
      exact absurd rfl hRejects
    · rfl

/-! ## A fault -/

/-- A fault that the kernel delivers, and what the phases meet on its way. -/
structure Fault where
  layout : Layout
  handlerFunc : Option CatchFunc
  exceptionType : ExceptionType
  syndrome : Syndrome
  trap : Syndrome
  scratch : Thread
  thread : Thread
  exceptionInfo : ExceptionInfo

/-- The first fault, and the trap of phase four. -/
structure Fault.Delivered (f : Fault) : Prop where
  isFault : ¬ IsTrap f.exceptionType f.syndrome.esr
  first : f.exceptionInfo.exceptionState ≠ .secondChance
  isTrap : IsTrap .invalidSystemCall f.trap.esr

/-- The record that the catch function is given. -/
def Fault.record (f : Fault) : ExceptionInfo :=
  savedInfo f.layout f.exceptionType f.syndrome f.thread f.exceptionInfo

def Fault.handled (f : Fault) (catchStack : List CatchStackFrame) :
    Option (Thread × ExceptionInfo) :=
  handleException f.layout ⟨f.handlerFunc, catchStack⟩ f.exceptionType f.syndrome f.trap f.scratch
    f.thread f.exceptionInfo

section

variable {catchFuncs : BitVec 64 → Option CatchFunc} {f : Fault} {before : BitVec 64}

/-- A caught fault resumes at `popCatch` with the SP, FP and LR of the call, and with the other
registers of the fault. -/
theorem caught_resumes (hDelivered : f.Delivered)
    (hAccepts : (tryCallCatch catchFuncs m f.record).action = .continue)
    (hFrame : FrameHolds m.mem m.catchStackBottom.toNat popCatch before entry) :
    ∃ t' e', f.handled (catchStack catchFuncs m) = some (t', e') ∧ t'.pc = popCatch ∧
      t'.sp = entry.sp ∧ t'.x 29 = entry.x 29 ∧ t'.x 30 = entry.x 30 ∧
      ∀ r : Reg, r.toNat ≤ 28 → t'.x r = f.thread.x r := by
  have hCaught : Handler.tryCallCatch (catchStack catchFuncs m) f.record =
      (.continue, caught m f.record) := by
    rw [tryCallCatch_eq, tryCallCatch_continue hAccepts]
  have hThree : phaseThreeHandler ⟨f.handlerFunc, catchStack catchFuncs m⟩ f.record =
      { caught m f.record with exceptionState := .continue } := by
    simp only [phaseThreeHandler, hCaught, if_true]
  obtain ⟨t', e', hRun, ⟨hX, hSp, hPc, -⟩, -⟩ :=
    handleException_decided f.layout f.syndrome f.scratch f.thread hDelivered.isFault
      hDelivered.first hDelivered.isTrap hThree rfl
  refine ⟨t', e', hRun, hPc.trans hFrame.pc, hSp.trans hFrame.sp,
    (hX 29 (by decide)).trans hFrame.fp, (hX 30 (by decide)).trans hFrame.lr, fun r hr => ?_⟩
  have hNot : r ≠ 31#5 := by bv_omega
  have hRecord : f.record.thread.x r = f.thread.x r :=
    (savedInfo_same f.layout f.exceptionType f.syndrome f.thread f.exceptionInfo).1 r hNot
  rw [hX r hNot, ← hRecord]
  simp only [ExceptionInfo.thread, dif_pos (show r.toNat < 29 by omega)]
  rfl

/-! ## Catching like a call -/

/-- The fault is caught, and `tryCatch` returns like a call. -/
def ReturnsLikeCall (catchFuncs : BitVec 64 → Option CatchFunc) (popCatch : BitVec 64)
    (scratch : Reg → BitVec 64) (f : Fault) (m : Memory heap) (entry : Thread) : Prop :=
  ∃ t' e', f.handled (catchStack catchFuncs m) = some (t', e') ∧ t'.pc = popCatch ∧
    Returned entry (returned scratch t')

/-- `tryCallCatch` writes to the record and to the frame only. -/
def WritesInside (catchFuncs : BitVec 64 → Option CatchFunc) (f : Fault) (m : Memory heap) : Prop :=
  ∀ s ∈ (tryCallCatch catchFuncs m f.record).stores,
    m.catchStackBottom.toNat ≤ s.1 ∧ s.1 + 8 ≤ m.catchStackBottom.toNat + 0x80

def CaughtLikeCall (catchFuncs : BitVec 64 → Option CatchFunc) (popCatch : BitVec 64)
    (scratch : Reg → BitVec 64) (f : Fault) (m : Memory heap) (entry : Thread) : Prop :=
  ReturnsLikeCall catchFuncs popCatch scratch f m entry ∧ WritesInside catchFuncs f m

/-- `tryFunc` leaves the frame and the catch stack as they are. -/
structure KeepsFrame (m m' : Memory heap) : Prop where
  bottom : m'.catchStackBottom = m.catchStackBottom
  bytes : ∀ b, m.catchStackBottom.toNat ≤ b → b < m.catchStackBottom.toNat + 0x80 →
    m'.mem b = m.mem b

/-- The copy of X19 goes behind the frame. -/
theorem not_writesInside (hAccepts : (tryCallCatch catchFuncs m f.record).action = .continue) :
    ¬ WritesInside catchFuncs f m := by
  intro hInside
  rw [WritesInside, tryCallCatch_continue hAccepts] at hInside
  have hFirst := hInside _ (List.mem_map.mpr ⟨0, List.mem_range.mpr (by decide), rfl⟩)
  omega

/-- Only X19..X28 are not those of the call. -/
theorem returnsLikeCall_iff (hDelivered : f.Delivered)
    (hAccepts : (tryCallCatch catchFuncs m f.record).action = .continue)
    (hFrame : FrameHolds m.mem m.catchStackBottom.toNat popCatch before entry) :
    ReturnsLikeCall catchFuncs popCatch scratch f m entry ↔
      ∀ r : Reg, 19 ≤ r.toNat → r.toNat ≤ 28 → f.thread.x r = entry.x r := by
  obtain ⟨t', e', hRun, hPc, hSp, hFp, hLr, hX⟩ := caught_resumes hDelivered hAccepts hFrame
  have hKept : ∀ r : Reg, 19 ≤ r.toNat → r.toNat ≤ 29 → (returned scratch t').x r = t'.x r :=
    fun r hLow hHigh => if_pos ⟨hLow, hHigh⟩
  constructor
  · rintro ⟨t, e, hSome, -, hReturned⟩ r hLow hHigh
    obtain ⟨rfl, rfl⟩ := Prod.mk.inj (Option.some.inj (hRun.symm.trans hSome))
    rw [← hX r hHigh, ← hKept r hLow (by omega)]
    exact hReturned.calleeSaved r hLow hHigh
  · intro hSame
    refine ⟨t', e', hRun, hPc, hLr, hSp, (hKept 29 (by decide) (by decide)).trans hFp, ?_⟩
    intro r hLow hHigh
    rw [hKept r hLow (by omega), hX r hHigh, hSame r hLow hHigh]

/-- What `tryCatch` saved is still there when `tryFunc` returns or faults. -/
theorem KeepsFrame.holds {inside : Thread}
    (hBound : ∀ h n p h', A.alloc h n = some (p, h') → p + n ≤ 2 ^ 64)
    (hEnter : enterTry A popCatch lr scratch entry m = some (inside, m'))
    (hApart : StackApart entry m'.catchStackBottom.toNat) {later : Memory heap}
    (hKeeps : KeepsFrame m' later) :
    FrameHolds later.mem later.catchStackBottom.toNat popCatch m.catchStackBottom entry ∧
      StackHolds m'.mem later.catchStackBottom.toNat entry ∧ 0x20 ≤ entry.sp.toNat ∧
      inside.sp = entry.sp - 0x20#64 := by
  obtain ⟨hRoom, hSp, frame, h', hAlloc, -, hBottom, hHolds, -⟩ := enterTry_spec hEnter
  have hFrame : m'.catchStackBottom.toNat = frame := by rw [hBottom, frame_toNat hBound hAlloc]
  have hBytes := hKeeps.bytes
  rw [hKeeps.bottom]
  rw [hFrame] at hApart hBytes ⊢
  exact ⟨(hHolds hApart).1.congr hBytes, (hHolds hApart).2, hRoom, hSp⟩

/-- `tryCatch` is called, and `tryFunc` returns. -/
theorem call_returns {inside : Thread}
    (hBound : ∀ h n p h', A.alloc h n = some (p, h') → p + n ≤ 2 ^ 64)
    (hEnter : enterTry A popCatch lr scratch entry m = some (inside, m'))
    (hApart : StackApart entry m'.catchStackBottom.toNat) {atReturn : Memory heap}
    (hKeeps : KeepsFrame m' atReturn)
    (hStack : ∀ b, entry.sp.toNat - 0x20 ≤ b → b < entry.sp.toNat → atReturn.mem b = m'.mem b)
    (hSp : t.sp = inside.sp) :
    Returned entry (returned scratch (leaveTry popCatch atReturn.mem t)) := by
  obtain ⟨hSaved, hSlots, hRoom, hInside⟩ := hKeeps.holds hBound hEnter hApart
  exact (leaveTry_returns (hSp.trans hInside) (BitVec.isLt _) hSaved (hSlots.congr hRoom hStack)
    scratch).2

/-- `tryCatch` is called, `tryFunc` faults, and the exception is caught. The thread returns like
from a call if and only if X19..X28 are at the fault what they were at the call, and what
`tryCallCatch` writes is never inside of the frame. -/
theorem caught_unlike_call {inside : Thread}
    (hBound : ∀ h n p h', A.alloc h n = some (p, h') → p + n ≤ 2 ^ 64)
    (hEnter : enterTry A popCatch lr scratch entry m = some (inside, m'))
    (hApart : StackApart entry m'.catchStackBottom.toNat) {atFault : Memory heap}
    (hKeeps : KeepsFrame m' atFault) (hDelivered : f.Delivered)
    (hAccepts : (tryCallCatch catchFuncs atFault f.record).action = .continue) :
    (ReturnsLikeCall catchFuncs popCatch scratch f atFault entry ↔
        ∀ r : Reg, 19 ≤ r.toNat → r.toNat ≤ 28 → f.thread.x r = entry.x r) ∧
      ¬ CaughtLikeCall catchFuncs popCatch scratch f atFault entry := by
  obtain ⟨hSaved, -⟩ := hKeeps.holds hBound hEnter hApart
  exact ⟨returnsLikeCall_iff hDelivered hAccepts hSaved,
    fun hLike => not_writesInside hAccepts hLike.2⟩

end

end

/-! ## A lost register -/

def sampleMemory : Memory Arena where
  mem _ := 0#8
  heap := ⟨0x1000, 0x10000, [], by simp, by decide⟩
  catchStackBottom := 0#64

/-- The thread has changed X19 before it faults. -/
def sampleCaught : Fault where
  layout := ⟨0x10#64, 0x20#64, 0x30#64⟩
  handlerFunc := none
  exceptionType := .dataAbort
  syndrome := ⟨0#32, 0#32, 0x92000006#32, 0#64⟩
  trap := ⟨0#32, 0#32, 0x5600beef#32, 0#64⟩
  scratch := sampleThread
  thread := { sampleThread with x := Function.update sampleThread.x 19 7#64 }
  exceptionInfo := sampleInfo

/-- The call of the sample thread. -/
def sampleEnter : Option (Thread × Memory Arena) :=
  enterTry (Arena.allocator.within (2 ^ 64)) 0x40#64 0x50#64 sampleThread.x sampleThread sampleMemory

/-- An empty catch function accepts the fault. -/
theorem caught_unlike_call_sample :
    ∃ inside m', sampleEnter = some (inside, m') ∧
      (ReturnsLikeCall (fun _ => none) 0x40#64 sampleThread.x sampleCaught m' sampleThread ↔
          ∀ r : Reg, 19 ≤ r.toNat → r.toNat ≤ 28 → sampleCaught.thread.x r = sampleThread.x r) ∧
        ¬ CaughtLikeCall (fun _ => none) 0x40#64 sampleThread.x sampleCaught m' sampleThread := by
  refine ⟨_, _, rfl, ?_⟩
  exact caught_unlike_call (fun _ _ _ _ hAlloc => (Allocator.alloc_within hAlloc).2)
    (show sampleEnter = some (_, _) from rfl) (by decide) ⟨rfl, fun _ _ _ => rfl⟩
    ⟨by decide, by decide, by decide⟩ rfl

/-- The thread goes on with the X19 of the fault, and that of the call is behind the frame. -/
theorem caught_loses_register :
    ∃ inside m', sampleEnter = some (inside, m') ∧ sampleCaught.Delivered ∧
      (tryCallCatch (fun _ => none) m' sampleCaught.record).action = .continue ∧
      ¬ ReturnsLikeCall (fun _ => none) 0x40#64 sampleThread.x sampleCaught m' sampleThread ∧
      ¬ CaughtLikeCall (fun _ => none) 0x40#64 sampleThread.x sampleCaught m' sampleThread := by
  have hDelivered : sampleCaught.Delivered := ⟨by decide, by decide, by decide⟩
  refine ⟨_, _, rfl, hDelivered, rfl, fun hReturns => ?_, fun hLike => not_writesInside rfl hLike.2⟩
  obtain ⟨-, -, frame, h', hAlloc, -, -, hHolds, -⟩ :=
    enterTry_spec (show sampleEnter = some (_, _) from rfl)
  cases hAlloc
  have hSame := (returnsLikeCall_iff hDelivered rfl (hHolds (.inl (by decide))).1).mp hReturns 19
    (by decide) (by decide)
  exact absurd hSame (by decide)

end Wondar.Handler.Local
