import Wondar.PushPop
import Wondar.Reloc.Binding

/-!
# The resolver

A slot that has not been bound leads, through the first entry of the PLT, to
`__rtld_runtime_resolve`. It saves the registers that arguments are passed in, calls
`__rtld_lazy_bind_symbol` for the module and the index of the slot, stores the address in the slot,
and branches to it with the registers as they were.

`runtimeResolve_spec`: the function that was called starts as if it had been called directly, and
the memory is that of `callPlt`.
-/

namespace Wondar.Reloc

open A64 (Addr)
open Blocks PushPop Updates

/-! ## The instructions -/

inductive Ins
  | ldrSp (rt : Reg)
  | strSp (rt : Reg)
  | str (rt rn : Reg)
  | ldur (rt rn : Reg) (imm : BitVec 9)
  | stp (p : Pair)
  | ldp (p : Pair)
  | movSp (rd : Reg)
  | mov (rd rm : Reg)
  | sub (rd rn rm : Reg)
  | subImm (rd rn : Reg) (imm : BitVec 12)
  | lsr (rd rn : Reg) (shift : Nat)
  | bl
deriving DecidableEq, Repr

def setX (s : Core) (r : Reg) (val : BitVec 64) : Core := { s with x := Function.update s.x r val }

/-- `call` is what `bl` does until the return; it leaves the link register to `call`, too. -/
def Ins.exec (call : Core → Core) (s : Core) : Ins → Core
  | .ldrSp rt => setX s rt (load64 s.mem s.sp.toNat)
  | .strSp rt => { s with mem := store64 s.mem s.sp.toNat (s.x rt) }
  | .str rt rn => { s with mem := store64 s.mem (s.x rn).toNat (s.x rt) }
  | .ldur rt rn imm => setX s rt (load64 s.mem (s.x rn + imm.signExtend 64).toNat)
  | .stp p => s.push p
  | .ldp p => s.pop p
  | .movSp rd => setX s rd s.sp
  | .mov rd rm => setX s rd (s.x rm)
  | .sub rd rn rm => setX s rd (s.x rn - s.x rm)
  | .subImm rd rn imm => setX s rd (s.x rn - imm.setWidth 64)
  | .lsr rd rn shift => setX s rd (s.x rn >>> shift)
  | .bl => call s

def rtldRuntimeResolve : List Ins :=
  [.ldrSp 17, .strSp 29,
    .stp (.x 8 19), .stp (.x 6 7), .stp (.x 4 5), .stp (.x 2 3), .stp (.x 0 1),
    .stp (.q 6 7), .stp (.q 4 5), .stp (.q 2 3), .stp (.q 0 1),
    .movSp 29, .mov 19 17,
    .sub 1 17 16, .subImm 1 1 8, .lsr 1 1 3, .ldur 0 16 (-8),
    .bl,
    .str 0 19, .mov 16 0,
    .ldp (.q 0 1), .ldp (.q 2 3), .ldp (.q 4 5), .ldp (.q 6 7),
    .ldp (.x 0 1), .ldp (.x 2 3), .ldp (.x 4 5), .ldp (.x 6 7), .ldp (.x 8 19), .ldp (.x 29 30)]

/-- Up to the last instruction, `br x16`. -/
def runtimeResolve (call : Core → Core) (s : Core) : Core :=
  rtldRuntimeResolve.foldl (Ins.exec call) s

/-! ## The parts -/

/-- The pairs that are pushed below x29 and x30. -/
def saveFrame : List Pair :=
  [.x 8 19, .x 6 7, .x 4 5, .x 2 3, .x 0 1, .q 6 7, .q 4 5, .q 2 3, .q 0 1]

/-- The address of the slot is in x17, and x29 takes its place. -/
def slotTaken (s : Core) : Core :=
  { s with
    x := Function.update s.x 17 (load64 s.mem s.sp.toNat)
    mem := store64 s.mem s.sp.toNat (s.x 29) }

/-- The module and the index are in x0 and x1. -/
def argumentsSet (s : Core) : Core :=
  let slot := s.x 17
  { s with
    x := Function.update (Function.update (Function.update (Function.update s.x 29 s.sp) 19 slot) 1
      ((slot - s.x 16 - 8#64) >>> 3)) 0 (load64 s.mem (s.x 16 - 8#64).toNat) }

/-- The state at `bl`. -/
def atCall (s : Core) : Core := argumentsSet ((slotTaken s).pushAll saveFrame)

/-- The address is in its slot, and in x16. -/
def slotStored (s : Core) : Core :=
  { s with
    x := Function.update s.x 16 (s.x 0)
    mem := store64 s.mem (s.x 19).toNat (s.x 0) }

theorem argumentsSet_eq (call : Core → Core) (s : Core) :
    ((rtldRuntimeResolve.drop 11).take 6).foldl (Ins.exec call) s = argumentsSet s := by
  have hOffset : (-8 : BitVec 9).signExtend 64 = -8#64 := by decide
  have hImm : (8 : BitVec 12).setWidth 64 = 8#64 := rfl
  simp only [rtldRuntimeResolve, List.drop_succ_cons, List.drop_zero, List.take_succ_cons,
    List.take_zero, List.foldl_cons, List.foldl_nil, Ins.exec, setX, argumentsSet, hImm, hOffset,
    Function.update_self, Function.update_idem, ← BitVec.sub_eq_add_neg]
  simp only [ne_eq, BitVec.reduceEq, not_false_eq_true, Function.update_of_ne]

/-- The instructions before the call, and those behind it. -/
theorem runtimeResolve_eq (call : Core → Core) (s : Core) :
    runtimeResolve call s =
      ((slotStored (call (atCall s))).popAll saveFrame).pop (.x 29 30) := by
  have hSplit : rtldRuntimeResolve = rtldRuntimeResolve.take 11 ++
      ((rtldRuntimeResolve.drop 11).take 6 ++ .bl :: rtldRuntimeResolve.drop 18) := rfl
  have hEnter : (rtldRuntimeResolve.take 11).foldl (Ins.exec call) s =
      (slotTaken s).pushAll saveFrame := rfl
  have hLeave : ∀ t, (rtldRuntimeResolve.drop 18).foldl (Ins.exec call) t =
      ((slotStored t).popAll saveFrame).pop (.x 29 30) := fun _ => rfl
  rw [runtimeResolve, hSplit, List.foldl_append, List.foldl_append, List.foldl_cons, hEnter,
    argumentsSet_eq, hLeave]
  rfl

/-! ## A call that has not been bound -/

variable {L : Linker} {rounds : Nat} {m : ModuleObject} {stub : Addr} {i lo b : Nat} {a : Addr}
  {call : Core → Core} {s : Core} {mem' : Memory}

/-- The part of the stack that the resolver may use. -/
def OnStack (lo : Nat) (s : Core) (b : Nat) : Prop := lo ≤ b ∧ b < s.sp.toNat + 16

instance (lo : Nat) (s : Core) (b : Nat) : Decidable (OnStack lo s b) :=
  inferInstanceAs (Decidable (_ ∧ _))

/-- What the procedure call standard promises of `__rtld_lazy_bind_symbol`, and what it returns. It
looks up, and writes nothing but its own stack. -/
structure LazyBind (L : Linker) (rounds lo : Nat) (call : Core → Core) : Prop where
  returns : ∀ s a, L.rtldLazyBindSymbol rounds (L.objects (s.x 0)) (s.x 1) = some a →
    (call s).x 0 = a
  sp : ∀ s, (call s).sp = s.sp
  saved : ∀ s r, 19 ≤ r.toNat → r.toNat ≤ 29 → (call s).x r = s.x r
  mem : ∀ s b, ¬ (lo ≤ b ∧ b < s.sp.toNat) → (call s).mem b = s.mem b

/-- Where the first entry of the PLT branches to the resolver, for slot `i`: ip0 is `&PLTGOT[2]`, the
address of the slot is on the stack, and the link register behind it. -/
structure AtResolver (L : Linker) (m : ModuleObject) (i lo : Nat) (s : Core) : Prop where
  ip0 : s.x 16 = m.got + 16#64
  slot : load64 s.mem s.sp.toNat = m.got + 8#64 * BitVec.ofNat 64 (i + 3)
  object : L.objects (load64 s.mem (m.got + 8#64).toNat) = m
  index : i < 2 ^ 60
  room : lo + 208 ≤ s.sp.toNat
  gotApart : ∀ k < 8, ¬ OnStack lo s ((m.got + 8#64).toNat + k)
  slotApart : ∀ k < 8, ¬ OnStack lo s (m.slotAt i + k)

theorem sizeAll_saveFrame : sizeAll saveFrame = 208 := rfl

/-- The pairs fit on the stack. -/
theorem fits_saveFrame (h : lo + 208 ≤ s.sp.toNat) : sizeAll saveFrame ≤ (slotTaken s).sp.toNat :=
  Nat.le_trans (Nat.le_add_left ..) h

theorem slotTaken_x : (slotTaken s).x = Function.update s.x 17 (load64 s.mem s.sp.toNat) := rfl

theorem slotTaken_mem (h : ¬ (s.sp.toNat ≤ b ∧ b < s.sp.toNat + 8)) :
    (slotTaken s).mem b = s.mem b := store64_frame (by omega)

/-- At the call, the memory outside of the stack is as it was. -/
theorem atCall_mem (hRoom : lo + 208 ≤ s.sp.toNat) (h : ¬ OnStack lo s b) :
    (atCall s).mem b = s.mem b := by
  unfold OnStack at h
  have hFrame : ((slotTaken s).pushAll saveFrame).mem b = (slotTaken s).mem b := by
    refine pushAll_frame (fits_saveFrame hRoom) ?_
    rw [sizeAll_saveFrame]
    show b < s.sp.toNat - 208 ∨ s.sp.toNat ≤ b
    omega
  exact hFrame.trans (slotTaken_mem (by omega))

theorem atCall_sp (hRoom : lo + 208 ≤ s.sp.toNat) : (atCall s).sp.toNat = s.sp.toNat - 208 :=
  pushAll_sp (s := slotTaken s) (fits_saveFrame hRoom)

theorem atCall_x {r : Reg} (h : r ≠ 29 ∧ r ≠ 19 ∧ r ≠ 17 ∧ r ≠ 1 ∧ r ≠ 0) :
    (atCall s).x r = s.x r := by
  obtain ⟨h29, h19, h17, h1, h0⟩ := h
  rw [atCall, argumentsSet]
  dsimp only
  rw [Function.update_of_ne h0, Function.update_of_ne h1, Function.update_of_ne h19,
    Function.update_of_ne h29, pushAll_x, slotTaken_x, Function.update_of_ne h17]

/-- `(ip1 - ip0 - 8) / 8`. -/
theorem index_of_slot (got : Addr) (hi : i < 2 ^ 60) :
    (got + 8#64 * BitVec.ofNat 64 (i + 3) - (got + 16#64) - 8#64) >>> 3 = BitVec.ofNat 64 i := by
  have hBytes : got + 8#64 * BitVec.ofNat 64 (i + 3) - (got + 16#64) - 8#64 =
      BitVec.ofNat 64 (8 * i) := by
    apply BitVec.eq_of_toNat_eq
    simp only [BitVec.toNat_sub, BitVec.toNat_add, BitVec.toNat_mul, BitVec.toNat_ofNat]
    omega
  apply BitVec.eq_of_toNat_eq
  rw [hBytes, BitVec.toNat_ushiftRight, BitVec.toNat_ofNat, BitVec.toNat_ofNat,
    Nat.shiftRight_eq_div_pow]
  omega

/-- The arguments are the module and the index. -/
theorem AtResolver.arguments (h : AtResolver L m i lo s) :
    L.objects ((atCall s).x 0) = m ∧ (atCall s).x 1 = BitVec.ofNat 64 i ∧
      ((atCall s).x 19).toNat = m.slotAt i := by
  have hSlot : ((slotTaken s).pushAll saveFrame).x 17 =
      m.got + 8#64 * BitVec.ofNat 64 (i + 3) := by
    rw [pushAll_x, slotTaken_x, Function.update_self, h.slot]
  have hIp0 : ((slotTaken s).pushAll saveFrame).x 16 = m.got + 16#64 := by
    rw [pushAll_x, slotTaken_x, Function.update_of_ne (by decide), h.ip0]
  have hObject : load64 ((slotTaken s).pushAll saveFrame).mem (m.got + 8#64).toNat =
      load64 s.mem (m.got + 8#64).toNat :=
    load64_congr fun k hk => atCall_mem h.room (h.gotApart k hk)
  have hBehind : m.got + 16#64 - 8#64 = m.got + 8#64 := by
    rw [show (16#64 : Addr) = 8#64 + 8#64 from rfl, ← BitVec.add_assoc, BitVec.add_sub_cancel]
  refine ⟨?_, ?_, ?_⟩
  · rw [atCall, argumentsSet]
    dsimp only
    rw [Function.update_self, hIp0, hBehind, hObject, h.object]
  · rw [atCall, argumentsSet]
    dsimp only
    rw [Function.update_of_ne (by decide), Function.update_self, hSlot, hIp0,
      index_of_slot m.got h.index]
  · rw [atCall, argumentsSet]
    dsimp only
    rw [Function.update_of_ne (by decide), Function.update_of_ne (by decide), Function.update_self,
      hSlot]
    rfl

/-- What the call leaves: the address, the slot, and the memory above its stack. -/
structure Called (m : ModuleObject) (i lo : Nat) (a : Addr) (s t : Core) : Prop where
  address : t.x 0 = a
  slot : (t.x 19).toNat = m.slotAt i
  sp : t.sp = (atCall s).sp
  saved : ∀ r : Reg, 20 ≤ r.toNat → r.toNat ≤ 28 → t.x r = s.x r
  mem : ∀ b, s.sp.toNat - 208 ≤ b ∨ b < lo → t.mem b = (atCall s).mem b

theorem called (hCall : LazyBind L rounds lo call) (h : AtResolver L m i lo s)
    (hBind : L.rtldLazyBindSymbol rounds m (BitVec.ofNat 64 i) = some a) :
    Called m i lo a s (call (atCall s)) := by
  obtain ⟨hObject, hIndex, hSlot⟩ := h.arguments
  constructor
  · apply hCall.returns
    rw [hObject, hIndex, hBind]
  · rw [hCall.saved _ 19 (by decide) (by decide), hSlot]
  · exact hCall.sp _
  · intro r hLow hHigh
    rw [hCall.saved _ r (by omega) (by omega)]
    exact atCall_x (by refine ⟨?_, ?_, ?_, ?_, ?_⟩ <;> rintro rfl <;> revert hLow hHigh <;> decide)
  · intro b hb
    apply hCall.mem
    rw [atCall_sp h.room]
    omega

/-- The slot is not on the stack. -/
theorem Called.stack_mem {t : Core} (ht : Called m i lo a s t) (h : AtResolver L m i lo s)
    (hLow : s.sp.toNat - 208 ≤ b) (hHigh : b < s.sp.toNat + 16) :
    (slotStored t).mem b = (atCall s).mem b := by
  have hRoom := h.room
  have hApart : b < m.slotAt i ∨ m.slotAt i + 8 ≤ b := by
    by_contra hInside
    refine h.slotApart (b - m.slotAt i) (by omega) ?_
    rw [show m.slotAt i + (b - m.slotAt i) = b by omega]
    exact ⟨by omega, hHigh⟩
  have hStored : (slotStored t).mem b = t.mem b := by
    rw [slotStored, ht.slot]
    exact store64_frame hApart
  exact hStored.trans (ht.mem b (Or.inl hLow))

/-- The pairs are popped where they were pushed. -/
theorem Called.popAll_eq {t : Core} (ht : Called m i lo a s t) (h : AtResolver L m i lo s) :
    (slotStored t).popAll saveFrame =
      { (slotStored t).restore (slotTaken s) saveFrame with sp := s.sp } :=
  popAll_pushAll (s := slotTaken s) (fits_saveFrame h.room) ht.sp
    fun _ hLow hHigh => ht.stack_mem h hLow (Nat.lt_of_lt_of_le hHigh (Nat.le_add_right ..))

/-- The last pair: x29, which had taken the place of the slot, and the link register. -/
theorem Called.lastPair {t : Core} (ht : Called m i lo a s t) (h : AtResolver L m i lo s) :
    load64 (slotStored t).mem s.sp.toNat = s.x 29 ∧
      load64 (slotStored t).mem (s.sp.toNat + 8) = load64 s.mem (s.sp.toNat + 8) := by
  have hAbove : ∀ b, s.sp.toNat ≤ b → b < s.sp.toNat + 16 →
      (slotStored t).mem b = (slotTaken s).mem b := by
    intro b hLow hHigh
    rw [ht.stack_mem h (Nat.le_trans (Nat.sub_le ..) hLow) hHigh]
    exact pushAll_frame (s := slotTaken s) (fits_saveFrame h.room) (Or.inr hLow)
  constructor
  · rw [load64_congr fun k hk => hAbove _ (Nat.le_add_right ..) (by omega)]
    exact load64_store64
  · rw [load64_congr fun k hk => hAbove (s.sp.toNat + 8 + k) (by omega) (by omega)]
    exact load64_of_apart (Or.inr (Nat.le_refl _))

theorem kept_saveFrame : ∀ r : Reg, r.toNat ≤ 8 ∨ r.toNat = 19 →
    saveFrame.any (Pair.hasX r) = true ∧ r ≠ 17 ∧ r ≠ 29 ∧ r ≠ 30 ∧ r ≠ 16 := by decide

theorem other_saveFrame : ∀ r : Reg, 20 ≤ r.toNat → r.toNat ≤ 28 →
    saveFrame.any (Pair.hasX r) = false ∧ r ≠ 29 ∧ r ≠ 30 ∧ r ≠ 16 := by decide

theorem args_saveFrame : ∀ r : Reg, r.toNat < 8 → saveFrame.any (Pair.hasV r) = true := by decide

/-- The registers that the resolver leaves. -/
theorem Called.left_x {t : Core} (ht : Called m i lo a s t) (h : AtResolver L m i lo s) :
    (((slotStored t).popAll saveFrame).pop (.x 29 30)).x =
      Function.update (Function.update ((slotStored t).restore (slotTaken s) saveFrame).x 29 (s.x 29))
        30 (load64 s.mem (s.sp.toNat + 8)) := by
  obtain ⟨hFirst, hSecond⟩ := ht.lastPair h
  rw [ht.popAll_eq h, ← hFirst, ← hSecond]
  rfl

theorem Called.kept {t : Core} (ht : Called m i lo a s t) (h : AtResolver L m i lo s) {r : Reg}
    (hr : r.toNat ≤ 8 ∨ 19 ≤ r.toNat ∧ r.toNat ≤ 29) :
    (((slotStored t).popAll saveFrame).pop (.x 29 30)).x r = s.x r := by
  rw [ht.left_x h]
  by_cases hFrame : r = 29
  · subst hFrame
    rw [Function.update_of_ne (by decide), Function.update_self]
  have hNot : r.toNat ≠ 29 := fun hSame => hFrame (BitVec.eq_of_toNat_eq hSame)
  by_cases hSaved : r.toNat ≤ 8 ∨ r.toNat = 19
  · obtain ⟨hMem, h17, h29, h30, -⟩ := kept_saveFrame r hSaved
    rw [Function.update_of_ne h30, Function.update_of_ne h29, restore_x hMem, slotTaken_x,
      Function.update_of_ne h17]
  · obtain ⟨hMem, h29, h30, h16⟩ := other_saveFrame r (by omega) (by omega)
    rw [Function.update_of_ne h30, Function.update_of_ne h29, restore_x_other hMem, slotStored]
    dsimp only
    rw [Function.update_of_ne h16, ht.saved r (by omega) (by omega)]

/-- **A call that has not been bound.** The resolver does what `callPlt` says: it branches to the
address that the slot is bound to and stores it in the slot, and nothing else outside of the stack
has changed. The registers that hold arguments, those that a function must keep, the stack pointer
and the link register are as at the call. -/
theorem runtimeResolve_spec (hCall : LazyBind L rounds lo call) (h : AtResolver L m i lo s)
    (hStub : load64 s.mem (m.slotAt i) = stub)
    (hPlt : callPlt L rounds m stub s.mem i = some (a, mem')) :
    (runtimeResolve call s).x 16 = a ∧
      (∀ r : Reg, r.toNat ≤ 8 ∨ 19 ≤ r.toNat ∧ r.toNat ≤ 29 →
        (runtimeResolve call s).x r = s.x r) ∧
      (runtimeResolve call s).x 30 = load64 s.mem (s.sp.toNat + 8) ∧
      (∀ r : Reg, r.toNat < 8 → (runtimeResolve call s).v r = s.v r) ∧
      (runtimeResolve call s).sp = s.sp + 16#64 ∧
      ∀ b, ¬ OnStack lo s b → (runtimeResolve call s).mem b = mem' b := by
  rw [callPlt, if_pos hStub, Option.map_eq_some_iff] at hPlt
  obtain ⟨a', hBind, hEq⟩ := hPlt
  obtain ⟨rfl, rfl⟩ := Prod.mk.inj hEq
  have ht := called hCall h hBind
  rw [runtimeResolve_eq]
  generalize call (atCall s) = t at ht
  refine ⟨?_, fun r hr => ht.kept h hr, ?_, fun r hr => ?_, ?_, fun b hb => ?_⟩
  · rw [ht.left_x h, Function.update_of_ne (by decide), Function.update_of_ne (by decide),
      restore_x_other (by decide), slotStored]
    dsimp only
    rw [Function.update_self, ht.address]
  · rw [ht.left_x h, Function.update_self]
  · rw [ht.popAll_eq h]
    exact restore_v (args_saveFrame r hr)
  · rw [ht.popAll_eq h]
    rfl
  · have hKept : t.mem b = s.mem b := by
      have hOff := hb
      unfold OnStack at hOff
      rw [ht.mem b (by omega), atCall_mem h.room hb]
    rw [ht.popAll_eq h]
    change (slotStored t).mem b = _
    rw [slotStored, ht.slot, ht.address]
    exact store64_congr hKept

/-! ## The first call of a function -/

/-- The slot names the stub, and its address is on the stack. -/
def pltMemory : Memory := storeAll (fun _ => 0#8) [(0x10118, 0x10000#64), (0x9000, 0x10118#64)]

def pltCore : Core where
  x r := if r = 16 then 0x10110#64 else 0#64
  v _ := 0#128
  sp := 0x9000#64
  mem := pltMemory

def pltCall (s : Core) : Core :=
  setX s 0 ((pltLinker.rtldLazyBindSymbol 2 (pltLinker.objects (s.x 0)) (s.x 1)).getD 0#64)

theorem plt_lazyBind : LazyBind pltLinker 2 0x8000 pltCall where
  returns s a h := by
    rw [pltCall, setX, h]
    dsimp only
    rw [Function.update_self, Option.getD_some]
  sp _ := rfl
  saved s r hLow _ := by
    have hNe : r ≠ 0 := by
      rintro rfl
      exact absurd hLow (by decide)
    rw [pltCall, setX]
    dsimp only
    rw [Function.update_of_ne hNe]
  mem _ _ _ := rfl

theorem plt_atResolver : AtResolver pltLinker pltObject 0 0x8000 pltCore where
  ip0 := rfl
  slot := by decide
  object := rfl
  index := by decide
  room := by decide
  gotApart := by decide
  slotApart := by decide

theorem plt_call : callPlt pltLinker 2 pltObject 0x10000#64 pltMemory 0 =
    some (0x10200#64, store64 pltMemory 0x10118 0x10200#64) := by
  have hBind : pltLinker.rtldLazyBindSymbol 2 pltObject (BitVec.ofNat 64 0) = some 0x10200#64 := by
    decide
  rw [callPlt, if_pos (by decide), hBind]
  rfl

theorem runtimeResolve_spec_plt : (runtimeResolve pltCall pltCore).x 16 = 0x10200#64 :=
  (runtimeResolve_spec plt_lazyBind plt_atResolver (by decide) plt_call).1

end Wondar.Reloc
