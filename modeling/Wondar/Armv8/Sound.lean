import Wondar.Armv8.Fields

/-!
# The encoders are sound

Each constructor gives a word in which the fixed bits of its class and the operands stand in
their places, although a later field may overwrite an earlier one; there is a lemma for each class
(`decode_addSubtract` and so on).

`Builds w i` says that `w` is what a constructor makes of operands that the instruction `i`
has; such a word decodes to `i` by the encoding tables (`encoders_sound`).
-/

namespace Wondar.Armv8

open A64
open A64.Encoding (Operand Inst orZr orSp)

/-! ## Op100x -/

theorem decode_addSubtract (op s : Bool) (rd rn : Register) (imm : BitVec 32) :
    Encoding.decode (addSubtract op s rd rn imm) =
      some (.addSubImmediate (if op then .sub else .add) s
        (if s then orZr rd.is64 (rd.field.setWidth 5) else orSp rd.is64 (rd.field.setWidth 5))
        (orSp rd.is64 (rn.field.setWidth 5))
        (((calcImm imm).setWidth 12).toNat * if calcSh imm then 4096 else 1)) := by
  rw [Encoding.decode_addSubImmediate]
  · simp (disch := omega) only [Encoding.addSubImmediate, addSubtract, addSubtractImmediate,
      Mask.bit, getLsbD_self, getLsbD_apart, extract_setBits_self, extract_setBits_apart,
      Nat.sub_self, ofBool_getLsbD, BitVec.setWidth_setWidth_of_le]
  · simp (disch := omega) only [addSubtract, addSubtractImmediate, Mask.bit, extract_setBits_apart]
    decide
  · simp (disch := omega) only [addSubtract, addSubtractImmediate, Mask.bit, extract_setBits_apart]
    decide

/-- Twelve bits, or twelve bits shifted by twelve. -/
def Immediate (imm : BitVec 32) : Prop :=
  imm.toNat < 0x1000 ∨ imm.toNat % 0x1000 = 0 ∧ imm.toNat < 0x1000000

theorem calcSh_iff (imm : BitVec 32) :
    calcSh imm = true ↔ imm.toNat ≠ 0 ∧ imm.toNat % 0x1000 = 0 := by
  have hLow : (imm &&& 0xfff#32).toNat = imm.toNat % 0x1000 := by
    rw [BitVec.toNat_and]
    exact Nat.and_two_pow_sub_one_eq_mod imm.toNat 12
  rw [calcSh, Bool.and_eq_true, bne_iff_ne, beq_iff_eq, ← BitVec.toNat_inj, hLow, Ne,
    ← BitVec.toNat_inj]
  rfl

/-- The shift bit and the field hold the immediate. -/
theorem calcImm_calcSh {imm : BitVec 32} (hImm : Immediate imm) :
    ((calcImm imm).setWidth 12).toNat * (if calcSh imm then 4096 else 1) = imm.toNat := by
  unfold Immediate at hImm
  have hSh := calcSh_iff imm
  rw [calcImm, BitVec.toNat_setWidth, BitVec.toNat_setWidth]
  cases hCalc : calcSh imm with
  | true =>
    have hShift := hSh.mp hCalc
    rw [if_pos rfl, if_pos rfl, BitVec.toNat_ushiftRight, Nat.shiftRight_eq_div_pow]
    omega
  | false =>
    have hNot : ¬ (imm.toNat ≠ 0 ∧ imm.toNat % 0x1000 = 0) := fun h => by
      rw [hSh.mpr h] at hCalc
      cases hCalc
    rw [if_neg Bool.false_ne_true, if_neg Bool.false_ne_true]
    omega

theorem decode_moveWideImmediate (reg : Register) {opc : Word} {op : Encoding.MoveWide}
    (hOp : Encoding.moveWideOp (opc.setWidth 2) = some op) (imm : BitVec 16) :
    Encoding.decode (moveWideImmediate reg opc 0b00#32 imm) =
      some (.moveWide op (orZr reg.is64 (reg.field.setWidth 5)) imm.toNat 0) := by
  rw [Encoding.decode_moveWide]
  · simp (disch := omega) only [Encoding.moveWide, moveWideImmediate, Mask.bit, getLsbD_self,
      getLsbD_apart, extract_setBits_self, extract_setBits_apart, Nat.sub_self, ofBool_getLsbD,
      hOp, BitVec.setWidth_setWidth_of_le, BitVec.setWidth_eq]
    simp
  · simp (disch := omega) only [moveWideImmediate, Mask.bit, extract_setBits_apart]
    decide
  · simp (disch := omega) only [moveWideImmediate, Mask.bit, extract_setBits_apart]
    decide

/-! ## Op101x -/

theorem decode_unconditionalBranchImmediate (link : Bool) (relativeAddress : Word) :
    Encoding.decode (unconditionalBranchImmediate (ofBool link) relativeAddress) =
      some (if link then .bl (4 * ((relativeAddress / 4#32).setWidth 26).toInt)
        else .b (4 * ((relativeAddress / 4#32).setWidth 26).toInt)) := by
  rw [Encoding.decode_branchImmediate]
  · simp (disch := omega) only [Encoding.branchImmediate, unconditionalBranchImmediate, Mask.bit,
      getLsbD_self, getLsbD_apart, extract_setBits_self, Nat.sub_self, ofBool_getLsbD]
  · simp (disch := omega) only [unconditionalBranchImmediate, Mask.bit, extract_setBits_apart]
    decide
  · simp (disch := omega) only [unconditionalBranchImmediate, Mask.bit, extract_setBits_apart]
    decide

/-- A displacement in the reach of a branch. -/
def Displacement (offset : Int) : Prop := -2 ^ 27 ≤ offset ∧ offset < 2 ^ 27 ∧ 4 ∣ offset

theorem offset_field {offset : Int} (h : Displacement offset) :
    4 * ((BitVec.ofInt 32 offset / 4#32).setWidth 26).toInt = offset := by
  obtain ⟨hLow, hHigh, q, rfl⟩ := h
  have hQuotient : (BitVec.ofInt 32 (4 * q) / 4#32).toNat = ((4 * q) % 2 ^ 32).toNat / 4 := by
    rw [BitVec.toNat_udiv, BitVec.toNat_ofInt]
    rfl
  rw [BitVec.toInt_setWidth, hQuotient, Int.bmod_def]
  omega

theorem decode_branchTo (opc : Word) (rn : Register) :
    Encoding.decode (branchTo opc rn) =
      if opc.setWidth 4 = 0b0000#4 then some (.br (orZr true (rn.field.setWidth 5)))
      else if opc.setWidth 4 = 0b0001#4 then some (.blr (orZr true (rn.field.setWidth 5)))
      else if opc.setWidth 4 = 0b0010#4 then some (.ret (orZr true (rn.field.setWidth 5)))
      else none := by
  rw [Encoding.decode_branchRegister]
  · simp (disch := omega) only [Encoding.branchRegister, branchTo, unconditionalBranchRegister,
      extract_setBits_self, extract_setBits_apart]
    rw [if_pos (by decide)]
  · simp (disch := omega) only [branchTo, unconditionalBranchRegister, extract_setBits_apart]
    decide
  · simp (disch := omega) only [branchTo, unconditionalBranchRegister, extract_setBits_apart]
    decide
  · simp (disch := omega) only [branchTo, unconditionalBranchRegister, extract_setBits_apart]
    decide
  · simp (disch := omega) only [branchTo, unconditionalBranchRegister, getLsbD_apart]
    decide

/-! ## Opx101 -/

/-- The source's name of a shift. -/
def shiftType : Encoding.Shift → ShiftType
  | .lsl => .lsl
  | .lsr => .lsr
  | .asr => .asr
  | .ror => .ror

theorem shiftOp_shiftType (shift : Encoding.Shift) :
    Encoding.shiftOp ((shiftType shift).val.setWidth 2) = shift := by
  cases shift <;> rfl

/-- A word is shifted by less than 32. -/
def Amount (is64 : Bool) (amount : BitVec 16) : Prop :=
  amount.toNat < if is64 then 64 else 32

theorem amount_field {is64 : Bool} {amount : BitVec 16} (h : Amount is64 amount) :
    (!is64 && amount.getLsbD 5) = false ∧ (amount.setWidth 6).toNat = amount.toNat := by
  unfold Amount at h
  rw [← BitVec.testBit_toNat, Nat.testBit_eq_decide_div_mod_eq, BitVec.toNat_setWidth]
  cases is64 with
  | true =>
    rw [if_pos rfl] at h
    exact ⟨rfl, by omega⟩
  | false =>
    rw [if_neg Bool.false_ne_true] at h
    simp only [Bool.not_false, Bool.true_and, decide_eq_false_iff_not]
    omega

theorem decode_orrShiftedRegister (rd rn rm : Register) (shift : Encoding.Shift)
    {amount : BitVec 16} (hAmount : Amount rd.is64 amount) :
    Encoding.decode (orrShiftedRegister rd rn rm (shiftType shift) amount) =
      some (.logicalShifted .orr (orZr rd.is64 (rd.field.setWidth 5))
        (orZr rd.is64 (rn.field.setWidth 5)) (orZr rd.is64 (rm.field.setWidth 5)) shift
        amount.toNat) := by
  obtain ⟨hBit, hField⟩ := amount_field hAmount
  rw [Encoding.decode_logicalShifted]
  · simp (disch := omega) only [Encoding.logicalShifted, orrShiftedRegister,
      logicalShiftedRegister, Mask.bit, getLsbD_self, getLsbD_apart, extract_setBits_self,
      extract_setBits_apart, Nat.sub_self, ofBool_getLsbD, BitVec.setWidth_setWidth_of_le,
      shiftOp_shiftType]
    have hHigh : (amount.setWidth 32).getLsbD (15 - 10) = amount.getLsbD 5 := by
      rw [BitVec.getLsbD_setWidth]
      rfl
    rw [hHigh, hBit, hField]
    rfl
  · simp (disch := omega) only [orrShiftedRegister, logicalShiftedRegister, Mask.bit,
      getLsbD_apart]
    decide
  · simp (disch := omega) only [orrShiftedRegister, logicalShiftedRegister, Mask.bit,
      extract_setBits_apart]
    decide
  · simp (disch := omega) only [orrShiftedRegister, logicalShiftedRegister, Mask.bit,
      getLsbD_apart]
    decide

/-! ## Opx1x0 -/

/-- A load of a whole W or X register. -/
def loadOf (is64 : Bool) : Encoding.Transfer := .load (if is64 then 3 else 2)

/-- A store of a whole W or X register. -/
def storeOf (is64 : Bool) : Encoding.Transfer := .store (if is64 then 3 else 2)

theorem transferOp_load (rt : Register) :
    Encoding.transferOp ((transferSize rt).setWidth 2) ((0b01#32 : Word).setWidth 2) =
      some (loadOf rt.is64, rt.is64) := by
  unfold transferSize
  cases rt.is64 <;> rfl

theorem transferOp_store (rt : Register) :
    Encoding.transferOp ((transferSize rt).setWidth 2) ((0b00#32 : Word).setWidth 2) =
      some (storeOf rt.is64, rt.is64) := by
  unfold transferSize
  cases rt.is64 <;> rfl

section

variable {opc : Word} {op : Encoding.Transfer} {rt : Register}

theorem decode_loadStoreRegisterUnsignedImmediate
    (hOp : Encoding.transferOp ((transferSize rt).setWidth 2) (opc.setWidth 2) =
      some (op, rt.is64)) (rn : Register) (imm12 : BitVec 16) :
    Encoding.decode
        (loadStoreRegisterUnsignedImmediate (transferSize rt) 0b0#32 opc imm12 rn rt) =
      some (.transfer op (orZr rt.is64 (rt.field.setWidth 5))
        (.unsigned (orSp true (rn.field.setWidth 5))
          ((imm12.setWidth 12).toNat * 2 ^ ((transferSize rt).setWidth 2).toNat))) := by
  rw [Encoding.decode_loadStore op rt.is64, Encoding.address_unsigned]
  · simp (disch := omega) only [loadStoreRegisterUnsignedImmediate, Mask.bit,
      extract_setBits_self, extract_setBits_apart, BitVec.setWidth_setWidth_of_le, Option.map_some]
  · simp (disch := omega) only [loadStoreRegisterUnsignedImmediate, Mask.bit, getLsbD_self,
      getLsbD_apart]
    decide
  · simp (disch := omega) only [loadStoreRegisterUnsignedImmediate, Mask.bit, getLsbD_apart]
    decide
  · simp (disch := omega) only [loadStoreRegisterUnsignedImmediate, Mask.bit, getLsbD_self,
      getLsbD_apart, extract_setBits_apart]
    decide
  · simp (disch := omega) only [loadStoreRegisterUnsignedImmediate, Mask.bit,
      extract_setBits_self, extract_setBits_apart]
    exact hOp

theorem decode_loadStoreRegisterUnscaledImmediate
    (hOp : Encoding.transferOp ((transferSize rt).setWidth 2) (opc.setWidth 2) =
      some (op, rt.is64)) (rn : Register) (imm9 : BitVec 16) :
    Encoding.decode
        (loadStoreRegisterUnscaledImmediate (transferSize rt) 0b0#32 opc imm9 rn rt) =
      some (.transfer op (orZr rt.is64 (rt.field.setWidth 5))
        (.unscaled (orSp true (rn.field.setWidth 5)) ((signExtend9 imm9).setWidth 9).toInt)) := by
  rw [Encoding.decode_loadStore op rt.is64, Encoding.address_unscaled]
  · simp (disch := omega) only [loadStoreRegisterUnscaledImmediate, Mask.bit,
      extract_setBits_self, extract_setBits_apart, BitVec.setWidth_setWidth_of_le, Option.map_some,
      Register.field]
  · simp (disch := omega) only [loadStoreRegisterUnscaledImmediate, Mask.bit, getLsbD_self,
      getLsbD_apart]
    decide
  · simp (disch := omega) only [loadStoreRegisterUnscaledImmediate, Mask.bit, getLsbD_self,
      getLsbD_apart, extract_setBits_self, extract_setBits_apart]
    decide
  · simp (disch := omega) only [loadStoreRegisterUnscaledImmediate, Mask.bit, getLsbD_apart]
    decide
  · simp (disch := omega) only [loadStoreRegisterUnscaledImmediate, Mask.bit, getLsbD_self,
      getLsbD_apart, extract_setBits_apart]
    decide
  · simp (disch := omega) only [loadStoreRegisterUnscaledImmediate, Mask.bit,
      extract_setBits_self, extract_setBits_apart]
    exact hOp

/-- The fixed bits of the class, some of which overwrite others. -/
theorem loadStoreRegisterOffset_fields (rt : Register) (hOpc : opc = 0b00#32 ∨ opc = 0b01#32) :
    let w := loadStoreRegisterOffset (transferSize rt) 0b0#32 opc
    (w.getLsbD 27 = true ∧ w.getLsbD 25 = false) ∧
      (w.extractLsb' 28 2 = 0b11#2 ∧ w.getLsbD 26 = false) ∧
      w.extractLsb' 22 2 = opc.setWidth 2 ∧ w.getLsbD 24 = false ∧
      w.getLsbD 21 = true ∧ w.extractLsb' 10 2 = 0b10#2 := by
  unfold transferSize
  rcases hOpc with rfl | rfl
  · cases rt.is64 <;> decide
  · cases rt.is64 <;> decide

/-- The source's name of an extension. -/
def extendType : Encoding.Extend → ExtendType
  | .uxtw => .uxtw
  | .lsl => .lsl
  | .sxtw => .sxtw
  | .sxtx => .sxtx

/-- The index register is an X register. -/
def extends64 : Encoding.Extend → Bool
  | .uxtw | .sxtw => false
  | .lsl | .sxtx => true

theorem decode_registerOffset (hOpc : opc = 0b00#32 ∨ opc = 0b01#32)
    (hOp : Encoding.transferOp ((transferSize rt).setWidth 2) (opc.setWidth 2) =
      some (op, rt.is64)) (rn rm : Register) (extend : Encoding.Extend) (amount : BitVec 8) :
    Encoding.decode (registerOffset opc rt rn rm (extendType extend) amount) =
      some (.transfer op (orZr rt.is64 (rt.field.setWidth 5))
        (.register (orSp true (rn.field.setWidth 5))
          (orZr (extends64 extend) (rm.field.setWidth 5)) extend
          (if createS rt amount then ((transferSize rt).setWidth 2).toNat else 0))) := by
  obtain ⟨hGroup, hClass, hField, hFixed, hRow⟩ := loadStoreRegisterOffset_fields rt hOpc
  rw [Encoding.decode_loadStore op rt.is64, Encoding.address_register extend]
  · simp (disch := omega) only [registerOffset, Mask.bit, getLsbD_self, getLsbD_apart,
      extract_setBits_self, extract_setBits_apart, Option.map_some, Nat.sub_self, ofBool_getLsbD]
    cases extend <;> rfl
  · simp (disch := omega) only [registerOffset, Mask.bit, getLsbD_apart]
    exact hFixed
  · simp (disch := omega) only [registerOffset, Mask.bit, getLsbD_apart, extract_setBits_apart]
    exact hRow
  · simp (disch := omega) only [registerOffset, Mask.bit, extract_setBits_self,
      extract_setBits_apart]
    cases extend <;> rfl
  · simp (disch := omega) only [registerOffset, Mask.bit, getLsbD_apart]
    exact hGroup
  · simp (disch := omega) only [registerOffset, Mask.bit, getLsbD_apart, extract_setBits_apart]
    exact hClass
  · simp (disch := omega) only [registerOffset, Mask.bit, extract_setBits_self,
      extract_setBits_apart, hField]
    exact hOp

end

/-- The unsigned offset, in bytes. -/
theorem scaled_imm12 (rt : Register) {imm12 : BitVec 16} (h : imm12.toNat < 0x1000) :
    (imm12.setWidth 12).toNat * 2 ^ ((transferSize rt).setWidth 2).toNat =
      imm12.toNat * if rt.is64 then 8 else 4 := by
  have hField : (imm12.setWidth 12).toNat = imm12.toNat := by
    rw [BitVec.toNat_setWidth]
    omega
  rw [hField, transferSize]
  cases rt.is64 <;> rfl

theorem signExtend9_field {offset : Int} (h : -256 ≤ offset ∧ offset < 256) :
    ((signExtend9 (BitVec.ofInt 16 offset)).setWidth 9).toInt = offset := by
  have hLow : (signExtend9 (BitVec.ofInt 16 offset)).toNat =
      (BitVec.ofInt 16 offset).toNat % 2 ^ 9 := by
    have hAnd : (BitVec.ofInt 16 offset &&& 0x1ff#16).toNat =
        (BitVec.ofInt 16 offset).toNat % 2 ^ 9 := by
      rw [BitVec.toNat_and]
      exact Nat.and_two_pow_sub_one_eq_mod _ 9
    rw [signExtend9, BitVec.toNat_setWidth, hAnd]
    omega
  rw [BitVec.toInt_setWidth, hLow, BitVec.toNat_ofInt, Int.bmod_def]
  omega

theorem createS_amount {rt : Register} {amount : BitVec 8}
    (h : amount = 0#8 ∨ amount = if rt.is64 then 3#8 else 2#8) :
    (if createS rt amount then ((transferSize rt).setWidth 2).toNat else 0) = amount.toNat := by
  unfold createS transferSize
  cases hWidth : rt.is64 with
  | true =>
    rw [hWidth] at h
    rcases h with rfl | rfl <;> rfl
  | false =>
    rw [hWidth] at h
    rcases h with rfl | rfl <;> rfl

/-! ## The instructions that the constructors build -/

/-- A word that a constructor makes, and the instruction of its operands. -/
inductive Builds : Word → Inst → Prop
  | addImmediate {rd rn : Register} {d n : Operand} {imm : BitVec 32} (hd : rd.IsOrSp d)
      (hn : rn.IsOrSp n) (hWidth : n.is64 = d.is64) (hImm : Immediate imm) :
      Builds (addImmediate rd rn imm) (.addSubImmediate .add false d n imm.toNat)
  | addsImmediate {rd rn : Register} {d n : Operand} {imm : BitVec 32} (hd : rd.IsOrZr d)
      (hn : rn.IsOrSp n) (hWidth : n.is64 = d.is64) (hImm : Immediate imm) :
      Builds (addsImmediate rd rn imm) (.addSubImmediate .add true d n imm.toNat)
  | subImmediate {rd rn : Register} {d n : Operand} {imm : BitVec 32} (hd : rd.IsOrSp d)
      (hn : rn.IsOrSp n) (hWidth : n.is64 = d.is64) (hImm : Immediate imm) :
      Builds (subImmediate rd rn imm) (.addSubImmediate .sub false d n imm.toNat)
  | subsImmediate {rd rn : Register} {d n : Operand} {imm : BitVec 32} (hd : rd.IsOrZr d)
      (hn : rn.IsOrSp n) (hWidth : n.is64 = d.is64) (hImm : Immediate imm) :
      Builds (subsImmediate rd rn imm) (.addSubImmediate .sub true d n imm.toNat)
  | cmnImmediate {rn : Register} {n : Operand} {imm : BitVec 32} (hn : rn.IsOrSp n)
      (hImm : Immediate imm) :
      Builds (cmnImmediate rn imm) (.addSubImmediate .add true ⟨n.is64, .zr⟩ n imm.toNat)
  | cmpImmediate {rn : Register} {n : Operand} {imm : BitVec 32} (hn : rn.IsOrSp n)
      (hImm : Immediate imm) :
      Builds (cmpImmediate rn imm) (.addSubImmediate .sub true ⟨n.is64, .zr⟩ n imm.toNat)
  | movz {rd : Register} {d : Operand} (hd : rd.IsOrZr d) (imm : BitVec 16) :
      Builds (movz rd imm) (.moveWide .movz d imm.toNat 0)
  | movn {rd : Register} {d : Operand} (hd : rd.IsOrZr d) (imm : BitVec 16) :
      Builds (movn rd imm) (.moveWide .movn d imm.toNat 0)
  | movk {rd : Register} {d : Operand} (hd : rd.IsOrZr d) (imm : BitVec 16) :
      Builds (movk rd imm) (.moveWide .movk d imm.toNat 0)
  | branch {offset : Int} (hOffset : Displacement offset) :
      Builds (branch (BitVec.ofInt 32 offset)) (.b offset)
  | branchLink {offset : Int} (hOffset : Displacement offset) :
      Builds (branchLink (BitVec.ofInt 32 offset)) (.bl offset)
  | branchRegister {rn : Register} {n : Operand} (hn : rn.IsOrZr n) (hWidth : n.is64 = true) :
      Builds (branchRegister rn) (.br n)
  | ret {rn : Register} {n : Operand} (hn : rn.IsOrZr n) (hWidth : n.is64 = true) :
      Builds (ret rn) (.ret n)
  | nop : Builds nop .nop
  | orrShiftedRegister {rd rn rm : Register} {d n m : Operand} (hd : rd.IsOrZr d)
      (hn : rn.IsOrZr n) (hm : rm.IsOrZr m) (hWidth : n.is64 = d.is64 ∧ m.is64 = d.is64)
      (shift : Encoding.Shift) {amount : BitVec 16} (hAmount : Amount d.is64 amount) :
      Builds (orrShiftedRegister rd rn rm (shiftType shift) amount)
        (.logicalShifted .orr d n m shift amount.toNat)
  | movRegister {rd rm : Register} {d m : Operand} (hd : rd.IsOrZr d) (hm : rm.IsOrZr m)
      (hWidth : m.is64 = d.is64) :
      Builds (movRegister rd rm) (.logicalShifted .orr d ⟨d.is64, .zr⟩ m .lsl 0)
  | ldrRegisterImmediate {rt rn : Register} {t n : Operand} {imm12 : BitVec 16}
      (ht : rt.IsOrZr t) (hn : rn.IsOrSp n) (hBase : n.is64 = true)
      (hImm : imm12.toNat < 0x1000) :
      Builds (ldrRegisterImmediate rt rn imm12)
        (.transfer (loadOf t.is64) t
          (.unsigned n (imm12.toNat * if t.is64 then 8 else 4)))
  | strRegisterImmediate {rt rn : Register} {t n : Operand} {imm12 : BitVec 16}
      (ht : rt.IsOrZr t) (hn : rn.IsOrSp n) (hBase : n.is64 = true)
      (hImm : imm12.toNat < 0x1000) :
      Builds (strRegisterImmediate rt rn imm12)
        (.transfer (storeOf t.is64) t
          (.unsigned n (imm12.toNat * if t.is64 then 8 else 4)))
  | ldurUnscaledImmediate {rt rn : Register} {t n : Operand} {offset : Int} (ht : rt.IsOrZr t)
      (hn : rn.IsOrSp n) (hBase : n.is64 = true) (hOffset : -256 ≤ offset ∧ offset < 256) :
      Builds (ldurUnscaledImmediate rt rn (BitVec.ofInt 16 offset))
        (.transfer (loadOf t.is64) t (.unscaled n offset))
  | sturUnscaledImmediate {rt rn : Register} {t n : Operand} {offset : Int} (ht : rt.IsOrZr t)
      (hn : rn.IsOrSp n) (hBase : n.is64 = true) (hOffset : -256 ≤ offset ∧ offset < 256) :
      Builds (sturUnscaledImmediate rt rn (BitVec.ofInt 16 offset))
        (.transfer (storeOf t.is64) t (.unscaled n offset))
  | ldrRegisterOffset {rt rn rm : Register} {t n m : Operand} (ht : rt.IsOrZr t)
      (hn : rn.IsOrSp n) (hBase : n.is64 = true) (hm : rm.IsOrZr m) (extend : Encoding.Extend)
      (hIndex : m.is64 = extends64 extend) {amount : BitVec 8}
      (hAmount : amount = 0#8 ∨ amount = if t.is64 then 3#8 else 2#8) :
      Builds (ldrRegisterOffset rt rn rm (extendType extend) amount)
        (.transfer (loadOf t.is64) t (.register n m extend amount.toNat))
  | strRegisterOffset {rt rn rm : Register} {t n m : Operand} (ht : rt.IsOrZr t)
      (hn : rn.IsOrSp n) (hBase : n.is64 = true) (hm : rm.IsOrZr m) (extend : Encoding.Extend)
      (hIndex : m.is64 = extends64 extend) {amount : BitVec 8}
      (hAmount : amount = 0#8 ∨ amount = if t.is64 then 3#8 else 2#8) :
      Builds (strRegisterOffset rt rn rm (extendType extend) amount)
        (.transfer (storeOf t.is64) t (.register n m extend amount.toNat))

section

variable {rd rn rm rt : Register} {d n m t : Operand} {imm : BitVec 32}

theorem decode_addSub_orSp (op : Bool) (hd : rd.IsOrSp d) (hn : rn.IsOrSp n)
    (hWidth : n.is64 = d.is64) (hImm : Immediate imm) :
    Encoding.decode (addSubtract op false rd rn imm) =
      some (.addSubImmediate (if op then .sub else .add) false d n imm.toNat) := by
  have hRn := hn.field
  rw [hWidth] at hRn
  rw [decode_addSubtract, calcImm_calcSh hImm, ← hd.is64, hRn, if_neg Bool.false_ne_true, hd.field]

theorem decode_addSub_orZr (op : Bool) (hd : rd.IsOrZr d) (hn : rn.IsOrSp n)
    (hWidth : n.is64 = d.is64) (hImm : Immediate imm) :
    Encoding.decode (addSubtract op true rd rn imm) =
      some (.addSubImmediate (if op then .sub else .add) true d n imm.toNat) := by
  have hRn := hn.field
  rw [hWidth] at hRn
  rw [decode_addSubtract, calcImm_calcSh hImm, ← hd.is64, hRn, if_pos rfl, hd.field]

theorem decode_moveWide_orZr (hd : rd.IsOrZr d) {opc : Word} {op : Encoding.MoveWide}
    (hOp : Encoding.moveWideOp (opc.setWidth 2) = some op) (imm16 : BitVec 16) :
    Encoding.decode (moveWideImmediate rd opc 0b00#32 imm16) =
      some (.moveWide op d imm16.toNat 0) := by
  rw [decode_moveWideImmediate rd hOp, ← hd.is64, hd.field]

theorem decode_orr_orZr (hd : rd.IsOrZr d) (hn : rn.IsOrZr n) (hm : rm.IsOrZr m)
    (hWidth : n.is64 = d.is64 ∧ m.is64 = d.is64) (shift : Encoding.Shift) {amount : BitVec 16}
    (hAmount : Amount d.is64 amount) :
    Encoding.decode (orrShiftedRegister rd rn rm (shiftType shift) amount) =
      some (.logicalShifted .orr d n m shift amount.toNat) := by
  have hRn := hn.field
  have hRm := hm.field
  rw [hWidth.1] at hRn
  rw [hWidth.2] at hRm
  rw [hd.is64] at hAmount
  rw [decode_orrShiftedRegister rd rn rm shift hAmount, ← hd.is64, hd.field, hRn, hRm]

theorem decode_branchTo_orZr (hn : rn.IsOrZr n) (hWidth : n.is64 = true) :
    Encoding.decode (branchTo 0b0000#32 rn) = some (.br n) ∧
      Encoding.decode (branchTo 0b0010#32 rn) = some (.ret n) := by
  have hRn := hn.field
  rw [hWidth] at hRn
  rw [decode_branchTo, decode_branchTo, hRn]
  exact ⟨rfl, rfl⟩

/-- A load or store, of which the class gives the address. -/
theorem transfer_operands (op : Bool → Encoding.Transfer)
    (address : Bool → Operand → Encoding.Address) (ht : rt.IsOrZr t) (hn : rn.IsOrSp n)
    (hBase : n.is64 = true) :
    some (Inst.transfer (op rt.is64) (orZr rt.is64 (rt.field.setWidth 5))
        (address rt.is64 (orSp true (rn.field.setWidth 5)))) =
      some (.transfer (op t.is64) t (address t.is64 n)) := by
  have hRn := hn.field
  rw [hBase] at hRn
  rw [hRn, ← ht.is64, ht.field]

/-- The three classes, for a load and a store. -/
theorem decode_unsigned_operands {opc : Word} {op : Bool → Encoding.Transfer}
    (hOp : Encoding.transferOp ((transferSize rt).setWidth 2) (opc.setWidth 2) =
      some (op rt.is64, rt.is64)) (ht : rt.IsOrZr t) (hn : rn.IsOrSp n) (hBase : n.is64 = true)
    {imm12 : BitVec 16} (hImm : imm12.toNat < 0x1000) :
    Encoding.decode
        (loadStoreRegisterUnsignedImmediate (transferSize rt) 0b0#32 opc imm12 rn rt) =
      some (.transfer (op t.is64) t (.unsigned n (imm12.toNat * if t.is64 then 8 else 4))) := by
  rw [decode_loadStoreRegisterUnsignedImmediate hOp, scaled_imm12 rt hImm]
  exact transfer_operands op (fun is64 n => .unsigned n (imm12.toNat * if is64 then 8 else 4)) ht hn
    hBase

theorem decode_unscaled_operands {opc : Word} {op : Bool → Encoding.Transfer}
    (hOp : Encoding.transferOp ((transferSize rt).setWidth 2) (opc.setWidth 2) =
      some (op rt.is64, rt.is64)) (ht : rt.IsOrZr t) (hn : rn.IsOrSp n) (hBase : n.is64 = true)
    {offset : Int} (hOffset : -256 ≤ offset ∧ offset < 256) :
    Encoding.decode
        (loadStoreRegisterUnscaledImmediate (transferSize rt) 0b0#32 opc (BitVec.ofInt 16 offset)
          rn rt) =
      some (.transfer (op t.is64) t (.unscaled n offset)) := by
  rw [decode_loadStoreRegisterUnscaledImmediate hOp, signExtend9_field hOffset]
  exact transfer_operands op (fun _ n => .unscaled n offset) ht hn hBase

theorem decode_register_operands {opc : Word} (hOpc : opc = 0b00#32 ∨ opc = 0b01#32)
    {op : Bool → Encoding.Transfer}
    (hOp : Encoding.transferOp ((transferSize rt).setWidth 2) (opc.setWidth 2) =
      some (op rt.is64, rt.is64)) (ht : rt.IsOrZr t) (hn : rn.IsOrSp n) (hBase : n.is64 = true)
    (hm : rm.IsOrZr m) {extend : Encoding.Extend} (hIndex : m.is64 = extends64 extend)
    {amount : BitVec 8} (hAmount : amount = 0#8 ∨ amount = if t.is64 then 3#8 else 2#8) :
    Encoding.decode (registerOffset opc rt rn rm (extendType extend) amount) =
      some (.transfer (op t.is64) t (.register n m extend amount.toNat)) := by
  have hRm := hm.field
  rw [hIndex] at hRm
  rw [ht.is64] at hAmount
  rw [decode_registerOffset hOpc hOp, createS_amount hAmount, hRm]
  exact transfer_operands op (fun _ n => .register n m extend amount.toNat) ht hn hBase

end

/-- Decoding the word of a constructor by the encoding tables gives its instruction, with its
operands. -/
theorem encoders_sound {w : Word} {i : Inst} (h : Builds w i) : Encoding.decode w = some i := by
  cases h with
  | addImmediate hd hn hWidth hImm => exact decode_addSub_orSp false hd hn hWidth hImm
  | addsImmediate hd hn hWidth hImm => exact decode_addSub_orZr false hd hn hWidth hImm
  | subImmediate hd hn hWidth hImm => exact decode_addSub_orSp true hd hn hWidth hImm
  | subsImmediate hd hn hWidth hImm => exact decode_addSub_orZr true hd hn hWidth hImm
  | cmnImmediate hn hImm =>
    rw [hn.is64]
    exact decode_addSub_orZr false (getNone_isOrZr _) hn hn.is64 hImm
  | cmpImmediate hn hImm =>
    rw [hn.is64]
    exact decode_addSub_orZr true (getNone_isOrZr _) hn hn.is64 hImm
  | movz hd imm => exact decode_moveWide_orZr hd rfl imm
  | movn hd imm => exact decode_moveWide_orZr hd rfl imm
  | movk hd imm => exact decode_moveWide_orZr hd rfl imm
  | branch hOffset =>
    refine (decode_unconditionalBranchImmediate false _).trans ?_
    rw [offset_field hOffset]
    rfl
  | branchLink hOffset =>
    refine (decode_unconditionalBranchImmediate true _).trans ?_
    rw [offset_field hOffset]
    rfl
  | branchRegister hn hWidth => exact (decode_branchTo_orZr hn hWidth).1
  | ret hn hWidth => exact (decode_branchTo_orZr hn hWidth).2
  | nop => decide
  | orrShiftedRegister hd hn hm hWidth shift hAmount =>
    exact decode_orr_orZr hd hn hm hWidth shift hAmount
  | @movRegister rd rm d m hd hm hWidth =>
    have hNone : (getNone rd).IsOrZr ⟨d.is64, .zr⟩ := hd.is64 ▸ getNone_isOrZr rd
    have hAmount : Amount d.is64 0#16 := by
      unfold Amount
      split <;> decide
    exact decode_orr_orZr hd hNone hm ⟨rfl, hWidth⟩ .lsl hAmount
  | ldrRegisterImmediate ht hn hBase hImm =>
    exact decode_unsigned_operands (transferOp_load _) ht hn hBase hImm
  | strRegisterImmediate ht hn hBase hImm =>
    exact decode_unsigned_operands (transferOp_store _) ht hn hBase hImm
  | ldurUnscaledImmediate ht hn hBase hOffset =>
    exact decode_unscaled_operands (transferOp_load _) ht hn hBase hOffset
  | sturUnscaledImmediate ht hn hBase hOffset =>
    exact decode_unscaled_operands (transferOp_store _) ht hn hBase hOffset
  | ldrRegisterOffset ht hn hBase hm extend hIndex hAmount =>
    exact decode_register_operands (.inr rfl) (transferOp_load _) ht hn hBase hm hIndex hAmount
  | strRegisterOffset ht hn hBase hm extend hIndex hAmount =>
    exact decode_register_operands (.inl rfl) (transferOp_store _) ht hn hBase hm hIndex hAmount

theorem encoders_sound_add :
    Encoding.decode (addImmediate (.make true 0#8) .sp 0x1000#32) =
      some (.addSubImmediate .add false ⟨true, .r 0⟩ ⟨true, .sp⟩ 0x1000) :=
  encoders_sound (.addImmediate ⟨by decide, by decide⟩ ⟨by decide, by decide⟩ rfl
    (.inr ⟨by decide, by decide⟩))

end Wondar.Armv8
