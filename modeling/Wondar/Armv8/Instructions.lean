import Wondar.Armv8

/-!
# Instructions

The constructors of `armv8::inst` beside the branches and the unscaled loads and stores: moves,
additions and subtractions, the shifted `ORR`, the branches to a register, and the loads and
stores with an unsigned or a register offset. Each is a sequence of `SetBits` in the order of the
source, in which a later field may overwrite an earlier one.
-/

namespace Wondar.Armv8

open A64

/-- A `bool` as the value of a field. -/
def ofBool (b : Bool) : Word := (BitVec.ofBool b).setWidth 32

namespace Register

/-- The constructor: the index is kept in seven bits. -/
def make (is64 : Bool) (index : BitVec 8) : Register := ⟨is64, index &&& 0x7f#8⟩

/-- `WZR`, or `WSP`: the index is 31 in the five bits of a field. -/
def none32 : Register := make false (-1#8)

/-- `XZR`, or `SP`. -/
def none64 : Register := make true (-1#8)

/-- `Index`, as the setters receive it. -/
def field (r : Register) : Word := r.index.setWidth 32

end Register

/-- The shift of the last operand of an instruction with a shifted register. -/
inductive ShiftType
  | lsl | lsr | asr | ror
deriving DecidableEq, Repr

/-- The values of the enumeration. -/
def ShiftType.val : ShiftType → Word
  | .lsl => 0b00#32
  | .lsr => 0b01#32
  | .asr => 0b10#32
  | .ror => 0b11#32

/-- `ExtendType_UXTX` and `ExtendType_LSL` are one value. -/
inductive ExtendType
  | uxtb | uxth | uxtw | lsl | sxtb | sxth | sxtw | sxtx
deriving DecidableEq, Repr

/-! ## Op100x -/

/-- Data processing with an immediate. -/
def op100xInstruction (op0 : Word) : Word := setBits ⟨23, 26⟩ (instruction 0b1000#32) op0

/-- `Op` says whether it subtracts, `S` whether it sets the flags. -/
def addSubtractImmediate (sf op s : Bool) : Word :=
  let inst := op100xInstruction 0b010#32
  let inst := setBits (.bit 31) inst (ofBool sf)
  let inst := setBits (.bit 30) inst (ofBool op)
  setBits (.bit 29) inst (ofBool s)

/-- The immediate is shifted when it has no low bits. -/
def calcSh (imm : BitVec 32) : Bool := imm != 0#32 && imm &&& 0xfff#32 == 0#32

/-- What the field holds. An immediate of more than twelve bits that has low bits too is cut off
by the field. -/
def calcImm (imm : BitVec 32) : BitVec 16 :=
  (if calcSh imm then imm >>> 12 else imm).setWidth 16

/-- What `AddImmediate`, `AddsImmediate`, `SubImmediate` and `SubsImmediate` do with their `Op`
and `S`. -/
def addSubtract (op s : Bool) (rd rn : Register) (imm : BitVec 32) : Word :=
  let inst := addSubtractImmediate rd.is64 op s
  let inst := setBits ⟨0, 5⟩ inst rd.field
  let inst := setBits ⟨5, 10⟩ inst rn.field
  let inst := setBits ⟨10, 22⟩ inst ((calcImm imm).setWidth 32)
  setBits (.bit 22) inst (ofBool (calcSh imm))

/-- `ADD (immediate)`. -/
def addImmediate (rd rn : Register) (imm : BitVec 32) : Word := addSubtract false false rd rn imm

/-- `ADDS (immediate)`. -/
def addsImmediate (rd rn : Register) (imm : BitVec 32) : Word := addSubtract false true rd rn imm

/-- `SUB (immediate)`. -/
def subImmediate (rd rn : Register) (imm : BitVec 32) : Word := addSubtract true false rd rn imm

/-- `SUBS (immediate)`. -/
def subsImmediate (rd rn : Register) (imm : BitVec 32) : Word := addSubtract true true rd rn imm

/-- `GetRd` of the comparisons and `GetRn` of `MovRegister`. -/
def getNone (reg : Register) : Register := if reg.is64 then .none64 else .none32

/-- An addition whose sum is dropped. -/
def cmnImmediate (reg : Register) (imm : BitVec 32) : Word := addsImmediate (getNone reg) reg imm

/-- A subtraction whose difference is dropped. -/
def cmpImmediate (reg : Register) (imm : BitVec 32) : Word := subsImmediate (getNone reg) reg imm

/-- An immediate of sixteen bits, in the halfword `hw` of the register. -/
def moveWideImmediate (reg : Register) (opc hw : Word) (imm : BitVec 16) : Word :=
  let inst := op100xInstruction 0b101#32
  let inst := setBits (.bit 31) inst (ofBool reg.is64)
  let inst := setBits ⟨29, 31⟩ inst opc
  let inst := setBits ⟨21, 23⟩ inst hw
  let inst := setBits ⟨5, 21⟩ inst (imm.setWidth 32)
  setBits ⟨0, 5⟩ inst reg.field

/-- The other halfwords are kept. -/
def movk (reg : Register) (imm : BitVec 16) : Word := moveWideImmediate reg 0b11#32 0b00#32 imm

/-- The register becomes the complement of the immediate. -/
def movn (reg : Register) (imm : BitVec 16) : Word := moveWideImmediate reg 0b00#32 0b00#32 imm

/-- The other halfwords are cleared. -/
def movz (reg : Register) (imm : BitVec 16) : Word := moveWideImmediate reg 0b10#32 0b00#32 imm

/-! ## Op101x -/

/-- What the hints have in common. -/
def hints : Word :=
  setBits ⟨0, 5⟩ (setBits ⟨12, 26⟩ (op101xInstruction 0b110#32) 0b01000000110010#32) 0b11111#32

/-- The hint of number zero. -/
def nop : Word := setBits ⟨5, 8⟩ (setBits ⟨8, 12⟩ hints 0b0000#32) 0b000#32

/-- The branches to the address in a register. -/
def unconditionalBranchRegister (opc op2 : Word) : Word :=
  let inst := setBits ⟨12, 26⟩ (op101xInstruction 0b110#32) 0b10000000000000#32
  let inst := setBits ⟨21, 25⟩ inst opc
  setBits ⟨16, 21⟩ inst op2

/-- What `BranchRegister` and `Ret` do with their `Opc`. -/
def branchTo (opc : Word) (rn : Register) : Word :=
  let inst := unconditionalBranchRegister opc 0b11111#32
  let inst := setBits ⟨10, 16⟩ inst 0b000000#32
  let inst := setBits ⟨5, 10⟩ inst rn.field
  setBits ⟨0, 5⟩ inst 0b00000#32

/-- `BR`. -/
def branchRegister (rn : Register) : Word := branchTo 0b0000#32 rn

/-- `RET`, which is `BR` with a hint that it returns. -/
def ret (rn : Register) : Word := branchTo 0b0010#32 rn

/-! ## Opx101 -/

/-- Data processing with registers. -/
def opx101Instruction (op0 op1 op2 op3 : Word) : Word :=
  let inst := instruction 0b0101#32
  let inst := setBits (.bit 30) inst op0
  let inst := setBits (.bit 28) inst op1
  let inst := setBits ⟨20, 24⟩ inst op2
  setBits ⟨10, 15⟩ inst op3

/-- The logical operations, by `Opc`. -/
def logicalShiftedRegister (sf : Bool) (opc : Word) : Word :=
  let inst := opx101Instruction 0b0#32 0b0#32 0b0000#32 0b000000#32
  let inst := setBits (.bit 31) inst (ofBool sf)
  setBits ⟨29, 31⟩ inst opc

/-- `ORR (shifted register)`. The amount has the six bits of the field. -/
def orrShiftedRegister (rd rn rm : Register) (shift : ShiftType) (amount : BitVec 16) : Word :=
  let inst := logicalShiftedRegister rd.is64 0b01#32
  let inst := setBits ⟨22, 24⟩ inst shift.val
  let inst := setBits (.bit 21) inst 0#32
  let inst := setBits ⟨16, 21⟩ inst rm.field
  let inst := setBits ⟨10, 16⟩ inst (amount.setWidth 32)
  let inst := setBits ⟨5, 10⟩ inst rn.field
  setBits ⟨0, 5⟩ inst rd.field

/-- A move is an `ORR` with the zero register. -/
def movRegister (rd rm : Register) : Word := orrShiftedRegister rd (getNone rd) rm .lsl 0#16

/-! ## Opx1x0 -/

/-- A load or a store with an unsigned offset, which counts accesses of the size. -/
def loadStoreRegisterUnsignedImmediate (size v opc : Word) (imm12 : BitVec 16)
    (rn rt : Register) : Word :=
  let inst := opx1x0Instruction 0b0011#32
  let inst := setBits ⟨23, 25⟩ inst 0b10#32
  let inst := setBits ⟨30, 32⟩ inst size
  let inst := setBits (.bit 26) inst v
  let inst := setBits ⟨22, 24⟩ inst opc
  let inst := setBits ⟨10, 22⟩ inst (imm12.setWidth 32)
  let inst := setBits ⟨5, 10⟩ inst rn.field
  setBits ⟨0, 5⟩ inst rt.field

/-- `GetSize`. -/
def transferSize (rt : Register) : Word := 0b10#32 ||| ofBool rt.is64

/-- `LDR (immediate)`. -/
def ldrRegisterImmediate (rt rn : Register) (imm12 : BitVec 16) : Word :=
  loadStoreRegisterUnsignedImmediate (transferSize rt) 0b0#32 0b01#32 imm12 rn rt

/-- `STR (immediate)`. -/
def strRegisterImmediate (rt rn : Register) (imm12 : BitVec 16) : Word :=
  loadStoreRegisterUnsignedImmediate (transferSize rt) 0b0#32 0b00#32 imm12 rn rt

/-- A load or a store with an offset in a register. Bit 26 is set to zero first and to `V` in the
end. -/
def loadStoreRegisterOffset (size v opc : Word) : Word :=
  let inst := opx1x0Instruction 0b0011#32
  let inst := setBits ⟨30, 32⟩ inst size
  let inst := setBits ⟨22, 24⟩ inst opc
  let inst := setBits (.bit 26) inst 0#32
  let inst := setBits ⟨23, 25⟩ inst 0b00#32
  let inst := setBits ⟨16, 22⟩ inst 0b100000#32
  let inst := setBits ⟨10, 12⟩ inst 0b10#32
  setBits (.bit 26) inst v

/-- The extensions of a byte and of a halfword have no encoding here; they are given that of none.
-/
def createOption : ExtendType → Word
  | .uxtw => 0b010#32
  | .lsl => 0b011#32
  | .sxtw => 0b110#32
  | .sxtx => 0b111#32
  | _ => 0b000#32

/-- The offset is scaled if the amount is the one of the size. Any other amount is taken for zero.
-/
def createS (rt : Register) (amount : BitVec 8) : Bool :=
  if amount = 0#8 then false
  else if rt.is64 && amount = 3#8 then true
  else if !rt.is64 && amount = 2#8 then true
  else false

/-- What `LdrRegisterOffset` and `StrRegisterOffset` do with their `Opc`. -/
def registerOffset (opc : Word) (rt rn rm : Register) (extend : ExtendType) (amount : BitVec 8) :
    Word :=
  let inst := loadStoreRegisterOffset (transferSize rt) 0b0#32 opc
  let inst := setBits ⟨30, 32⟩ inst (transferSize rt)
  let inst := setBits ⟨16, 21⟩ inst rm.field
  let inst := setBits ⟨13, 16⟩ inst (createOption extend)
  let inst := setBits (.bit 12) inst (ofBool (createS rt amount))
  let inst := setBits ⟨0, 5⟩ inst rt.field
  setBits ⟨5, 10⟩ inst rn.field

/-- `LDR (register)`. -/
def ldrRegisterOffset (rt rn rm : Register) (extend : ExtendType) (amount : BitVec 8) : Word :=
  registerOffset 0b01#32 rt rn rm extend amount

/-- `STR (register)`. -/
def strRegisterOffset (rt rn rm : Register) (extend : ExtendType) (amount : BitVec 8) : Word :=
  registerOffset 0b00#32 rt rn rm extend amount

-- two of the static assertions of the source
example : addImmediate (.make false 6#8) (.make false 7#8) 0x57000#32 = 0x11415ce6#32 := by decide
example : ldrRegisterOffset (.make true 0#8) (.make true 1#8) (.make false 2#8) .uxtw 3#8 =
    0xf8625820#32 := by decide

end Wondar.Armv8
