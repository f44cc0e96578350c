import Wondar.A64.Bits

/-!
# The A64 encoding tables

`decode` reads a word with the tables of the architecture: the main table, the table of its
group, and the fields of its class. Unlike the decoder of the core it gives the operands
themselves: register 31 is the zero register or the stack pointer, as the class says; immediates
and offsets are the numbers that they stand for. It covers the classes add/subtract (immediate),
move wide (immediate), unconditional branch (immediate and register), hints, logical (shifted
register), and the loads and stores of general registers with an unscaled, an unsigned or a
register offset, and is `none` for what is unallocated or of another class.

For each class there is a lemma that takes its fixed bits to its row (`decode_addSubImmediate`
and so on).
-/

namespace A64.Encoding

/-! ## Operands -/

/-- A general register, with its two meanings of 31 apart. -/
inductive Gpr
  | r (n : Fin 31)
  | zr
  | sp
deriving DecidableEq, Repr

/-- A register as X or as W. -/
structure Operand where
  is64 : Bool
  gpr : Gpr
deriving DecidableEq, Repr

/-- A register field in which 31 is the zero register. -/
def orZr (is64 : Bool) (field : BitVec 5) : Operand where
  is64 := is64
  gpr := if h : field.toNat < 31 then .r ⟨field.toNat, h⟩ else .zr

/-- A register field in which 31 is the stack pointer. -/
def orSp (is64 : Bool) (field : BitVec 5) : Operand where
  is64 := is64
  gpr := if h : field.toNat < 31 then .r ⟨field.toNat, h⟩ else .sp

theorem orZr_of_lt {is64 : Bool} {field : BitVec 5} {n : Nat} (hField : field.toNat = n)
    (hn : n < 31) : orZr is64 field = ⟨is64, .r ⟨n, hn⟩⟩ := by
  subst hField
  rw [orZr, dif_pos hn]

theorem orZr_top {is64 : Bool} {field : BitVec 5} (hField : field.toNat = 31) :
    orZr is64 field = ⟨is64, .zr⟩ := by
  rw [orZr, dif_neg (by omega)]

theorem orSp_of_lt {is64 : Bool} {field : BitVec 5} {n : Nat} (hField : field.toNat = n)
    (hn : n < 31) : orSp is64 field = ⟨is64, .r ⟨n, hn⟩⟩ := by
  subst hField
  rw [orSp, dif_pos hn]

theorem orSp_top {is64 : Bool} {field : BitVec 5} (hField : field.toNat = 31) :
    orSp is64 field = ⟨is64, .sp⟩ := by
  rw [orSp, dif_neg (by omega)]

/-- The two operations with an immediate. -/
inductive AddSub
  | add | sub
deriving DecidableEq, Repr

/-- The moves of an immediate. -/
inductive MoveWide
  | movn | movz | movk
deriving DecidableEq, Repr

/-- The logical operations. -/
inductive Logical
  | and | bic | orr | orn | eor | eon | ands | bics
deriving DecidableEq, Repr

/-- The shift of a register operand. -/
inductive Shift
  | lsl | lsr | asr | ror
deriving DecidableEq, Repr

/-- The extensions of an offset in a register. -/
inductive Extend
  | uxtw | lsl | sxtw | sxtx
deriving DecidableEq, Repr

/-- A load or store of `2 ^ size` bytes. -/
inductive Transfer
  | store (size : Nat)
  | load (size : Nat)
  | loadSigned (size : Nat)
deriving DecidableEq, Repr

/-- The forms of an address, of which the unscaled one counts bytes. -/
inductive Address
  | unscaled (rn : Operand) (offset : Int)
  | unsigned (rn : Operand) (offset : Nat)
  | register (rn rm : Operand) (extend : Extend) (amount : Nat)
deriving DecidableEq, Repr

/-- The instructions that the constructors of the source make, with their operands decoded. -/
inductive Inst
  | addSubImmediate (op : AddSub) (setFlags : Bool) (rd rn : Operand) (imm : Nat)
  | moveWide (op : MoveWide) (rd : Operand) (imm16 : Nat) (shift : Nat)
  | b (offset : Int)
  | bl (offset : Int)
  | br (rn : Operand)
  | blr (rn : Operand)
  | ret (rn : Operand)
  | nop
  | logicalShifted (op : Logical) (rd rn rm : Operand) (shift : Shift) (amount : Nat)
  | transfer (op : Transfer) (rt : Operand) (address : Address)
deriving DecidableEq, Repr

/-! ## Data processing, immediate -/

/-- Add/subtract (immediate): `sf op S 100010 sh imm12 Rn Rd`. -/
def addSubImmediate (w : Word) : Inst :=
  let is64 := w.getLsbD 31
  let setFlags := w.getLsbD 29
  let rd := w.extractLsb' 0 5
  .addSubImmediate (if w.getLsbD 30 then .sub else .add) setFlags
    (if setFlags then orZr is64 rd else orSp is64 rd) (orSp is64 (w.extractLsb' 5 5))
    ((w.extractLsb' 10 12).toNat * if w.getLsbD 22 then 4096 else 1)

/-- One of the four opcodes is not allocated. -/
def moveWideOp (opc : BitVec 2) : Option MoveWide :=
  if opc = 0b00#2 then some .movn
  else if opc = 0b10#2 then some .movz
  else if opc = 0b11#2 then some .movk
  else none

/-- Move wide (immediate): `sf opc 100101 hw imm16 Rd`. -/
def moveWide (w : Word) : Option Inst :=
  let is64 := w.getLsbD 31
  let hw := w.extractLsb' 21 2
  if !is64 && w.getLsbD 22 then none
  else (moveWideOp (w.extractLsb' 29 2)).map fun op =>
    .moveWide op (orZr is64 (w.extractLsb' 0 5)) (w.extractLsb' 5 16).toNat (16 * hw.toNat)

/-- Data processing with an immediate. -/
def dataImmediate (w : Word) : Option Inst :=
  if w.extractLsb' 23 3 = 0b010#3 then some (addSubImmediate w)
  else if w.extractLsb' 23 3 = 0b101#3 then moveWide w
  else none

/-! ## Branches -/

/-- Unconditional branch (immediate): `op 00101 imm26`. -/
def branchImmediate (w : Word) : Inst :=
  let offset := 4 * (w.extractLsb' 0 26).toInt
  if w.getLsbD 31 then .bl offset else .b offset

/-- Unconditional branch (register): `1101011 opc op2 op3 Rn op4`. -/
def branchRegister (w : Word) : Option Inst :=
  let rn := orZr true (w.extractLsb' 5 5)
  if w.extractLsb' 16 5 = 0b11111#5 ∧ w.extractLsb' 10 6 = 0b000000#6 ∧
      w.extractLsb' 0 5 = 0b00000#5 then
    if w.extractLsb' 21 4 = 0b0000#4 then some (.br rn)
    else if w.extractLsb' 21 4 = 0b0001#4 then some (.blr rn)
    else if w.extractLsb' 21 4 = 0b0010#4 then some (.ret rn)
    else none
  else none

/-- Hints: `CRm` and `op2`. -/
def hint (w : Word) : Option Inst :=
  if w.extractLsb' 8 4 = 0b0000#4 ∧ w.extractLsb' 5 3 = 0b000#3 then some .nop else none

/-- Branches and hints. -/
def branch (w : Word) : Option Inst :=
  if w.extractLsb' 29 2 = 0b00#2 then some (branchImmediate w)
  else if w.extractLsb' 29 3 = 0b110#3 then
    if w.getLsbD 25 then branchRegister w
    else if w.extractLsb' 12 14 = 0b01000000110010#14 ∧ w.extractLsb' 0 5 = 0b11111#5 then hint w
    else none
  else none

/-! ## Loads and stores -/

/-- `size` and `opc` of a general register, which may be W or X. Prefetches are left out. -/
def transferOp (size opc : BitVec 2) : Option (Transfer × Bool) :=
  if opc = 0b00#2 then some (.store size.toNat, size = 0b11#2)
  else if opc = 0b01#2 then some (.load size.toNat, size = 0b11#2)
  else if opc = 0b10#2 then
    if size = 0b11#2 then none else some (.loadSigned size.toNat, true)
  else if size = 0b00#2 ∨ size = 0b01#2 then some (.loadSigned size.toNat, false)
  else none

/-- The other four options are not allocated. -/
def extendOp (option : BitVec 3) : Option Extend :=
  if option = 0b010#3 then some .uxtw
  else if option = 0b011#3 then some .lsl
  else if option = 0b110#3 then some .sxtw
  else if option = 0b111#3 then some .sxtx
  else none

/-- The address of a load or store: `111 V 00 opc 0 imm9 00`, `111 V 01 opc imm12` or
`111 V 00 opc 1 Rm option S 10`. -/
def address (w : Word) : Option Address :=
  let size := (w.extractLsb' 30 2).toNat
  let rn := orSp true (w.extractLsb' 5 5)
  if w.getLsbD 24 then some (.unsigned rn ((w.extractLsb' 10 12).toNat * 2 ^ size))
  else if w.getLsbD 21 = false ∧ w.extractLsb' 10 2 = 0b00#2 then
    some (.unscaled rn (w.extractLsb' 12 9).toInt)
  else if w.getLsbD 21 = true ∧ w.extractLsb' 10 2 = 0b10#2 then
    (extendOp (w.extractLsb' 13 3)).map fun extend =>
      .register rn (orZr (w.getLsbD 13) (w.extractLsb' 16 5)) extend
        (if w.getLsbD 12 then size else 0)
  else none

/-- Loads and stores of the general registers. -/
def loadStore (w : Word) : Option Inst :=
  if w.extractLsb' 28 2 = 0b11#2 ∧ w.getLsbD 26 = false then
    (transferOp (w.extractLsb' 30 2) (w.extractLsb' 22 2)).bind fun (op, is64) =>
      (address w).map (.transfer op (orZr is64 (w.extractLsb' 0 5)))
  else none

/-! ## Data processing, register -/

/-- With `n` the second operand is complemented. -/
def logicalOp (opc : BitVec 2) (n : Bool) : Logical :=
  if opc = 0b00#2 then if n then .bic else .and
  else if opc = 0b01#2 then if n then .orn else .orr
  else if opc = 0b10#2 then if n then .eon else .eor
  else if n then .bics else .ands

/-- All four are allocated. -/
def shiftOp (shift : BitVec 2) : Shift :=
  if shift = 0b00#2 then .lsl
  else if shift = 0b01#2 then .lsr
  else if shift = 0b10#2 then .asr
  else .ror

/-- Logical (shifted register): `sf opc 01010 shift N Rm imm6 Rn Rd`. -/
def logicalShifted (w : Word) : Option Inst :=
  let is64 := w.getLsbD 31
  if !is64 && w.getLsbD 15 then none
  else some (.logicalShifted (logicalOp (w.extractLsb' 29 2) (w.getLsbD 21))
    (orZr is64 (w.extractLsb' 0 5)) (orZr is64 (w.extractLsb' 5 5)) (orZr is64 (w.extractLsb' 16 5))
    (shiftOp (w.extractLsb' 22 2)) (w.extractLsb' 10 6).toNat)

/-- Data processing with registers, as far as it is logical. -/
def dataRegister (w : Word) : Option Inst :=
  if w.getLsbD 28 = false ∧ w.getLsbD 24 = false then logicalShifted w else none

/-! ## The main table -/

/-- The instruction of a word by the tables of the architecture, from the class down. -/
def decode (w : Word) : Option Inst :=
  -- 100x, 101x, x1x0 and x101 in bits 28 to 25
  if w.extractLsb' 26 3 = 0b100#3 then dataImmediate w
  else if w.extractLsb' 26 3 = 0b101#3 then branch w
  else if w.getLsbD 27 = true ∧ w.getLsbD 25 = false then loadStore w
  else if w.extractLsb' 25 3 = 0b101#3 then dataRegister w
  else none

example : decode 0x91003020#32 =
    some (.addSubImmediate .add false ⟨true, .r 0⟩ ⟨true, .r 1⟩ 12) := by decide

/-! ## Rows -/

section

variable {w : Word}

theorem decode_addSubImmediate (hGroup : w.extractLsb' 26 3 = 0b100#3)
    (hClass : w.extractLsb' 23 3 = 0b010#3) : decode w = some (addSubImmediate w) := by
  rw [decode, if_pos hGroup, dataImmediate, if_pos hClass]

theorem decode_moveWide (hGroup : w.extractLsb' 26 3 = 0b100#3)
    (hClass : w.extractLsb' 23 3 = 0b101#3) : decode w = moveWide w := by
  rw [decode, if_pos hGroup, dataImmediate, hClass, if_neg (by decide), if_pos rfl]

theorem decode_branchImmediate (hGroup : w.extractLsb' 26 3 = 0b101#3)
    (hClass : w.extractLsb' 29 2 = 0b00#2) : decode w = some (branchImmediate w) := by
  rw [decode, hGroup, if_neg (by decide), if_pos rfl, branch, if_pos hClass]

theorem decode_branchRegister (hGroup : w.extractLsb' 26 3 = 0b101#3)
    (hLow : w.extractLsb' 29 2 = 0b10#2) (hClass : w.extractLsb' 29 3 = 0b110#3)
    (hRegister : w.getLsbD 25 = true) : decode w = branchRegister w := by
  rw [decode, hGroup, if_neg (by decide), if_pos rfl, branch, hLow, if_neg (by decide),
    if_pos hClass, if_pos hRegister]

theorem group_ne {group : BitVec 3} (hBit : w.getLsbD 27 = true) (hNot : group.getLsbD 1 = false) :
    w.extractLsb' 26 3 ≠ group := by
  rintro rfl
  rw [BitVec.getLsbD_extractLsb', hBit] at hNot
  cases hNot

theorem decode_loadStore (op : Transfer) (is64 : Bool)
    (hGroup : w.getLsbD 27 = true ∧ w.getLsbD 25 = false)
    (hClass : w.extractLsb' 28 2 = 0b11#2 ∧ w.getLsbD 26 = false)
    (hOp : transferOp (w.extractLsb' 30 2) (w.extractLsb' 22 2) = some (op, is64)) :
    decode w = (address w).map (.transfer op (orZr is64 (w.extractLsb' 0 5))) := by
  rw [decode, if_neg (group_ne hGroup.1 rfl), if_neg (group_ne hGroup.1 rfl), if_pos hGroup,
    loadStore, if_pos hClass, hOp, Option.bind_some]

theorem address_unsigned (h : w.getLsbD 24 = true) :
    address w = some (.unsigned (orSp true (w.extractLsb' 5 5))
      ((w.extractLsb' 10 12).toNat * 2 ^ (w.extractLsb' 30 2).toNat)) := by
  rw [address, if_pos h]

theorem address_unscaled (h : w.getLsbD 24 = false)
    (hRow : w.getLsbD 21 = false ∧ w.extractLsb' 10 2 = 0b00#2) :
    address w = some (.unscaled (orSp true (w.extractLsb' 5 5)) (w.extractLsb' 12 9).toInt) := by
  rw [address, h, if_neg Bool.false_ne_true, if_pos hRow]

theorem address_register (extend : Extend) (h : w.getLsbD 24 = false)
    (hRow : w.getLsbD 21 = true ∧ w.extractLsb' 10 2 = 0b10#2)
    (hExtend : extendOp (w.extractLsb' 13 3) = some extend) :
    address w = some (.register (orSp true (w.extractLsb' 5 5))
      (orZr (w.getLsbD 13) (w.extractLsb' 16 5)) extend
      (if w.getLsbD 12 then (w.extractLsb' 30 2).toNat else 0)) := by
  have hNot : ¬ (w.getLsbD 21 = false ∧ w.extractLsb' 10 2 = 0b00#2) := by
    rw [hRow.1]
    rintro ⟨h, -⟩
    cases h
  rw [address, h, if_neg Bool.false_ne_true, if_neg hNot, if_pos hRow, hExtend, Option.map_some]

theorem decode_logicalShifted (hGroup : w.getLsbD 27 = true ∧ w.getLsbD 25 = true)
    (hMain : w.extractLsb' 25 3 = 0b101#3)
    (hClass : w.getLsbD 28 = false ∧ w.getLsbD 24 = false) : decode w = logicalShifted w := by
  have hNot : ¬ (w.getLsbD 27 = true ∧ w.getLsbD 25 = false) := by
    rw [hGroup.2]
    rintro ⟨-, h⟩
    cases h
  rw [decode, if_neg (group_ne hGroup.1 rfl), if_neg (group_ne hGroup.1 rfl), if_neg hNot,
    if_pos hMain, dataRegister, if_pos hClass]

end

end A64.Encoding
