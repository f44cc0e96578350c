import Wondar.A64.Machine

/-!
# The instruction encoders

`util::BitSet` with its masks, and the constructors of `armv8::inst` that the hook code and
the patchers use: every constructor is a sequence of `SetBits` on a word that starts as
zero.

* `decode_branch`, `decode_branchLink`: a displacement that is a multiple of four within
  128 MiB, in the low 32 bits of the argument, comes back as the displacement of the
  decoded branch (`branchOffset_imm26`).
* `stur_lr` and `ldur_lr` are the two words that save and restore LR below the stack
  pointer.
-/

namespace Wondar.Armv8

open A64

/-! ## Bit sets -/

/-- `util::Mask<uint, Low, High>`. -/
structure Mask where
  low : Nat
  high : Nat

namespace Mask

/-- How many bits the mask has. -/
def count (m : Mask) : Nat := m.high - m.low
def value (m : Mask) : Word := ((1#32 <<< m.count) - 1#32) <<< m.low

/-- `InstMask<low>()`: a single bit. -/
def bit (low : Nat) : Mask := ⟨low, low + 1⟩

end Mask

/-- `BitSet::SetBits`. -/
def setBits (m : Mask) (data val : Word) : Word :=
  (data &&& ~~~m.value) ||| ((val <<< m.low) &&& m.value)

/-- `util::SignExtend<9>` on an `s16`, as the setter of `Imm9` receives it. -/
def signExtend9 (imm : BitVec 16) : Word := (imm &&& 0x1ff#16).setWidth 32

/-! ## Registers -/

/-- A register as the constructors receive it. -/
structure Register where
  is64 : Bool
  index : BitVec 8
deriving DecidableEq

namespace Register

/-- The two registers that the constructors have names for. -/
def lr : Register := ⟨true, 30#8⟩
def sp : Register := ⟨true, 31#8⟩

end Register

/-! ## Constructors -/

/-- The field that says which class an instruction is of. -/
def instruction (op0 : Word) : Word := setBits ⟨25, 29⟩ 0#32 op0

/-- Branches, exceptions and system instructions. -/
def op101xInstruction (op0 : Word) : Word := setBits ⟨29, 32⟩ (instruction 0b1010#32) op0

/-- Loads and stores. -/
def opx1x0Instruction (op0 : Word) : Word := setBits ⟨28, 32⟩ (instruction 0b0100#32) op0

/-- The field has the low bits of the distance in words. -/
def unconditionalBranchImmediate (op relativeAddress : Word) : Word :=
  setBits ⟨0, 26⟩ (setBits (.bit 31) (op101xInstruction 0b000#32) op) (relativeAddress / 4#32)

/-- `B`. -/
def branch (relativeAddress : Word) : Word := unconditionalBranchImmediate 0#32 relativeAddress

/-- `BL`. -/
def branchLink (relativeAddress : Word) : Word := unconditionalBranchImmediate 1#32 relativeAddress

/-- A load or a store with a signed offset in bytes. -/
def loadStoreRegisterUnscaledImmediate (size v opc : Word) (imm9 : BitVec 16)
    (rn rt : Register) : Word :=
  let inst := opx1x0Instruction 0b0011#32
  let inst := setBits ⟨23, 25⟩ inst 0b00#32
  let inst := setBits ⟨16, 22⟩ inst 0b000000#32
  let inst := setBits ⟨10, 12⟩ inst 0b00#32
  let inst := setBits ⟨30, 32⟩ inst size
  let inst := setBits (.bit 26) inst v
  let inst := setBits ⟨22, 24⟩ inst opc
  let inst := setBits ⟨12, 21⟩ inst (signExtend9 imm9)
  let inst := setBits ⟨5, 10⟩ inst (rn.index.setWidth 32)
  setBits ⟨0, 5⟩ inst (rt.index.setWidth 32)

/-- `GetSize`. -/
def unscaledSize (rt : Register) : Word := 0b10#32 ||| (BitVec.ofBool rt.is64).setWidth 32

/-- `LDUR`. -/
def ldurUnscaledImmediate (rt rn : Register) (imm9 : BitVec 16) : Word :=
  loadStoreRegisterUnscaledImmediate (unscaledSize rt) 0#32 0b01#32 imm9 rn rt

/-- `STUR`, whose offset has nine bits, too. -/
def sturUnscaledImmediate (rt rn : Register) (imm12 : BitVec 16) : Word :=
  loadStoreRegisterUnscaledImmediate (unscaledSize rt) 0#32 0b00#32 imm12 rn rt

-- two of the static assertions of the source
example : branch 0x4440#32 = 0x14001110#32 := by decide
example : ldurUnscaledImmediate .lr .sp 0xfffb#16 = 0xf85fb3fe#32 := by decide

/-! ## Decoding -/

theorem setBits_low (n : Nat) (data val : Word) (m : Word) (hMask : (Mask.mk 0 n).value = m) :
    setBits ⟨0, n⟩ data val = (data &&& ~~~m) ||| (val &&& m) := by
  rw [setBits, hMask, BitVec.shiftLeft_zero]

theorem branch_eq (a : Word) : branch a = 0x14000000#32 ||| ((a / 4#32) &&& 0x03ffffff#32) := by
  rw [branch, unconditionalBranchImmediate, setBits_low 26 _ _ 0x03ffffff#32 (by decide)]
  congr 1

theorem branchLink_eq (a : Word) :
    branchLink a = 0x94000000#32 ||| ((a / 4#32) &&& 0x03ffffff#32) := by
  rw [branchLink, unconditionalBranchImmediate, setBits_low 26 _ _ 0x03ffffff#32 (by decide)]
  congr 1

/-- The displacement field of a branch with the byte displacement `d`. -/
def imm26 (d : BitVec 64) : BitVec 26 := (d.setWidth 32 / 4#32).setWidth 26

theorem decode_branch (d : BitVec 64) : decode (branch (d.setWidth 32)) = some (.b (imm26 d)) := by
  rw [branch_eq, decode_b_word]
  rfl

theorem decode_branchLink (d : BitVec 64) :
    decode (branchLink (d.setWidth 32)) = some (.bl (imm26 d)) := by
  rw [branchLink_eq, decode_bl_word]
  rfl

/-- A branch at `e` reaches `t`. -/
def InReach (e t : Addr) : Prop := -2 ^ 27 ≤ (t - e).toInt ∧ (t - e).toInt < 2 ^ 27

instance (e t : Addr) : Decidable (InReach e t) := inferInstanceAs (Decidable (_ ∧ _))

/-- A word-aligned displacement within 128 MiB survives the cut to 32 bits and the division. -/
theorem branchOffset_imm26 {e t : Addr} (hAlign : (t - e).toNat % 4 = 0) (hReach : InReach e t) :
    branchOffset (imm26 (t - e)) = t - e := by
  unfold InReach at hReach
  generalize t - e = d at hAlign hReach
  obtain ⟨hLow, hHigh⟩ := hReach
  have hQuot := toInt_sshiftRight_two d
  have hField : imm26 d = (d.sshiftRight 2).setWidth (25 + 1) := by
    apply BitVec.eq_of_toNat_eq
    have hShift := sshiftRight_shiftLeft_two d hAlign
    have hNat := congrArg BitVec.toNat hShift
    rw [BitVec.toNat_shiftLeft, Nat.shiftLeft_eq] at hNat
    have hDiv : (d.setWidth 32 / 4#32).toNat = d.toNat % 2 ^ 32 / 4 := by
      rw [BitVec.toNat_udiv, BitVec.toNat_setWidth]
      rfl
    rw [imm26, BitVec.toNat_setWidth, BitVec.toNat_setWidth, hDiv]
    omega
  rw [branchOffset, hField]
  exact scaled_round_trip (by omega) d hAlign (by omega) (by omega)

theorem stur_lr : sturUnscaledImmediate .lr .sp (-0x10#16) = 0xf81f03fe#32 := by decide

theorem ldur_lr : ldurUnscaledImmediate .lr .sp (-0x10#16) = 0xf85f03fe#32 := by decide

end Wondar.Armv8
