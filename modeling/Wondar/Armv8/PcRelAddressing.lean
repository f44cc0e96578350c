import Wondar.A64.PcRel
import Wondar.Armv8.Fields

/-!
# ADR and ADRP

The constructors of `pc_rel_addressing`. The displacement is passed as the `u32` that a branch
takes: negative ones as their two's complement.

The 21 bits of `Adr` keep the sign. `Adrp` shifts the unsigned value by the page size first and
is left with 20 bits, so that bit 20 of its field, which is the sign, is never set: a negative
displacement comes back as one of four gigabytes more (`adrp_decodes_iff`).
-/

namespace Wondar.Armv8

open A64
open A64.Encoding (Operand orZr)

/-- The address of a byte, or of a page. -/
inductive PcRelOp
  | adr
  | adrp
deriving DecidableEq, Repr

/-- The values of the enumeration. -/
def PcRelOp.val : PcRelOp → Word
  | .adr => 0#32
  | .adrp => 1#32

/-- The low two bits of the immediate and the others are fields of their own. -/
def pcRelAddressing (reg : Register) (imm : BitVec 32) (op : PcRelOp) : Word :=
  let inst := op100xInstruction 0b000#32
  let inst := setBits (.bit 31) inst op.val
  let inst := setBits ⟨29, 31⟩ inst imm
  let inst := setBits ⟨5, 24⟩ inst (imm >>> (Mask.mk 29 31).count)
  setBits ⟨0, 5⟩ inst reg.field

/-- `ADR`. -/
def adr (reg : Register) (imm : BitVec 32) : Word := pcRelAddressing reg imm .adr

/-- `ADRP`, with the distance in bytes. -/
def adrp (reg : Register) (imm : BitVec 32) : Word := pcRelAddressing reg (imm >>> 12) .adrp

-- two of the static assertions of the source
example : adr (.make true 2#8) 0x69669#32 = 0x3034b342#32 := by decide
example : adrp (.make true 1#8) 0xfff000#32 = 0xf0007fe1#32 := by decide

/-! ## Decoding -/

section

variable (reg : Register) (imm : BitVec 32) (op : PcRelOp)

/-- `SetBits` leaves what a mask apart from its field takes. -/
theorem setBits_and {m : Mask} {data val mask : Word} (h : m.value &&& mask = 0#32) :
    setBits m data val &&& mask = data &&& mask := by
  have hBit : ∀ i, i < 32 → (m.value.getLsbD i && mask.getLsbD i) = false := by
    intro i _
    rw [← BitVec.getLsbD_and, h, BitVec.getLsbD_zero]
  apply BitVec.eq_of_getLsbD_eq
  intro i hi
  have := hBit i hi
  simp only [setBits, BitVec.getLsbD_and, BitVec.getLsbD_or, BitVec.getLsbD_not]
  grind

theorem pcRelAddressing_fixed :
    pcRelAddressing reg imm op &&& 0x9f000000#32 =
      setBits (.bit 31) (op100xInstruction 0b000#32) op.val &&& 0x9f000000#32 := by
  rw [pcRelAddressing, setBits_and (by decide), setBits_and (by decide), setBits_and (by decide)]

theorem pcRelAddressing_rd : (pcRelAddressing reg imm op).setWidth 5 = reg.field.setWidth 5 := by
  rw [BitVec.setWidth_eq_extractLsb' (by omega), pcRelAddressing,
    extract_setBits_self _ _ (by omega) (by omega)]

theorem pcRelAddressing_imm : adrImm (pcRelAddressing reg imm op) = imm.setWidth 21 := by
  have hHigh : (imm >>> 2).setWidth 19 = imm.extractLsb' 2 19 := by
    ext i hi
    simp [BitVec.getElem_extractLsb']
  have hLow : imm.setWidth 2 = imm.extractLsb' 0 2 := BitVec.setWidth_eq_extractLsb' (by omega)
  rw [adrImm, pcRelAddressing]
  simp (disch := omega) only [extract_setBits_self, extract_setBits_apart]
  rw [show (Mask.mk 29 31).count = 2 from rfl, hHigh, hLow]
  ext i hi
  simp only [BitVec.getElem_append, BitVec.getElem_extractLsb', BitVec.getElem_setWidth]
  split
  · simp
  · congr 1
    omega

theorem decode_adr : decodePcRel (adr reg imm) =
    some (.adr (reg.field.setWidth 5) (imm.setWidth 21)) := by
  have hFixed : adr reg imm &&& 0x9f000000#32 = 0x10000000#32 :=
    (pcRelAddressing_fixed reg imm .adr).trans (by decide)
  rw [decodePcRel_adr hFixed, adr, pcRelAddressing_rd, pcRelAddressing_imm]

theorem decode_adrp : decodePcRel (adrp reg imm) =
    some (.adrp (reg.field.setWidth 5) ((imm >>> 12).setWidth 21)) := by
  have hFixed : adrp reg imm &&& 0x9f000000#32 = 0x90000000#32 :=
    (pcRelAddressing_fixed reg _ .adrp).trans (by decide)
  rw [decodePcRel_adrp hFixed, adrp, pcRelAddressing_rd, pcRelAddressing_imm]

end

/-! ## Signed displacements -/

/-- `w` puts the address `d` bytes from itself in `o`. -/
def DecodesToAdr (w : Word) (o : Operand) (d : Int) : Prop :=
  ∃ rd imm, decodePcRel w = some (.adr rd imm) ∧ orZr true rd = o ∧ imm.toInt = d

/-- `w` puts the page `d` bytes from its own in `o`. -/
def DecodesToAdrp (w : Word) (o : Operand) (d : Int) : Prop :=
  ∃ rd imm, decodePcRel w = some (.adrp rd imm) ∧ orZr true rd = o ∧ 4096 * imm.toInt = d

section

variable {reg : Register} {o : Operand} {d : Int}

/-- The field names the register, unless that is the stack pointer. -/
theorem orZr_field_iff (hOperand : reg.operand = some o) (hWidth : o.is64 = true) :
    orZr true (reg.field.setWidth 5) = o ↔ o.gpr ≠ .sp := by
  constructor
  · rintro rfl
    rw [orZr]
    split
    · intro h
      cases h
    · intro h
      cases h
  · intro hGpr
    have hField := Register.IsOrZr.field ⟨hOperand, hGpr⟩
    rwa [hWidth] at hField

theorem toInt_adr_imm (hLow : -2 ^ 20 ≤ d) (hHigh : d < 2 ^ 20) :
    ((BitVec.ofInt 32 d).setWidth 21).toInt = d := by
  have hCut : (2 ^ 21 : Int) ∣ 2 ^ 32 := ⟨2 ^ 11, by decide⟩
  have hMod : ((BitVec.ofInt 32 d).toNat : Int) = d % 2 ^ 32 := by
    rw [BitVec.toNat_ofInt, Int.toNat_of_nonneg (Int.emod_nonneg _ (by decide))]
    rfl
  rw [BitVec.toInt_setWidth, hMod, Int.bmod_eq_iff (by decide)]
  refine ⟨by omega, by omega, ?_⟩
  have hBack : (2 ^ 32 : Int) ∣ d - d % 2 ^ 32 := Int.dvd_self_sub_of_emod_eq rfl
  exact_mod_cast hCut.trans hBack

/-- The page displacement that comes back is the unsigned one. -/
theorem toInt_adrp_imm (hPage : 4096 ∣ d) :
    (4096 : Int) * (((BitVec.ofInt 32 d) >>> 12).setWidth 21).toInt = d % 2 ^ 32 := by
  have hNat : ((BitVec.ofInt 32 d).toNat : Int) = d % 2 ^ 32 := by
    rw [BitVec.toNat_ofInt, Int.toNat_of_nonneg (Int.emod_nonneg _ (by decide))]
    rfl
  have hField : (((BitVec.ofInt 32 d) >>> 12).setWidth 21).toNat = (BitVec.ofInt 32 d).toNat / 4096 := by
    rw [BitVec.toNat_setWidth, BitVec.toNat_ushiftRight, Nat.shiftRight_eq_div_pow]
    have hLt := (BitVec.ofInt 32 d).isLt
    omega
  have hSign : 2 * (((BitVec.ofInt 32 d) >>> 12).setWidth 21).toNat < 2 ^ 21 := by
    have hLt := (BitVec.ofInt 32 d).isLt
    omega
  rw [BitVec.toInt_eq_toNat_of_lt hSign, hField]
  omega

theorem adr_decodes_iff (hOperand : reg.operand = some o) (hWidth : o.is64 = true)
    (hLow : -2 ^ 20 ≤ d) (hHigh : d < 2 ^ 20) :
    DecodesToAdr (adr reg (BitVec.ofInt 32 d)) o d ↔ o.gpr ≠ .sp := by
  rw [← orZr_field_iff hOperand hWidth, DecodesToAdr, decode_adr]
  constructor
  · rintro ⟨rd, imm, hDecode, hRd, -⟩
    cases hDecode
    exact hRd
  · intro hRd
    exact ⟨_, _, rfl, hRd, toInt_adr_imm hLow hHigh⟩

theorem adrp_decodes_iff (hOperand : reg.operand = some o) (hWidth : o.is64 = true)
    (hPage : 4096 ∣ d) (hLow : -2 ^ 31 ≤ d) (hHigh : d < 2 ^ 31) :
    DecodesToAdrp (adrp reg (BitVec.ofInt 32 d)) o d ↔ o.gpr ≠ .sp ∧ 0 ≤ d := by
  rw [← orZr_field_iff hOperand hWidth, DecodesToAdrp, decode_adrp]
  have hImm := toInt_adrp_imm hPage
  constructor
  · rintro ⟨rd, imm, hDecode, hRd, hEq⟩
    cases hDecode
    refine ⟨hRd, ?_⟩
    rw [hImm] at hEq
    omega
  · rintro ⟨hRd, hNonneg⟩
    refine ⟨_, _, rfl, hRd, ?_⟩
    rw [hImm]
    omega

end

/-- A displacement comes back unless the register is the stack pointer, for a page only when it
is not negative. -/
theorem pcRelAddressing_signed_iff (reg : Register) (o : Operand)
    (hOperand : reg.operand = some o) (hWidth : o.is64 = true) :
    (∀ d : Int, -2 ^ 20 ≤ d → d < 2 ^ 20 →
      (DecodesToAdr (adr reg (BitVec.ofInt 32 d)) o d ↔ o.gpr ≠ .sp)) ∧
    (∀ d : Int, 4096 ∣ d → -2 ^ 31 ≤ d → d < 2 ^ 31 →
      (DecodesToAdrp (adrp reg (BitVec.ofInt 32 d)) o d ↔ o.gpr ≠ .sp ∧ 0 ≤ d)) :=
  ⟨fun _ => adr_decodes_iff hOperand hWidth, fun _ => adrp_decodes_iff hOperand hWidth⟩

theorem pcRelAddressing_signed_x0 :
    DecodesToAdr (adr (.make true 0#8) (BitVec.ofInt 32 (-4))) ⟨true, .r 0⟩ (-4) ∧
      DecodesToAdrp (adrp (.make true 0#8) (BitVec.ofInt 32 0x3000)) ⟨true, .r 0⟩ 0x3000 := by
  obtain ⟨hAdr, hAdrp⟩ :=
    pcRelAddressing_signed_iff (.make true 0#8) ⟨true, .r 0⟩ (by decide) (by decide)
  refine ⟨?_, ?_⟩
  · exact (hAdr (-4) (by decide) (by decide)).mpr (by decide)
  · exact (hAdrp 0x3000 (by decide) (by decide) (by decide)).mpr (by decide)

/-- The page before its own: the word names the one four gigabytes above that. -/
theorem adrp_before_fails :
    ¬ DecodesToAdrp (adrp (.make true 0#8) (BitVec.ofInt 32 (-4096))) ⟨true, .r 0⟩ (-4096) ∧
      DecodesToAdrp (adrp (.make true 0#8) (BitVec.ofInt 32 (-4096))) ⟨true, .r 0⟩
        (2 ^ 32 - 4096) := by
  refine ⟨?_, ⟨0#5, 0xfffff#21, by decide, by decide, by decide⟩⟩
  intro h
  have hBound := (adrp_decodes_iff (by decide) (by decide) (by decide) (by decide) (by decide)).mp h
  exact absurd hBound.2 (by decide)

end Wondar.Armv8
