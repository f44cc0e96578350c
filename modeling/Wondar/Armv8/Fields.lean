import Mathlib.Data.Nat.Bitwise
import Wondar.A64.Encoding
import Wondar.Armv8.Instructions

/-!
# Fields of an instruction

A field that `SetBits` writes reads back as its value, and every other field as before
(`extract_setBits_self`, `extract_setBits_apart`; `getLsbD_self`, `getLsbD_apart` for a single
bit). A register field reads back as the operand that the register is
(`Register.IsOrSp.field`, `Register.IsOrZr.field`).
-/

namespace Wondar.Armv8

open A64
open A64.Encoding (Operand orZr orSp)

/-! ## Fields -/

section

variable {low high i n : Nat}

theorem value_getLsbD (h : low ≤ high) (h' : high ≤ 32) (hi : i < 32) :
    (Mask.mk low high).value.getLsbD i = decide (low ≤ i ∧ i < high) := by
  have hOnes : ((1#32 <<< (high - low)) - 1#32).toNat = 2 ^ (high - low) - 1 := by
    have hPos := Nat.two_pow_pos (high - low)
    rcases Nat.lt_or_ge (high - low) 32 with hLt | hGe
    · have hPow : 2 ^ (high - low) < 2 ^ 32 := Nat.pow_lt_pow_right (by decide) hLt
      rw [BitVec.toNat_sub, BitVec.toNat_shiftLeft, Nat.shiftLeft_eq]
      simp only [BitVec.toNat_ofNat]
      omega
    · have hEq : high - low = 32 := by omega
      rw [hEq]
      decide
  rw [Mask.value, Mask.count, BitVec.getLsbD_shiftLeft, ← BitVec.testBit_toNat, hOnes,
    Nat.testBit_two_pow_sub_one]
  simp only [hi, decide_true, Bool.and_eq_decide]
  grind

variable (data val : Word)

theorem getLsbD_setBits (h : low ≤ high) (h' : high ≤ 32) (hi : i < 32) :
    (setBits ⟨low, high⟩ data val).getLsbD i =
      if low ≤ i ∧ i < high then val.getLsbD (i - low) else data.getLsbD i := by
  rw [setBits, BitVec.getLsbD_or, BitVec.getLsbD_and, BitVec.getLsbD_not, BitVec.getLsbD_and,
    BitVec.getLsbD_shiftLeft, value_getLsbD h h' hi]
  by_cases hIn : low ≤ i ∧ i < high
  · simp [hIn, hi]
  · simp [hIn, hi]

theorem getLsbD_self (h' : high ≤ 32) (hLow : low ≤ i) (hHigh : i < high) :
    (setBits ⟨low, high⟩ data val).getLsbD i = val.getLsbD (i - low) := by
  rw [getLsbD_setBits _ _ (by omega) h' (by omega), if_pos ⟨hLow, hHigh⟩]

theorem getLsbD_apart (h : low ≤ high) (h' : high ≤ 32) (hi : i < 32)
    (hApart : i < low ∨ high ≤ i) :
    (setBits ⟨low, high⟩ data val).getLsbD i = data.getLsbD i := by
  rw [getLsbD_setBits _ _ h h' hi, if_neg (by omega)]

/-- A field that is set reads back. -/
theorem extract_setBits_self (hHigh : high = low + n) (h' : high ≤ 32) :
    (setBits ⟨low, high⟩ data val).extractLsb' low n = val.setWidth n := by
  apply BitVec.eq_of_getLsbD_eq
  intro j hj
  rw [BitVec.getLsbD_extractLsb', getLsbD_setBits _ _ (by omega) h' (by omega),
    if_pos (by omega), Nat.add_sub_cancel_left, BitVec.getLsbD_setWidth]

/-- The other fields are left alone. -/
theorem extract_setBits_apart (h : low ≤ high) (h' : high ≤ 32) (hn : i + n ≤ 32)
    (hApart : i + n ≤ low ∨ high ≤ i) :
    (setBits ⟨low, high⟩ data val).extractLsb' i n = data.extractLsb' i n := by
  apply BitVec.eq_of_getLsbD_eq
  intro j hj
  rw [BitVec.getLsbD_extractLsb', getLsbD_apart _ _ h h' (by omega) (by omega),
    BitVec.getLsbD_extractLsb']

@[simp]
theorem ofBool_getLsbD (b : Bool) : (ofBool b).getLsbD 0 = b := by
  cases b <;> rfl

end

/-! ## Registers -/

/-- The operand that a register is. -/
def Register.operand (r : Register) : Option Operand :=
  if h : r.index.toNat < 31 then some ⟨r.is64, .r ⟨r.index.toNat, h⟩⟩
  else if r.index = 31#8 then some ⟨r.is64, .sp⟩
  else if r.index = 0x7f#8 then some ⟨r.is64, .zr⟩
  else none

/-- A register in a place where the zero register is not allowed. -/
def Register.IsOrSp (r : Register) (o : Operand) : Prop := r.operand = some o ∧ o.gpr ≠ .zr

/-- A register in a place where the stack pointer is not allowed. -/
def Register.IsOrZr (r : Register) (o : Operand) : Prop := r.operand = some o ∧ o.gpr ≠ .sp

theorem operand_cases {r : Register} {o : Operand} (hOperand : r.operand = some o) :
    o.is64 = r.is64 ∧
      ((∃ h : r.index.toNat < 31, o.gpr = .r ⟨r.index.toNat, h⟩) ∨
        r.index = 31#8 ∧ o.gpr = .sp ∨ r.index = 0x7f#8 ∧ o.gpr = .zr) := by
  unfold Register.operand at hOperand
  split at hOperand
  · rename_i hIndex
    cases hOperand
    exact ⟨rfl, .inl ⟨hIndex, rfl⟩⟩
  · split at hOperand
    · rename_i hIndex
      cases hOperand
      exact ⟨rfl, .inr (.inl ⟨hIndex, rfl⟩)⟩
    · split at hOperand
      · rename_i hIndex
        cases hOperand
        exact ⟨rfl, .inr (.inr ⟨hIndex, rfl⟩)⟩
      · cases hOperand

theorem field_toNat (r : Register) : (r.field.setWidth 5).toNat = r.index.toNat % 32 := by
  have hLt := r.index.isLt
  rw [Register.field, BitVec.toNat_setWidth, BitVec.toNat_setWidth]
  omega

theorem Register.IsOrSp.is64 {r : Register} {o : Operand} (h : r.IsOrSp o) : o.is64 = r.is64 :=
  (operand_cases h.1).1

theorem Register.IsOrZr.is64 {r : Register} {o : Operand} (h : r.IsOrZr o) : o.is64 = r.is64 :=
  (operand_cases h.1).1

theorem Register.IsOrSp.field {r : Register} {o : Operand} (h : r.IsOrSp o) :
    orSp o.is64 (r.field.setWidth 5) = o := by
  obtain ⟨-, hCases⟩ := operand_cases h.1
  have hField := field_toNat r
  obtain ⟨is64, gpr⟩ := o
  rcases hCases with ⟨hLt, rfl⟩ | ⟨hIndex, rfl⟩ | ⟨-, hZr⟩
  · exact Encoding.orSp_of_lt (hField.trans (Nat.mod_eq_of_lt (by omega))) hLt
  · rw [hIndex] at hField
    exact Encoding.orSp_top hField
  · exact absurd hZr h.2

theorem Register.IsOrZr.field {r : Register} {o : Operand} (h : r.IsOrZr o) :
    orZr o.is64 (r.field.setWidth 5) = o := by
  obtain ⟨-, hCases⟩ := operand_cases h.1
  have hField := field_toNat r
  obtain ⟨is64, gpr⟩ := o
  rcases hCases with ⟨hLt, rfl⟩ | ⟨-, hSp⟩ | ⟨hIndex, rfl⟩
  · exact Encoding.orZr_of_lt (hField.trans (Nat.mod_eq_of_lt (by omega))) hLt
  · exact absurd hSp h.2
  · rw [hIndex] at hField
    exact Encoding.orZr_top hField

theorem getNone_isOrZr (r : Register) : (getNone r).IsOrZr ⟨r.is64, .zr⟩ := by
  unfold getNone
  cases r.is64 with
  | false => exact ⟨by decide, by decide⟩
  | true => exact ⟨by decide, by decide⟩

end Wondar.Armv8
