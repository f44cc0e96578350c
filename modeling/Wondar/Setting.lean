import Wondar.A64.Bits

/-!
# Constants of the program

The sizes of `setting.hpp`, the result codes of `result.hpp` and the alignment macros of
`types.h`, on 64-bit unsigned values.
-/

namespace Wondar

/-- A `Result`: zero, or a module and a description. -/
abbrev Result := BitVec 32

/-- `PAGE_SIZE`. -/
def pageSize : BitVec 64 := 0x1000#64

namespace Setting

/-- How large the JIT area is for hooks. -/
def jitSize : Nat := 0x3000
/-- How large the inline hook pool is. -/
def inlinePoolSize : Nat := 0x3000

end Setting

/-- `MAKERESULT`. -/
def makeResult (module description : BitVec 32) : Result :=
  (module &&& 0x1ff#32) ||| ((description &&& 0x1fff#32) <<< 9)

/-- `R_FAILED`. -/
def rFailed (r : Result) : Bool := r != 0#32

namespace Results

/-- The results of the repository that the modelled functions return. -/
def success : Result := makeResult 0#32 0#32
def hookFailed : Result := makeResult 252#32 1#32
def hookTrampolineAllocFail : Result := makeResult 252#32 2#32
def tooManyStaticModules : Result := makeResult 252#32 5#32

end Results

/-! ## Alignment -/

/-- `ALIGN_UP`. -/
def alignUp (x a : BitVec 64) : BitVec 64 := (x + (a - 1#64)) &&& ~~~(a - 1#64)

/-- `ALIGN_DOWN`. -/
def alignDown (x a : BitVec 64) : BitVec 64 := x &&& ~~~(a - 1#64)

theorem and_not_add_and (x m : BitVec 64) : (x &&& ~~~m) + (x &&& m) = x := by
  rw [BitVec.add_eq_or_of_and_eq_zero]
  · rw [← BitVec.and_or_distrib_left, BitVec.or_comm, BitVec.or_not_self, BitVec.and_allOnes]
  · ext i hi
    cases hm : m[i] <;> simp [hm]

/-- To a power of two. -/
theorem alignDown_pow_toNat (x : BitVec 64) {k : Nat} (hk : k < 64) :
    (alignDown x (BitVec.ofNat 64 (2 ^ k))).toNat = x.toNat - x.toNat % 2 ^ k := by
  have hPow : 2 ^ k < 2 ^ 64 := Nat.pow_lt_pow_right (by decide) hk
  have hPos : 0 < 2 ^ k := Nat.two_pow_pos k
  have hMask : (BitVec.ofNat 64 (2 ^ k) - 1#64).toNat = 2 ^ k - 1 := by
    rw [BitVec.toNat_sub, BitVec.toNat_ofNat, BitVec.toNat_ofNat]
    omega
  have hSum := congrArg BitVec.toNat (and_not_add_and x (BitVec.ofNat 64 (2 ^ k) - 1#64))
  have hLow : (x &&& (BitVec.ofNat 64 (2 ^ k) - 1#64)).toNat = x.toNat % 2 ^ k := by
    rw [BitVec.toNat_and, hMask]
    exact Nat.and_two_pow_sub_one_eq_mod x.toNat k
  have hLe : (x &&& ~~~(BitVec.ofNat 64 (2 ^ k) - 1#64)).toNat ≤ x.toNat := by
    rw [BitVec.toNat_and]
    exact Nat.and_le_left
  rw [BitVec.toNat_add, hLow] at hSum
  have hMod := Nat.mod_le x.toNat (2 ^ k)
  have hLt := x.isLt
  unfold alignDown
  omega

theorem alignDown_toNat (x : BitVec 64) :
    (alignDown x pageSize).toNat = x.toNat - x.toNat % 4096 :=
  alignDown_pow_toNat x (k := 12) (by decide)

/-- To a power of two. -/
theorem alignUp_pow_toNat {x : BitVec 64} {k : Nat} (hk : k < 64)
    (h : x.toNat + (2 ^ k - 1) < 2 ^ 64) :
    (alignUp x (BitVec.ofNat 64 (2 ^ k))).toNat = (x.toNat + (2 ^ k - 1)) / 2 ^ k * 2 ^ k := by
  have hPow : 2 ^ k < 2 ^ 64 := Nat.pow_lt_pow_right (by decide) hk
  have hPos : 0 < 2 ^ k := Nat.two_pow_pos k
  have hSum : (x + (BitVec.ofNat 64 (2 ^ k) - 1#64)).toNat = x.toNat + (2 ^ k - 1) := by
    rw [BitVec.toNat_add, BitVec.toNat_sub, BitVec.toNat_ofNat, BitVec.toNat_ofNat]
    omega
  have hDown := alignDown_pow_toNat (x + (BitVec.ofNat 64 (2 ^ k) - 1#64)) hk
  rw [hSum] at hDown
  have hDiv := Nat.div_add_mod (x.toNat + (2 ^ k - 1)) (2 ^ k)
  rw [Nat.mul_comm] at hDiv
  have hUp : alignUp x (BitVec.ofNat 64 (2 ^ k)) =
      alignDown (x + (BitVec.ofNat 64 (2 ^ k) - 1#64)) (BitVec.ofNat 64 (2 ^ k)) := rfl
  rw [hUp, hDown]
  omega

theorem alignUp_toNat {x : BitVec 64} (h : x.toNat + 4095 < 2 ^ 64) :
    (alignUp x pageSize).toNat = (x.toNat + 4095) / 4096 * 4096 :=
  alignUp_pow_toNat (k := 12) (by decide) h

/-- An offset into the page does not change the page. -/
theorem alignDown_add_offset {p off : BitVec 64} (hp : p.toNat % 4096 = 0)
    (hOff : off.toNat < 4096) : alignDown (p + off) pageSize = p := by
  apply BitVec.eq_of_toNat_eq
  rw [alignDown_toNat, BitVec.toNat_add]
  have := p.isLt
  omega

end Wondar
