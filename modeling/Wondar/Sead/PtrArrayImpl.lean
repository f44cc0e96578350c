import Wondar.Moves

/-!
# `PtrArrayImpl`

`erase` checks its range and moves what lies behind it up to its start. The bound of the check, the
length of the move and the new number of pointers are 32-bit numbers with a sign. `MemUtil` is not
part of the repository; `copyOverlap` is a function that moves bytes.

A position and a count whose sum is no such number pass the check, since the sum wraps to a
negative one. In all other cases exactly the range is erased, or nothing at all
(`erase_exact_iff`), and so it is along any number of calls (`erases_spec`).
-/

namespace Wondar.Sead

open A64 (Addr)
open Moves

def sizeofPtr : BitVec 64 := 8#64

structure PtrArrayImpl where
  mPtrNum : BitVec 32
  mPtrNumMax : BitVec 32
  mPtrs : Addr
deriving DecidableEq, Repr

namespace PtrArrayImpl

structure Valid (a : PtrArrayImpl) : Prop where
  nonneg : 0 ≤ a.mPtrNum.toInt
  le_max : a.mPtrNum.toInt ≤ a.mPtrNumMax.toInt

/-- `mPtrs + i`. -/
def ptrTo (a : PtrArrayImpl) (i : BitVec 32) : Addr := a.mPtrs + sizeofPtr * i.signExtend 64

/-- Behind an assertion that fails the functions return. -/
def setBuffer (a : PtrArrayImpl) (ptrNumMax : BitVec 32) (buf : Addr) : PtrArrayImpl :=
  if ptrNumMax.slt 1#32 then a
  else if buf = 0#64 then a
  else { mPtrs := buf, mPtrNum := 0#32, mPtrNumMax := ptrNumMax }

/-- The array, and the call of `copyOverlap` if there is one. -/
def erase (a : PtrArrayImpl) (pos count : BitVec 32) : PtrArrayImpl × Option Move :=
  if pos.slt 0#32 then (a, none)
  else if count.slt 0#32 then (a, none)
  else if a.mPtrNum.slt (pos + count) then (a, none)
  else
    let endPos := pos + count
    ({ a with mPtrNum := a.mPtrNum - count },
      if endPos.slt a.mPtrNum then
        some ⟨a.ptrTo pos, a.ptrTo endPos, sizeofPtr * (a.mPtrNum - endPos).signExtend 64⟩
      else none)

/-- The pointers of the array. -/
def ptrs (a : PtrArrayImpl) (mem : Addr → Byte) : List (BitVec 64) :=
  cells mem a.mPtrs a.mPtrNum.toNat

/-- The bytes of the pointers. -/
def Holds (a : PtrArrayImpl) (b : Addr) : Prop := (b - a.mPtrs).toNat < 8 * a.mPtrNum.toNat

/-- The range lies in the array. -/
def InRange (a : PtrArrayImpl) (pos count : BitVec 32) : Prop :=
  0 ≤ pos.toInt ∧ 0 ≤ count.toInt ∧ pos.toInt + count.toInt ≤ a.mPtrNum.toInt

/-- The sum is more than a 32-bit number with a sign. -/
def SumOverflows (pos count : BitVec 32) : Prop :=
  0 ≤ pos.toInt ∧ 0 ≤ count.toInt ∧ 2 ^ 31 ≤ pos.toInt + count.toInt

instance (pos count : BitVec 32) : Decidable (SumOverflows pos count) :=
  inferInstanceAs (Decidable (_ ∧ _))

section

variable (copyOverlap : Move → (Addr → Byte) → Addr → Byte)

/-- The memory behind a call. -/
def eraseMem (a : PtrArrayImpl) (mem : Addr → Byte) (pos count : BitVec 32) : Addr → Byte :=
  match (a.erase pos count).2 with
  | none => mem
  | some m => copyOverlap m mem

/-- Exactly the range is erased, or nothing, and nothing outside of the array is touched. -/
structure ErasesExactly (a : PtrArrayImpl) (mem : Addr → Byte) (pos count : BitVec 32) :
    Prop where
  erased : a.InRange pos count →
    (a.erase pos count).1.ptrs (eraseMem copyOverlap a mem pos count) =
      (a.ptrs mem).take pos.toNat ++ (a.ptrs mem).drop (pos.toNat + count.toNat) ∧
    (a.erase pos count).1.mPtrs = a.mPtrs ∧ (a.erase pos count).1.mPtrNumMax = a.mPtrNumMax
  unchanged : ¬ a.InRange pos count →
    (a.erase pos count).1 = a ∧ eraseMem copyOverlap a mem pos count = mem
  inside : ∀ m ∈ (a.erase pos count).2, ∀ b, m.Reads b ∨ m.Writes b → a.Holds b

variable {copyOverlap} {a : PtrArrayImpl} {mem : Addr → Byte} {pos count : BitVec 32}

/-! ## Numbers with a sign -/

theorem toInt_eq_toNat {x : BitVec 32} (h : 0 ≤ x.toInt) : x.toInt = x.toNat ∧ x.toNat < 2 ^ 31 := by
  have hLt := x.isLt
  rw [BitVec.toInt_eq_toNat_cond] at h ⊢
  split at h <;> omega

theorem slt_zero_iff (x : BitVec 32) : x.slt 0#32 = true ↔ ¬ 0 ≤ x.toInt := by
  rw [BitVec.slt_iff_toInt_lt, BitVec.toInt_zero]
  omega

theorem sum_toInt (hPos : 0 ≤ pos.toInt) (hCount : 0 ≤ count.toInt)
    (hSum : pos.toInt + count.toInt < 2 ^ 31) : (pos + count).toInt = pos.toInt + count.toInt := by
  rw [BitVec.toInt_add, Int.bmod_eq_of_le (by omega) (by omega)]

/-- A sum that does not fit is negative. -/
theorem sum_negative (h : SumOverflows pos count) : (pos + count).toInt < 0 := by
  obtain ⟨hPos, hCount, hSum⟩ := h
  have hPosLt := (toInt_eq_toNat hPos).2
  have hCountLt := (toInt_eq_toNat hCount).2
  rw [(toInt_eq_toNat hPos).1, (toInt_eq_toNat hCount).1] at hSum
  rw [BitVec.toInt_eq_toNat_cond, BitVec.toNat_add, Nat.mod_eq_of_lt (by omega)]
  split <;> omega

theorem signExtend_toNat {x : BitVec 32} (h : 0 ≤ x.toInt) : x.signExtend 64 = BitVec.ofNat 64 x.toNat := by
  apply BitVec.eq_of_toInt_eq
  obtain ⟨hEq, hLt⟩ := toInt_eq_toNat h
  rw [BitVec.toInt_signExtend_of_le (by decide), hEq, BitVec.toInt_ofNat',
    Int.bmod_eq_of_le (by omega) (by omega)]

theorem ptrTo_eq {i : BitVec 32} (hi : 0 ≤ i.toInt) :
    a.ptrTo i = a.mPtrs + BitVec.ofNat 64 (8 * i.toNat) := by
  rw [ptrTo, signExtend_toNat hi, sizeofPtr, ← BitVec.ofNat_mul]

theorem InRange.bounds (hRange : a.InRange pos count) :
    pos.toNat + count.toNat ≤ a.mPtrNum.toNat ∧ a.mPtrNum.toNat < 2 ^ 31 := by
  obtain ⟨hPos, hCount, hLe⟩ := hRange
  have hPosNat := (toInt_eq_toNat hPos).1
  have hCountNat := (toInt_eq_toNat hCount).1
  obtain ⟨hNumNat, hNumLt⟩ := toInt_eq_toNat (show 0 ≤ a.mPtrNum.toInt by omega)
  exact ⟨by omega, hNumLt⟩

/-! ## One call -/

/-- The check is that of the range, unless the sum overflows. -/
theorem erase_outside (hSum : ¬ SumOverflows pos count) (hRange : ¬ a.InRange pos count) :
    a.erase pos count = (a, none) := by
  unfold erase
  split
  · rfl
  · rename_i hPos
    split
    · rfl
    · rename_i hCount
      rw [slt_zero_iff, not_not] at hPos hCount
      have hFits : pos.toInt + count.toInt < 2 ^ 31 := by
        by_contra h
        exact hSum ⟨hPos, hCount, by omega⟩
      have hExceeds : a.mPtrNum.slt (pos + count) = true := by
        rw [BitVec.slt_iff_toInt_lt, sum_toInt hPos hCount hFits]
        by_contra h
        exact hRange ⟨hPos, hCount, by omega⟩
      rw [if_pos hExceeds]

/-- In range the move closes the gap. -/
theorem erase_inRange (hRange : a.InRange pos count) :
    a.erase pos count = ({ a with mPtrNum := a.mPtrNum - count },
      if pos.toNat + count.toNat < a.mPtrNum.toNat then
        some (closeGap a.mPtrs a.mPtrNum.toNat pos.toNat count.toNat)
      else none) := by
  obtain ⟨hPos, hCount, hLe⟩ := hRange
  obtain ⟨hPosNat, -⟩ := toInt_eq_toNat hPos
  obtain ⟨hCountNat, -⟩ := toInt_eq_toNat hCount
  obtain ⟨hNumNat, hNumLt⟩ := toInt_eq_toNat (show 0 ≤ a.mPtrNum.toInt by omega)
  have hSum : (pos + count).toInt = pos.toInt + count.toInt := sum_toInt hPos hCount (by omega)
  have hSumNat : (pos + count).toNat = pos.toNat + count.toNat := by
    rw [BitVec.toNat_add, Nat.mod_eq_of_lt (by omega)]
  have hRest : (a.mPtrNum - (pos + count)).toNat = a.mPtrNum.toNat - (pos.toNat + count.toNat) := by
    rw [BitVec.toNat_sub, hSumNat]
    omega
  have hRestInt : 0 ≤ (a.mPtrNum - (pos + count)).toInt := by
    rw [BitVec.toInt_eq_toNat_cond, hRest]
    split <;> omega
  have hChecks : ¬ pos.slt 0#32 = true ∧ ¬ count.slt 0#32 = true ∧
      ¬ a.mPtrNum.slt (pos + count) = true := by
    rw [slt_zero_iff, slt_zero_iff, BitVec.slt_iff_toInt_lt, hSum]
    omega
  have hEnd : (pos + count).slt a.mPtrNum = true ↔ pos.toNat + count.toNat < a.mPtrNum.toNat := by
    rw [BitVec.slt_iff_toInt_lt, hSum]
    omega
  rw [erase, if_neg hChecks.1, if_neg hChecks.2.1, if_neg hChecks.2.2]
  simp only [hEnd]
  congr 2
  rw [closeGap, ptrTo_eq hPos, ptrTo_eq (by omega), hSumNat, signExtend_toNat hRestInt, hRest,
    sizeofPtr, ← BitVec.ofNat_mul]

theorem num_after (hRange : a.InRange pos count) :
    (a.mPtrNum - count).toNat = a.mPtrNum.toNat - count.toNat := by
  have hBounds := hRange.bounds
  rw [BitVec.toNat_sub]
  omega

theorem ptrs_erase (hMove : Lawful copyOverlap) (hRange : a.InRange pos count) :
    (a.erase pos count).1.ptrs (eraseMem copyOverlap a mem pos count) =
      (a.ptrs mem).take pos.toNat ++ (a.ptrs mem).drop (pos.toNat + count.toNat) := by
  have hBounds := hRange.bounds
  rw [eraseMem, erase_inRange hRange]
  simp only [ptrs, num_after hRange]
  split
  · rename_i hNone
    have hEnd : ¬ pos.toNat + count.toNat < a.mPtrNum.toNat := by
      intro h
      rw [if_pos h] at hNone
      cases hNone
    exact cells_dropEnd (by omega)
  · rename_i m hSome
    split at hSome
    · cases hSome
      exact cells_closeGap hMove (by omega) (by omega)
    · cases hSome

theorem erase_inside (hRange : a.InRange pos count) {m : Move} (hMove : m ∈ (a.erase pos count).2)
    {b : Addr} (hb : m.Reads b ∨ m.Writes b) : a.Holds b := by
  have hBounds := hRange.bounds
  rw [erase_inRange hRange] at hMove
  simp only at hMove
  split at hMove
  · cases hMove
    exact closeGap_inside (by omega) (by omega) hb
  · cases hMove

theorem erases_exactly (hMove : Lawful copyOverlap) (hSum : ¬ SumOverflows pos count) :
    ErasesExactly copyOverlap a mem pos count where
  erased hRange := by
    refine ⟨ptrs_erase hMove hRange, ?_⟩
    rw [erase_inRange hRange]
    exact ⟨rfl, rfl⟩
  unchanged hRange := by
    rw [eraseMem, erase_outside hSum hRange]
    exact ⟨rfl, rfl⟩
  inside m hm b hb := by
    by_cases hRange : a.InRange pos count
    · exact erase_inside hRange hm hb
    · rw [erase_outside hSum hRange] at hm
      cases hm

/-- A sum that overflows passes the check, and the number of pointers changes. -/
theorem erase_overflow (hValid : a.Valid) (hSum : SumOverflows pos count) :
    ¬ a.InRange pos count ∧ (a.erase pos count).1.mPtrNum ≠ a.mPtrNum := by
  have hNegative := sum_negative hSum
  obtain ⟨hPos, hCount, hLarge⟩ := hSum
  have hNumLt := (toInt_eq_toNat hValid.nonneg).2
  have hNumNat := (toInt_eq_toNat hValid.nonneg).1
  have hChecks : ¬ pos.slt 0#32 = true ∧ ¬ count.slt 0#32 = true ∧
      ¬ a.mPtrNum.slt (pos + count) = true := by
    rw [slt_zero_iff, slt_zero_iff, BitVec.slt_iff_toInt_lt]
    have hNum := hValid.nonneg
    omega
  refine ⟨fun hRange => ?_, fun hSame => ?_⟩
  · have hLe := hRange.2.2
    omega
  · rw [erase, if_neg hChecks.1, if_neg hChecks.2.1, if_neg hChecks.2.2] at hSame
    have hZero : count = 0#32 := by
      have hSub : a.mPtrNum - count = a.mPtrNum := hSame
      bv_omega
    have hPosLt := (toInt_eq_toNat hPos).2
    have hPosNat := (toInt_eq_toNat hPos).1
    rw [hZero, BitVec.toInt_zero] at hLarge
    omega

/-- A call erases exactly the range or nothing, unless the sum of position and count, neither of
which is negative, is more than the largest 32-bit number with a sign. -/
theorem erase_exact_iff (hMove : Lawful copyOverlap) (hValid : a.Valid) :
    ErasesExactly copyOverlap a mem pos count ↔ ¬ SumOverflows pos count := by
  constructor
  · intro hExact hSum
    obtain ⟨hRange, hNum⟩ := erase_overflow hValid hSum
    exact hNum (congrArg mPtrNum (hExact.unchanged hRange).1)
  · exact erases_exactly hMove

/-! ## Many calls -/

theorem setBuffer_valid {ptrNumMax : BitVec 32} {buf : Addr} (hValid : a.Valid) :
    (a.setBuffer ptrNumMax buf).Valid := by
  unfold setBuffer
  split
  · exact hValid
  · rename_i hMax
    split
    · exact hValid
    · rw [BitVec.slt_iff_toInt_lt] at hMax
      have hOne : (1#32).toInt = 1 := by decide
      have hZero : (0#32).toInt = 0 := by decide
      exact ⟨by simp only [hZero, Int.le_refl], by simp only [hZero]; omega⟩

theorem Valid.erase (hValid : a.Valid) (hSum : ¬ SumOverflows pos count) :
    (a.erase pos count).1.Valid := by
  by_cases hRange : a.InRange pos count
  · have hNum := num_after hRange
    rw [erase_inRange hRange]
    obtain ⟨hPos, hCount, hLe⟩ := hRange
    obtain ⟨hNumNat, hNumLt⟩ := toInt_eq_toNat hValid.nonneg
    have hCountNat := (toInt_eq_toNat hCount).1
    have hMax := hValid.le_max
    have hInt : (a.mPtrNum - count).toInt = a.mPtrNum.toInt - count.toInt := by
      rw [BitVec.toInt_eq_toNat_cond, hNum]
      split <;> omega
    exact ⟨by simp only [hInt]; omega, by simp only [hInt]; omega⟩
  · rw [erase_outside hSum hRange]
    exact hValid

variable (copyOverlap) in
/-- The array and the memory behind calls of `erase`. -/
def erases : List (BitVec 32 × BitVec 32) → PtrArrayImpl → (Addr → Byte) →
    PtrArrayImpl × (Addr → Byte)
  | [], a, mem => (a, mem)
  | (pos, count) :: calls, a, mem =>
    erases calls (a.erase pos count).1 (eraseMem copyOverlap a mem pos count)

/-- Whatever is erased, the pointers that are left stand in their order. -/
theorem erases_spec (hMove : Lawful copyOverlap) {calls : List (BitVec 32 × BitVec 32)}
    (hSums : ∀ call ∈ calls, ¬ SumOverflows call.1 call.2) (hValid : a.Valid) :
    (erases copyOverlap calls a mem).1.Valid ∧
      ((erases copyOverlap calls a mem).1.ptrs (erases copyOverlap calls a mem).2).Sublist
        (a.ptrs mem) := by
  induction calls generalizing a mem with
  | nil => exact ⟨hValid, List.Sublist.refl _⟩
  | cons call calls ih =>
    obtain ⟨pos, count⟩ := call
    obtain ⟨hSum, hRest⟩ := List.forall_mem_cons.mp hSums
    obtain ⟨hLast, hSublist⟩ :=
      @ih _ (eraseMem copyOverlap a mem pos count) hRest (hValid.erase hSum)
    refine ⟨hLast, hSublist.trans ?_⟩
    have hExact : ErasesExactly copyOverlap a mem pos count := erases_exactly hMove hSum
    by_cases hRange : a.InRange pos count
    · rw [(hExact.erased hRange).1]
      have hDrop := List.drop_sublist_drop_left (a.ptrs mem) (Nat.le_add_right pos.toNat count.toNat)
      have hAll := (List.Sublist.refl ((a.ptrs mem).take pos.toNat)).append hDrop
      rwa [List.take_append_drop] at hAll
    · obtain ⟨hArray, hMem⟩ := hExact.unchanged hRange
      rw [hArray, hMem]

end

/-! ## An array of one pointer -/

def onePtr : PtrArrayImpl := ⟨1#32, 1#32, 0x1000#64⟩

theorem onePtr_valid : onePtr.Valid := ⟨by decide, by decide⟩

theorem erase_exact_iff_onePtr : ErasesExactly memmove onePtr (fun _ => 0#8) 0#32 1#32 :=
  (erase_exact_iff memmove_lawful onePtr_valid).mpr (by decide)

/-- The position 1 and the largest count: the check passes. -/
theorem erase_largest_count : ¬ ErasesExactly memmove onePtr (fun _ => 0#8) 1#32 0x7fffffff#32 := by
  intro hExact
  have hSame := (hExact.unchanged (by unfold InRange; decide)).1
  exact absurd hSame (by decide)

end PtrArrayImpl

end Wondar.Sead
