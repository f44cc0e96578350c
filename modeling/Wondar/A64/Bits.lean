import Mathlib.Algebra.Group.Int.Defs
import Mathlib.Algebra.Group.Nat.Defs
import Mathlib.Logic.Function.Basic

/-!
# Bit fields, displacements and word addresses

The arithmetic under an A64 encoding. An instruction word is a constant opcode with
masked fields OR-ed into it, so a decoder's mask test reads back the opcode
(`or_and_masked`) and a low field reads back its value (`setWidth_or_masked`). A branch
keeps a displacement that is a multiple of four, shifted down and cut to `n + 1` bits;
`scaled_round_trip` says when nothing is lost by that.

`wordAt p i` is the address of element `i` of an array of 32-bit words at `p`. Addresses
are 64-bit and wrap around.
-/

namespace A64

/-- An instruction, or half of a doubleword. -/
abbrev Word := BitVec 32

/-- Addresses wrap. -/
abbrev Addr := BitVec 64

/-! ## Masked fields -/

theorem or_and_masked {w : Nat} (c x m M : BitVec w) (h : m &&& M = 0#w) :
    (c ||| (x &&& m)) &&& M = c &&& M := by
  have hField : (x &&& m) &&& M = 0#w := by
    rw [BitVec.and_assoc, h, BitVec.and_zero]
  rw [BitVec.and_comm, BitVec.and_or_distrib_left, BitVec.and_comm M c,
    BitVec.and_comm M (x &&& m), hField, BitVec.or_zero]

/-- The low bits of a word are its field when the opcode has no bit there. -/
theorem setWidth_or_masked {w n : Nat} (c x m : BitVec w) (hc : c.setWidth n = 0#n)
    (hm : m.setWidth n = BitVec.allOnes n) :
    (c ||| (x &&& m)).setWidth n = x.setWidth n := by
  rw [BitVec.setWidth_or, BitVec.setWidth_and, hc, hm, BitVec.and_allOnes, BitVec.zero_or]

/-- The field in the middle of a word. -/
theorem extractLsb'_or_masked {w : Nat} (c x m : BitVec w) (i n : Nat)
    (hc : c.extractLsb' i n = 0#n) (hm : m.extractLsb' i n = BitVec.allOnes n) :
    (c ||| (x &&& m)).extractLsb' i n = x.extractLsb' i n := by
  rw [BitVec.extractLsb'_or, BitVec.extractLsb'_and, hc, hm, BitVec.and_allOnes, BitVec.zero_or]

/-- A bit of the opcode does not depend on the mask of the field. -/
theorem masked_or_congr {w : Nat} (x c m m' : BitVec w) (h : m ||| c = m' ||| c) :
    (x &&& m) ||| c = c ||| (x &&& m') := by
  ext i hi
  have hBit : (m ||| c)[i] = (m' ||| c)[i] := by rw [h]
  simp only [BitVec.getElem_or, BitVec.getElem_and] at hBit ⊢
  cases hx : x[i]
  · simp
  · simpa [Bool.or_comm] using hBit

/-! ### A field put into a word

The bits of `x` under `m`, and those of `y` under `l`. -/

section

variable {w i n : Nat} {m l : BitVec w} (x y : BitVec w)

theorem and_kept {M : BitVec w} (hm : m &&& M = 0#w) (hl : l &&& M = M) :
    ((x &&& m) ||| (y &&& l)) &&& M = y &&& M := by
  rw [BitVec.or_comm, or_and_masked _ _ _ _ hm, BitVec.and_assoc, hl]

theorem getLsbD_kept (hm : m.getLsbD i = false) (hl : l.getLsbD i = true) :
    ((x &&& m) ||| (y &&& l)).getLsbD i = y.getLsbD i := by
  rw [BitVec.getLsbD_or, BitVec.getLsbD_and, BitVec.getLsbD_and, hm, hl, Bool.and_false,
    Bool.and_true, Bool.false_or]

theorem extractLsb'_kept (hm : m.extractLsb' i n = 0#n) (hl : l.extractLsb' i n = BitVec.allOnes n) :
    ((x &&& m) ||| (y &&& l)).extractLsb' i n = y.extractLsb' i n := by
  rw [BitVec.extractLsb'_or, BitVec.extractLsb'_and, BitVec.extractLsb'_and, hm, hl,
    BitVec.and_zero, BitVec.and_allOnes, BitVec.zero_or]

theorem setWidth_kept (hn : n ≤ w) (hm : m.setWidth n = 0#n) (hl : l.setWidth n = BitVec.allOnes n) :
    ((x &&& m) ||| (y &&& l)).setWidth n = y.setWidth n := by
  rw [BitVec.setWidth_eq_extractLsb' hn] at hm hl ⊢
  rw [extractLsb'_kept x y hm hl, BitVec.setWidth_eq_extractLsb' hn]

theorem extractLsb'_put (hm : m.extractLsb' i n = BitVec.allOnes n) (hl : l.extractLsb' i n = 0#n) :
    ((x &&& m) ||| (y &&& l)).extractLsb' i n = x.extractLsb' i n := by
  rw [BitVec.extractLsb'_or, BitVec.extractLsb'_and, BitVec.extractLsb'_and, hm, hl,
    BitVec.and_zero, BitVec.and_allOnes, BitVec.or_zero]

end

theorem and_ne_of_top {w : Nat} {x m v top opc : BitVec w} (h : x &&& top = opc)
    (hNe : opc &&& m ≠ v &&& top) : x &&& m ≠ v := by
  rintro rfl
  apply hNe
  rw [← h, BitVec.and_assoc, BitVec.and_assoc, BitVec.and_comm top]

theorem ushiftRight_top (w : BitVec 32) : w >>> 24 = (w &&& 0xff000000#32) >>> 24 := by
  have hMask : (0xff000000#32 : BitVec 32) >>> 24 = BitVec.ofNat 32 (2 ^ 8 - 1) := by decide
  have hLt := w.isLt
  rw [BitVec.ushiftRight_and_distrib, hMask]
  apply BitVec.eq_of_toNat_eq
  rw [BitVec.toNat_and, BitVec.toNat_ofNat, Nat.mod_eq_of_lt (by decide),
    Nat.and_two_pow_sub_one_eq_mod, BitVec.toNat_ushiftRight, Nat.shiftRight_eq_div_pow]
  omega

theorem and_top_eq (w : BitVec 32) : w &&& 0xff000000#32 = w >>> 24 <<< 24 := by
  have hLow : ∀ j < 24, (0xff000000#32 : Word).getLsbD j = false := by decide
  have hHigh : ∀ j < 32, ¬ j < 24 → (0xff000000#32 : Word).getLsbD j = true := by decide
  ext i hi
  rw [BitVec.getElem_and, ← BitVec.getLsbD_eq_getElem (x := 0xff000000#32), BitVec.getElem_shiftLeft]
  by_cases hi' : i < 24
  · simp [hi', hLow i hi']
  · have hBack : 24 + (i - 24) = i := by omega
    simp [hi', hHigh i hi hi', hBack, hi]

/-- A number that has been shifted into the field at bit 5. -/
theorem extractLsb'_shifted {k : Nat} (hk : k ≤ 27) (q : BitVec 64) :
    ((q <<< 5).setWidth 32).extractLsb' 5 k = q.setWidth k := by
  ext i hi
  have hLt : 5 + i < 32 := by omega
  simp [hLt]

theorem setWidth_shifted (q : BitVec 64) : ((q <<< 5).setWidth 32).setWidth 5 = 0#5 := by
  ext i hi
  simp

theorem and_low_eq_zero_iff (x : BitVec 64) {n : Nat} (hn : n ≤ 64) :
    x &&& BitVec.ofNat 64 (2 ^ n - 1) = 0#64 ↔ x.toNat % 2 ^ n = 0 := by
  rw [← BitVec.toNat_inj, BitVec.toNat_and, BitVec.toNat_ofNat, Nat.mod_eq_of_lt,
    Nat.and_two_pow_sub_one_eq_mod]
  · rfl
  · have hPow := Nat.pow_le_pow_right (n := 2) (by omega) hn
    have hPos := Nat.two_pow_pos n
    omega

/-! ## Scaled signed displacements -/

theorem signExtend_setWidth {n : Nat} (hn : n < 64) (q : BitVec 64)
    (hLow : -(2 ^ n : Int) ≤ q.toInt) (hHigh : q.toInt < 2 ^ n) :
    (q.setWidth (n + 1)).signExtend 64 = q := by
  apply BitVec.eq_of_toInt_eq
  have hDvd : 2 ^ (n + 1) ∣ 2 ^ 64 := Nat.pow_dvd_pow 2 (by omega)
  calc ((q.setWidth (n + 1)).signExtend 64).toInt
      = (q.toNat : Int).bmod (2 ^ (n + 1)) := by
        rw [BitVec.toInt_signExtend_of_le (by omega), BitVec.toInt_setWidth]
    _ = q.toInt.bmod (2 ^ (n + 1)) := by
        rw [BitVec.toInt_eq_toNat_bmod, Int.bmod_bmod_of_dvd hDvd]
    _ = q.toInt := by
        apply Int.bmod_eq_of_le
        · rw [Nat.pow_succ]; push_cast; omega
        · rw [Nat.pow_succ]; push_cast; omega

theorem toInt_sshiftRight_two (d : BitVec 64) : (d.sshiftRight 2).toInt = d.toInt / 4 := by
  rw [BitVec.toInt_sshiftRight, Int.shiftRight_eq_div_pow]
  rfl

theorem sshiftRight_shiftLeft_two (d : BitVec 64) (h : d.toNat % 4 = 0) :
    d.sshiftRight 2 <<< 2 = d := by
  have hQuot := toInt_sshiftRight_two d
  have hDLt := d.isLt
  have hQLt := (d.sshiftRight 2).isLt
  rw [BitVec.toInt_eq_toNat_cond, BitVec.toInt_eq_toNat_cond] at hQuot
  apply BitVec.eq_of_toNat_eq
  rw [BitVec.toNat_shiftLeft, Nat.shiftLeft_eq]
  split at hQuot <;> split at hQuot <;> omega

/-- A displacement whose quarter fits `n + 1` signed bits survives its encoding. -/
theorem scaled_round_trip {n : Nat} (hn : n < 64) (d : BitVec 64) (hAlign : d.toNat % 4 = 0)
    (hLow : -(2 ^ n : Int) ≤ (d.sshiftRight 2).toInt) (hHigh : (d.sshiftRight 2).toInt < 2 ^ n) :
    ((d.sshiftRight 2).setWidth (n + 1)).signExtend 64 <<< 2 = d := by
  rw [signExtend_setWidth hn _ hLow hHigh]
  exact sshiftRight_shiftLeft_two d hAlign

/-- The low bits of a multiple of four. -/
theorem getLsbD_aligned {x : BitVec 64} (hx : x.toNat % 4 = 0) {i : Nat} (hi : i < 2) : x.getLsbD i = false := by
  rw [← sshiftRight_shiftLeft_two x hx, BitVec.getLsbD_shiftLeft, decide_eq_true hi, Bool.not_true,
    Bool.and_false, Bool.false_and]

/-- Beyond the field there is its sign. -/
theorem getLsbD_signExtend_setWidth (x : BitVec 64) {n : Nat} (hPos : 0 < n) {i : Nat} (hi : i < 64) :
    ((x.setWidth n).signExtend 64).getLsbD i = x.getLsbD (min i (n - 1)) := by
  rw [BitVec.getLsbD_signExtend, decide_eq_true hi, Bool.true_and]
  split
  · rename_i hIn
    rw [BitVec.getLsbD_setWidth, decide_eq_true hIn, Bool.true_and, Nat.min_eq_left (by omega)]
  · rename_i hOut
    rw [BitVec.msb_setWidth, Nat.min_eq_right (by omega)]
    simp [hPos]

/-- What is added below an aligned distance. -/
theorem add_low {x : BitVec 64} (hx : x.toNat % 4 = 0) (l : BitVec 2) :
    x + l.setWidth 64 = x ||| l.setWidth 64 := by
  refine BitVec.add_eq_or_of_and_eq_zero _ _ ?_
  ext i hi
  by_cases hLow : i < 2
  · rw [BitVec.getElem_and, ← BitVec.getLsbD_eq_getElem, getLsbD_aligned hx hLow]
    simp
  · simp [BitVec.getLsbD_of_ge l i (by omega)]

/-! ## Doublewords as two words -/

/-- A doubleword from its two words, the low one first in memory. -/
def ofWords (lo hi : Word) : BitVec 64 := hi ++ lo

/-- The half that comes first in memory. -/
def loWord (v : BitVec 64) : Word := v.setWidth 32

/-- The half that comes second. -/
def hiWord (v : BitVec 64) : Word := v.extractLsb' 32 32

@[simp] theorem ofWords_lo_hi (v : BitVec 64) : ofWords (loWord v) (hiWord v) = v := by
  unfold ofWords loWord hiWord
  rw [BitVec.setWidth_eq_extractLsb' (by omega),
    BitVec.extractLsb'_append_extractLsb'_eq_extractLsb' (show 32 = 0 + 32 from rfl)]
  simp

/-! ## Word addresses -/

/-- `p + i` for a pointer `p` to 32-bit words. -/
def wordAt (p : Addr) (i : Nat) : Addr := p + BitVec.ofNat 64 (4 * i)

@[simp] theorem wordAt_zero (p : Addr) : wordAt p 0 = p := by
  simp [wordAt]

@[simp] theorem wordAt_wordAt (p : Addr) (i j : Nat) : wordAt (wordAt p i) j = wordAt p (i + j) := by
  unfold wordAt
  bv_omega

theorem wordAt_one (p : Addr) : wordAt p 1 = p + 4#64 := rfl

theorem wordAt_inj {p : Addr} {i j : Nat} (hi : i < 2 ^ 62) (hj : j < 2 ^ 62)
    (h : wordAt p i = wordAt p j) : i = j := by
  unfold wordAt at h
  bv_omega

theorem wordAt_ne_zero {p : Addr} {i : Nat} (hp : 0 < p.toNat) (hFits : p.toNat + 4 * i < 2 ^ 64) :
    wordAt p i ≠ 0#64 := by
  unfold wordAt
  bv_omega

/-- The address of an instruction. -/
def Aligned (a : Addr) : Prop := a.toNat % 4 = 0

instance (a : Addr) : Decidable (Aligned a) := inferInstanceAs (Decidable (_ = _))

theorem Aligned.wordAt {p : Addr} (h : Aligned p) (i : Nat) : Aligned (wordAt p i) := by
  unfold Aligned A64.wordAt at *
  bv_omega

/-- Displacements are in words. -/
theorem Aligned.add_shifted {p : Addr} (h : Aligned p) (x : BitVec 64) : Aligned (p + x <<< 2) := by
  have hOff : (x <<< 2).toNat % 4 = 0 := by
    rw [BitVec.toNat_shiftLeft, Nat.shiftLeft_eq]
    omega
  unfold Aligned at h ⊢
  rw [BitVec.toNat_add]
  omega

theorem Aligned.sub {a b : Addr} (ha : Aligned a) (hb : Aligned b) : (a - b).toNat % 4 = 0 := by
  unfold Aligned at *
  bv_omega

end A64
