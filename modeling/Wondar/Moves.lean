import Wondar.A64.Bits
import Wondar.Blocks

/-!
# Moving bytes

A `Move` is a call of a function like `memmove`. It names the bytes that it reads and those that
it writes, and `Lawful` says what the written ones become: the two ranges may overlap, and
addresses wrap.

`cells` is an array of doublewords. Moving its tail down closes a gap in it
(`cells_closeGap`).
-/

namespace Moves

open A64 (Addr)
open Blocks

/-- What an address holds. -/
abbrev Byte := BitVec 8

/-- A call with its three arguments. -/
structure Move where
  dst : Addr
  src : Addr
  size : BitVec 64
deriving DecidableEq, Repr

/-- The byte is one of the source. -/
def Move.Reads (m : Move) (b : Addr) : Prop := (b - m.src).toNat < m.size.toNat

/-- The byte is one of the destination. -/
def Move.Writes (m : Move) (b : Addr) : Prop := (b - m.dst).toNat < m.size.toNat

/-- What a move does to memory: a byte of the destination becomes the one of the source before the
call, whichever of them overlap, and every other byte is kept. -/
structure Lawful (move : Move → (Addr → Byte) → Addr → Byte) : Prop where
  copied : ∀ m mem i, i < m.size.toNat →
    move m mem (m.dst + BitVec.ofNat 64 i) = mem (m.src + BitVec.ofNat 64 i)
  elsewhere : ∀ m mem b, ¬ m.Writes b → move m mem b = mem b

/-- The bytes of the source are all read before the first is written. -/
def memmove (m : Move) (mem : Addr → Byte) (b : Addr) : Byte :=
  if (b - m.dst).toNat < m.size.toNat then mem (m.src + (b - m.dst)) else mem b

theorem offset_cancel (a d : BitVec 64) : a + d - a = d := by
  rw [BitVec.add_comm, BitVec.add_sub_cancel]

theorem memmove_lawful : Lawful memmove where
  copied m mem i hi := by
    have hSize := m.size.isLt
    have hOffset : m.dst + BitVec.ofNat 64 i - m.dst = BitVec.ofNat 64 i := offset_cancel _ _
    have hLt : (BitVec.ofNat 64 i).toNat < m.size.toNat := by
      rw [BitVec.toNat_ofNat, Nat.mod_eq_of_lt (by omega)]
      exact hi
    rw [memmove, hOffset, if_pos hLt]
  elsewhere m mem b hb := if_neg hb

/-! ## Arrays -/

section

/-- The doubleword at index `i` of an array. -/
def cell (mem : Addr → Byte) (base : Addr) (i : Nat) : BitVec 64 :=
  load64 (fun k => mem (base + BitVec.ofNat 64 k)) (8 * i)

/-- The array with `n` doublewords. -/
def cells (mem : Addr → Byte) (base : Addr) (n : Nat) : List (BitVec 64) :=
  (List.range n).map (cell mem base)

variable {move : Move → (Addr → Byte) → Addr → Byte} {mem : Addr → Byte} {base : Addr}
  {n p c i : Nat}

@[simp]
theorem length_cells : (cells mem base n).length = n := by
  rw [cells, List.length_map, List.length_range]

theorem getElem_cells (hi : i < (cells mem base n).length) :
    (cells mem base n)[i] = cell mem base i := by
  simp only [cells, List.getElem_map, List.getElem_range]

variable (base n p c) in
/-- The cells of an array from index `p + c` on, to index `p`. -/
def closeGap : Move where
  dst := base + BitVec.ofNat 64 (8 * p)
  src := base + BitVec.ofNat 64 (8 * (p + c))
  size := BitVec.ofNat 64 (8 * (n - (p + c)))

theorem closeGap_size (hn : 8 * n < 2 ^ 64) : (closeGap base n p c).size.toNat = 8 * (n - (p + c)) := by
  rw [closeGap, BitVec.toNat_ofNat, Nat.mod_eq_of_lt (by omega)]

/-- The offset from the base decides the offset from any other place. -/
theorem offset_sub_toNat (b : Addr) {d : Nat} (hd : d < 2 ^ 64) :
    (b - (base + BitVec.ofNat 64 d)).toNat = (2 ^ 64 - d + (b - base).toNat) % 2 ^ 64 := by
  have hBase := base.isLt
  have hByte := b.isLt
  simp only [BitVec.toNat_sub, BitVec.toNat_add, BitVec.toNat_ofNat]
  omega

/-- The move stays inside the array. -/
theorem closeGap_inside (hn : 8 * n < 2 ^ 64) (h : p + c ≤ n) {b : Addr}
    (hb : (closeGap base n p c).Reads b ∨ (closeGap base n p c).Writes b) :
    (b - base).toNat < 8 * n := by
  have hFrom : ∀ d, d ≤ 8 * (p + c) →
      (b - (base + BitVec.ofNat 64 d)).toNat < 8 * (n - (p + c)) → (b - base).toNat < 8 * n := by
    intro d hd hLt
    rw [offset_sub_toNat b (by omega)] at hLt
    have hOffset := (b - base).isLt
    omega
  rw [Move.Reads, Move.Writes, closeGap_size hn] at hb
  rcases hb with hRead | hWrite
  · exact hFrom _ (Nat.le_refl _) hRead
  · exact hFrom _ (by omega) hWrite

/-- What lies before the gap stays. -/
theorem cell_before (hMove : Lawful move) (hn : 8 * n < 2 ^ 64) (h : p + c ≤ n) (hi : i < p) :
    cell (move (closeGap base n p c) mem) base i = cell mem base i := by
  apply load64_congr
  intro j hj
  apply hMove.elsewhere
  rw [Move.Writes, closeGap_size hn]
  simp only [closeGap, offset_sub_toNat _ (show 8 * p < 2 ^ 64 by omega), offset_cancel,
    BitVec.toNat_ofNat]
  omega

/-- What lies behind the gap moves up to it. -/
theorem cell_behind (hMove : Lawful move) (hn : 8 * n < 2 ^ 64) (hp : p ≤ i) (hi : i + c < n) :
    cell (move (closeGap base n p c) mem) base i = cell mem base (i + c) := by
  have hShift : ∀ d k : Nat, base + BitVec.ofNat 64 d + BitVec.ofNat 64 k =
      base + BitVec.ofNat 64 (d + k) := by
    intro d k
    rw [BitVec.add_assoc, BitVec.ofNat_add]
  have hBytes : ∀ j < 8, move (closeGap base n p c) mem (base + BitVec.ofNat 64 (8 * i + j)) =
      mem (base + BitVec.ofNat 64 (8 * (i + c) + j)) := by
    intro j hj
    have hCopied := hMove.copied (closeGap base n p c) mem (8 * (i - p) + j)
      (by rw [closeGap_size hn]; omega)
    have hDst : 8 * p + (8 * (i - p) + j) = 8 * i + j := by omega
    have hSrc : 8 * (p + c) + (8 * (i - p) + j) = 8 * (i + c) + j := by omega
    simp only [closeGap, hShift, hDst, hSrc] at hCopied ⊢
    exact hCopied
  unfold cell load64 Blocks.read
  congr 1
  exact List.map_congr_left fun j hj => hBytes j (List.mem_range.mp hj)

theorem cells_closeGap (hMove : Lawful move) (hn : 8 * n < 2 ^ 64) (h : p + c ≤ n) :
    cells (move (closeGap base n p c) mem) base (n - c) =
      (cells mem base n).take p ++ (cells mem base n).drop (p + c) := by
  apply List.ext_getElem
  · simp only [length_cells, List.length_append, List.length_take, List.length_drop]
    omega
  · intro i hi hi'
    rw [length_cells] at hi
    rw [getElem_cells]
    by_cases hBefore : i < p
    · rw [List.getElem_append_left (by rw [List.length_take, length_cells]; omega),
        List.getElem_take, getElem_cells]
      exact cell_before hMove hn h hBefore
    · have hLen : ((cells mem base n).take p).length = p := by
        rw [List.length_take, length_cells]
        omega
      have hIndex : p + c + (i - p) = i + c := by omega
      rw [List.getElem_append_right (by omega), List.getElem_drop, getElem_cells]
      simp only [hLen, hIndex]
      exact cell_behind hMove hn (by omega) (by omega)

/-- A gap at the end is closed without a move. -/
theorem cells_dropEnd (h : p + c = n) :
    cells mem base (n - c) = (cells mem base n).take p ++ (cells mem base n).drop (p + c) := by
  have hLen : (cells mem base n).length ≤ p + c := by
    rw [length_cells]
    omega
  have hEnd : n - c = p := by omega
  rw [List.drop_eq_nil_of_le hLen, List.append_nil, hEnd, cells, cells, ← List.map_take,
    List.take_range, Nat.min_eq_left (by omega)]

end

end Moves
