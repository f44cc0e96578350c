import Mathlib.Algebra.GroupWithZero.Nat
import Mathlib.Data.List.Basic

/-!
# Memory blocks and allocators

`write` stores a list of cells and `read` loads one; a write leaves what lies apart from it
alone (`read_write_of_apart`). `store64` and `load64` are those of a doubleword in bytes, and
`storeAll` is a sequence of stores.

An `Allocator` gives out blocks; `Allocator.Lawful` says that a block is fresh, apart from every
block that is not freed yet. `Arena` is an allocator that never gives out an address twice.
-/

namespace Blocks

/-! ## Cells -/

section

variable {cell : Type}

/-- The memory behind a store of several cells. -/
def write (mem : Nat → cell) (a : Nat) (cs : List cell) (b : Nat) : cell :=
  if a ≤ b then (cs[b - a]?).getD (mem b) else mem b

/-- The cells from an address on. -/
def read (mem : Nat → cell) (a n : Nat) : List cell := (List.range n).map fun i => mem (a + i)

/-- A range of cells. -/
structure Block where
  addr : Nat
  size : Nat
deriving DecidableEq, Repr

/-- The blocks have no cell in common. -/
def Block.Apart (b b' : Block) : Prop :=
  b.addr + b.size ≤ b'.addr ∨ b'.addr + b'.size ≤ b.addr

instance (b b' : Block) : Decidable (b.Apart b') := inferInstanceAs (Decidable (_ ∨ _))

variable {mem mem' : Nat → cell} {a b n : Nat} {cs : List cell}

theorem write_of_lt (h : b < a) : write mem a cs b = mem b :=
  if_neg (by omega)

theorem write_of_ge (h : a + cs.length ≤ b) : write mem a cs b = mem b := by
  rw [write, List.getElem?_eq_none (by omega), Option.getD_none, ite_self]

theorem write_outside (h : ¬ (a ≤ b ∧ b < a + cs.length)) : write mem a cs b = mem b := by
  by_cases hBelow : b < a
  · exact write_of_lt hBelow
  · exact write_of_ge (by omega)

theorem write_at {i : Nat} (h : i < cs.length) : write mem a cs (a + i) = cs[i] := by
  rw [write, if_pos (by omega), Nat.add_sub_cancel_left, List.getElem?_eq_getElem h,
    Option.getD_some]

@[simp]
theorem length_read : (read mem a n).length = n := by
  rw [read, List.length_map, List.length_range]

theorem read_congr (h : ∀ i < n, mem (a + i) = mem' (a + i)) : read mem a n = read mem' a n :=
  List.map_congr_left fun i hi => h i (List.mem_range.mp hi)

theorem read_write_self (mem : Nat → cell) (a : Nat) (cs : List cell) :
    read (write mem a cs) a cs.length = cs := by
  have hLen : (read (write mem a cs) a cs.length).length = cs.length := length_read
  apply List.ext_getElem hLen
  intro i h h'
  simp only [read, List.getElem_map, List.getElem_range]
  exact write_at h'

theorem read_write_of_apart (h : Block.Apart ⟨a, n⟩ ⟨b, cs.length⟩) :
    read (write mem b cs) a n = read mem a n := by
  apply read_congr
  intro i hi
  apply write_outside
  simp only [Block.Apart] at h
  omega

/-- Two stores next to each other are one. -/
theorem write_write (mem : Nat → cell) (a : Nat) (cs cs' : List cell) :
    write (write mem a cs) (a + cs.length) cs' = write mem a (cs ++ cs') := by
  funext b
  by_cases hFirst : b < a + cs.length
  · rw [write_of_lt hFirst]
    simp only [write]
    by_cases hLow : a ≤ b
    · rw [if_pos hLow, if_pos hLow, List.getElem?_append_left (by omega)]
    · rw [if_neg hLow, if_neg hLow]
  · have hBase : write mem a cs b = mem b := write_of_ge (by omega)
    have hIndex : b - a - cs.length = b - (a + cs.length) := by omega
    rw [write, hBase, if_pos (by omega), write, if_pos (by omega),
      List.getElem?_append_right (by omega), hIndex]

end

/-! ## Doublewords -/

section

variable {mem mem' : Nat → BitVec 8} {a b : Nat} {val : BitVec 64}

/-- The bytes of a doubleword, the low one first. -/
def bytesOf (val : BitVec 64) : List (BitVec 8) :=
  [val.extractLsb' 0 8, val.extractLsb' 8 8, val.extractLsb' 16 8, val.extractLsb' 24 8,
    val.extractLsb' 32 8, val.extractLsb' 40 8, val.extractLsb' 48 8, val.extractLsb' 56 8]

/-- The number with these bytes, the lowest first. -/
def ofBytes (bs : List (BitVec 8)) : BitVec 64 :=
  BitVec.ofNat 64 (bs.foldr (fun b n => b.toNat + 256 * n) 0)

/-- The doubleword at an address. -/
def load64 (mem : Nat → BitVec 8) (a : Nat) : BitVec 64 := ofBytes (read mem a 8)

/-- A store of a doubleword. -/
def store64 (mem : Nat → BitVec 8) (a : Nat) (val : BitVec 64) : Nat → BitVec 8 :=
  write mem a (bytesOf val)

/-- Several stores, one after the other. -/
def storeAll (mem : Nat → BitVec 8) (stores : List (Nat × BitVec 64)) : Nat → BitVec 8 :=
  stores.foldl (fun mem s => store64 mem s.1 s.2) mem

theorem ofBytes_bytesOf (val : BitVec 64) : ofBytes (bytesOf val) = val := by
  apply BitVec.eq_of_toNat_eq
  have hLt := val.isLt
  simp only [ofBytes, bytesOf, List.foldr_cons, List.foldr_nil, BitVec.extractLsb'_toNat,
    BitVec.toNat_ofNat, Nat.shiftRight_eq_div_pow]
  omega

@[simp]
theorem load64_store64 : load64 (store64 mem a val) a = val := by
  have hRead : read (store64 mem a val) a 8 = bytesOf val := read_write_self mem a (bytesOf val)
  rw [load64, hRead, ofBytes_bytesOf]

theorem load64_of_apart (h : a + 8 ≤ b ∨ b + 8 ≤ a) :
    load64 (store64 mem b val) a = load64 mem a := by
  have hRead : read (store64 mem b val) a 8 = read mem a 8 := read_write_of_apart h
  rw [load64, load64, hRead]

theorem load64_congr (h : ∀ i < 8, mem (a + i) = mem' (a + i)) : load64 mem a = load64 mem' a := by
  rw [load64, load64, read_congr h]

theorem storeAll_append (mem : Nat → BitVec 8) (stores stores' : List (Nat × BitVec 64)) :
    storeAll mem (stores ++ stores') = storeAll (storeAll mem stores) stores' := List.foldl_append

theorem load64_storeAll {stores : List (Nat × BitVec 64)}
    (h : ∀ s ∈ stores, a + 8 ≤ s.1 ∨ s.1 + 8 ≤ a) :
    load64 (storeAll mem stores) a = load64 mem a := by
  induction stores generalizing mem with
  | nil => rfl
  | cons s stores ih =>
    obtain ⟨hHead, hTail⟩ := List.forall_mem_cons.mp h
    rw [storeAll, List.foldl_cons]
    exact (ih hTail).trans (load64_of_apart hHead)

/-- A store reads back when those behind it do not touch it. -/
theorem load64_storeAll_mem {stores : List (Nat × BitVec 64)}
    (hApart : stores.Pairwise fun s t => s.1 + 8 ≤ t.1 ∨ t.1 + 8 ≤ s.1) (h : (a, val) ∈ stores) :
    load64 (storeAll mem stores) a = val := by
  induction stores generalizing mem with
  | nil => cases h
  | cons s stores ih =>
    obtain ⟨hFirst, hRest⟩ := List.pairwise_cons.mp hApart
    rw [storeAll, List.foldl_cons]
    rcases List.mem_cons.mp h with rfl | hMem
    · exact (load64_storeAll hFirst).trans load64_store64
    · exact ih hRest hMem

end

/-! ## Words -/

section

variable {mem : Nat → BitVec 8} {a b : Nat}

/-- The bytes of a word, the low one first. -/
def bytesOf32 (val : BitVec 32) : List (BitVec 8) :=
  [val.extractLsb' 0 8, val.extractLsb' 8 8, val.extractLsb' 16 8, val.extractLsb' 24 8]

/-- The 32-bit number with these bytes, the lowest first. -/
def ofBytes32 (bs : List (BitVec 8)) : BitVec 32 :=
  BitVec.ofNat 32 (bs.foldr (fun b n => b.toNat + 256 * n) 0)

/-- The word at an address. -/
def load32 (mem : Nat → BitVec 8) (a : Nat) : BitVec 32 := ofBytes32 (read mem a 4)

/-- A store of a word. -/
def store32 (mem : Nat → BitVec 8) (a : Nat) (val : BitVec 32) : Nat → BitVec 8 :=
  write mem a (bytesOf32 val)

@[simp]
theorem length_bytesOf32 (val : BitVec 32) : (bytesOf32 val).length = 4 := rfl

theorem ofBytes32_bytesOf32 (val : BitVec 32) : ofBytes32 (bytesOf32 val) = val := by
  apply BitVec.eq_of_toNat_eq
  have hLt := val.isLt
  simp only [ofBytes32, bytesOf32, List.foldr_cons, List.foldr_nil, BitVec.extractLsb'_toNat,
    BitVec.toNat_ofNat, Nat.shiftRight_eq_div_pow]
  omega

@[simp]
theorem load32_store32 {val : BitVec 32} : load32 (store32 mem a val) a = val := by
  have hRead : read (store32 mem a val) a 4 = bytesOf32 val :=
    read_write_self mem a (bytesOf32 val)
  rw [load32, hRead, ofBytes32_bytesOf32]

theorem bytesOf32_ofBytes32 {bs : List (BitVec 8)} (h : bs.length = 4) :
    bytesOf32 (ofBytes32 bs) = bs := by
  obtain ⟨b₀, b₁, b₂, b₃, rfl⟩ := List.length_eq_four.mp h
  have hByte (k : Nat) (b : BitVec 8)
      (hb : (ofBytes32 [b₀, b₁, b₂, b₃]).toNat >>> k % 2 ^ 8 = b.toNat) :
      (ofBytes32 [b₀, b₁, b₂, b₃]).extractLsb' k 8 = b :=
    BitVec.eq_of_toNat_eq ((BitVec.extractLsb'_toNat ..).trans hb)
  have hWord : (ofBytes32 [b₀, b₁, b₂, b₃]).toNat =
      (b₀.toNat + 256 * (b₁.toNat + 256 * (b₂.toNat + 256 * b₃.toNat))) % 2 ^ 32 := by
    simp only [ofBytes32, List.foldr_cons, List.foldr_nil, BitVec.toNat_ofNat, Nat.mul_zero,
      Nat.add_zero]
  have h₀ := b₀.isLt
  have h₁ := b₁.isLt
  have h₂ := b₂.isLt
  have h₃ := b₃.isLt
  rw [bytesOf32, hByte 0 b₀, hByte 8 b₁, hByte 16 b₂, hByte 24 b₃] <;>
    (rw [hWord, Nat.shiftRight_eq_div_pow]; omega)

/-- A word determines its bytes. -/
theorem read_eq_of_load32 {mem' : Nat → BitVec 8} (h : load32 mem a = load32 mem' a) :
    read mem a 4 = read mem' a 4 := by
  have hBytes (mem : Nat → BitVec 8) : bytesOf32 (load32 mem a) = read mem a 4 :=
    bytesOf32_ofBytes32 length_read
  rw [← hBytes mem, ← hBytes mem', h]

theorem load32_congr {mem' : Nat → BitVec 8} (h : ∀ i < 4, mem (a + i) = mem' (a + i)) :
    load32 mem a = load32 mem' a := by
  rw [load32, load32, read_congr h]

/-- A write of any length that lies apart. -/
theorem load32_write_of_apart {cs : List (BitVec 8)} (h : Block.Apart ⟨a, 4⟩ ⟨b, cs.length⟩) :
    load32 (write mem b cs) a = load32 mem a := by
  rw [load32, load32, read_write_of_apart h]

/-- The two words of a doubleword. -/
theorem bytesOf_eq (val : BitVec 64) :
    bytesOf val = bytesOf32 (val.extractLsb' 0 32) ++ bytesOf32 (val.extractLsb' 32 32) := by
  have hByte (k i : Nat) (hi : i + 8 ≤ 32) :
      (val.extractLsb' k 32).extractLsb' i 8 = val.extractLsb' (k + i) 8 := by
    apply BitVec.eq_of_getElem_eq
    intro j hj
    simp only [BitVec.getElem_extractLsb', BitVec.getLsbD_extractLsb', Nat.add_assoc]
    rw [decide_eq_true (by omega), Bool.true_and]
  simp only [bytesOf, bytesOf32, List.cons_append, List.nil_append]
  rw [hByte 0 0 (by decide), hByte 0 8 (by decide), hByte 0 16 (by decide), hByte 0 24 (by decide),
    hByte 32 0 (by decide), hByte 32 8 (by decide), hByte 32 16 (by decide), hByte 32 24 (by decide)]

end

/-! ## Allocators -/

section


/-- `blocks` are those given out and not freed. `alloc` is null where the heap is exhausted. -/
structure Allocator (heap : Type) where
  blocks : heap → List Block
  alloc : heap → Nat → Option (Nat × heap)
  free : heap → Nat → heap

/-- A block is at no null address and apart from the others; freeing an address takes away the
blocks that begin there. -/
structure Allocator.Lawful {heap : Type} (A : Allocator heap) : Prop where
  addr_pos : ∀ h n p h', A.alloc h n = some (p, h') → 0 < p
  apart : ∀ h n p h', A.alloc h n = some (p, h') → ∀ b ∈ A.blocks h, Block.Apart ⟨p, n⟩ b
  blocks_alloc : ∀ h n p h', A.alloc h n = some (p, h') → A.blocks h' = ⟨p, n⟩ :: A.blocks h
  blocks_free : ∀ h p, A.blocks (A.free h p) = (A.blocks h).filter (·.addr ≠ p)

/-- The same allocator, where nothing behind `bound` can be addressed. -/
def Allocator.within {heap : Type} (A : Allocator heap) (bound : Nat) : Allocator heap where
  blocks := A.blocks
  alloc h n := (A.alloc h n).filter fun block => block.1 + n ≤ bound
  free := A.free

theorem Allocator.alloc_within {heap : Type} {A : Allocator heap} {bound n p : Nat} {h h' : heap}
    (hAlloc : (A.within bound).alloc h n = some (p, h')) :
    A.alloc h n = some (p, h') ∧ p + n ≤ bound := by
  obtain ⟨hSome, hBound⟩ := Option.filter_eq_some_iff.mp hAlloc
  exact ⟨hSome, of_decide_eq_true hBound⟩

theorem Allocator.Lawful.within {heap : Type} {A : Allocator heap} (hA : A.Lawful) (bound : Nat) :
    (A.within bound).Lawful where
  addr_pos h n p h' hAlloc := hA.addr_pos h n p h' (alloc_within hAlloc).1
  apart h n p h' hAlloc := hA.apart h n p h' (alloc_within hAlloc).1
  blocks_alloc h n p h' hAlloc := hA.blocks_alloc h n p h' (alloc_within hAlloc).1
  blocks_free := hA.blocks_free

/-- Blocks of some size that lie apart have different addresses. -/
theorem Block.Apart.addr_ne {b b' : Block} (h : b.Apart b') (hSize : 0 < b.size)
    (hSize' : 0 < b'.size) : b.addr ≠ b'.addr := by
  unfold Block.Apart at h
  omega

end

/-! ## An arena -/

/-- `next` lies behind every block. -/
structure Arena where
  limit : Nat
  next : Nat
  blocks : List Block
  below : ∀ b ∈ blocks, b.addr + b.size ≤ next
  pos : 0 < next

namespace Arena

/-- What is left of the limit. -/
def freeSize (h : Arena) : Nat := h.limit - (h.blocks.map Block.size).sum

/-- The next block lies behind all others, as long as there is room. -/
def alloc (h : Arena) (n : Nat) : Option (Nat × Arena) :=
  if n ≤ h.freeSize then
    some (h.next,
      { limit := h.limit
        next := h.next + n
        blocks := ⟨h.next, n⟩ :: h.blocks
        below := by
          intro b hb
          rcases List.mem_cons.mp hb with rfl | hb
          · exact Nat.le_refl _
          · exact Nat.le_trans (h.below b hb) (Nat.le_add_right _ _)
        pos := Nat.lt_of_lt_of_le h.pos (Nat.le_add_right _ _) })
  else none

/-- The block is forgotten. Its room is not used again. -/
def free (h : Arena) (p : Nat) : Arena where
  limit := h.limit
  next := h.next
  blocks := h.blocks.filter (·.addr ≠ p)
  below b hb := h.below b (List.mem_filter.mp hb).1
  pos := h.pos

/-- The arenas as an allocator. -/
def allocator : Allocator Arena := ⟨Arena.blocks, alloc, free⟩

theorem alloc_eq {h h' : Arena} {n p : Nat} (hAlloc : h.alloc n = some (p, h')) :
    p = h.next ∧ h'.blocks = ⟨h.next, n⟩ :: h.blocks := by
  unfold alloc at hAlloc
  split at hAlloc
  · cases hAlloc
    exact ⟨rfl, rfl⟩
  · cases hAlloc

theorem allocator_lawful : allocator.Lawful where
  addr_pos h n p h' hAlloc := by
    obtain ⟨rfl, -⟩ := alloc_eq hAlloc
    exact h.pos
  apart h n p h' hAlloc b hb := by
    obtain ⟨rfl, -⟩ := alloc_eq hAlloc
    exact .inr (h.below b hb)
  blocks_alloc h n p h' hAlloc := by
    obtain ⟨rfl, hBlocks⟩ := alloc_eq hAlloc
    exact hBlocks
  blocks_free _ _ := rfl

end Arena

end Blocks
