import Mathlib.Data.List.Chain
import Mathlib.Data.List.Flatten
import Wondar.Blocks

/-!
# Lists packed end to end

`place` gives each of a list of items its offset behind the items before it, and `copyAll`
copies placed items into a memory. Placed items are contiguous and pairwise apart and lie inside
any room that holds them all; the memory then reads as the items one after the other
(`read_copyAll`).

`ReadsAs` says so of a region of a memory. It splits where the items do, and an array of items of
one length reads back element by element (`ReadsAs.element`).
-/

namespace Packing

open Blocks

section

variable {cell : Type}

/-- The items from `offset` on, each with its own offset. -/
def place (offset : Nat) : List (List cell) → List (Nat × List cell)
  | [] => []
  | xs :: xss => (offset, xs) :: place (offset + xs.length) xss

def copyAll (mem : Nat → cell) (copies : List (Nat × List cell)) : Nat → cell :=
  copies.foldl (fun mem copy => write mem copy.1 copy.2) mem

/-- The end of a copy is the start of the next. -/
def Contiguous (copies : List (Nat × List cell)) : Prop :=
  copies.IsChain fun copy next => next.1 = copy.1 + copy.2.length

/-- The items of `xss` in a room, one behind the other from its start on. -/
structure Packed (room : Nat) (xss : List (List cell)) (copies : List (Nat × List cell)) :
    Prop where
  items : copies.map Prod.snd = xss
  start : ∀ copy ∈ copies.head?, copy.1 = 0
  inside : ∀ copy ∈ copies, copy.1 + copy.2.length ≤ room
  apart : copies.Pairwise
    fun copy copy' => Block.Apart ⟨copy.1, copy.2.length⟩ ⟨copy'.1, copy'.2.length⟩
  contiguous : Contiguous copies

/-- Memory that holds `xs` at `a`. -/
def ReadsAs (mem : Nat → cell) (a : Nat) (xs : List cell) : Prop := read mem a xs.length = xs

variable {mem : Nat → cell} {a offset room : Nat} {xs ys : List cell} {xss : List (List cell)}

theorem place_inside {copy : Nat × List cell} (h : copy ∈ place offset xss) :
    offset ≤ copy.1 ∧ copy.1 + copy.2.length ≤ offset + xss.flatten.length := by
  induction xss generalizing offset with
  | nil => cases h
  | cons xs xss ih =>
    rw [List.flatten_cons, List.length_append]
    rcases List.mem_cons.mp h with rfl | hMem
    · exact ⟨Nat.le_refl _, Nat.add_le_add_left (Nat.le_add_right _ _) _⟩
    · obtain ⟨hLow, hHigh⟩ := ih hMem
      exact ⟨by omega, by omega⟩

theorem place_apart : (place offset xss).Pairwise
    fun copy copy' => Block.Apart ⟨copy.1, copy.2.length⟩ ⟨copy'.1, copy'.2.length⟩ := by
  induction xss generalizing offset with
  | nil => exact List.Pairwise.nil
  | cons xs xss ih =>
    apply List.pairwise_cons.mpr ⟨fun copy hMem => ?_, ih⟩
    exact .inl (place_inside hMem).1

theorem place_contiguous : Contiguous (place offset xss) := by
  induction xss generalizing offset with
  | nil => exact List.isChain_nil
  | cons xs xss ih =>
    apply List.isChain_cons.mpr ⟨fun next hNext => ?_, ih⟩
    cases xss with
    | nil => cases hNext
    | cons ys xss =>
      cases hNext
      rfl

theorem map_snd_place (offset : Nat) (xss : List (List cell)) :
    (place offset xss).map Prod.snd = xss := by
  induction xss generalizing offset with
  | nil => rfl
  | cons xs xss ih => rw [place, List.map_cons, ih]

theorem packed_place (hRoom : xss.flatten.length ≤ room) : Packed room xss (place 0 xss) where
  items := map_snd_place 0 xss
  start := by
    intro copy hHead
    cases xss with
    | nil => cases hHead
    | cons xs xss =>
      cases hHead
      rfl
  inside copy hMem := by
    have hEnd := (place_inside hMem).2
    omega
  apart := place_apart
  contiguous := place_contiguous

theorem copyAll_place (mem : Nat → cell) (offset : Nat) (xss : List (List cell)) :
    copyAll mem (place offset xss) = write mem offset xss.flatten := by
  induction xss generalizing mem offset with
  | nil =>
    funext b
    simp [copyAll, place, write]
  | cons xs xss ih =>
    have hRest := ih (write mem offset xs) (offset + xs.length)
    rw [write_write] at hRest
    exact hRest

theorem read_copyAll (mem : Nat → cell) (offset : Nat) (xss : List (List cell)) :
    ReadsAs (copyAll mem (place offset xss)) offset xss.flatten := by
  rw [ReadsAs, copyAll_place]
  exact read_write_self mem offset xss.flatten

theorem read_copyAll_of_apart {n : Nat} {copies : List (Nat × List cell)}
    (h : ∀ copy ∈ copies, Block.Apart ⟨a, n⟩ ⟨copy.1, copy.2.length⟩) :
    read (copyAll mem copies) a n = read mem a n := by
  induction copies generalizing mem with
  | nil => rfl
  | cons copy copies ih =>
    obtain ⟨hHead, hTail⟩ := List.forall_mem_cons.mp h
    exact (ih hTail).trans (read_write_of_apart hHead)

/-- Items that lie apart read back, wherever they are. -/
theorem read_copyAll_mem {copies : List (Nat × List cell)}
    (hApart : copies.Pairwise
      fun copy copy' => Block.Apart ⟨copy.1, copy.2.length⟩ ⟨copy'.1, copy'.2.length⟩)
    {copy : Nat × List cell} (h : copy ∈ copies) : ReadsAs (copyAll mem copies) copy.1 copy.2 := by
  induction copies generalizing mem with
  | nil => cases h
  | cons copy' copies ih =>
    obtain ⟨hFirst, hRest⟩ := List.pairwise_cons.mp hApart
    rcases List.mem_cons.mp h with rfl | hMem
    · exact (read_copyAll_of_apart hFirst).trans (read_write_self mem copy.1 copy.2)
    · exact ih hRest hMem

theorem read_add (mem : Nat → cell) (a m n : Nat) :
    read mem a (m + n) = read mem a m ++ read mem (a + m) n := by
  unfold Blocks.read
  rw [List.range_add, List.map_append, List.map_map]
  congr 1
  apply List.map_congr_left
  intro i hi
  simp only [Function.comp_apply, Nat.add_assoc]

theorem ReadsAs.split (h : ReadsAs mem a (xs ++ ys)) :
    ReadsAs mem a xs ∧ ReadsAs mem (a + xs.length) ys := by
  rw [ReadsAs, List.length_append, read_add] at h
  exact List.append_inj h length_read

theorem ReadsAs.append (h : ReadsAs mem a xs) (h' : ReadsAs mem (a + xs.length) ys) :
    ReadsAs mem a (xs ++ ys) := by
  rw [ReadsAs, List.length_append, read_add, h, h']

/-- What is read from there on, to any length. -/
theorem ReadsAs.read_eq (h : ReadsAs mem a xs) (n : Nat) :
    read mem a n = xs.take n ++ read mem (a + xs.length) (n - xs.length) := by
  rcases Nat.le_total n xs.length with hLe | hLe
  · have hTake : (read mem a xs.length).take n = read mem a n := by
      rw [Blocks.read, ← List.map_take, List.take_range, Nat.min_eq_left hLe, Blocks.read]
    have hNothing : read mem (a + xs.length) 0 = [] := rfl
    rw [Nat.sub_eq_zero_of_le hLe, hNothing, List.append_nil, ← hTake, h]
  · obtain ⟨k, rfl⟩ := Nat.exists_eq_add_of_le hLe
    rw [read_add, h, List.take_of_length_le hLe, Nat.add_sub_cancel_left]

/-- The same cells at another place. -/
theorem ReadsAs.shift {mem' : Nat → cell} {a' : Nat}
    (hShift : ∀ i < xs.length, mem' (a' + i) = mem (a + i)) (h : ReadsAs mem a xs) :
    ReadsAs mem' a' xs := by
  rw [ReadsAs, ← h, length_read]
  exact List.map_congr_left fun i hi => hShift i (List.mem_range.mp hi)

/-- An element of an array. -/
theorem ReadsAs.element {elem : Type} {bytes : elem → List cell} {size i : Nat} {es : List elem}
    {e : elem} (hSize : ∀ e, (bytes e).length = size) (h : ReadsAs mem a (es.flatMap bytes))
    (he : es[i]? = some e) : read mem (a + size * i) size = bytes e := by
  induction es generalizing a i with
  | nil => cases he
  | cons e' es ih =>
    obtain ⟨hHead, hTail⟩ := h.split
    cases i with
    | zero =>
      cases he
      rw [Nat.mul_zero, Nat.add_zero, ← hSize e]
      exact hHead
    | succ i =>
      have hElem := ih hTail he
      rw [hSize, Nat.add_assoc, Nat.add_comm size, ← Nat.mul_succ] at hElem
      exact hElem

/-- A word of an array of words. -/
theorem ReadsAs.word {mem : Nat → BitVec 8} {ws : List (BitVec 32)} {w : BitVec 32} {k : Nat}
    (h : ReadsAs mem a (ws.flatMap bytesOf32)) (hw : ws[k]? = some w) :
    load32 mem (a + 4 * k) = w := by
  rw [load32, h.element length_bytesOf32 hw, ofBytes32_bytesOf32]

theorem load32_write_words {mem : Nat → BitVec 8} {ws : List (BitVec 32)} {w : BitVec 32} {k : Nat}
    (hw : ws[k]? = some w) : load32 (write mem a (ws.flatMap bytesOf32)) (a + 4 * k) = w := by
  have hReads : ReadsAs (write mem a (ws.flatMap bytesOf32)) a (ws.flatMap bytesOf32) :=
    read_write_self mem a _
  exact hReads.word hw

/-- A doubleword is an array of two words. -/
theorem store64_eq_words (mem : Nat → BitVec 8) (a : Nat) (val : BitVec 64) :
    store64 mem a val =
      write mem a ([val.extractLsb' 0 32, val.extractLsb' 32 32].flatMap bytesOf32) := by
  rw [store64, bytesOf_eq]
  rfl

theorem load32_store64_low (mem : Nat → BitVec 8) (a : Nat) (val : BitVec 64) :
    load32 (store64 mem a val) a = val.extractLsb' 0 32 := by
  rw [store64_eq_words]
  exact load32_write_words (k := 0) rfl

theorem load32_store64_high (mem : Nat → BitVec 8) (a : Nat) (val : BitVec 64) :
    load32 (store64 mem a val) (a + 4) = val.extractLsb' 32 32 := by
  rw [store64_eq_words]
  exact load32_write_words (k := 1) rfl

theorem length_flatMap_bytes {elem : Type} {bytes : elem → List cell} {size : Nat}
    (hSize : ∀ e, (bytes e).length = size) (es : List elem) :
    (es.flatMap bytes).length = es.length * size := by
  induction es with
  | nil => rw [List.flatMap_nil, List.length_nil, List.length_nil, Nat.zero_mul]
  | cons e es ih =>
    rw [List.flatMap_cons, List.length_append, hSize, ih, List.length_cons, Nat.succ_mul,
      Nat.add_comm]

/-- What several arrays take. -/
theorem length_flatten_map {array elem : Type} {elems : array → List elem}
    {bytes : elem → List cell} {size : Nat} (hSize : ∀ e, (bytes e).length = size)
    (arrays : List array) :
    (arrays.map fun a => (elems a).flatMap bytes).flatten.length =
      (arrays.map fun a => (elems a).length).sum * size := by
  induction arrays with
  | nil => exact (Nat.zero_mul size).symm
  | cons a arrays ih =>
    rw [List.map_cons, List.flatten_cons, List.length_append, ih, length_flatMap_bytes hSize,
      List.map_cons, List.sum_cons, Nat.add_mul]

end

end Packing
