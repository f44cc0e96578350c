import Mathlib.Data.List.Basic

/-!
# The pointer array of sead

Of `sead::PtrArray` the repository has `setBuffer` and `erase` only; the operations that the
program calls are in a header that is not part of it. `PtrArray` lists them and `PtrArray.Lawful`
what the program relies on: an array keeps its pointers in order, `pushBack` appends while there
is room, `popFront` takes the oldest pointer, and `clear` forgets all. `BoundedList` is a list that
behaves so.
-/

namespace Wondar.Sead

/-- `elems` is what `size` and `operator[]` read. `popFront` of an empty array is null. -/
structure PtrArray (ptr array : Type) where
  allocBuffer : Nat → array
  elems : array → List ptr
  ptrNumMax : array → Nat
  pushBack : array → ptr → array
  popFront : array → Option (ptr × array)
  clear : array → array

namespace PtrArray

section

variable {ptr array : Type}

/-- How many pointers the array holds. -/
def size (P : PtrArray ptr array) (a : array) : Nat := (P.elems a).length

/-- What the calls do to the pointers and to the room, as far as the program relies on it. -/
structure Lawful (P : PtrArray ptr array) : Prop where
  elems_allocBuffer : ∀ n, P.elems (P.allocBuffer n) = []
  ptrNumMax_allocBuffer : ∀ n, P.ptrNumMax (P.allocBuffer n) = n
  elems_pushBack : ∀ a p, P.size a < P.ptrNumMax a → P.elems (P.pushBack a p) = P.elems a ++ [p]
  ptrNumMax_pushBack : ∀ a p, P.ptrNumMax (P.pushBack a p) = P.ptrNumMax a
  popFront_empty : ∀ a, P.elems a = [] → P.popFront a = none
  popFront_oldest : ∀ a p ps, P.elems a = p :: ps →
    ∃ a', P.popFront a = some (p, a') ∧ P.elems a' = ps ∧ P.ptrNumMax a' = P.ptrNumMax a
  elems_clear : ∀ a, P.elems (P.clear a) = []
  ptrNumMax_clear : ∀ a, P.ptrNumMax (P.clear a) = P.ptrNumMax a

end

/-! ## Lists -/

/-- The pointers, the oldest first, with the number there is room for. -/
structure BoundedList (ptr : Type) where
  ptrs : List ptr
  ptrNumMax : Nat
deriving DecidableEq, Repr

/-- Arrays as lists. A full array stays as it is. -/
def ofList (ptr : Type) : PtrArray ptr (BoundedList ptr) where
  allocBuffer n := ⟨[], n⟩
  elems a := a.ptrs
  ptrNumMax a := a.ptrNumMax
  pushBack a p := if a.ptrs.length < a.ptrNumMax then { a with ptrs := a.ptrs ++ [p] } else a
  popFront a := match a.ptrs with
    | [] => none
    | p :: ps => some (p, { a with ptrs := ps })
  clear a := { a with ptrs := [] }

theorem ofList_lawful (ptr : Type) : (ofList ptr).Lawful where
  elems_allocBuffer _ := rfl
  ptrNumMax_allocBuffer _ := rfl
  elems_pushBack a p hRoom := by
    have hRoom : a.ptrs.length < a.ptrNumMax := hRoom
    simp only [ofList, if_pos hRoom]
  ptrNumMax_pushBack a p := by
    simp only [ofList]
    split <;> rfl
  popFront_empty a hEmpty := by
    have hEmpty : a.ptrs = [] := hEmpty
    simp only [ofList, hEmpty]
  popFront_oldest a p ps hElems := by
    have hElems : a.ptrs = p :: ps := hElems
    refine ⟨{ a with ptrs := ps }, ?_, rfl, rfl⟩
    simp only [ofList, hElems]
  elems_clear _ := rfl
  ptrNumMax_clear _ := rfl

end PtrArray

end Wondar.Sead
