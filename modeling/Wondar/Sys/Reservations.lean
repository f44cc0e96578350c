import Wondar.Chains
import Wondar.Sys.Regions

/-!
# Reservations of address space

`virtmem` keeps the ranges that are reserved in a list with links in both directions;
`virtmemAddReservation` puts one in front, and `virtmemRemoveReservation` takes one out, wherever it
stands. `listed_add` and `listed_remove` say what the list is then; `memregionIsReserved_eq` is the
walk over it.
-/

namespace Wondar.Sys

open A64 (Addr)
open Chains

/-! ## Regions -/

namespace MemRegion

/-- `_memregionOverlaps`. -/
def overlaps (r : MemRegion) (start stop : Addr) : Bool := start.ult r.stop && r.start.ult stop

/-- The two have no address in common. -/
def Apart (r r' : MemRegion) : Prop :=
  r.stop.toNat ≤ r'.start.toNat ∨ r'.stop.toNat ≤ r.start.toNat

theorem apart_of_not_overlaps {r r' : MemRegion} (h : r.overlaps r'.start r'.stop = false) :
    r.Apart r' := by
  simp only [overlaps, Bool.and_eq_false_iff, BitVec.ult, decide_eq_false_iff_not, Nat.not_lt] at h
  exact h

theorem Apart.symm {r r' : MemRegion} (h : r.Apart r') : r'.Apart r := Or.symm h

end MemRegion

/-! ## The list -/

/-- A node of the list. -/
structure VirtmemReservation where
  next : Addr
  prev : Addr
  region : MemRegion
deriving DecidableEq, Repr

/-- The nodes by their addresses, and the first of them. -/
structure Reservations where
  node : Addr → VirtmemReservation
  gReservations : Addr

namespace Reservations

variable (s : Reservations)

/-- `rv->next = next`. -/
def setNext (a next : Addr) : Reservations :=
  { s with node := Function.update s.node a { s.node a with next } }

/-- `rv->prev = prev`. -/
def setPrev (a prev : Addr) : Reservations :=
  { s with node := Function.update s.node a { s.node a with prev } }

/-- `malloc` returned `rv`, and so does the function. -/
def virtmemAddReservation (rv mem : Addr) (size : BitVec 64) : Reservations :=
  if rv ≠ 0#64 then
    let s : Reservations :=
      { node := Function.update s.node rv ⟨s.gReservations, 0#64, ⟨mem, mem + size⟩⟩
        gReservations := rv }
    if (s.node rv).next ≠ 0#64 then s.setPrev (s.node rv).next rv else s
  else s

/-- Takes a node out of the list. -/
def virtmemRemoveReservation (rv : Addr) : Reservations :=
  let s := if (s.node rv).next ≠ 0#64 then s.setPrev (s.node rv).next (s.node rv).prev else s
  if (s.node rv).prev ≠ 0#64 then s.setNext (s.node rv).prev (s.node rv).next
  else { s with gReservations := (s.node rv).next }

/-- `_memregionIsReserved`: the end of the first reservation that overlaps the range. The outer
`none` is a list that the rounds do not suffice for. -/
def memregionIsReserved (rounds : Nat) (start stop guardSize : Addr) : Option (Option Addr) :=
  let start := start - guardSize
  let stop := stop + guardSize
  walk (fun rv => (s.node rv).next) 0#64
    (fun rv => some (if (s.node rv).region.overlaps start stop then
      some ((s.node rv).region.stop + guardSize) else none))
    rounds s.gReservations

/-- The reservations that are made, the last one first. -/
def Listed (rvs : List Addr) : Prop :=
  Linked (fun rv => (s.node rv).next) (fun rv => (s.node rv).prev) 0#64 s.gReservations rvs

/-- The regions of the nodes. -/
def regions (rvs : List Addr) : List MemRegion := rvs.map fun rv => (s.node rv).region

end Reservations

variable {s : Reservations} {rvs pre post : List Addr} {rv a b mem start stop guardSize : Addr}
  {size : BitVec 64}

@[simp] theorem setNext_next : ((s.setNext a b).node rv).next =
    if rv = a then b else (s.node rv).next := by
  by_cases h : rv = a <;> simp [Reservations.setNext, Function.update, h]

@[simp] theorem setNext_prev : ((s.setNext a b).node rv).prev = (s.node rv).prev := by
  by_cases h : rv = a <;> simp [Reservations.setNext, Function.update, h]

@[simp] theorem setNext_region : ((s.setNext a b).node rv).region = (s.node rv).region := by
  by_cases h : rv = a <;> simp [Reservations.setNext, Function.update, h]

@[simp] theorem setPrev_next : ((s.setPrev a b).node rv).next = (s.node rv).next := by
  by_cases h : rv = a <;> simp [Reservations.setPrev, Function.update, h]

@[simp] theorem setPrev_prev : ((s.setPrev a b).node rv).prev =
    if rv = a then b else (s.node rv).prev := by
  by_cases h : rv = a <;> simp [Reservations.setPrev, Function.update, h]

@[simp] theorem setPrev_region : ((s.setPrev a b).node rv).region = (s.node rv).region := by
  by_cases h : rv = a <;> simp [Reservations.setPrev, Function.update, h]

/-! ## Adding -/

section

variable (hNull : rv ≠ 0#64)

include hNull

theorem add_gReservations : (s.virtmemAddReservation rv mem size).gReservations = rv := by
  rw [Reservations.virtmemAddReservation, if_pos hNull]
  dsimp only
  split <;> rfl

theorem add_next : ((s.virtmemAddReservation rv mem size).node a).next =
    if a = rv then s.gReservations else (s.node a).next := by
  rw [Reservations.virtmemAddReservation, if_pos hNull]
  dsimp only
  by_cases h : a = rv <;> split <;> simp [Function.update, h]

theorem add_prev : ((s.virtmemAddReservation rv mem size).node a).prev =
    if s.gReservations ≠ 0#64 ∧ a = s.gReservations then rv
    else if a = rv then 0#64 else (s.node a).prev := by
  rw [Reservations.virtmemAddReservation, if_pos hNull]
  dsimp only
  simp only [Function.update_self]
  by_cases hFirst : s.gReservations = 0#64 <;> by_cases h : a = rv <;>
    simp [Function.update, h, hFirst]

theorem add_region : ((s.virtmemAddReservation rv mem size).node a).region =
    if a = rv then ⟨mem, mem + size⟩ else (s.node a).region := by
  rw [Reservations.virtmemAddReservation, if_pos hNull]
  dsimp only
  by_cases h : a = rv <;> split <;> simp [Function.update, h]

/-- A reservation in front of the list. -/
theorem listed_add (h : s.Listed rvs) (hFresh : rv ∉ rvs) :
    (s.virtmemAddReservation rv mem size).Listed (rv :: rvs) ∧
      (s.virtmemAddReservation rv mem size).regions (rv :: rvs) =
        ⟨mem, mem + size⟩ :: s.regions rvs := by
  have hOther : ∀ a ∈ rvs, a ≠ rv := fun a ha hSame => hFresh (hSame ▸ ha)
  have hHead : s.gReservations ≠ 0#64 → s.gReservations ∈ rvs := by
    intro hNe
    have hChain := h.forward
    cases rvs with
    | nil => exact absurd hChain hNe
    | cons a rvs => exact hChain.1 ▸ List.mem_cons_self
  constructor
  · rw [Reservations.Listed, add_gReservations hNull]
    refine linked_push h hNull ?_ ?_ (fun hNe => ?_) (fun a ha => ?_) (fun a ha hNe => ?_)
    · rw [add_next hNull, if_pos rfl]
    · rw [add_prev hNull, if_pos rfl, if_neg]
      rintro ⟨hNe, hSame⟩
      exact hFresh (hSame ▸ hHead hNe)
    · rw [add_prev hNull, if_pos ⟨hNe, rfl⟩]
    · rw [add_next hNull, if_neg (hOther a ha)]
    · rw [add_prev hNull, if_neg fun hBoth => hNe hBoth.2, if_neg (hOther a ha)]
  · rw [Reservations.regions, List.map_cons, add_region hNull, if_pos rfl]
    congr 1
    refine List.map_congr_left fun a ha => ?_
    rw [add_region hNull, if_neg (hOther a ha)]

end

/-! ## Removing -/

theorem remove_region : ((s.virtmemRemoveReservation rv).node a).region = (s.node a).region := by
  unfold Reservations.virtmemRemoveReservation
  dsimp only
  split <;> split <;> simp

/-- A reservation of the list is not its own successor. -/
theorem next_ne_self (h : s.Listed (pre ++ rv :: post)) : (s.node rv).next ≠ rv := by
  intro hSame
  obtain ⟨-, hNe, hRest⟩ := h.forward.drop
  have hNodup := h.forward.drop.nodup
  cases post with
  | nil => exact hNe (hSame.symm.trans hRest)
  | cons a post =>
    have hFirst : rv = a := hSame.symm.trans hRest.1
    exact (List.nodup_cons.mp hNodup).1 (hFirst ▸ List.mem_cons_self)

section

variable (hSelf : (s.node rv).next ≠ rv)

include hSelf

/-- The state between the two assignments. -/
theorem remove_eq : ∃ t : Reservations, (∀ a, (t.node a).next = (s.node a).next) ∧
    (∀ a, (t.node a).prev = if (s.node rv).next ≠ 0#64 ∧ a = (s.node rv).next then (s.node rv).prev
      else (s.node a).prev) ∧ t.gReservations = s.gReservations ∧
    s.virtmemRemoveReservation rv =
      if (s.node rv).prev ≠ 0#64 then t.setNext (s.node rv).prev (s.node rv).next
      else { t with gReservations := (s.node rv).next } := by
  rw [Reservations.virtmemRemoveReservation]
  by_cases hNext : (s.node rv).next ≠ 0#64
  · refine ⟨s.setPrev (s.node rv).next (s.node rv).prev, fun a => setPrev_next, fun a => ?_, rfl, ?_⟩
    · simp only [setPrev_prev, and_iff_right hNext]
    · simp only [if_pos hNext, setPrev_prev, setPrev_next, if_neg hSelf.symm]
  · refine ⟨s, fun _ => rfl, fun a => ?_, rfl, ?_⟩
    · rw [if_neg fun hBoth => hNext hBoth.1]
    · simp only [if_neg hNext]

theorem remove_next : ((s.virtmemRemoveReservation rv).node a).next =
    if (s.node rv).prev ≠ 0#64 ∧ a = (s.node rv).prev then (s.node rv).next
    else (s.node a).next := by
  obtain ⟨t, hNext, -, -, hRemove⟩ := remove_eq hSelf
  rw [hRemove]
  by_cases hPrev : (s.node rv).prev ≠ 0#64
  · simp only [if_pos hPrev, setNext_next, hNext, and_iff_right hPrev]
  · rw [if_neg hPrev, if_neg fun hBoth => hPrev hBoth.1, hNext]

theorem remove_prev : ((s.virtmemRemoveReservation rv).node a).prev =
    if (s.node rv).next ≠ 0#64 ∧ a = (s.node rv).next then (s.node rv).prev
    else (s.node a).prev := by
  obtain ⟨t, -, hPrev, -, hRemove⟩ := remove_eq hSelf
  rw [hRemove, ← hPrev]
  split
  · rw [setNext_prev]
  · rfl

theorem remove_gReservations : (s.virtmemRemoveReservation rv).gReservations =
    if (s.node rv).prev ≠ 0#64 then s.gReservations else (s.node rv).next := by
  obtain ⟨t, -, -, hFirst, hRemove⟩ := remove_eq hSelf
  rw [hRemove]
  split
  · exact hFirst
  · rfl

end

/-- A reservation is taken out, and the others stay what they were. -/
theorem listed_remove (h : s.Listed (pre ++ rv :: post)) :
    (s.virtmemRemoveReservation rv).Listed (pre ++ post) ∧
      (s.virtmemRemoveReservation rv).regions (pre ++ post) = s.regions (pre ++ post) := by
  have hSelf := next_ne_self h
  refine ⟨?_, List.map_congr_left fun a _ => remove_region⟩
  rw [Reservations.Listed, remove_gReservations hSelf]
  refine linked_unlink h (fun hFirst => if_neg (not_not.mpr hFirst)) (fun hLater => if_pos hLater)
    (fun hNext => ?_) (fun hPrev => ?_) (fun a _ hNe => ?_) fun a _ hNe => ?_
  · rw [remove_prev hSelf, if_pos ⟨hNext, rfl⟩]
  · rw [remove_next hSelf, if_pos ⟨hPrev, rfl⟩]
  · rw [remove_next hSelf, if_neg fun hBoth => hNe hBoth.2]
  · rw [remove_prev hSelf, if_neg fun hBoth => hNe hBoth.2]

/-! ## Looking through -/

theorem memregionIsReserved_eq (h : s.Listed rvs) {rounds : Nat} (hRounds : rvs.length < rounds) :
    s.memregionIsReserved rounds start stop guardSize = some ((rvs.find? fun rv =>
      (s.node rv).region.overlaps (start - guardSize) (stop + guardSize)).map
        fun rv => (s.node rv).region.stop + guardSize) := by
  rw [Reservations.memregionIsReserved, walk_eq h.forward (fun _ _ => rfl) hRounds,
    List.find?_eq_findSome?_guard, List.map_findSome?]
  congr 2
  funext a
  simp only [Function.comp, Option.guard]
  split <;> rfl

/-- What is not reserved overlaps no reservation. -/
theorem not_reserved (h : s.Listed rvs) {rounds : Nat}
    (hRun : s.memregionIsReserved rounds start stop guardSize = some none) :
    ∀ r ∈ s.regions rvs, r.overlaps (start - guardSize) (stop + guardSize) = false := by
  have hAll := walk_none h.forward hRun
  intro r hr
  obtain ⟨rv, hrv, rfl⟩ := List.mem_map.mp hr
  refine Bool.eq_false_iff.mpr fun hOverlaps => ?_
  have hNone := hAll rv hrv
  rw [if_pos hOverlaps] at hNone
  cases hNone

end Wondar.Sys
