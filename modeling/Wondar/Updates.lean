import Wondar.Blocks

/-!
# Updates that a table lists

An `Update` changes the doubleword at an address, and `updateAll` makes updates one after the
other. Updates that lie apart are each made exactly once (`load64_updateAll`), and nothing else
changes (`updateAll_frame`).

`applyAll` reads the updates from a table that may lie in the same memory and makes each as it
reads it. Where the updates leave the entries of the table alone, these are the updates that the
table lists at first (`applyAll_eq`).
-/

namespace Updates

open Blocks

/-- One byte for each address. -/
abbrev Memory := Nat → BitVec 8

/-- A doubleword that becomes a function of what it was. -/
structure Update where
  addr : Nat
  value : BitVec 64 → BitVec 64

/-- The two doublewords have no byte in common. -/
def Update.Apart (u v : Update) : Prop := u.addr + 8 ≤ v.addr ∨ v.addr + 8 ≤ u.addr

/-- The byte is one of the doubleword. -/
def Update.Covers (u : Update) (b : Nat) : Prop := u.addr ≤ b ∧ b < u.addr + 8

/-- One update. -/
def update (mem : Memory) (u : Update) : Memory := store64 mem u.addr (u.value (load64 mem u.addr))

/-- One update after another. -/
def updateAll (mem : Memory) (us : List Update) : Memory := us.foldl update mem

variable {mem mem' : Memory} {u : Update} {us : List Update} {b : Nat}

theorem update_frame (h : ¬ u.Covers b) : update mem u b = mem b := write_outside h

theorem updateAll_frame (h : ∀ u ∈ us, ¬ u.Covers b) : updateAll mem us b = mem b := by
  induction us generalizing mem with
  | nil => rfl
  | cons u us ih =>
    obtain ⟨hHead, hTail⟩ := List.forall_mem_cons.mp h
    rw [updateAll, List.foldl_cons]
    exact (ih hTail).trans (update_frame hHead)

theorem load64_update_of_apart {v : Update} (h : v.Apart u) :
    load64 (update mem u) v.addr = load64 mem v.addr := load64_of_apart h

/-- Each update is made exactly once. -/
theorem load64_updateAll (hApart : us.Pairwise Update.Apart) (h : u ∈ us) :
    load64 (updateAll mem us) u.addr = u.value (load64 mem u.addr) := by
  induction us generalizing mem with
  | nil => cases h
  | cons v us ih =>
    obtain ⟨hFirst, hRest⟩ := List.pairwise_cons.mp hApart
    rw [updateAll, List.foldl_cons]
    rcases List.mem_cons.mp h with rfl | hMem
    · have hKept : load64 (updateAll (update mem u) us) u.addr = load64 (update mem u) u.addr := by
        apply load64_congr
        intro i hi
        apply updateAll_frame
        intro v hv hCovers
        have hBoth := hFirst v hv
        unfold Update.Apart at hBoth
        unfold Update.Covers at hCovers
        omega
      exact hKept.trans load64_store64
    · have hFirstApart : u.Apart v := (hFirst u hMem).symm
      exact (ih hRest hMem).trans (congrArg u.value (load64_update_of_apart hFirstApart))

theorem updateAll_append (mem : Memory) (us vs : List Update) :
    updateAll mem (us ++ vs) = updateAll (updateAll mem us) vs := List.foldl_append

theorem load64_updateAll_of_apart (h : ∀ v ∈ us, v.Apart u) :
    load64 (updateAll mem us) u.addr = load64 mem u.addr := by
  apply load64_congr
  intro i hi
  apply updateAll_frame
  intro v hv hCovers
  have hBoth := h v hv
  unfold Update.Apart at hBoth
  unfold Update.Covers at hCovers
  omega

/-! ## Tables -/

section

variable {ι : Type} (listed : Memory → ι → Option Update)

/-- Make the update of an entry, if it has one. -/
def applyEntry (mem : Memory) (i : ι) : Memory :=
  match listed mem i with
  | none => mem
  | some u => update mem u

def applyAll (mem : Memory) (entries : List ι) : Memory := entries.foldl (applyEntry listed) mem

/-- The entries read the same in any memory that differs in the updates' doublewords only. -/
def Stable (mem : Memory) (us : List Update) (entries : List ι) : Prop :=
  ∀ mem', (∀ b, (∀ u ∈ us, ¬ u.Covers b) → mem' b = mem b) →
    ∀ i ∈ entries, listed mem' i = listed mem i

variable {listed} {entries : List ι}

theorem Stable.update (hStable : Stable listed mem us entries) (hu : u ∈ us) :
    Stable listed (update mem u) us entries := by
  intro mem' hSame i hi
  have hFirst := hStable (Updates.update mem u) (fun b hb => update_frame (hb u hu)) i hi
  rw [hFirst]
  apply hStable mem' _ i hi
  intro b hb
  rw [hSame b hb, update_frame (hb u hu)]

/-- A table that its own updates leave alone. -/
theorem applyAll_eq (hListed : ∀ u ∈ entries.filterMap (listed mem), u ∈ us)
    (hStable : Stable listed mem us entries) :
    applyAll listed mem entries = updateAll mem (entries.filterMap (listed mem)) := by
  induction entries generalizing mem with
  | nil => rfl
  | cons i entries ih =>
    have hTail : Stable listed mem us entries := fun mem' hSame j hj =>
      hStable mem' hSame j (List.mem_cons_of_mem i hj)
    rw [applyAll, List.foldl_cons]
    cases hUpdate : listed mem i with
    | none =>
      rw [List.filterMap_cons_none hUpdate] at hListed ⊢
      rw [applyEntry, hUpdate]
      exact ih hListed hTail
    | some u =>
      rw [List.filterMap_cons_some hUpdate] at hListed ⊢
      obtain ⟨hHead, hRest⟩ := List.forall_mem_cons.mp hListed
      have hSame : entries.filterMap (listed (update mem u)) = entries.filterMap (listed mem) :=
        List.filterMap_congr fun j hj => hTail _ (fun b hb => update_frame (hb u hHead)) j hj
      rw [applyEntry, hUpdate, updateAll, List.foldl_cons]
      rw [← hSame] at hRest ⊢
      exact ih hRest (hTail.update hHead)

end

end Updates
