import Mathlib.Data.List.Nodup
import Wondar.Runs
import Wondar.Sead.PtrArray

/-!
# The actor browser

The browser keeps a list of the actors that it may draw: the hook on the constructor of an actor
appends it, and the hook on the destructor clears the list. `live` is the truth the list stands
for, the actors constructed and not yet destroyed.

The list is always an end of the live actors, so the browser draws no destroyed actor
(`draws_live`). It lists all of them in exactly the runs that destroy an actor only when it is
the only one (`lists_live_iff_alone`).
-/

namespace Wondar.Pe.ActorBrowser

open Sead

inductive Event (actor : Type)
  | actorBaseCtor (thisPtr : actor)
  | actorBaseDtor (thisPtr : actor)

structure State (actor array : Type) where
  sActorList : array
  live : List actor

/-- How many actors the browser makes room for. -/
def actorMax : Nat := 1024

section

variable {actor array : Type} [DecidableEq actor] (P : PtrArray actor array)

/-- The state after the constructor of the browser. -/
def allocated : State actor array where
  sActorList := P.allocBuffer actorMax
  live := []

/-- An actor is constructed where no other one lives, while there is room for it, and destroyed
once. Each hook calls the original first. -/
def step : Event actor → State actor array → Option (State actor array)
  | .actorBaseCtor thisPtr, s =>
    if thisPtr ∈ s.live ∨ actorMax ≤ s.live.length then none
    else some
      { sActorList := P.pushBack s.sActorList thisPtr
        live := s.live ++ [thisPtr] }
  | .actorBaseDtor thisPtr, s =>
    if thisPtr ∈ s.live then
      some
        { sActorList := P.clear s.sActorList
          live := s.live.erase thisPtr }
    else none

/-- The list is what it stands for. -/
def ListsLive (s : State actor array) : Prop :=
  P.elems s.sActorList = s.live ∧ (P.elems s.sActorList).Nodup

/-- What every run keeps. -/
structure Inv (s : State actor array) : Prop where
  room : P.ptrNumMax s.sActorList = actorMax
  bounded : s.live.length ≤ actorMax
  nodup : s.live.Nodup
  suffix : P.elems s.sActorList <:+ s.live

/-- An actor is destroyed only when no other one lives. -/
def Alone (s : State actor array) : Event actor → Prop
  | .actorBaseCtor _ => True
  | .actorBaseDtor thisPtr => s.live = [thisPtr]

variable {P} {s s' : State actor array} {thisPtr : actor}

theorem step_ctor (hStep : step P (.actorBaseCtor thisPtr) s = some s') :
    thisPtr ∉ s.live ∧ s.live.length < actorMax ∧
      s' = ⟨P.pushBack s.sActorList thisPtr, s.live ++ [thisPtr]⟩ := by
  simp only [step] at hStep
  split at hStep
  · cases hStep
  · rename_i hRoom
    cases hStep
    exact ⟨fun hLive => hRoom (.inl hLive), by omega, rfl⟩

theorem step_dtor (hStep : step P (.actorBaseDtor thisPtr) s = some s') :
    thisPtr ∈ s.live ∧ s' = ⟨P.clear s.sActorList, s.live.erase thisPtr⟩ := by
  simp only [step] at hStep
  split at hStep
  · rename_i hLive
    cases hStep
    exact ⟨hLive, rfl⟩
  · cases hStep

omit [DecidableEq actor] in
theorem inv_allocated (hP : P.Lawful) : Inv P (allocated P) where
  room := hP.ptrNumMax_allocBuffer actorMax
  bounded := Nat.zero_le _
  nodup := List.nodup_nil
  suffix := by
    have hEmpty : P.elems (allocated P).sActorList = [] := hP.elems_allocBuffer actorMax
    exact hEmpty ▸ List.nil_suffix

omit [DecidableEq actor] in
/-- There is room for every actor that is constructed. -/
theorem Inv.elems_pushBack (hP : P.Lawful) (hInv : Inv P s) (hRoom : s.live.length < actorMax) :
    P.elems (P.pushBack s.sActorList thisPtr) = P.elems s.sActorList ++ [thisPtr] := by
  apply hP.elems_pushBack
  rw [hInv.room]
  exact Nat.lt_of_le_of_lt hInv.suffix.length_le hRoom

theorem Inv.step (hP : P.Lawful) (e : Event actor) (hInv : Inv P s)
    (hStep : step P e s = some s') : Inv P s' := by
  cases e with
  | actorBaseCtor thisPtr =>
    obtain ⟨hFresh, hRoom, rfl⟩ := step_ctor hStep
    constructor
    · exact (hP.ptrNumMax_pushBack _ _).trans hInv.room
    · rw [List.length_append]
      exact hRoom
    · rw [← List.concat_eq_append]
      exact List.Nodup.concat hFresh hInv.nodup
    · obtain ⟨older, hOlder⟩ := hInv.suffix
      refine ⟨older, ?_⟩
      rw [hInv.elems_pushBack hP hRoom, ← hOlder, List.append_assoc]
  | actorBaseDtor thisPtr =>
    obtain ⟨-, rfl⟩ := step_dtor hStep
    constructor
    · exact (hP.ptrNumMax_clear _).trans hInv.room
    · exact Nat.le_trans List.length_erase_le hInv.bounded
    · exact hInv.nodup.erase _
    · rw [hP.elems_clear]
      exact List.nil_suffix

/-- The browser draws no destroyed actor. -/
theorem draws_live (hP : P.Lawful) (events : List (Event actor)) :
    Runs.Throughout (step P) (fun s => ∀ a ∈ P.elems s.sActorList, a ∈ s.live) events
      (allocated P) := by
  exact Runs.throughout_of_along (I := Inv P) (P := fun _ _ => True)
    (fun _ hInv _ ha => hInv.suffix.subset ha)
    (fun _ e _ hInv _ hStep => hInv.step hP e hStep) (inv_allocated hP)
    (Runs.along_of_forall (fun _ _ => trivial) events _)

theorem listsLive_step (hP : P.Lawful) (e : Event actor) (hInv : Inv P s)
    (hLists : ListsLive P s) (hStep : step P e s = some s') : ListsLive P s' ↔ Alone s e := by
  have hInv' : Inv P s' := hInv.step hP e hStep
  cases e with
  | actorBaseCtor thisPtr =>
    obtain ⟨-, hRoom, rfl⟩ := step_ctor hStep
    have hElems : P.elems (P.pushBack s.sActorList thisPtr) = s.live ++ [thisPtr] := by
      rw [hInv.elems_pushBack hP hRoom, hLists.1]
    exact iff_of_true ⟨hElems, hElems ▸ hInv'.nodup⟩ trivial
  | actorBaseDtor thisPtr =>
    obtain ⟨hLive, rfl⟩ := step_dtor hStep
    simp only [ListsLive, Alone, hP.elems_clear, List.nodup_nil, and_true]
    constructor
    · intro hEmpty
      obtain ⟨older, newer, -, hSplit, hErase⟩ := List.exists_erase_eq hLive
      rw [hErase] at hEmpty
      obtain ⟨rfl, rfl⟩ := List.append_eq_nil_iff.mp hEmpty.symm
      exact hSplit
    · intro hAlone
      simp [hAlone]

/-- The browser lists exactly the live actors, in the order of their construction and each
once, after every event of exactly the runs in which an actor is destroyed only when it is the
only one. -/
theorem lists_live_iff_alone (hP : P.Lawful) (events : List (Event actor))
    (hRun : Runs.run (step P) events (allocated P) = some s') :
    Runs.Throughout (step P) (ListsLive P) events (allocated P) ↔
      Runs.Along (step P) Alone events (allocated P) := by
  refine Runs.throughout_iff_along (I := fun s => Inv P s ∧ ListsLive P s) (fun s h => h.2)
    ?_ ?_ ⟨inv_allocated hP, ?_⟩ hRun
  · rintro s e s' ⟨hInv, hLists⟩ hAlone hStep
    exact ⟨hInv.step hP e hStep, (listsLive_step hP e hInv hLists hStep).mpr hAlone⟩
  · rintro s e s' ⟨hInv, hLists⟩ hAlone hStep hLists'
    exact hAlone ((listsLive_step hP e hInv hLists hStep).mp hLists')
  · rw [ListsLive, allocated, hP.elems_allocBuffer]
    exact ⟨rfl, List.nodup_nil⟩

end

/-! ## Two actors -/

/-- One actor after the other. -/
theorem lists_live_iff_alone_sample :
    Runs.Throughout (step (PtrArray.ofList Nat)) (ListsLive (PtrArray.ofList Nat))
        [.actorBaseCtor 0x10, .actorBaseDtor 0x10, .actorBaseCtor 0x20]
        (allocated (PtrArray.ofList Nat)) ↔
      Runs.Along (step (PtrArray.ofList Nat)) Alone
        [.actorBaseCtor 0x10, .actorBaseDtor 0x10, .actorBaseCtor 0x20]
        (allocated (PtrArray.ofList Nat)) :=
  lists_live_iff_alone (PtrArray.ofList_lawful Nat) _ rfl

/-- Of two actors the destruction of the first takes the second off the list. -/
theorem destruction_clears :
    ∃ events s', Runs.run (step (PtrArray.ofList Nat)) events (allocated (PtrArray.ofList Nat)) =
        some s' ∧ ¬ Runs.Throughout (step (PtrArray.ofList Nat)) (ListsLive (PtrArray.ofList Nat))
          events (allocated (PtrArray.ofList Nat)) := by
  refine ⟨[.actorBaseCtor 0x10, .actorBaseCtor 0x20, .actorBaseDtor 0x10],
    ⟨⟨[], actorMax⟩, [0x20]⟩, rfl, fun hAll => ?_⟩
  have hLists : ListsLive (PtrArray.ofList Nat) ⟨⟨[], actorMax⟩, [0x20]⟩ := hAll.final rfl
  exact absurd hLists.1 (by decide)

end Wondar.Pe.ActorBrowser
