import Mathlib.Data.List.Basic
import Wondar.Interaction
import Wondar.Runs

/-!
# Nested scopes

An event enters a scope of some kind or leaves it, pushes a mark in the scope it is in or pops
one, or does neither. Scopes nest, while the marks of a scope are popped in any order; a scope is
left only when none is there. `Balanced` says that a list of events ends where it began.

Some events enter a scope that is not left: those that are `missed`. `Scoped` is what a program
keeps that closes everything else. Such a program is balanced in exactly the runs in which nothing
is missed (`Scoped.balanced_iff`).
-/

namespace Scopes

open Interaction

/-- What an event does to the scopes. -/
inductive Effect (kind mark : Type)
  | enter (k : kind)
  | leave (k : kind)
  | push (m : mark)
  | pop (m : mark)
  | skip

/-- An open scope with the marks that are pushed in it. -/
structure Frame (kind mark : Type) where
  kind : kind
  marks : List mark
deriving DecidableEq

section

variable {event kind mark : Type} [DecidableEq kind] [DecidableEq mark]
  (effect : event → Effect kind mark) (missed : event → Bool)

/-- The open scopes behind an event, the innermost one first. -/
def step (e : event) : List (Frame kind mark) → Option (List (Frame kind mark))
  | [] => none
  | f :: fs =>
    match effect e with
    | .enter k => some (⟨k, []⟩ :: f :: fs)
    | .leave k => if f = ⟨k, []⟩ then some fs else none
    | .push m => some (⟨f.kind, m :: f.marks⟩ :: fs)
    | .pop m => if m ∈ f.marks then some (⟨f.kind, f.marks.erase m⟩ :: fs) else none
    | .skip => some (f :: fs)

/-- The events lead from an open scope back to it. -/
def Balanced (base : Frame kind mark) (events : List event) : Prop :=
  Runs.run (step effect) events [base] = some [base]

/-- The event opens a scope. -/
def enters (e : event) : Bool :=
  match effect e with
  | .enter _ => true
  | _ => false

/-- The event closes a scope. -/
def leaves (e : event) : Bool :=
  match effect e with
  | .leave _ => true
  | _ => false

/-- The events close what they open, but for the scopes whose end is missed. -/
structure Scoped (events : List event) : Prop where
  neutral : (∀ e ∈ events, missed e = false) → ∀ f fs,
    Runs.run (step effect) events (f :: fs) = some (f :: fs)
  counted : events.countP (enters effect) =
    events.countP (leaves effect) + events.countP missed

variable {effect missed} {e e' : event} {events xs ys : List event} {k : kind} {m : mark}
  {s s' : List (Frame kind mark)}

theorem length_step (h : step effect e s = some s') :
    s.length + (if enters effect e then 1 else 0) =
      s'.length + if leaves effect e then 1 else 0 := by
  cases s with
  | nil => cases h
  | cons f fs =>
    simp only [step] at h
    unfold enters leaves
    cases hEffect : effect e with
    | enter k =>
      simp only [hEffect] at h
      cases h
      rfl
    | leave k =>
      simp only [hEffect] at h
      split at h
      · cases h
        rfl
      · cases h
    | push m =>
      simp only [hEffect] at h
      cases h
      rfl
    | pop m =>
      simp only [hEffect] at h
      split at h
      · cases h
        rfl
      · cases h
    | skip =>
      simp only [hEffect] at h
      cases h
      rfl

/-- How many scopes are open is how many have been entered and not left. -/
theorem length_run (h : Runs.run (step effect) events s = some s') :
    s.length + events.countP (enters effect) = s'.length + events.countP (leaves effect) := by
  induction events generalizing s with
  | nil =>
    cases h
    rfl
  | cons e events ih =>
    obtain ⟨t, hStep, hRest⟩ := Runs.run_cons.mp h
    have hHead := length_step hStep
    have hTail := ih hRest
    rw [List.countP_cons, List.countP_cons]
    omega

/-- What opens and closes everything but the missed scopes is balanced if and only if it misses
none. -/
theorem Scoped.balanced_iff (h : Scoped effect missed events) (base : Frame kind mark) :
    Balanced effect base events ↔ ∀ e ∈ events, missed e = false := by
  constructor
  · intro hBalanced
    have hLength := length_run hBalanced
    have hNone : events.countP missed = 0 := by
      have := h.counted
      omega
    intro e hMem
    exact Bool.eq_false_iff.mpr (List.countP_eq_zero.mp hNone e hMem)
  · intro hNone
    exact h.neutral hNone base []

/-! ## Rules -/

section

variable {f : Frame kind mark} {fs : List (Frame kind mark)}

theorem run_enter (h : effect e = .enter k) :
    Runs.run (step effect) (e :: events) (f :: fs) =
      Runs.run (step effect) events (⟨k, []⟩ :: f :: fs) := by
  rw [Runs.run, step, h]
  rfl

theorem run_leave (h : effect e = .leave k) :
    Runs.run (step effect) (e :: events) (⟨k, []⟩ :: fs) = Runs.run (step effect) events fs := by
  rw [Runs.run, step, h]
  simp only [if_true]
  rfl

theorem run_push (h : effect e = .push m) :
    Runs.run (step effect) (e :: events) (f :: fs) =
      Runs.run (step effect) events (⟨f.kind, m :: f.marks⟩ :: fs) := by
  rw [Runs.run, step, h]
  rfl

theorem run_pop (h : effect e = .pop m) (hMem : m ∈ f.marks) :
    Runs.run (step effect) (e :: events) (f :: fs) =
      Runs.run (step effect) events (⟨f.kind, f.marks.erase m⟩ :: fs) := by
  rw [Runs.run, step, h]
  simp only [if_pos hMem]
  rfl

/-- The mark that was pushed last. -/
theorem run_pop_head {marks : List mark} (h : effect e = .pop m) :
    Runs.run (step effect) (e :: events) (⟨k, m :: marks⟩ :: fs) =
      Runs.run (step effect) events (⟨k, marks⟩ :: fs) := by
  rw [run_pop h List.mem_cons_self, List.erase_cons_head]

/-- The mark below the one that was pushed last. -/
theorem run_pop_second {m' : mark} {marks : List mark} (h : effect e = .pop m) :
    Runs.run (step effect) (e :: events) (⟨k, m' :: m :: marks⟩ :: fs) =
      Runs.run (step effect) events (⟨k, m' :: marks⟩ :: fs) := by
  have hErase : (m' :: m :: marks).erase m = m' :: marks := by
    by_cases hEq : m' = m
    · rw [hEq, List.erase_cons_head]
    · rw [List.erase_cons_tail (by simpa using hEq), List.erase_cons_head]
  rw [run_pop h (List.mem_cons_of_mem _ List.mem_cons_self), hErase]

end

theorem Scoped.nil : Scoped effect missed [] where
  neutral _ _ _ := rfl
  counted := rfl

theorem Scoped.append (hx : Scoped effect missed xs) (hy : Scoped effect missed ys) :
    Scoped effect missed (xs ++ ys) where
  neutral hNone f fs := by
    obtain ⟨hX, hY⟩ := List.forall_mem_append.mp hNone
    rw [Runs.run_append, hx.neutral hX, Option.bind_some, hy.neutral hY]
  counted := by
    rw [List.countP_append, List.countP_append, List.countP_append, hx.counted, hy.counted]
    omega

/-- An event that neither enters nor leaves anything. -/
theorem scoped_skip (hEffect : effect e = .skip) (hMissed : missed e = false) :
    Scoped effect missed [e] where
  neutral _ f fs := by
    rw [Runs.run, step, hEffect]
    rfl
  counted := by
    simp [enters, leaves, hEffect, hMissed]

/-- The end of this scope is missed. -/
theorem scoped_missed (hEffect : effect e = .enter k) (hMissed : missed e = true) :
    Scoped effect missed [e] where
  neutral hNone := by
    rw [hNone e List.mem_cons_self] at hMissed
    cases hMissed
  counted := by
    simp [enters, leaves, hEffect, hMissed]

theorem scoped_enclosed (hEnter : effect e = .enter k) (hLeave : effect e' = .leave k)
    (hMissed : missed e = false) (hMissed' : missed e' = false)
    (h : Scoped effect missed events) : Scoped effect missed (e :: (events ++ [e'])) where
  neutral hNone f fs := by
    have hInner := h.neutral fun x hMem =>
      hNone x (List.mem_cons_of_mem _ (List.mem_append_left _ hMem))
    rw [run_enter hEnter, Runs.run_append, hInner, Option.bind_some, run_leave hLeave]
    rfl
  counted := by
    have hCounted := h.counted
    simp [enters, leaves, hEnter, hLeave, hMissed, hMissed'] at hCounted ⊢
    omega

theorem scoped_pushed (hPush : effect e = .push m) (hPop : effect e' = .pop m)
    (hMissed : missed e = false) (hMissed' : missed e' = false)
    (h : Scoped effect missed events) : Scoped effect missed (e :: (events ++ [e'])) where
  neutral hNone f fs := by
    have hInner := h.neutral fun x hMem =>
      hNone x (List.mem_cons_of_mem _ (List.mem_append_left _ hMem))
    rw [run_push hPush, Runs.run_append, hInner, Option.bind_some, run_pop_head hPop]
    rfl
  counted := by
    have hCounted := h.counted
    simp [enters, leaves, hPush, hPop, hMissed, hMissed'] at hCounted ⊢
    omega

/-- A mark that is pushed inside another one and popped behind it. -/
theorem scoped_crossed {i i' : event} {m' : mark} (hOuter : effect i = .push m)
    (hPush : effect e = .push m') (hOuter' : effect i' = .pop m) (hPop : effect e' = .pop m')
    (hMissed : ∀ x ∈ [i, e, i', e'], missed x = false) (h : Scoped effect missed events) :
    Scoped effect missed (i :: e :: i' :: (events ++ [e'])) where
  neutral hNone f fs := by
    have hInner := h.neutral fun x hMem => hNone x (List.mem_cons_of_mem _
      (List.mem_cons_of_mem _ (List.mem_cons_of_mem _ (List.mem_append_left _ hMem))))
    rw [run_push hOuter, run_push hPush, run_pop_second hOuter', Runs.run_append, hInner,
      Option.bind_some, run_pop_head hPop]
    rfl
  counted := by
    have hCounted := h.counted
    simp only [List.forall_mem_cons] at hMissed
    simp [enters, leaves, hOuter, hPush, hOuter', hPop, hMissed] at hCounted ⊢
    omega

end

/-- A property of programs. -/
theorem closed_scoped {call kind mark : Type} {Ret : call → Type} [DecidableEq kind]
    [DecidableEq mark] {effect : Event Ret → Effect kind mark} {missed : Event Ret → Bool} :
    Closed (Scoped effect missed) where
  nil := Scoped.nil
  append _ _ := Scoped.append

end Scopes
