import Mathlib.Data.List.Basic

/-!
# Programs that ask their surroundings

A `Prog` performs calls and goes on with what they return. `Emits p events a` says that `p` can
perform the calls of `events`, with the values they return, and end with `a`; nothing is assumed
of the values.

`Always p P` says that `P` holds of all that `p` emits. A property of event lists that is `Closed`
under concatenation goes through a program call by call: `always_bind`, `always_foldlM` and
`always_perform_bind`, the last for a call that the property of what follows depends on.
-/

namespace Interaction

/-- A program that makes calls of the environment, and goes on by what each of them answers. -/
inductive Prog (call : Type) (Ret : call → Type) (α : Type)
  | ret (a : α)
  | ask (c : call) (k : Ret c → Prog call Ret α)

section

variable {call : Type} {Ret : call → Type} {α β σ : Type}

namespace Prog

/-- The second program is asked with what the first returns. -/
def bind : Prog call Ret α → (α → Prog call Ret β) → Prog call Ret β
  | .ret a, f => f a
  | .ask c k, f => .ask c fun r => (k r).bind f

instance : Monad (Prog call Ret) where
  pure := .ret
  bind := bind

end Prog

/-- One call. -/
def perform (c : call) : Prog call Ret (Ret c) := .ask c .ret

/-- A call and what it returned. -/
abbrev Event (Ret : call → Type) := (c : call) × Ret c

/-- The program can make these calls, with these answers, and return `a`. -/
inductive Emits : Prog call Ret α → List (Event Ret) → α → Prop
  | ret (a : α) : Emits (.ret a) [] a
  | ask {c : call} {k : Ret c → Prog call Ret α} {events : List (Event Ret)} {a : α} (r : Ret c)
      (h : Emits (k r) events a) : Emits (.ask c k) (⟨c, r⟩ :: events) a

/-- `P` holds of all that the program can emit. -/
def Always (p : Prog call Ret α) (P : List (Event Ret) → Prop) : Prop :=
  ∀ events a, Emits p events a → P events

/-- A property of call sequences that a program has if its parts have it. -/
structure Closed (P : List (Event Ret) → Prop) : Prop where
  nil : P []
  append : ∀ xs ys, P xs → P ys → P (xs ++ ys)

variable {p : Prog call Ret α} {f : α → Prog call Ret β} {P Q : List (Event Ret) → Prop}

theorem emits_pure {a b : α} {events : List (Event Ret)}
    (h : Emits (pure a : Prog call Ret α) events b) : events = [] ∧ b = a := by
  cases h
  exact ⟨rfl, rfl⟩

theorem emits_bind {events : List (Event Ret)} {b : β} (h : Emits (p >>= f) events b) :
    ∃ xs a ys, events = xs ++ ys ∧ Emits p xs a ∧ Emits (f a) ys b := by
  induction p generalizing events with
  | ret a => exact ⟨[], a, events, rfl, .ret a, h⟩
  | ask c k ih =>
    cases h with
    | ask r hRest =>
      obtain ⟨xs, a, ys, rfl, hHead, hTail⟩ := ih r hRest
      exact ⟨⟨c, r⟩ :: xs, a, ys, rfl, .ask r hHead, hTail⟩

theorem always_pure (hNil : P []) (a : α) : Always (pure a : Prog call Ret α) P := by
  intro events b h
  obtain ⟨rfl, -⟩ := emits_pure h
  exact hNil

theorem always_perform {c : call} (h : ∀ r, P [⟨c, r⟩]) : Always (perform c) P := by
  intro events r hEmits
  cases hEmits with
  | ask r hRest =>
    obtain ⟨rfl, -⟩ := emits_pure hRest
    exact h r

theorem always_bind (hP : Closed P) (h : Always p P) (hf : ∀ a, Always (f a) P) :
    Always (p >>= f) P := by
  intro events b hEmits
  obtain ⟨xs, a, ys, rfl, hHead, hTail⟩ := emits_bind hEmits
  exact hP.append xs ys (h xs a hHead) (hf a ys b hTail)

/-- What holds of the call and all that follows it. -/
theorem always_perform_bind {c : call} {k : Ret c → Prog call Ret β}
    (h : ∀ r, Always (k r) fun events => P (⟨c, r⟩ :: events)) : Always (perform c >>= k) P := by
  intro events b hEmits
  cases hEmits with
  | ask r hRest => exact h r _ b hRest

/-- A program in front of one call that closes what is open, with nothing behind it. -/
theorem always_close {c : call} {g : α → β} (h : Always p P)
    (hClose : ∀ events r, P events → Q (events ++ [⟨c, r⟩])) :
    Always (p >>= fun a => perform c >>= fun _ => pure (g a)) Q := by
  intro events b hEmits
  obtain ⟨xs, a, ys, rfl, hHead, hTail⟩ := emits_bind hEmits
  cases hTail with
  | ask r hRest =>
    obtain ⟨rfl, -⟩ := emits_pure hRest
    exact hClose xs r (h xs a hHead)

theorem always_foldlM (hP : Closed P) {f : σ → α → Prog call Ret σ} {as : List α}
    (hf : ∀ a ∈ as, ∀ s, Always (f s a) P) (s : σ) : Always (as.foldlM f s) P := by
  induction as generalizing s with
  | nil => exact always_pure hP.nil s
  | cons a as ih =>
    obtain ⟨hHead, hTail⟩ := List.forall_mem_cons.mp hf
    rw [List.foldlM_cons]
    exact always_bind hP (hHead s) (ih hTail)

end

end Interaction
