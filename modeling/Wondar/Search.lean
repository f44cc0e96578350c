import Mathlib.Data.Fintype.Pigeonhole
import Mathlib.Dynamics.PeriodicPts.Defs

/-!
# Searches

A list is searched for its first match and a chain is followed until it stays where it is.

* `find?_eq_find?_iff`: a wider test finds what the narrower one finds, unless an element that
  only the wider test takes stands before every match of the narrower one.
* `settles_iff`: a chain in a finite type comes to rest if and only if it runs into no cycle of
  two or more.
-/

namespace Search

open Function

/-! ## The first match -/

section

variable {α : Type} {p q : α → Bool} {l : List α}

/-- Where at most one element matches, the search gives that one. -/
theorem find?_eq_some_iff_mem (hUnique : l.Pairwise fun x y => ¬ (q x = true ∧ q y = true)) {m : α} :
    l.find? q = some m ↔ m ∈ l ∧ q m = true := by
  rw [List.find?_eq_some_iff_append]
  constructor
  · rintro ⟨hm, pre, post, rfl, -⟩
    exact ⟨List.mem_append_right pre List.mem_cons_self, hm⟩
  · rintro ⟨hMem, hm⟩
    obtain ⟨pre, post, rfl⟩ := List.append_of_mem hMem
    refine ⟨hm, pre, post, rfl, ?_⟩
    intro x hx
    have hApart := (List.pairwise_append.mp hUnique).2.2 x hx m List.mem_cons_self
    rw [Bool.not_eq_true']
    exact Bool.eq_false_iff.mpr fun hq => hApart ⟨hq, hm⟩

theorem find?_eq_find?_iff (hWider : ∀ x, q x = true → p x = true) :
    l.find? p = l.find? q ↔
      ∀ pre m post, l = pre ++ m :: post → p m = true → q m = false → ∃ x ∈ pre, q x = true := by
  constructor
  · rintro hEq pre m post rfl hp hq
    by_contra hNone
    -- the wider search stops at `m` or before it, at an element that the narrower one refuses
    have hPre : pre.find? q = none := by
      rw [List.find?_eq_none]
      exact fun x hx hqx => hNone ⟨x, hx, hqx⟩
    rcases hFound : pre.find? p with _ | x
    · rw [List.find?_append, List.find?_append, hFound, hPre, Option.none_or, Option.none_or,
        List.find?_cons_of_pos hp] at hEq
      have := List.find?_some hEq.symm
      rw [hq] at this
      cases this
    · rw [List.find?_append, hFound, Option.some_or] at hEq
      obtain ⟨pre', rest, rfl, -⟩ := (List.find?_eq_some_iff_append.mp hFound).2
      exact hNone ⟨x, by simp, List.find?_some hEq.symm⟩
  · intro hBehind
    rcases hFound : l.find? p with _ | m
    · symm
      rw [List.find?_eq_none] at hFound ⊢
      exact fun x hx hq => hFound x hx (hWider x hq)
    · obtain ⟨hp, pre, post, rfl, hBefore⟩ := List.find?_eq_some_iff_append.mp hFound
      have hPre : ∀ x ∈ pre, q x = false := by
        intro x hx
        have hNot := hBefore x hx
        rw [Bool.not_eq_true'] at hNot
        exact Bool.eq_false_iff.mpr fun hq => by simp [hWider x hq] at hNot
      have hq : q m = true := by
        by_contra hNot
        obtain ⟨x, hx, hqx⟩ := hBehind pre m post rfl hp (Bool.eq_false_iff.mpr hNot)
        rw [hPre x hx] at hqx
        cases hqx
      symm
      rw [List.find?_eq_some_iff_append]
      refine ⟨hq, pre, post, rfl, ?_⟩
      intro x hx
      rw [hPre x hx]
      rfl

end

/-! ## Chains -/

section

variable {α : Type} {f : α → α} {x : α}

theorem settles_iff [Finite α] : (∃ n, IsFixedPt f (f^[n] x)) ↔
    ∀ m, f^[m] x ∈ periodicPts f → IsFixedPt f (f^[m] x) := by
  constructor
  · rintro ⟨n, hFixed⟩ m hPeriodic
    obtain ⟨k, hk, hCycle⟩ := mem_periodicPts.mp hPeriodic
    -- far enough along the cycle the chain is past its point of rest
    have hRound : f^[k * n] (f^[m] x) = f^[m] x := hCycle.mul_const n
    have hPast : k * n + m = (k * n + m - n) + n := by
      have := Nat.le_mul_of_pos_left n hk
      omega
    have hRest : f^[m] x = f^[n] x := by
      calc f^[m] x = f^[k * n] (f^[m] x) := hRound.symm
        _ = f^[k * n + m] x := (iterate_add_apply f _ _ x).symm
        _ = f^[k * n + m - n] (f^[n] x) := by rw [hPast, iterate_add_apply, Nat.add_sub_cancel]
        _ = f^[n] x := hFixed.iterate _
    rw [hRest]
    exact hFixed
  · intro hCycles
    obtain ⟨a, b, hNe, hEq⟩ := Finite.exists_ne_map_eq_of_infinite fun n => f^[n] x
    have hBack : ∀ {i j : Nat}, i < j → f^[i] x = f^[j] x → f^[i] x ∈ periodicPts f := by
      intro i j hLt hSame
      refine mem_periodicPts.mpr ⟨j - i, Nat.sub_pos_of_lt hLt, ?_⟩
      rw [IsPeriodicPt, IsFixedPt, ← iterate_add_apply, Nat.sub_add_cancel hLt.le]
      exact hSame.symm
    rcases Nat.lt_or_gt_of_ne hNe with hLt | hGt
    · exact ⟨a, hCycles a (hBack hLt hEq)⟩
    · exact ⟨b, hCycles b (hBack hGt hEq.symm)⟩

end

end Search
