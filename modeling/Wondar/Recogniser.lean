import Mathlib.Algebra.Group.Nat.Even
import Mathlib.Data.List.Basic

/-!
# A recogniser that drops what breaks a match

A machine with three states reads a list and looks for three consecutive elements, each of its
own kind. An element that breaks a match off is dropped: the machine does not consider that it
may be the first one of the next match.

So the machine finds some of the matches (`found_sublist`). It finds one exactly when the number
of false starts that lie directly before it is even: a match broken off by an element of the
first kind hides the one that starts there, and a second one uncovers it (`found_eq_iff`).
-/

namespace Recogniser

structure Pattern (α : Type) where
  first : α → Bool
  second : α → Bool
  third : α → Bool
  disjoint : ∀ x, first x = true → second x = false

inductive State (α : Type)
  | start
  | one (a : α)
  | two (a b : α)

section

variable {α : Type} (P : Pattern α)

def next : State α → α → State α
  | .start, x => if P.first x then .one x else .start
  | .one a, x => if P.second x then .two a x else .start
  | .two _ _, _ => .start

/-- The match that an element completes. -/
def emit : State α → α → Option (α × α × α)
  | .two a b, x => if P.third x then some (a, b, x) else none
  | _, _ => none

/-- The matches that the machine finds. -/
def found : State α → List α → List (α × α × α)
  | _, [] => []
  | q, x :: w => (emit P q x).toList ++ found (next P q x) w

/-- The state after the elements that were read, the last one first. -/
def stateAfter : List α → State α
  | [] => .start
  | x :: before => next P (stateAfter before) x

def IsMatch (a b c : α) : Prop := P.first a = true ∧ P.second b = true ∧ P.third c = true

instance (a b c : α) : Decidable (IsMatch P a b c) := inferInstanceAs (Decidable (_ ∧ _))

/-- All matches of a list, in order. -/
def allMatches : List α → List (α × α × α)
  | a :: b :: c :: w => (if IsMatch P a b c then [(a, b, c)] else []) ++ allMatches (b :: c :: w)
  | _ => []

/-- How many false starts lie directly before a place: elements of the first kind, each alone or
with one of the second kind behind it. The nearest element comes first. -/
def falseStarts : List α → Nat
  | [] => 0
  | [x] => if P.first x then 1 else 0
  | x :: y :: before =>
    if P.first x then falseStarts (y :: before) + 1
    else if P.second x ∧ P.first y then falseStarts before + 1
    else 0

/-- The matches behind an even number of false starts, in order; the elements `before` have been
read. -/
def clearMatches : List α → List α → List (α × α × α)
  | before, a :: b :: c :: w =>
    (if IsMatch P a b c ∧ Even (falseStarts P before) then [(a, b, c)] else []) ++
      clearMatches (a :: before) (b :: c :: w)
  | _, _ => []

variable {P} {before w : List α} {q : State α} {a b c x : α}

/-! ## The states -/

theorem next_eq_one : next P q x = .one a ↔ q = .start ∧ P.first x = true ∧ x = a := by
  cases q <;> grind [next]

theorem next_eq_two : next P q x = .two a b ↔ q = .one a ∧ P.second x = true ∧ x = b := by
  cases q <;> grind [next]

theorem next_eq_start : next P q x = .start ↔
    ¬ (q = .start ∧ P.first x = true) ∧ ∀ a, q = .one a → P.second x = false := by
  cases q <;> grind [next]

theorem stateAfter_one (h : stateAfter P before = .one a) :
    ∃ rest, before = a :: rest ∧ P.first a = true ∧ stateAfter P rest = .start := by
  cases before with
  | nil => cases h
  | cons x rest =>
    obtain ⟨hStart, hFirst, rfl⟩ := next_eq_one.mp h
    exact ⟨rest, rfl, hFirst, hStart⟩

theorem stateAfter_two (h : stateAfter P before = .two a b) :
    ∃ rest, before = b :: a :: rest ∧ P.first a = true ∧ P.second b = true ∧
      stateAfter P rest = .start := by
  cases before with
  | nil => cases h
  | cons x before =>
    obtain ⟨hOne, hSecond, rfl⟩ := next_eq_two.mp h
    obtain ⟨rest, rfl, hFirst, hStart⟩ := stateAfter_one hOne
    exact ⟨rest, rfl, hFirst, hSecond, hStart⟩

/-- An element of the first kind starts a match or breaks one off. -/
theorem stateAfter_first (hFirst : P.first x = true) :
    stateAfter P (x :: before) = .start ↔ stateAfter P before ≠ .start := by
  rw [stateAfter, next_eq_start]
  constructor
  · exact fun h hStart => h.1 ⟨hStart, hFirst⟩
  · exact fun hNe => ⟨fun h => hNe h.1, fun _ _ => P.disjoint x hFirst⟩

theorem stateAfter_second (hFirst : P.first a = true) (hSecond : P.second b = true) :
    stateAfter P (b :: a :: before) = .start ↔ stateAfter P before ≠ .start := by
  have hNot : ¬ P.first b = true := fun h => by
    rw [P.disjoint b h] at hSecond
    cases hSecond
  rw [stateAfter, next_eq_start]
  constructor
  · intro h hStart
    have hOne : stateAfter P (a :: before) = .one a := next_eq_one.mpr ⟨hStart, hFirst, rfl⟩
    rw [h.2 a hOne] at hSecond
    cases hSecond
  · refine fun hNe => ⟨fun h => hNot h.2, fun a' hOne => ?_⟩
    exact absurd (next_eq_one.mp hOne).1 hNe

/-- The machine waits for a match exactly behind an even number of false starts. -/
theorem stateAfter_start_iff :
    stateAfter P before = .start ↔ Even (falseStarts P before) := by
  induction before using falseStarts.induct P with
  | case1 => simp [stateAfter, falseStarts]
  | case2 x hFirst => simp [stateAfter, falseStarts, next, hFirst]
  | case3 x hFirst => simp [stateAfter, falseStarts, next, hFirst]
  | case4 x y before hFirst ih =>
    rw [stateAfter_first hFirst, falseStarts, if_pos hFirst, Nat.even_add_one, ← ih]
  | case5 x y before hFirst hBoth ih =>
    rw [stateAfter_second hBoth.2 hBoth.1, falseStarts, if_neg hFirst, if_pos hBoth,
      Nat.even_add_one, ← ih]
  | case6 x y before hFirst hBoth =>
    rw [falseStarts, if_neg hFirst, if_neg hBoth, stateAfter, next_eq_start]
    refine iff_of_true ⟨fun h => hFirst h.2, fun a hOne => ?_⟩ Even.zero
    obtain ⟨rest, hEq, hFirst', -⟩ := stateAfter_one hOne
    cases hEq
    exact Bool.eq_false_iff.mpr fun hSecond => hBoth ⟨hSecond, hFirst'⟩

/-! ## The matches -/

theorem emit_eq_some {t : α × α × α} : emit P (stateAfter P before) c = some t ↔
    ∃ a b rest, before = b :: a :: rest ∧ t = (a, b, c) ∧ IsMatch P a b c ∧
      Even (falseStarts P rest) := by
  constructor
  · intro h
    cases hState : stateAfter P before with
    | start => rw [hState] at h; cases h
    | one a => rw [hState] at h; cases h
    | two a b =>
      rw [hState, emit] at h
      obtain ⟨rest, rfl, hFirst, hSecond, hStart⟩ := stateAfter_two hState
      split at h
      · rename_i hThird
        cases h
        exact ⟨a, b, rest, rfl, rfl, ⟨hFirst, hSecond, hThird⟩, stateAfter_start_iff.mp hStart⟩
      · cases h
  · rintro ⟨a, b, rest, rfl, rfl, ⟨hFirst, hSecond, hThird⟩, hEven⟩
    have hOne : stateAfter P (a :: rest) = .one a :=
      next_eq_one.mpr ⟨stateAfter_start_iff.mpr hEven, hFirst, rfl⟩
    have hTwo : stateAfter P (b :: a :: rest) = .two a b := next_eq_two.mpr ⟨hOne, hSecond, rfl⟩
    rw [hTwo, emit, if_pos hThird]

variable (P) in
/-- The match that ends at an element, looking back from it. -/
def endsAt : List α → α → Option (α × α × α)
  | b :: a :: _, c => if IsMatch P a b c then some (a, b, c) else none
  | _, _ => none

variable (P) in
/-- The matches that end in a list, behind the elements `before`. -/
def matchesFrom : List α → List α → List (α × α × α)
  | _, [] => []
  | before, c :: w => (endsAt P before c).toList ++ matchesFrom (c :: before) w

theorem endsAt_eq_some {t : α × α × α} : endsAt P before c = some t ↔
    ∃ a b rest, before = b :: a :: rest ∧ t = (a, b, c) ∧ IsMatch P a b c := by
  unfold endsAt
  split
  · simp only [Option.ite_none_right_eq_some, Option.some_inj]
    grind
  · grind

theorem matchesFrom_pair : matchesFrom P (b :: a :: before) w = allMatches P (a :: b :: w) := by
  induction w generalizing a b before with
  | nil => rfl
  | cons c w ih =>
    rw [matchesFrom, ih, allMatches, endsAt]
    by_cases hMatch : IsMatch P a b c <;> simp [hMatch]

theorem matchesFrom_nil : matchesFrom P [] w = allMatches P w := by
  cases w with
  | nil => rfl
  | cons a w =>
    cases w with
    | nil => rfl
    | cons b w => exact matchesFrom_pair

theorem emit_le {t : α × α × α} (h : emit P (stateAfter P before) c = some t) :
    endsAt P before c = some t := by
  obtain ⟨a, b, rest, hBefore, hTriple, hMatch, -⟩ := emit_eq_some.mp h
  exact endsAt_eq_some.mpr ⟨a, b, rest, hBefore, hTriple, hMatch⟩

/-- At one element the machine finds what ends there, or nothing. -/
theorem emit_sublist : (emit P (stateAfter P before) c).toList.Sublist
    (endsAt P before c).toList := by
  cases hEmit : emit P (stateAfter P before) c with
  | none => exact List.nil_sublist _
  | some t =>
    rw [emit_le hEmit]

theorem emit_toList : (emit P (stateAfter P (b :: a :: before)) c).toList =
    if IsMatch P a b c ∧ Even (falseStarts P before) then [(a, b, c)] else [] := by
  cases hEmit : emit P (stateAfter P (b :: a :: before)) c with
  | none =>
    rw [if_neg]
    · rfl
    · rintro ⟨hMatch, hEven⟩
      rw [emit_eq_some.mpr ⟨a, b, before, rfl, rfl, hMatch, hEven⟩] at hEmit
      cases hEmit
  | some t =>
    obtain ⟨a', b', rest, hBefore, rfl, hMatch, hEven⟩ := emit_eq_some.mp hEmit
    cases hBefore
    rw [if_pos ⟨hMatch, hEven⟩]
    rfl

theorem found_pair : found P (stateAfter P (b :: a :: before)) w =
    clearMatches P before (a :: b :: w) := by
  induction w generalizing a b before with
  | nil => rfl
  | cons c w ih =>
    have hNext : next P (stateAfter P (b :: a :: before)) c = stateAfter P (c :: b :: a :: before) :=
      rfl
    rw [found, hNext, ih, clearMatches, emit_toList]

/-- What the machine finds. -/
theorem found_eq_clearMatches : found P .start w = clearMatches P [] w := by
  have hStart : ∀ x, emit P .start x = none := fun _ => rfl
  have hOne : ∀ a b, emit P (next P .start a) b = none := by
    intro a b
    rw [next]
    split
    · rfl
    · rfl
  cases w with
  | nil => rfl
  | cons a w =>
    cases w with
    | nil => rfl
    | cons b w =>
      have hRest : found P (stateAfter P [b, a]) w = clearMatches P [] (a :: b :: w) := found_pair
      rw [found, hStart, found, hOne, ← hRest]
      rfl

variable (before) in
theorem found_sublist_from :
    (found P (stateAfter P before) w).Sublist (matchesFrom P before w) := by
  induction w generalizing before with
  | nil => exact .slnil
  | cons c w ih => exact emit_sublist.append (ih (c :: before))

/-- The machine finds nothing but matches, in their order. -/
theorem found_sublist : (found P .start w).Sublist (allMatches P w) :=
  matchesFrom_nil (P := P) ▸ found_sublist_from []

theorem append_eq_of_sublist {l m l' m' : List α} (h : l.Sublist l') (h' : m.Sublist m')
    (hEq : l ++ m = l' ++ m') : l = l' ∧ m = m' := by
  have hLen := congrArg List.length hEq
  have hLe := h.length_le
  have hLe' := h'.length_le
  simp only [List.length_append] at hLen
  exact ⟨h.eq_of_length (by omega), h'.eq_of_length (by omega)⟩

variable (before) in
theorem found_eq_iff_from : found P (stateAfter P before) w = matchesFrom P before w ↔
    ∀ p c s t, w = p ++ c :: s → endsAt P (p.reverse ++ before) c = some t →
      emit P (stateAfter P (p.reverse ++ before)) c = some t := by
  induction w generalizing before with
  | nil =>
    refine iff_of_true rfl fun p c s t hSplit => ?_
    simp at hSplit
  | cons c w ih =>
    rw [found, matchesFrom]
    constructor
    · intro hEq p c' s t hSplit hEnds
      obtain ⟨hHead, hTail⟩ := append_eq_of_sublist emit_sublist
        (found_sublist_from (c :: before)) hEq
      cases p with
      | nil =>
        obtain ⟨rfl, rfl⟩ := List.cons.inj hSplit
        have hEnds : endsAt P before c = some t := hEnds
        rw [hEnds] at hHead
        cases hEmit : emit P (stateAfter P before) c with
        | none =>
          rw [hEmit] at hHead
          cases hHead
        | some t' =>
          rw [hEmit] at hHead
          cases hHead
          exact hEmit
      | cons d p =>
        obtain ⟨rfl, hRest⟩ := List.cons.inj hSplit
        rw [List.reverse_cons, List.append_assoc] at hEnds ⊢
        exact (ih (c :: before)).mp hTail p c' s t hRest hEnds
    · intro h
      have hHead : emit P (stateAfter P before) c = endsAt P before c := by
        cases hEnds : endsAt P before c with
        | none =>
          cases hEmit : emit P (stateAfter P before) c with
          | none => rfl
          | some t => exact (emit_le hEmit).symm.trans hEnds
        | some t => exact h [] c w t rfl hEnds
      have hTail : found P (stateAfter P (c :: before)) w = matchesFrom P (c :: before) w := by
        refine (ih (c :: before)).mpr fun p c' s t hSplit hEnds => ?_
        have hWhole := h (c :: p) c' s t (by rw [hSplit, List.cons_append])
        rw [List.reverse_cons, List.append_assoc] at hWhole
        exact hWhole hEnds
      rw [hHead]
      exact congrArg _ hTail

/-- The machine finds every match exactly when each lies behind an even number of false starts. -/
theorem found_eq_iff : found P .start w = allMatches P w ↔
    ∀ p a b c s, w = p ++ a :: b :: c :: s → IsMatch P a b c →
      Even (falseStarts P p.reverse) := by
  have hFrom := found_eq_iff_from (P := P) (w := w) []
  rw [matchesFrom_nil] at hFrom
  refine hFrom.trans ⟨fun h p a b c s hSplit hMatch => ?_, fun h p c s t hSplit hEnds => ?_⟩
  · have hReverse : (p ++ [a, b]).reverse ++ [] = b :: a :: p.reverse := by simp
    have hEnds : endsAt P ((p ++ [a, b]).reverse ++ []) c = some (a, b, c) :=
      endsAt_eq_some.mpr ⟨a, b, p.reverse, hReverse, rfl, hMatch⟩
    obtain ⟨a', b', rest, hBefore, -, -, hEven⟩ :=
      emit_eq_some.mp (h (p ++ [a, b]) c s (a, b, c) (by rw [hSplit]; simp) hEnds)
    rw [hReverse] at hBefore
    cases hBefore
    exact hEven
  · obtain ⟨a, b, rest, hBefore, rfl, hMatch⟩ := endsAt_eq_some.mp hEnds
    refine emit_eq_some.mpr ⟨a, b, rest, hBefore, rfl, hMatch, ?_⟩
    have hFront : p = rest.reverse ++ [a, b] := by
      rw [List.append_nil] at hBefore
      rw [← List.reverse_reverse p, hBefore]
      simp
    have hEven := h rest.reverse a b c s (by rw [hSplit, hFront]; simp) hMatch
    rwa [List.reverse_reverse] at hEven

/-- A match is made of consecutive elements. -/
theorem mem_allMatches (h : (a, b, c) ∈ allMatches P w) :
    ∃ p s, w = p ++ a :: b :: c :: s := by
  induction w using allMatches.induct with
  | case1 x y z w ih =>
    rw [allMatches] at h
    rcases List.mem_append.mp h with hHead | hTail
    · split at hHead
      · cases List.mem_singleton.mp hHead
        exact ⟨[], w, rfl⟩
      · cases hHead
    · obtain ⟨p, s, hSplit⟩ := ih hTail
      exact ⟨x :: p, s, by rw [hSplit, List.cons_append]⟩
  | case2 w hShort =>
    unfold allMatches at h
    split at h
    · exact absurd rfl (hShort _ _ _ _)
    · cases h

/-- The first elements of the matches follow one another in the list. -/
theorem allMatches_first_sublist : ((allMatches P w).map (·.1)).Sublist w := by
  induction w using allMatches.induct with
  | case1 x y z w ih =>
    rw [allMatches]
    split
    · exact ih.cons_cons x
    · exact ih.cons x
  | case2 w hShort =>
    unfold allMatches
    split
    · exact absurd rfl (hShort _ _ _ _)
    · exact List.nil_sublist _

end

end Recogniser
