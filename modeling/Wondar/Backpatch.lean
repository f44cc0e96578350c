/-!
# Backpatching

A pass emits code for one label after the other. Where a word refers to a label that has no place
yet, the word is emitted without the place and a fix is left for it. The turn of the label applies
the fixes that have been left to it.

`Turn` says what the turn of a label may do to memory and to the fixes, and `Turns` is a run of
turns behind a word that none of them emits. Such a word stays as it is when no fix is left for it
(`Turns.free`); when one is, the turn of its label changes it as the fix says, and no other turn
changes it at all (`Turns.resolved`).
-/

namespace Backpatch

variable {Loc Word Fix Place : Type} [DecidableEq Loc]

/-- Which word a fix is for, and what it makes of it. -/
structure Scheme (Loc Word Fix Place : Type) where
  loc : Fix → Loc
  patch : Fix → Place → Word → Word

/-- Memory, and the fixes left to each label. -/
structure Pass (Loc Word Fix : Type) where
  mem : Loc → Word
  fixes : Nat → List Fix

variable {S : Scheme Loc Word Fix Place} {place : Place} {p : Loc} {f : Fix} {fs fs' : List Fix}
  {w : Word}

/-! ## Applying fixes -/

variable (S place p) in
/-- What fixes make of the word at `p`. -/
def Scheme.applied : List Fix → Word → Word
  | [], w => w
  | f :: fs, w => Scheme.applied fs (if S.loc f = p then S.patch f place w else w)

theorem applied_append :
    S.applied place p (fs ++ fs') w = S.applied place p fs' (S.applied place p fs w) := by
  induction fs generalizing w with
  | nil => rfl
  | cons f fs ih => exact ih

theorem applied_elsewhere (h : ∀ f ∈ fs, S.loc f ≠ p) : S.applied place p fs w = w := by
  induction fs with
  | nil => rfl
  | cons f fs ih =>
    rw [Scheme.applied, if_neg (h f (by simp))]
    exact ih fun g hg => h g (by simp [hg])

/-- The only fix for its word. -/
theorem applied_once (h : ∀ g ∈ fs ++ fs', S.loc g ≠ S.loc f) :
    S.applied place (S.loc f) (fs ++ f :: fs') w = S.patch f place w := by
  rw [applied_append, applied_elsewhere fun g hg => h g (List.mem_append_left _ hg)]
  change S.applied place (S.loc f) fs' (if S.loc f = S.loc f then _ else _) = _
  rw [if_pos rfl, applied_elsewhere fun g hg => h g (List.mem_append_right _ hg)]

/-! ## One turn -/

variable {fresh : Loc → Prop} {n j : Nat} {s t u : Pass Loc Word Fix}

/-- The turn of label `n`, which gets its place and emits the words of `fresh`. -/
structure Turn (S : Scheme Loc Word Fix Place) (place : Place) (fresh : Loc → Prop) (n : Nat)
    (s t : Pass Loc Word Fix) : Prop where
  mem : ∀ p, ¬ fresh p → t.mem p = S.applied place p (s.fixes n) (s.mem p)
  done : t.fixes n = []
  left : ∀ idx ≠ n, ∃ new, t.fixes idx = s.fixes idx ++ new ∧ ∀ f ∈ new, n < idx ∧ fresh (S.loc f)

/-- No fix is left for the word at `p`. -/
def Free (S : Scheme Loc Word Fix Place) (s : Pass Loc Word Fix) (p : Loc) : Prop :=
  ∀ idx, ∀ f ∈ s.fixes idx, S.loc f ≠ p

/-- `f` is left to label `j`, and is the only fix for its word. -/
structure Only (S : Scheme Loc Word Fix Place) (s : Pass Loc Word Fix) (j : Nat) (f : Fix) :
    Prop where
  left : ∃ before behind, s.fixes j = before ++ f :: behind ∧
    ∀ g ∈ before ++ behind, S.loc g ≠ S.loc f
  other : ∀ idx ≠ j, ∀ g ∈ s.fixes idx, S.loc g ≠ S.loc f

/-- Fixes for a word that is not emitted in the turn were there before. -/
theorem Turn.old (h : Turn S place fresh n s t) (hOld : ¬ fresh p) {idx : Nat} {g : Fix}
    (hg : g ∈ t.fixes idx) (hLoc : S.loc g = p) : idx ≠ n ∧ g ∈ s.fixes idx := by
  have hIdx : idx ≠ n := by
    rintro rfl
    rw [h.done] at hg
    cases hg
  obtain ⟨new, hFixes, hNew⟩ := h.left idx hIdx
  rw [hFixes] at hg
  rcases List.mem_append.mp hg with hBefore | hAfter
  · exact ⟨hIdx, hBefore⟩
  · exact absurd (hLoc ▸ (hNew g hAfter).2) hOld

theorem Turn.free (h : Turn S place fresh n s t) (hFree : Free S s p) (hOld : ¬ fresh p) :
    Free S t p ∧ t.mem p = s.mem p := by
  refine ⟨fun idx g hg hLoc => ?_, ?_⟩
  · obtain ⟨-, hBefore⟩ := h.old hOld hg hLoc
    exact hFree idx g hBefore hLoc
  · rw [h.mem p hOld, applied_elsewhere (hFree n)]

/-- A fix that is left to another label stays. -/
theorem Turn.only (h : Turn S place fresh n s t) (hOnly : Only S s j f) (hOld : ¬ fresh (S.loc f))
    (hj : j ≠ n) : Only S t j f ∧ t.mem (S.loc f) = s.mem (S.loc f) := by
  obtain ⟨⟨before, behind, hFixes, hUnique⟩, hOther⟩ := hOnly
  refine ⟨⟨?_, fun idx hIdx g hg hLoc => ?_⟩, ?_⟩
  · obtain ⟨new, hAfter, hNew⟩ := h.left j hj
    refine ⟨before, behind ++ new, by rw [hAfter, hFixes, List.append_assoc, List.cons_append], ?_⟩
    intro g hg hLoc
    rw [← List.append_assoc] at hg
    rcases List.mem_append.mp hg with hBefore | hFresh
    · exact hUnique g hBefore hLoc
    · exact hOld (hLoc ▸ (hNew g hFresh).2)
  · obtain ⟨-, hBefore⟩ := h.old hOld hg hLoc
    exact hOther idx hIdx g hBefore hLoc
  · rw [h.mem _ hOld, applied_elsewhere (hOther n hj.symm)]

/-- A fix is applied by the turn of its label. -/
theorem Turn.resolved (h : Turn S place fresh n s t) (hOnly : Only S s n f)
    (hOld : ¬ fresh (S.loc f)) :
    Free S t (S.loc f) ∧ t.mem (S.loc f) = S.patch f place (s.mem (S.loc f)) := by
  obtain ⟨⟨before, behind, hFixes, hUnique⟩, hOther⟩ := hOnly
  refine ⟨fun idx g hg hLoc => ?_, ?_⟩
  · obtain ⟨hIdx, hBefore⟩ := h.old hOld hg hLoc
    exact hOther idx hIdx g hBefore hLoc
  · rw [h.mem _ hOld, hFixes, applied_once hUnique]

/-! ## Many turns -/

variable {places : Nat → Place} {k : Nat}

/-- The turns of the labels from `n` to `k`, none of which emits the word at `p`. -/
inductive Turns (S : Scheme Loc Word Fix Place) (places : Nat → Place) (p : Loc) :
    Nat → Pass Loc Word Fix → Nat → Pass Loc Word Fix → Prop
  | refl (n : Nat) (s : Pass Loc Word Fix) : Turns S places p n s n s
  | head {fresh : Loc → Prop} {n k : Nat} {s t u : Pass Loc Word Fix}
      (h : Turn S (places n) fresh n s t) (hOld : ¬ fresh p)
      (hRest : Turns S places p (n + 1) t k u) : Turns S places p n s k u

theorem Turns.free (h : Turns S places p n s k u) (hFree : Free S s p) :
    Free S u p ∧ u.mem p = s.mem p := by
  induction h with
  | refl n s => exact ⟨hFree, rfl⟩
  | head h hOld _ ih =>
    obtain ⟨hNext, hMem⟩ := h.free hFree hOld
    obtain ⟨hEnd, hRest⟩ := ih hNext
    exact ⟨hEnd, hRest.trans hMem⟩

theorem Turns.resolved (h : Turns S places (S.loc f) n s k u) (hOnly : Only S s j f) (hn : n ≤ j)
    (hk : j < k) : u.mem (S.loc f) = S.patch f (places j) (s.mem (S.loc f)) := by
  induction h with
  | refl n s => omega
  | head h hOld hRest ih =>
    rename_i n k s t u
    by_cases hj : j = n
    · subst hj
      obtain ⟨hFree, hMem⟩ := h.resolved hOnly hOld
      rw [(hRest.free hFree).2, hMem]
    · obtain ⟨hNext, hMem⟩ := h.only hOnly hOld hj
      rw [ih hNext (by omega) hk, hMem]

end Backpatch
