import Mathlib.Data.List.Perm.Subperm

/-!
# Chains of links

A chain follows a link from each entry to the next one until it meets the mark that ends it.

* `ChainOf` says which entries a chain has; they are different ones (`ChainOf.nodup`). `walk`
  visits them until a visit has a result, and its result is the first one of the list
  (`walk_eq`).
* `Linked` is a chain with links back as well. `linked_push` puts an entry in front of it and
  `linked_unlink` takes one out, wherever it stands.
-/

namespace Chains

section

variable {α β : Type} (next : α → α) (stop : α)

/-- The entries of the chain from `a` on. -/
def ChainOf : α → List α → Prop
  | a, [] => a = stop
  | a, x :: xs => a = x ∧ a ≠ stop ∧ ChainOf (next a) xs

/-- The result of the first visit that has one. `none` where a visit does not end, or the rounds
do not suffice. -/
def walk [DecidableEq α] (visit : α → Option (Option β)) : Nat → α → Option (Option β)
  | 0, _ => none
  | rounds + 1, a =>
    if a = stop then some none
    else
      match visit a with
      | none => none
      | some (some b) => some (some b)
      | some none => walk visit rounds (next a)

end

section

variable {α β : Type} {next next' : α → α} {stop a : α} {as as' : List α}

namespace ChainOf

theorem unique (h : ChainOf next stop a as) (h' : ChainOf next stop a as') : as = as' := by
  induction as generalizing a as' with
  | nil =>
    cases as' with
    | nil => rfl
    | cons x xs => exact absurd h h'.2.1
  | cons x xs ih =>
    obtain ⟨rfl, hNe, hRest⟩ := h
    cases as' with
    | nil => exact absurd h' hNe
    | cons y ys =>
      obtain ⟨rfl, -, hRest'⟩ := h'
      rw [ih hRest hRest']

theorem stop_not_mem (h : ChainOf next stop a as) : stop ∉ as := by
  induction as generalizing a with
  | nil => exact List.not_mem_nil
  | cons x xs ih =>
    obtain ⟨rfl, hNe, hRest⟩ := h
    exact List.not_mem_cons_of_ne_of_not_mem hNe.symm (ih hRest)

/-- The chain from one of its entries on. -/
theorem drop {pre post : List α} {x : α} (h : ChainOf next stop a (pre ++ x :: post)) :
    ChainOf next stop x (x :: post) := by
  induction pre generalizing a with
  | nil =>
    obtain ⟨rfl, hNe, hRest⟩ := h
    exact ⟨rfl, hNe, hRest⟩
  | cons y pre ih => exact ih h.2.2

/-- An entry that came twice would be followed by itself for ever. -/
theorem nodup (h : ChainOf next stop a as) : as.Nodup := by
  induction as generalizing a with
  | nil => exact List.nodup_nil
  | cons x xs ih =>
    refine List.nodup_cons.mpr ⟨fun hMem => ?_, ih h.2.2⟩
    obtain ⟨pre, post, rfl⟩ := List.append_of_mem hMem
    obtain rfl : a = x := h.1
    have hWhole : ChainOf next stop a ((a :: pre) ++ a :: post) := h
    have hLater : ChainOf next stop a (a :: post) := hWhole.drop
    have hLength := congrArg List.length (unique h hLater)
    simp only [List.length_cons, List.length_append] at hLength
    omega

theorem length_le {all : List α} (h : ChainOf next stop a as) (hSub : as ⊆ all) :
    as.length ≤ all.length := (List.subperm_of_subset h.nodup hSub).length_le

/-- Other links behind the entry `p`. -/
theorem replace {pre tail tail' : List α} {p : α} (h : ChainOf next stop a (pre ++ p :: tail))
    (hKeep : ∀ y ∈ pre, next' y = next y) (hTail : ChainOf next' stop (next' p) tail') :
    ChainOf next' stop a (pre ++ p :: tail') := by
  induction pre generalizing a with
  | nil =>
    obtain ⟨rfl, hNe, -⟩ := h
    exact ⟨rfl, hNe, hTail⟩
  | cons y pre ih =>
    obtain ⟨rfl, hNe, hRest⟩ := h
    obtain ⟨hHead, hPre⟩ := List.forall_mem_cons.mp hKeep
    refine ⟨rfl, hNe, ?_⟩
    rw [hHead]
    exact ih hRest hPre

theorem congr (h : ChainOf next stop a as) (hKeep : ∀ y ∈ as, next' y = next y) :
    ChainOf next' stop a as := by
  induction as generalizing a with
  | nil => exact h
  | cons x xs ih =>
    obtain ⟨rfl, hNe, hRest⟩ := h
    obtain ⟨hHead, hTail⟩ := List.forall_mem_cons.mp hKeep
    refine ⟨rfl, hNe, ?_⟩
    rw [hHead]
    exact ih hRest hTail

end ChainOf

theorem walk_eq [DecidableEq α] {visit : α → Option (Option β)} {f : α → Option β}
    (h : ChainOf next stop a as) (hVisit : ∀ x ∈ as, visit x = some (f x)) {rounds : Nat}
    (hRounds : as.length < rounds) : walk next stop visit rounds a = some (as.findSome? f) := by
  induction as generalizing a rounds with
  | nil =>
    cases rounds with
    | zero => omega
    | succ rounds =>
      rw [walk, if_pos (show a = stop from h)]
      rfl
  | cons x xs ih =>
    obtain ⟨rfl, hNe, hRest⟩ := h
    obtain ⟨hHead, hTail⟩ := List.forall_mem_cons.mp hVisit
    cases rounds with
    | zero => simp at hRounds
    | succ rounds =>
      rw [List.length_cons] at hRounds
      rw [walk, if_neg hNe, hHead]
      cases hResult : f a with
      | some b => simp only [List.findSome?_cons, hResult]
      | none =>
        simp only [List.findSome?_cons, hResult]
        exact ih hRest hTail (by omega)

/-- A walk that gets to the end has had no result on the way. -/
theorem walk_none [DecidableEq α] {f : α → Option β} (h : ChainOf next stop a as) {rounds : Nat}
    (hWalk : walk next stop (fun x => some (f x)) rounds a = some none) : ∀ x ∈ as, f x = none := by
  induction as generalizing a rounds with
  | nil => exact fun x hx => (List.not_mem_nil hx).elim
  | cons x xs ih =>
    obtain ⟨rfl, hNe, hRest⟩ := h
    cases rounds with
    | zero => cases hWalk
    | succ rounds =>
      rw [walk, if_neg hNe] at hWalk
      cases hResult : f a with
      | some b =>
        rw [hResult] at hWalk
        cases hWalk
      | none =>
        rw [hResult] at hWalk
        exact List.forall_mem_cons.mpr ⟨hResult, ih hRest hWalk⟩

end

/-! ## Links in both directions -/

section

variable {α : Type}

/-- The link back of each entry is to the one before it, that of the first one to `p`. -/
def Back (prev : α → α) : α → List α → Prop
  | _, [] => True
  | p, x :: xs => prev x = p ∧ Back prev x xs

structure Linked (next prev : α → α) (null head : α) (as : List α) : Prop where
  forward : ChainOf next null head as
  back : Back prev null as

variable {next next' prev prev' : α → α} {null head p x : α} {as pre post tail tail' : List α}

theorem Back.congr (h : Back prev p as) (hKeep : ∀ y ∈ as, prev' y = prev y) : Back prev' p as := by
  induction as generalizing p with
  | nil => trivial
  | cons y ys ih =>
    obtain ⟨hHead, hTail⟩ := List.forall_mem_cons.mp hKeep
    exact ⟨hHead.trans h.1, ih h.2 hTail⟩

theorem Back.replace {q : α} (h : Back prev q (pre ++ p :: tail))
    (hKeep : ∀ y ∈ pre ++ [p], prev' y = prev y) (hTail : Back prev' p tail') :
    Back prev' q (pre ++ p :: tail') := by
  induction pre generalizing q with
  | nil =>
    refine ⟨?_, hTail⟩
    rw [hKeep p List.mem_cons_self]
    exact h.1
  | cons y pre ih =>
    obtain ⟨hHead, hRest⟩ := List.forall_mem_cons.mp hKeep
    exact ⟨hHead.trans h.1, ih h.2 hRest⟩

theorem Back.drop {q : α} (h : Back prev q (pre ++ p :: tail)) : Back prev p tail := by
  induction pre generalizing q with
  | nil => exact h.2
  | cons y pre ih => exact ih h.2

theorem linked_nil : Linked next prev null null [] := ⟨rfl, trivial⟩

/-- A new entry in front. -/
theorem linked_push (h : Linked next prev null head as) (hNull : x ≠ null)
    (hNext : next' x = head) (hPrev : prev' x = null) (hHead : head ≠ null → prev' head = x)
    (hKeepNext : ∀ y ∈ as, next' y = next y) (hKeepPrev : ∀ y ∈ as, y ≠ head → prev' y = prev y) :
    Linked next' prev' null x (x :: as) := by
  refine ⟨⟨rfl, hNull, ?_⟩, hPrev, ?_⟩
  · rw [hNext]
    exact h.forward.congr hKeepNext
  · cases as with
    | nil => trivial
    | cons y ys =>
      obtain ⟨rfl, hNe, -⟩ := h.forward
      refine ⟨hHead hNe, h.back.2.congr fun z hz => ?_⟩
      have hOther : z ≠ head := fun hSame =>
        (List.nodup_cons.mp h.forward.nodup).1 (hSame ▸ hz)
      exact hKeepPrev z (List.mem_cons_of_mem _ hz) hOther

/-- The entry behind `x`, and the entries that stay. -/
theorem Linked.behind (h : Linked next prev null head (pre ++ x :: post))
    (hNext : next x ≠ null → prev' (next x) = p)
    (hKeepPrev : ∀ y ∈ post, y ≠ next x → prev' y = prev y) : Back prev' p post := by
  have hTail := h.forward.drop.2.2
  cases post with
  | nil => trivial
  | cons y ys =>
    obtain ⟨rfl, hNe, -⟩ := hTail
    have hBack : Back prev x (next x :: ys) := h.back.drop
    have hNodup : (next x :: ys).Nodup := (List.nodup_cons.mp h.forward.drop.nodup).2
    refine ⟨hNext hNe, hBack.2.congr fun z hz => ?_⟩
    have hOther : z ≠ next x := fun hSame => (List.nodup_cons.mp hNodup).1 (hSame ▸ hz)
    exact hKeepPrev z (List.mem_cons_of_mem _ hz) hOther

/-- An entry is taken out: its neighbours are linked to each other. -/
theorem linked_unlink (h : Linked next prev null head (pre ++ x :: post)) {head' : α}
    (hFirst : prev x = null → head' = next x) (hLater : prev x ≠ null → head' = head)
    (hNext : next x ≠ null → prev' (next x) = prev x)
    (hPrev : prev x ≠ null → next' (prev x) = next x)
    (hKeepNext : ∀ y ∈ pre ++ post, y ≠ prev x → next' y = next y)
    (hKeepPrev : ∀ y ∈ pre ++ post, y ≠ next x → prev' y = prev y) :
    Linked next' prev' null head' (pre ++ post) := by
  have hNodup := h.forward.nodup
  have hTail : ChainOf next null (next x) post := h.forward.drop.2.2
  have hBehind : Back prev' (prev x) post :=
    h.behind hNext fun y hy => hKeepPrev y (List.mem_append_right pre hy)
  rcases List.eq_nil_or_concat pre with rfl | ⟨pre, q, rfl⟩
  · have hNull : prev x = null := h.back.1
    rw [hFirst hNull]
    refine ⟨hTail.congr fun y hy => hKeepNext y hy fun hSame => ?_, hNull ▸ hBehind⟩
    exact hTail.stop_not_mem (hNull ▸ hSame ▸ hy)
  · rw [List.concat_eq_append] at h hNodup hKeepNext hKeepPrev ⊢
    rw [List.append_assoc, List.singleton_append] at h hNodup hKeepNext hKeepPrev ⊢
    have hLast : prev x = q := h.back.drop.1
    have hNe : q ≠ null := h.forward.drop.2.1
    rw [hLast] at hLater hPrev hKeepNext hBehind
    rw [hLater hNe]
    obtain ⟨-, hRest, hApart⟩ := List.nodup_append.mp hNodup
    have hQ := (List.nodup_cons.mp hRest).1
    refine ⟨h.forward.replace (fun y hy => ?_) ?_, h.back.replace (fun y hy => ?_) hBehind⟩
    · exact hKeepNext y (List.mem_append_left _ hy) (hApart y hy q List.mem_cons_self)
    · rw [hPrev hNe]
      refine hTail.congr fun y hy => hKeepNext y (by simp [hy]) fun hSame => hQ ?_
      exact hSame ▸ List.mem_cons_of_mem x hy
    · have hMem : y ∈ pre ++ q :: post := by
        rcases List.mem_append.mp hy with hy | hy
        · exact List.mem_append_left _ hy
        · exact List.mem_append_right _ (List.mem_singleton.mp hy ▸ List.mem_cons_self)
      refine hKeepPrev y hMem fun hSame => ?_
      -- the entry behind `x` is none of those before it
      cases post with
      | nil =>
        have hEnd : next x = null := hTail
        exact h.forward.stop_not_mem (by rw [← hEnd, ← hSame]; grind)
      | cons z zs =>
        have hBack : next x = z := hTail.1
        grind

end

end Chains
