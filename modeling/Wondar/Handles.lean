import Mathlib.Data.List.Nodup

/-!
# Tables of handles

A `Table` gives objects out under handles that are not in use, and closes handles. No handle stands
in it twice, so closing one takes its own entry out and no other (`entries_close`).
-/

namespace Handles

/-- The last handle given out stands first. -/
structure Table (handle object : Type) where
  entries : List (handle × object)
  nodup : (entries.map Prod.fst).Nodup

namespace Table

variable {handle object : Type} [DecidableEq handle]

/-- No object is known by the handle. -/
def Fresh (t : Table handle object) (h : handle) : Prop := h ∉ t.entries.map Prod.fst

instance (t : Table handle object) (h : handle) : Decidable (t.Fresh h) :=
  inferInstanceAs (Decidable (h ∉ t.entries.map Prod.fst))

/-- Nothing is given out under a handle in use. -/
def insert (t : Table handle object) (h : handle) (o : object) : Option (Table handle object) :=
  if hFresh : t.Fresh h then some ⟨(h, o) :: t.entries, List.nodup_cons.mpr ⟨hFresh, t.nodup⟩⟩
  else none

/-- The handle is forgotten. -/
def close (t : Table handle object) (h : handle) : Table handle object where
  entries := t.entries.filter fun e => e.1 ≠ h
  nodup := t.nodup.sublist (List.filter_sublist.map Prod.fst)

variable {t t' : Table handle object} {h : handle} {o : object}

theorem entries_insert (hInsert : t.insert h o = some t') : t'.entries = (h, o) :: t.entries := by
  unfold insert at hInsert
  split at hInsert
  · cases hInsert
    rfl
  · cases hInsert

theorem entries_close {xs ys : List (handle × object)} (hEntries : t.entries = xs ++ (h, o) :: ys) :
    (t.close h).entries = xs ++ ys := by
  have hNodup := t.nodup
  rw [hEntries, List.map_append, List.map_cons, List.nodup_middle] at hNodup
  obtain ⟨hOther, -⟩ := List.nodup_cons.mp hNodup
  have hKept : ∀ zs : List (handle × object), (∀ e ∈ zs, e ∈ xs ++ ys) →
      zs.filter (fun e => e.1 ≠ h) = zs := by
    intro zs hSub
    apply List.filter_eq_self.mpr
    intro e he
    have hNe : e.1 ≠ h := by
      intro hSame
      apply hOther
      rw [← List.map_append]
      exact List.mem_map.mpr ⟨e, hSub e he, hSame⟩
    exact decide_eq_true hNe
  have hClose : (t.close h).entries = t.entries.filter fun e => e.1 ≠ h := rfl
  rw [hClose, hEntries, List.filter_append, List.filter_cons_of_neg (by simp),
    hKept xs fun e he => List.mem_append_left ys he, hKept ys fun e he => List.mem_append_right xs he]

end Table

end Handles
