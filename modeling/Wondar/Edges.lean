import Mathlib.Data.List.Destutter
import Mathlib.Data.List.Nodup

/-!
# Edges of sampled states

Inputs are sampled from time to time. A table gives names to some of them, and a change from one
sample to the next is reported under the name: as `true` where the input has gone on and as `false`
where it has gone off.

What is reported under a name is the sequence of the samples without repetitions
(`cons_reports`). In particular the reports alternate, and the last one is the state of the input.
-/

namespace Edges

variable {name input : Type}

/-- On now, and off before. -/
def press (prev cur : input → Bool) (i : input) : Bool := cur i && !prev i

/-- Off now, and on before. -/
def release (prev cur : input → Bool) (i : input) : Bool := !cur i && prev i

def reportEntry (prev cur : input → Bool) (entry : name × input) : Option (name × Bool) :=
  if press prev cur entry.2 then some (entry.1, true)
  else if release prev cur entry.2 then some (entry.1, false)
  else none

def report (table : List (name × input)) (prev cur : input → Bool) : List (name × Bool) :=
  table.filterMap (reportEntry prev cur)

/-- The reports on a sequence of samples. -/
def reports (table : List (name × input)) : (input → Bool) → List (input → Bool) →
    List (name × Bool)
  | _, [] => []
  | prev, cur :: samples => report table prev cur ++ reports table cur samples

theorem reportEntry_eq (prev cur : input → Bool) (entry : name × input) :
    reportEntry prev cur entry =
      if prev entry.2 = cur entry.2 then none else some (entry.1, cur entry.2) := by
  rw [reportEntry, press, release]
  cases prev entry.2 <;> cases cur entry.2 <;> rfl

variable [DecidableEq name]

/-- What is reported under a name. -/
def under (n : name) (reported : List (name × Bool)) : List Bool :=
  (reported.filter (·.1 = n)).map Prod.snd

variable {table : List (name × input)} {prev cur : input → Bool} {n : name} {i : input}

theorem under_append (n : name) (reported reported' : List (name × Bool)) :
    under n (reported ++ reported') = under n reported ++ under n reported' := by
  rw [under, List.filter_append, List.map_append]
  rfl

theorem under_cons_self (n : name) (b : Bool) (reported : List (name × Bool)) :
    under n ((n, b) :: reported) = b :: under n reported := by
  simp [under]

theorem under_cons_of_ne {n' : name} (h : n' ≠ n) (b : Bool) (reported : List (name × Bool)) :
    under n ((n', b) :: reported) = under n reported := by
  simp [under, h]

theorem under_report_of_not_mem (h : n ∉ table.map Prod.fst) :
    under n (report table prev cur) = [] := by
  rw [under, List.map_eq_nil_iff, List.filter_eq_nil_iff]
  intro reported hMem hName
  obtain ⟨entry, hEntry, hSome⟩ := List.mem_filterMap.mp hMem
  rw [reportEntry_eq] at hSome
  split at hSome
  · cases hSome
  · cases hSome
    exact h (List.mem_map.mpr ⟨entry, hEntry, of_decide_eq_true hName⟩)

/-- The state is reported if it has changed. -/
theorem under_report (hNodup : (table.map Prod.fst).Nodup) (hMem : (n, i) ∈ table) :
    under n (report table prev cur) = if prev i = cur i then [] else [cur i] := by
  induction table with
  | nil => cases hMem
  | cons entry table ih =>
    obtain ⟨hFirst, hRest⟩ := List.nodup_cons.mp hNodup
    have hCons : report (entry :: table) prev cur =
        if prev entry.2 = cur entry.2 then report table prev cur
        else (entry.1, cur entry.2) :: report table prev cur := by
      rw [report, List.filterMap_cons, reportEntry_eq]
      split_ifs <;> rfl
    rw [hCons]
    rcases List.mem_cons.mp hMem with rfl | hLater
    · have hNone : under n (report table prev cur) = [] := under_report_of_not_mem hFirst
      split
      · exact hNone
      · rw [under_cons_self, hNone]
    · have hOther : entry.1 ≠ n := by
        rintro rfl
        exact hFirst (List.mem_map.mpr ⟨_, hLater, rfl⟩)
      split
      · exact ih hRest hLater
      · rw [under_cons_of_ne hOther, ih hRest hLater]

/-- The reports under a name, with the state before them, are the samples without repetitions. -/
theorem cons_reports (hNodup : (table.map Prod.fst).Nodup) (hMem : (n, i) ∈ table)
    (samples : List (input → Bool)) :
    prev i :: under n (reports table prev samples) =
      (samples.map (· i)).destutter' (· ≠ ·) (prev i) := by
  induction samples generalizing prev with
  | nil => rfl
  | cons cur samples ih =>
    rw [reports, under_append, under_report hNodup hMem, List.map_cons]
    by_cases hSame : prev i = cur i
    · rw [if_pos hSame, List.nil_append, List.destutter'_cons_neg _ (not_not.mpr hSame), hSame]
      exact ih
    · rw [if_neg hSame, List.singleton_append, List.destutter'_cons_pos _ hSame, ih]

theorem under_reports_of_not_mem (h : n ∉ table.map Prod.fst) (samples : List (input → Bool)) :
    under n (reports table prev samples) = [] := by
  induction samples generalizing prev with
  | nil => rfl
  | cons cur samples ih => rw [reports, under_append, under_report_of_not_mem h, ih, List.append_nil]

end Edges
