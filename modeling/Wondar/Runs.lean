import Mathlib.Logic.Function.Basic

/-!
# Runs of a partial step function

A program is a step function that an operation may leave undefined. `run` performs a list
of operations; `Throughout Q` says that every state on the way satisfies `Q`, the last one
included, and `Along P` that every operation meets the condition `P` in the state it is
performed in.

`throughout_of_along` is the invariant rule: an invariant that implies `Q` and that every
operation meeting `P` preserves. `along_of_throughout` is its converse, for a `Q` that an
operation not meeting `P` breaks at once; together they give `throughout_iff_along`, the
exact condition under which a program keeps `Q`.

`recorded` is the program with the list of operations that it has performed, for what is said of a
state and of the operations that led to it.
-/

namespace Runs

section

variable {σ op : Type} (step : op → σ → Option σ)

/-- The state behind the operations, unless one of them stops the run. -/
def run : List op → σ → Option σ
  | [], s => some s
  | o :: os, s => (step o s).bind (run os)

/-- Every state of the run, up to the one in which it stops, has the property. -/
def Throughout (Q : σ → Prop) : List op → σ → Prop
  | [], s => Q s
  | o :: os, s => Q s ∧ ∀ s', step o s = some s' → Throughout Q os s'

/-- Every operation of the run meets the condition in the state that it finds. -/
def Along (P : σ → op → Prop) : List op → σ → Prop
  | [], _ => True
  | o :: os, s => P s o ∧ ∀ s', step o s = some s' → Along P os s'

variable {step} {Q I : σ → Prop} {P : σ → op → Prop}

theorem run_cons {o : op} {os : List op} {s s'' : σ} :
    run step (o :: os) s = some s'' ↔ ∃ s', step o s = some s' ∧ run step os s' = some s'' := by
  rw [run, Option.bind_eq_some_iff]

theorem run_append (os os' : List op) (s : σ) :
    run step (os ++ os') s = (run step os s).bind (run step os') := by
  induction os generalizing s with
  | nil => rfl
  | cons o os ih =>
    rw [List.cons_append, run, run, Option.bind_assoc]
    exact congrArg _ (funext ih)

/-- A program whose operations are all defined runs to the end. -/
theorem run_total (f : op → σ → σ) (os : List op) (s : σ) :
    run (fun o s => some (f o s)) os s = some (os.foldl (fun s o => f o s) s) := by
  induction os generalizing s with
  | nil => rfl
  | cons o os ih => rw [run, Option.bind_some, ih, List.foldl_cons]

theorem Throughout.head {os : List op} {s : σ} (h : Throughout step Q os s) : Q s := by
  cases os with
  | nil => exact h
  | cons o os => exact h.1

theorem Throughout.final {os : List op} {s s' : σ} (h : Throughout step Q os s)
    (hRun : run step os s = some s') : Q s' := by
  induction os generalizing s with
  | nil =>
    cases hRun
    exact h
  | cons o os ih =>
    obtain ⟨t, hStep, hRest⟩ := run_cons.mp hRun
    exact ih (h.2 t hStep) hRest

theorem throughout_of_along (hQ : ∀ s, I s → Q s)
    (hStep : ∀ s o s', I s → P s o → step o s = some s' → I s') {os : List op} {s : σ}
    (hI : I s) (hAlong : Along step P os s) : Throughout step Q os s := by
  induction os generalizing s with
  | nil => exact hQ s hI
  | cons o os ih =>
    exact ⟨hQ s hI, fun t ht => ih (hStep s o t hI hAlong.1 ht) (hAlong.2 t ht)⟩

theorem along_of_forall (hP : ∀ s o, P s o) (os : List op) (s : σ) : Along step P os s := by
  induction os generalizing s with
  | nil => trivial
  | cons o os ih => exact ⟨hP s o, fun s' _ => ih s'⟩

/-- A program that is defined wherever its invariant and the condition hold runs to the end. -/
theorem exists_run_of_along (hStep : ∀ s o, I s → P s o → ∃ s', step o s = some s' ∧ I s')
    {os : List op} {s : σ} (hI : I s) (hAlong : Along step P os s) : ∃ s', run step os s = some s' := by
  induction os generalizing s with
  | nil => exact ⟨s, rfl⟩
  | cons o os ih =>
    obtain ⟨t, hT, hNext⟩ := hStep s o hI hAlong.1
    obtain ⟨s', hRest⟩ := ih hNext (hAlong.2 t hT)
    exact ⟨s', run_cons.mpr ⟨t, hT, hRest⟩⟩

/-- Conditions that agree in every state with an invariant. -/
theorem along_congr {P' : σ → op → Prop} (hStep : ∀ s o s', I s → step o s = some s' → I s')
    (hIff : ∀ s o, I s → (P s o ↔ P' s o)) {os : List op} {s : σ} (hI : I s) :
    Along step P os s ↔ Along step P' os s := by
  induction os generalizing s with
  | nil => exact Iff.rfl
  | cons o os ih =>
    constructor
    · rintro ⟨hHead, hRest⟩
      exact ⟨(hIff s o hI).mp hHead, fun t ht => (ih (hStep s o t hI ht)).mp (hRest t ht)⟩
    · rintro ⟨hHead, hRest⟩
      exact ⟨(hIff s o hI).mpr hHead, fun t ht => (ih (hStep s o t hI ht)).mpr (hRest t ht)⟩

theorem along_of_throughout (hStep : ∀ s o s', I s → P s o → step o s = some s' → I s')
    (hBreak : ∀ s o s', I s → ¬ P s o → step o s = some s' → ¬ Q s') {os : List op} {s s' : σ}
    (hI : I s) (hRun : run step os s = some s') (hAll : Throughout step Q os s) :
    Along step P os s := by
  induction os generalizing s with
  | nil => trivial
  | cons o os ih =>
    obtain ⟨t, hT, hRest⟩ := run_cons.mp hRun
    have hP : P s o := by
      by_contra hP
      exact hBreak s o t hI hP hT (hAll.2 t hT).head
    refine ⟨hP, fun t' ht' => ?_⟩
    rw [hT] at ht'
    cases ht'
    exact ih (hStep s o t hI hP hT) hRest (hAll.2 t hT)

/-- The exact condition under which every state of a run satisfies `Q`. -/
theorem throughout_iff_along (hQ : ∀ s, I s → Q s)
    (hStep : ∀ s o s', I s → P s o → step o s = some s' → I s')
    (hBreak : ∀ s o s', I s → ¬ P s o → step o s = some s' → ¬ Q s') {os : List op} {s s' : σ}
    (hI : I s) (hRun : run step os s = some s') :
    Throughout step Q os s ↔ Along step P os s :=
  ⟨along_of_throughout hStep hBreak hI hRun, throughout_of_along hQ hStep hI⟩

/-! ## What was performed -/

variable (step) in
/-- A step that also adds the operation to the list of those performed. -/
def recorded (o : op) (s : σ × List op) : Option (σ × List op) :=
  (step o s.1).map fun s' => (s', s.2 ++ [o])

theorem recorded_some {o : op} {s s' : σ × List op} (h : recorded step o s = some s') :
    step o s.1 = some s'.1 ∧ s'.2 = s.2 ++ [o] := by
  obtain ⟨t, hStep, rfl⟩ := Option.map_eq_some_iff.mp h
  exact ⟨hStep, rfl⟩

end

end Runs
