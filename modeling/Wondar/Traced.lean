import Wondar.Runs

/-!
# Computations with their effects

A `Traced` computation has the list of its effects and, if it comes to its end, a result. What it
did before it stopped is in the list all the same.

`bind_eq_ended` takes a sequence apart that has come to its end, `mem_events_bind` says what a
sequence does whether it has or not. `performed` is a program of several operations;
`performed_invariant` is the rule for an invariant that speaks of the operations, their effects and
the state, and `performed_result` the run of the program without the effects.
-/

/-- What a computation has done, and what it returns unless it stops. -/
structure Traced (effect α : Type) where
  events : List effect
  result : Option α

namespace Traced

section

variable {effect α β : Type}

/-- The effects of the second follow those of the first, unless the first has stopped. -/
def bind (x : Traced effect α) (f : α → Traced effect β) : Traced effect β :=
  match x.result with
  | none => ⟨x.events, none⟩
  | some a => ⟨x.events ++ (f a).events, (f a).result⟩

instance : Monad (Traced effect) where
  pure a := ⟨[], some a⟩
  bind := bind

/-- One effect. -/
def emit (e : effect) : Traced effect Unit := ⟨[e], some ()⟩

/-- The computation does not go on. -/
def stop : Traced effect α := ⟨[], none⟩

variable {x : Traced effect α} {f : α → Traced effect β}

@[simp] theorem events_pure (a : α) : (pure a : Traced effect α).events = [] := rfl

@[simp] theorem result_pure (a : α) : (pure a : Traced effect α).result = some a := rfl

@[simp] theorem events_emit (e : effect) : (emit e).events = [e] := rfl

@[simp] theorem result_emit (e : effect) : (emit e).result = some () := rfl

@[simp] theorem events_stop : (stop : Traced effect α).events = [] := rfl

@[simp] theorem result_stop : (stop : Traced effect α).result = none := rfl

@[simp]
theorem result_bind : (x >>= f).result = x.result.bind fun a => (f a).result := by
  change (bind x f).result = _
  unfold bind
  cases x.result <;> rfl

theorem mem_events_bind {e : effect} : e ∈ (x >>= f).events ↔
    e ∈ x.events ∨ ∃ a, x.result = some a ∧ e ∈ (f a).events := by
  change e ∈ (bind x f).events ↔ _
  unfold bind
  cases x.result <;> simp

theorem bind_of_result {a : α} (h : x.result = some a) :
    x >>= f = ⟨x.events ++ (f a).events, (f a).result⟩ := by
  change bind x f = _
  rw [bind, h]

/-- A sequence that has come to its end. -/
theorem bind_eq_ended {es : List effect} {b : β} : x >>= f = ⟨es, some b⟩ ↔
    ∃ a es₁ es₂, x = ⟨es₁, some a⟩ ∧ f a = ⟨es₂, some b⟩ ∧ es = es₁ ++ es₂ := by
  constructor
  · intro h
    have hResult : (x >>= f).result = some b := by rw [h]
    rw [result_bind, Option.bind_eq_some_iff] at hResult
    obtain ⟨a, hx, hf⟩ := hResult
    rw [bind_of_result hx, mk.injEq] at h
    exact ⟨a, x.events, (f a).events, hx ▸ rfl, hf ▸ rfl, h.1.symm⟩
  · rintro ⟨a, es₁, es₂, rfl, hf, rfl⟩
    rw [bind_of_result rfl, hf]

theorem of_result {b : β} {y : Traced effect β} (h : y.result = some b) : y = ⟨y.events, some b⟩ := by
  rw [← h]

theorem pure_eq_ended {a b : α} {es : List effect} :
    (pure a : Traced effect α) = ⟨es, some b⟩ ↔ es = [] ∧ b = a := by
  change (⟨[], some a⟩ : Traced effect α) = _ ↔ _
  rw [mk.injEq, Option.some.injEq]
  exact and_congr eq_comm eq_comm

end

/-! ## Programs -/

section

variable {effect σ op : Type} (step : op → σ → Traced effect σ)

/-- The operations of a list, one after the other. -/
def performed : List op → σ → Traced effect σ
  | [], s => pure s
  | o :: os, s => step o s >>= performed os

variable {step} {s s' : σ} {os : List op} {es : List effect}

/-- What an operation preserves holds of the whole run. -/
theorem performed_invariant {I : List op → List effect → σ → Prop}
    (hStep : ∀ done es s o es' s', I done es s → step o s = ⟨es', some s'⟩ →
      I (done ++ [o]) (es ++ es') s')
    (hStart : I [] [] s) (hRun : performed step os s = ⟨es, some s'⟩) : I os es s' := by
  -- from any operations that were performed before
  have hFrom : ∀ os done es₀ es s, I done es₀ s → performed step os s = ⟨es, some s'⟩ →
      I (done ++ os) (es₀ ++ es) s' := by
    intro os
    induction os with
    | nil =>
      intro done es₀ es s hI hRun
      obtain ⟨rfl, rfl⟩ := pure_eq_ended.mp hRun
      rwa [List.append_nil, List.append_nil]
    | cons o os ih =>
      intro done es₀ es s hI hRun
      obtain ⟨t, es₁, es₂, hHead, hTail, rfl⟩ := bind_eq_ended.mp hRun
      have hNext := ih _ _ _ _ (hStep done es₀ s o es₁ t hI hHead) hTail
      rwa [List.append_assoc, List.append_assoc] at hNext
  exact hFrom os [] [] es s hStart hRun

/-- Without the effects. -/
theorem performed_result : (performed step os s).result =
    Runs.run (fun o s => (step o s).result) os s := by
  induction os generalizing s with
  | nil => rfl
  | cons o os ih =>
    rw [performed, result_bind, Runs.run]
    exact congrArg _ (funext fun t => ih)

/-- A run that ends, with the effects it had. -/
theorem performed_of_run (h : Runs.run (fun o s => (step o s).result) os s = some s') :
    performed step os s = ⟨(performed step os s).events, some s'⟩ :=
  of_result (performed_result.trans h)

end

end Traced
