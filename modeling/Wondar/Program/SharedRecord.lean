import Wondar.Program.ExceptionHandler
import Wondar.Runs

/-!
# Several faulting threads

There is one `exceptionInfo` for all threads. `System` runs the phases of any threads in any order
over it. `own` is the record that each thread would have if it did not share it: what its fault
saved, with what phases two and three made of it.

The threads keep to their own contexts (`OwnContext`) while a fault finds no record in use, or
finds one that is not decided yet and terminates the process, and while only the thread of phase
four traps. A fault behind another thread's decision overwrites its record, and a stray trap
resumes with whatever the record holds. `own_context_iff` says that nothing else goes wrong.
-/

namespace Wondar.Handler

variable {τ : Type} [DecidableEq τ]

/-! ## The system -/

/-- Where a thread is. A thread behind the kernel's delivery or behind phase four holds registers
that matter. -/
inductive Phase
  | running
  | saving (x : Thread)
  | deciding
  | restoring
  | trapping (x : Thread)

/-- A thread that a trap resumed, its registers, and its own record at the time. -/
structure Resume (τ : Type) where
  thread : τ
  registers : Thread
  own : Option ExceptionInfo

structure System (τ : Type) where
  exceptionInfo : ExceptionInfo
  phase : τ → Phase
  own : τ → Option ExceptionInfo
  resumes : List (Resume τ)
  terminated : Bool

/-- A step of a thread. `phaseThree` may find any handlers. -/
inductive Action (τ : Type)
  | fault (t : τ) (registers : Thread) (exceptionType : ExceptionType) (syndrome : Syndrome)
      (isFault : ¬ IsTrap exceptionType syndrome.esr)
  | phaseTwo (t : τ)
  | phaseThree (t : τ) (h : Handlers)
  | phaseFour (t : τ) (scratch : Thread)
  | trap (t : τ) (syndrome : Syndrome) (isTrap : IsTrap .invalidSystemCall syndrome.esr)
  | strayTrap (t : τ) (registers : Thread) (syndrome : Syndrome)
      (isTrap : IsTrap .invalidSystemCall syndrome.esr)

namespace System

def initial (e : ExceptionInfo) : System τ where
  exceptionInfo := e
  phase _ := .running
  own _ := none
  resumes := []
  terminated := false

/-- A phase that works on the record. -/
def edit (s : System τ) (t : τ) (f : ExceptionInfo → ExceptionInfo) (phase : Phase) : System τ :=
  { s with
    exceptionInfo := f s.exceptionInfo
    own := Function.update s.own t ((s.own t).map f)
    phase := Function.update s.phase t phase }

/-- The delivery of a fault. -/
def fault (layout : Layout) (s : System τ) (t : τ) (registers : Thread)
    (exceptionType : ExceptionType) (syndrome : Syndrome) : System τ :=
  let one := phaseOneHandler layout exceptionType (registers.deliver syndrome) s.exceptionInfo
  if one.result ≠ 0#32 then { s with terminated := true }
  else
    { s with
      exceptionInfo := one.exceptionInfo
      own := Function.update s.own t (some one.exceptionInfo)
      phase := Function.update s.phase t (.saving (registers.resume one.info)) }

/-- The delivery of a trap. -/
def trap (layout : Layout) (s : System τ) (t : τ) (registers : Thread) (syndrome : Syndrome) :
    System τ :=
  let one := phaseOneHandler layout .invalidSystemCall (registers.deliver syndrome) s.exceptionInfo
  if one.result ≠ 0#32 then { s with terminated := true }
  else
    { s with
      exceptionInfo := one.exceptionInfo
      own := Function.update s.own t none
      phase := Function.update s.phase t .running
      resumes := s.resumes ++ [⟨t, registers.resume one.info, s.own t⟩] }

/-- A thread faults in its own code or in that of a handler. -/
def step (layout : Layout) (a : Action τ) (s : System τ) : Option (System τ) :=
  if s.terminated then none
  else
    match a with
    | .fault t registers exceptionType syndrome _ =>
      match s.phase t with
      | .running => some (s.fault layout t registers exceptionType syndrome)
      | .deciding => some (s.fault layout t registers exceptionType syndrome)
      | _ => none
    | .phaseTwo t =>
      match s.phase t with
      | .saving x => some (s.edit t (phaseTwoHandler x.x) .deciding)
      | _ => none
    | .phaseThree t h =>
      match s.phase t with
      | .deciding => some (s.edit t (phaseThreeHandler h) .restoring)
      | _ => none
    | .phaseFour t scratch =>
      match s.phase t with
      | .restoring =>
        some { s with
          phase := Function.update s.phase t
            (.trapping { scratch with x := phaseFourHandler s.exceptionInfo scratch.x }) }
      | _ => none
    | .trap t syndrome _ =>
      match s.phase t with
      | .trapping x => some (s.trap layout t x syndrome)
      | _ => none
    | .strayTrap t registers syndrome _ =>
      match s.phase t with
      | .running => some (s.trap layout t registers syndrome)
      | _ => none

end System

/-! ## The own context -/

/-- A thread is resumed with the registers of its own record, once that is decided. -/
def Resume.Own (r : Resume τ) : Prop :=
  ∃ e, r.own = some e ∧ e.exceptionState = .continue ∧ r.registers.Same e.thread

/-- No record in use has been overwritten, and every thread that was resumed has its own
context. -/
structure OwnContext (s : System τ) : Prop where
  intact : s.terminated = false → ∀ t e, s.own t = some e → s.exceptionInfo = e
  resumes : ∀ r ∈ s.resumes, r.Own

/-- A fault finds no record in use, or one that is not decided; a trap of a thread that is in no
phase finds the decision to terminate. -/
def Orderly (s : System τ) : Action τ → Prop
  | .fault .. => s.exceptionInfo.exceptionState = .secondChance ∨ ∀ t, s.own t = none
  | .strayTrap .. => s.exceptionInfo.exceptionState = .exit
  | _ => True

/-- The phases agree with the record. -/
def Phase.Agrees (e : ExceptionInfo) : Phase → Prop
  | .running => True
  | .saving _ => e.exceptionState = .secondChance
  | .deciding => e.exceptionState = .secondChance
  | .restoring => e.exceptionState = .continue ∨ e.exceptionState = .exit
  | .trapping x =>
    (e.exceptionState = .continue ∨ e.exceptionState = .exit) ∧
      ∃ scratch : Thread, x = { scratch with x := phaseFourHandler e scratch.x }

/-- At most one thread has a record, and it is the one they share. -/
structure Inv (s : System τ) : Prop where
  none_iff : ∀ t, s.own t = none ↔ s.phase t = .running
  intact : ∀ t e, s.own t = some e → s.exceptionInfo = e
  alone : ∀ t t', s.own t ≠ none → s.own t' ≠ none → t = t'
  agrees : ∀ t, (s.phase t).Agrees s.exceptionInfo

theorem phaseThreeHandler_state (h : Handlers) (e : ExceptionInfo) :
    (phaseThreeHandler h e).exceptionState = .continue ∨
      (phaseThreeHandler h e).exceptionState = .exit := by
  unfold phaseThreeHandler
  split
  · simp only
    split <;> simp
  · simp only
    split <;> simp

section

variable {layout : Layout} {s s' : System τ} {t : τ}

/-! ## The phases keep the invariant -/

theorem Inv.edit (hInv : Inv s) {f : ExceptionInfo → ExceptionInfo} {phase : Phase}
    (hPhase : s.phase t ≠ .running) (hNext : phase ≠ .running)
    (hAgrees : phase.Agrees (f s.exceptionInfo)) : Inv (s.edit t f phase) := by
  have hOwn : s.own t ≠ none := fun h => hPhase ((hInv.none_iff t).mp h)
  have hOther : ∀ t', t' ≠ t → s.own t' = none := by
    intro t' hNe
    by_contra h
    exact hNe (hInv.alone t' t h hOwn)
  constructor
  · intro t'
    by_cases hEq : t' = t
    · subst hEq
      simp [System.edit, hOwn, hNext]
    · simp only [System.edit, Function.update_of_ne hEq]
      exact hInv.none_iff t'
  · intro t' e hSome
    by_cases hEq : t' = t
    · subst hEq
      simp only [System.edit, Function.update_self, Option.map_eq_some_iff] at hSome ⊢
      obtain ⟨e', hSome, rfl⟩ := hSome
      rw [hInv.intact t' e' hSome]
    · simp only [System.edit, Function.update_of_ne hEq] at hSome
      rw [hOther t' hEq] at hSome
      cases hSome
  · have hKept : ∀ t', (s.edit t f phase).own t' ≠ none → s.own t' ≠ none := by
      intro t' h
      by_cases hEq : t' = t
      · rwa [hEq]
      · simpa only [System.edit, Function.update_of_ne hEq] using h
    intro t₁ t₂ h₁ h₂
    exact hInv.alone t₁ t₂ (hKept t₁ h₁) (hKept t₂ h₂)
  · intro t'
    by_cases hEq : t' = t
    · subst hEq
      simpa only [System.edit, Function.update_self] using hAgrees
    · simp only [System.edit, Function.update_of_ne hEq]
      rw [(hInv.none_iff t').mp (hOther t' hEq)]
      trivial

theorem Inv.phaseFour (hInv : Inv s) (hPhase : s.phase t = .restoring) (scratch : Thread) :
    Inv { s with
      phase := Function.update s.phase t
        (.trapping { scratch with x := phaseFourHandler s.exceptionInfo scratch.x }) } := by
  have hDecided := hInv.agrees t
  rw [hPhase] at hDecided
  refine ⟨?_, hInv.intact, hInv.alone, ?_⟩
  · intro t'
    by_cases hEq : t' = t
    · subst hEq
      have hOwn : s.own t' ≠ none := fun h => by
        rw [(hInv.none_iff t').mp h] at hPhase
        cases hPhase
      simp [hOwn]
    · simp only [Function.update_of_ne hEq]
      exact hInv.none_iff t'
  · intro t'
    by_cases hEq : t' = t
    · subst hEq
      simp only [Function.update_self]
      exact ⟨hDecided, scratch, rfl⟩
    · simp only [Function.update_of_ne hEq]
      exact hInv.agrees t'

/-! ## The kernel's deliveries -/

/-- A fault terminates the process or saves its record. -/
theorem fault_eq {registers : Thread} {exceptionType : ExceptionType} {syndrome : Syndrome}
    (isFault : ¬ IsTrap exceptionType syndrome.esr) :
    s.fault layout t registers exceptionType syndrome =
      if s.exceptionInfo.exceptionState = .secondChance then { s with terminated := true }
      else
        let one := faultReturn layout exceptionType (registers.deliver syndrome) s.exceptionInfo
        { s with
          exceptionInfo := one.exceptionInfo
          own := Function.update s.own t (some one.exceptionInfo)
          phase := Function.update s.phase t (.saving (registers.resume one.info)) } := by
  have hNotTrap : ¬ (exceptionType = .invalidSystemCall ∧
      (registers.deliver syndrome).esr &&& 0xffff#32 = 0xbeef#32) := isFault
  by_cases hSecond : s.exceptionInfo.exceptionState = .secondChance
  · simp [System.fault, phaseOneHandler, hNotTrap, hSecond]
  · simp [System.fault, phaseOneHandler, hNotTrap, hSecond, faultReturn, Results.success,
      makeResult]

/-- A trap terminates the process or resumes the thread. -/
theorem trap_eq {registers : Thread} {syndrome : Syndrome}
    (isTrap : IsTrap .invalidSystemCall syndrome.esr) :
    s.trap layout t registers syndrome =
      if s.exceptionInfo.exceptionState = .exit then { s with terminated := true }
      else
        { s with
          exceptionInfo := (trapReturn s.exceptionInfo).exceptionInfo
          own := Function.update s.own t none
          phase := Function.update s.phase t .running
          resumes := s.resumes ++
            [⟨t, registers.resume (trapReturn s.exceptionInfo).info, s.own t⟩] } := by
  have hBack : phaseOneHandler layout .invalidSystemCall (registers.deliver syndrome)
      s.exceptionInfo = trapReturn s.exceptionInfo := phaseOneHandler_trap isTrap.2
  by_cases hExit : s.exceptionInfo.exceptionState = .exit
  · simp [System.trap, hBack, trapReturn, hExit]
  · simp [System.trap, hBack, trapReturn, hExit]

theorem Inv.faulted (hInv : Inv s) (hFree : ∀ t, s.own t = none) {e : ExceptionInfo}
    (hSecond : e.exceptionState = .secondChance) (x : Thread) :
    Inv { s with
      exceptionInfo := e
      own := Function.update s.own t (some e)
      phase := Function.update s.phase t (.saving x) } := by
  constructor
  · intro t'
    by_cases hEq : t' = t
    · subst hEq
      simp
    · simp only [Function.update_of_ne hEq]
      exact hInv.none_iff t'
  · intro t' e' hSome
    by_cases hEq : t' = t
    · subst hEq
      simpa using hSome
    · simp only [Function.update_of_ne hEq, hFree t'] at hSome
      cases hSome
  · have hOnly : ∀ t', Function.update s.own t (some e) t' ≠ none → t' = t := by
      intro t' h
      by_contra hEq
      rw [Function.update_of_ne hEq] at h
      exact h (hFree t')
    intro t₁ t₂ h₁ h₂
    rw [hOnly t₁ h₁, hOnly t₂ h₂]
  · intro t'
    by_cases hEq : t' = t
    · subst hEq
      simp only [Function.update_self]
      exact hSecond
    · simp only [Function.update_of_ne hEq]
      rw [(hInv.none_iff t').mp (hFree t')]
      trivial

theorem Inv.resumed (hInv : Inv s) (hOwn : s.own t ≠ none) (e : ExceptionInfo)
    (resumes : List (Resume τ)) :
    Inv { s with
      exceptionInfo := e
      own := Function.update s.own t none
      phase := Function.update s.phase t .running
      resumes := resumes } := by
  have hNone : ∀ t', Function.update s.own t none t' = none := by
    intro t'
    by_cases hEq : t' = t
    · rw [hEq, Function.update_self]
    · rw [Function.update_of_ne hEq]
      by_contra h
      exact hEq (hInv.alone t' t h hOwn)
  have hRunning : ∀ t', Function.update s.phase t .running t' = .running := by
    intro t'
    by_cases hEq : t' = t
    · rw [hEq, Function.update_self]
    · rw [Function.update_of_ne hEq]
      have hOther := hNone t'
      rw [Function.update_of_ne hEq] at hOther
      exact (hInv.none_iff t').mp hOther
  constructor
  · intro t'
    exact iff_of_true (hNone t') (hRunning t')
  · intro t' e' hSome
    simp only [hNone t'] at hSome
    cases hSome
  · intro t₁ t₂ h₁
    exact absurd (hNone t₁) h₁
  · intro t'
    simp only [hRunning t']
    trivial

/-! ## What a step does -/

/-- The phases an action starts from and the state it leads to. -/
inductive Took (layout : Layout) (s : System τ) : Action τ → System τ → Prop
  | fault {t registers exceptionType syndrome isFault}
      (hPhase : s.phase t = .running ∨ s.phase t = .deciding) :
      Took layout s (.fault t registers exceptionType syndrome isFault)
        (s.fault layout t registers exceptionType syndrome)
  | phaseTwo {t x} (hPhase : s.phase t = .saving x) :
      Took layout s (.phaseTwo t) (s.edit t (phaseTwoHandler x.x) .deciding)
  | phaseThree {t h} (hPhase : s.phase t = .deciding) :
      Took layout s (.phaseThree t h) (s.edit t (phaseThreeHandler h) .restoring)
  | phaseFour {t scratch} (hPhase : s.phase t = .restoring) :
      Took layout s (.phaseFour t scratch)
        { s with
          phase := Function.update s.phase t
            (.trapping { scratch with x := phaseFourHandler s.exceptionInfo scratch.x }) }
  | trap {t syndrome isTrap x} (hPhase : s.phase t = .trapping x) :
      Took layout s (.trap t syndrome isTrap) (s.trap layout t x syndrome)
  | strayTrap {t registers syndrome isTrap} (hPhase : s.phase t = .running) :
      Took layout s (.strayTrap t registers syndrome isTrap)
        (s.trap layout t registers syndrome)

theorem step_cases {a : Action τ} (hStep : s.step layout a = some s') :
    s.terminated = false ∧ Took layout s a s' := by
  unfold System.step at hStep
  split at hStep
  · cases hStep
  · rename_i hRun
    refine ⟨Bool.eq_false_iff.mpr hRun, ?_⟩
    cases a with
    | fault t registers exceptionType syndrome isFault =>
      simp only at hStep
      split at hStep
      · rename_i hPhase
        cases hStep
        exact .fault (Or.inl hPhase)
      · rename_i hPhase
        cases hStep
        exact .fault (Or.inr hPhase)
      · cases hStep
    | phaseTwo t =>
      simp only at hStep
      split at hStep
      · rename_i hPhase
        cases hStep
        exact .phaseTwo hPhase
      · cases hStep
    | phaseThree t h =>
      simp only at hStep
      split at hStep
      · rename_i hPhase
        cases hStep
        exact .phaseThree hPhase
      · cases hStep
    | phaseFour t scratch =>
      simp only at hStep
      split at hStep
      · rename_i hPhase
        cases hStep
        exact .phaseFour hPhase
      · cases hStep
    | trap t syndrome isTrap =>
      simp only at hStep
      split at hStep
      · rename_i hPhase
        cases hStep
        exact .trap hPhase
      · cases hStep
    | strayTrap t registers syndrome isTrap =>
      simp only at hStep
      split at hStep
      · rename_i hPhase
        cases hStep
        exact .strayTrap hPhase
      · cases hStep

/-! ## Runs -/

/-- What every orderly run keeps. -/
structure Kept (s : System τ) : Prop where
  resumes : ∀ r ∈ s.resumes, r.Own
  inv : s.terminated = false → Inv s

omit [DecidableEq τ] in
/-- The registers of a trap behind phase four are those of the record. -/
theorem own_resume {e : ExceptionInfo} {x : Thread} (hDecided : e.exceptionState = .continue)
    (hLoaded : ∃ scratch : Thread, x = { scratch with x := phaseFourHandler e scratch.x }) :
    Resume.Own ⟨t, x.resume (trapReturn e).info, some e⟩ := by
  obtain ⟨scratch, rfl⟩ := hLoaded
  exact ⟨e, rfl, hDecided, resume_same scratch e⟩

theorem Kept.fault (hKept : Kept s) (hRun : s.terminated = false) {registers : Thread}
    {exceptionType : ExceptionType} {syndrome : Syndrome}
    (isFault : ¬ IsTrap exceptionType syndrome.esr)
    (hOrderly : s.exceptionInfo.exceptionState = .secondChance ∨ ∀ t, s.own t = none) :
    Kept (s.fault layout t registers exceptionType syndrome) := by
  rw [fault_eq isFault]
  split
  · exact ⟨hKept.resumes, fun h => by cases h⟩
  · rename_i hSecond
    have hFree : ∀ t, s.own t = none := hOrderly.resolve_left hSecond
    exact ⟨hKept.resumes, fun _ => (hKept.inv hRun).faulted hFree rfl _⟩

theorem Kept.trap (hKept : Kept s) (hRun : s.terminated = false) {x : Thread}
    (hPhase : s.phase t = .trapping x) {syndrome : Syndrome}
    (isTrap : IsTrap .invalidSystemCall syndrome.esr) : Kept (s.trap layout t x syndrome) := by
  have hInv := hKept.inv hRun
  obtain ⟨hDecided, hLoaded⟩ : (s.exceptionInfo.exceptionState = .continue ∨
      s.exceptionInfo.exceptionState = .exit) ∧ ∃ scratch : Thread,
        x = { scratch with x := phaseFourHandler s.exceptionInfo scratch.x } := by
    have hAgrees := hInv.agrees t
    rwa [hPhase] at hAgrees
  rw [trap_eq isTrap]
  split
  · exact ⟨hKept.resumes, fun h => by cases h⟩
  · rename_i hExit
    have hOwn : s.own t ≠ none := fun h => by
      rw [(hInv.none_iff t).mp h] at hPhase
      cases hPhase
    obtain ⟨e, hSome⟩ := Option.ne_none_iff_exists'.mp hOwn
    have hRecord := hInv.intact t e hSome
    refine ⟨fun r hr => ?_, fun _ => hInv.resumed hOwn _ _⟩
    rcases List.mem_append.mp hr with hr | hr
    · exact hKept.resumes r hr
    · rw [List.mem_singleton.mp hr, hSome, ← hRecord]
      exact own_resume (hDecided.resolve_right hExit) hLoaded

theorem Kept.step (a : Action τ) (hKept : Kept s) (hOrderly : Orderly s a)
    (hStep : s.step layout a = some s') : Kept s' := by
  obtain ⟨hRun, hTook⟩ := step_cases hStep
  have hInv := hKept.inv hRun
  cases hTook with
  | @fault _ _ _ _ isFault _ => exact hKept.fault hRun isFault hOrderly
  | @phaseTwo t _ hPhase =>
    have hAgrees := hInv.agrees t
    rw [hPhase] at hAgrees
    exact ⟨hKept.resumes, fun _ => hInv.edit (by simp [hPhase]) (by simp) hAgrees⟩
  | @phaseThree _ h hPhase =>
    exact ⟨hKept.resumes, fun _ => hInv.edit (by simp [hPhase]) (by simp)
      (phaseThreeHandler_state h s.exceptionInfo)⟩
  | @phaseFour _ scratch hPhase =>
    exact ⟨hKept.resumes, fun _ => hInv.phaseFour hPhase scratch⟩
  | @trap _ _ isTrap _ hPhase => exact hKept.trap hRun hPhase isTrap
  | @strayTrap _ _ _ isTrap _ =>
    have hExit : s.exceptionInfo.exceptionState = .exit := hOrderly
    rw [trap_eq isTrap, if_pos hExit]
    exact ⟨hKept.resumes, fun h => by cases h⟩

/-- A fault that finds a decided record of another thread overwrites it. -/
theorem Inv.overwrites (hInv : Inv s) (hRun : s.terminated = false) (hPhase : s.phase t = .running)
    {registers : Thread} {exceptionType : ExceptionType} {syndrome : Syndrome}
    (isFault : ¬ IsTrap exceptionType syndrome.esr)
    (hSecond : s.exceptionInfo.exceptionState ≠ .secondChance) (hUsed : ¬ ∀ t, s.own t = none) :
    ¬ OwnContext (s.fault layout t registers exceptionType syndrome) := by
  obtain ⟨t', hOwn⟩ := not_forall.mp hUsed
  obtain ⟨e, hSome⟩ := Option.ne_none_iff_exists'.mp hOwn
  have hRecord := hInv.intact t' e hSome
  have hNe : t' ≠ t := by
    rintro rfl
    exact hOwn ((hInv.none_iff t').mpr hPhase)
  intro hQ
  rw [fault_eq isFault, if_neg hSecond] at hQ
  have hSame := hQ.intact hRun t' e (by simp only [Function.update_of_ne hNe, hSome])
  rw [hRecord, ← hSame] at hSecond
  exact hSecond rfl

/-- A trap of a thread in no phase resumes it with a record that is not its own. -/
theorem Inv.strays (hInv : Inv s) (hPhase : s.phase t = .running) {registers : Thread}
    {syndrome : Syndrome} (isTrap : IsTrap .invalidSystemCall syndrome.esr)
    (hExit : s.exceptionInfo.exceptionState ≠ .exit) :
    ¬ OwnContext (s.trap layout t registers syndrome) := by
  intro hQ
  rw [trap_eq isTrap, if_neg hExit] at hQ
  obtain ⟨e, hSome, -, -⟩ := hQ.resumes _ (List.mem_append_right _ List.mem_cons_self)
  simp only [(hInv.none_iff t).mpr hPhase] at hSome
  cases hSome

/-- A step that is not orderly overwrites a record in use, or resumes a thread that has none. -/
theorem own_context_breaks (a : Action τ) (hKept : Kept s) (hOrderly : ¬ Orderly s a)
    (hStep : s.step layout a = some s') : ¬ OwnContext s' := by
  obtain ⟨hRun, hTook⟩ := step_cases hStep
  have hInv := hKept.inv hRun
  cases hTook with
  | @fault t _ _ _ isFault hPhase =>
    obtain ⟨hSecond, hUsed⟩ := not_or.mp hOrderly
    rcases hPhase with hPhase | hPhase
    · exact hInv.overwrites hRun hPhase isFault hSecond hUsed
    · -- a thread between phases two and three has a record that is not decided
      have hAgrees := hInv.agrees t
      rw [hPhase] at hAgrees
      exact absurd hAgrees hSecond
  | phaseTwo => exact absurd trivial hOrderly
  | phaseThree => exact absurd trivial hOrderly
  | phaseFour => exact absurd trivial hOrderly
  | trap => exact absurd trivial hOrderly
  | @strayTrap _ _ _ isTrap hPhase => exact hInv.strays hPhase isTrap hOrderly

omit [DecidableEq τ] in
theorem Kept.ownContext (hKept : Kept s) : OwnContext s where
  intact hRun := (hKept.inv hRun).intact
  resumes := hKept.resumes

omit [DecidableEq τ] in
theorem kept_initial (e : ExceptionInfo) : Kept (System.initial e : System τ) where
  resumes r hr := (List.not_mem_nil hr).elim
  inv _ :=
    { none_iff := fun _ => iff_of_true rfl rfl
      intact := fun _ _ h => by cases h
      alone := fun _ _ h => absurd rfl h
      agrees := fun _ => trivial }

variable (layout) in
/-- For any threads and any order of their steps: no record in use is overwritten and every
thread that is resumed has its own context, if and only if no fault finds a decided record in use
and no stray trap finds a decision to continue. -/
theorem own_context_iff (e : ExceptionInfo) (actions : List (Action τ))
    (hRun : Runs.run (System.step layout) actions (.initial e) = some s') :
    Runs.Throughout (System.step layout) OwnContext actions (.initial e) ↔
      Runs.Along (System.step layout) Orderly actions (.initial e) :=
  Runs.throughout_iff_along (I := Kept) (fun _ hKept => hKept.ownContext)
    (fun _ a _ hKept hOrderly hStep => hKept.step a hOrderly hStep)
    (fun _ a _ hKept hOrderly hStep => own_context_breaks a hKept hOrderly hStep)
    (kept_initial e) hRun

end

/-! ## Two threads -/

def sampleLayout : Layout := ⟨0x10#64, 0x20#64, 0x30#64⟩

/-- The fault of a thread at an undefined instruction. -/
def sampleFault (t : Nat) : Action Nat :=
  .fault t sampleThread .undefinedInstruction ⟨0#32, 0#32, 0x2000000#32, 0#64⟩ (by decide)

def sampleTrap (t : Nat) : Action Nat :=
  .trap t ⟨0#32, 0#32, 0x5600beef#32, 0#64⟩ (by decide)

/-- A handler that goes on is installed. -/
def sampleHandlers : Handlers := ⟨some skipInstruction, []⟩

theorem own_context_iff_sample :
    ∃ s', Runs.run (System.step sampleLayout)
        [sampleFault 0, .phaseTwo 0, .phaseThree 0 sampleHandlers, .phaseFour 0 sampleThread,
          sampleTrap 0, sampleFault 1] (.initial sampleInfo) = some s' ∧
      (Runs.Throughout (System.step sampleLayout) OwnContext
          [sampleFault 0, .phaseTwo 0, .phaseThree 0 sampleHandlers, .phaseFour 0 sampleThread,
            sampleTrap 0, sampleFault 1] (.initial sampleInfo) ↔
        Runs.Along (System.step sampleLayout) Orderly
          [sampleFault 0, .phaseTwo 0, .phaseThree 0 sampleHandlers, .phaseFour 0 sampleThread,
            sampleTrap 0, sampleFault 1] (.initial sampleInfo)) :=
  ⟨_, rfl, own_context_iff sampleLayout sampleInfo _ rfl⟩

/-- The second thread faults behind the decision about the first one, whose record it
overwrites. -/
theorem decided_overwritten :
    ∃ s', Runs.run (System.step sampleLayout)
        [sampleFault 0, .phaseTwo 0, .phaseThree 0 sampleHandlers, sampleFault 1]
        (.initial sampleInfo) = some s' ∧
      ¬ Runs.Throughout (System.step sampleLayout) OwnContext
        [sampleFault 0, .phaseTwo 0, .phaseThree 0 sampleHandlers, sampleFault 1]
        (.initial sampleInfo) := by
  refine ⟨_, rfl, fun hAll => ?_⟩
  have hRecord := (hAll.final rfl).intact rfl 0 _ rfl
  have hState := congrArg ExceptionInfo.exceptionState hRecord
  cases hState

end Wondar.Handler
