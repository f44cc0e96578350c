import Wondar.Scopes

/-!
# The calls of Dear ImGui

The calls that return something or open and close something, with what they return, and the rules
of their documentation: `Begin` and `BeginChild` are matched by `End` and `EndChild` whatever they
return, the other openings only when they return true. Drawing of text is left out.

The code opens and closes scopes in four ways. `ifOpen` closes only what returned true, which
misses the end of a window or a child that returned false (`missed`); the other three close
whatever has to be closed. `WellScoped` says that a program does nothing else with its scopes.
-/

namespace Wondar.Pe.ImGui

open Interaction Scopes

/-! ## The calls -/

/-- What is opened by a `Begin` of its own. -/
inductive Kind
  | window
  | child
  | mainMenuBar
  | menu
  | popup
  | combo
deriving DecidableEq

/-- What is pushed inside of a scope, to be popped before the scope ends. -/
inductive Mark
  | treeNode
  | id
deriving DecidableEq

/-- The keys that the memory editor asks for. -/
inductive Key
  | upArrow
  | downArrow
  | leftArrow
  | rightArrow

/-- `opening` and `closing` are `Begin` and `End`, `BeginChild` and `EndChild` and so on. `pOpen`
reads the flag that a window is shown by, which `Begin` may have cleared, and `abort` is
`EXL_ABORT`, which the windows call between the others. -/
inductive Call
  | opening (k : Kind) (label : String)
  | closing (k : Kind)
  | pOpen (name : String)
  | treeNode (label : String)
  | treePop
  | pushID (id : BitVec 64)
  | popID
  | showDemoWindow
  | checkbox (label : String)
  | button (label : String)
  | invisibleButton (label : String)
  | collapsingHeader (label : String)
  | selectable (label : String)
  | sliderInt (label : String)
  | dragInt (label : String)
  | inputText (label : String)
  | isKeyPressed (key : Key)
  | isItemActive
  | isItemHovered
  | isMouseClicked
  | mouseColumn
  | listClipper (lines : BitVec 32)
  | readU64 (addr : BitVec 64)
  | abort

/-- What `InputText` returns, the number that is in the buffer behind it, where there is one, and
where the callback saw the cursor. -/
structure Input where
  ret : Bool
  scanned : Option (BitVec 64)
  cursorPos : Int

/-- What a call returns. `showDemoWindow` gives the flag behind it, `dragInt` the number that it
writes, `mouseColumn` the column that the mouse is over, and `listClipper` the ranges that are
displayed. `abort` returns as well, the handler that `DbgGui` installs steps over its fault. -/
abbrev Ret : Call → Type
  | .inputText _ => Input
  | .dragInt _ => Option (BitVec 32)
  | .mouseColumn | .readU64 _ => BitVec 64
  | .listClipper _ => List (Nat × Nat)
  | .closing _ | .treePop | .pushID _ | .popID | .abort => Unit
  | .opening _ _ | .pOpen _ | .showDemoWindow | .treeNode _ | .checkbox _ | .button _
  | .invisibleButton _ | .collapsingHeader _ | .selectable _ | .sliderInt _ | .isKeyPressed _
  | .isItemActive | .isItemHovered | .isMouseClicked => Bool

/-- A program that draws. -/
abbrev Ui := Prog Call Ret

/-- One call, whose result the rest of the program sees. -/
abbrev call (c : Call) : Ui (Ret c) := perform c

/-- Matched by its end whatever it returns. -/
def Kind.always : Kind → Bool
  | .window | .child => true
  | .mainMenuBar | .menu | .popup | .combo => false

/-- What a call does to the scopes, given what it returned. -/
def effect : Event Ret → Effect Kind Mark
  | ⟨.opening k _, r⟩ => if k.always || r then .enter k else .skip
  | ⟨.closing k, _⟩ => .leave k
  | ⟨.treeNode _, r⟩ => if r then .push .treeNode else .skip
  | ⟨.treePop, _⟩ => .pop .treeNode
  | ⟨.pushID _, _⟩ => .push .id
  | ⟨.popID, _⟩ => .pop .id
  | _ => .skip

/-- The window that a frame is drawn in. -/
def base : Frame Kind Mark := ⟨.window, []⟩

/-- A window or the list of the log that returned false. -/
def missed : Event Ret → Bool
  | ⟨.opening .window _, r⟩ => !r
  | ⟨.opening .child id, r⟩ => id == "logthing" && !r
  | _ => false

/-- The program closes everything that it opens, but for what is missed. -/
def WellScoped {α : Type} (p : Ui α) : Prop := Always p (Scoped effect missed)

/-! ## How scopes are opened and closed -/

section

variable {σ : Type}

/-- `if (Begin…(label)) { …; End…(); }`. -/
def ifOpen (k : Kind) (label : String) (body : σ → Ui σ) (s : σ) : Ui σ := do
  let opened ← call (.opening k label)
  if opened then
    let s ← body s
    call (.closing k)
    pure s
  else pure s

/-- `Begin…(label); …; End…();`. -/
def enclosed (k : Kind) (label : String) (body : σ → Ui σ) (s : σ) : Ui σ := do
  let _ ← call (.opening k label)
  let s ← body s
  call (.closing k)
  pure s

/-- `PushID(id); …; PopID();`. -/
def withID (id : BitVec 64) (body : σ → Ui σ) (s : σ) : Ui σ := do
  call (.pushID id)
  let s ← body s
  call .popID
  pure s

/-- `PushID(id); expanded = TreeNode(label); PopID(); if (expanded) { …; TreePop(); }`. -/
def ifExpanded (id : BitVec 64) (label : String) (body : σ → Ui σ) (s : σ) : Ui σ := do
  call (.pushID id)
  let expanded ← call (.treeNode label)
  call .popID
  if expanded then
    let s ← body s
    call .treePop
    pure s
  else pure s

/-! ## Rules -/

variable {α β : Type} {k : Kind} {label : String} {body : σ → Ui σ}

theorem wellScoped_pure (a : α) : WellScoped (pure a : Ui α) := always_pure Scoped.nil a

theorem WellScoped.bind {p : Ui α} {f : α → Ui β} (h : WellScoped p)
    (hf : ∀ a, WellScoped (f a)) : WellScoped (p >>= f) := always_bind closed_scoped h hf

theorem wellScoped_foldlM {f : σ → α → Ui σ} (hf : ∀ s a, WellScoped (f s a)) (as : List α)
    (s : σ) : WellScoped (as.foldlM f s) := always_foldlM closed_scoped (fun a _ s => hf s a) s

theorem wellScoped_ite {c : Prop} [Decidable c] {p q : Ui α} (hp : WellScoped p)
    (hq : WellScoped q) : WellScoped (if c then p else q) := by
  split
  · exact hp
  · exact hq

/-- A call that opens and closes nothing. -/
theorem wellScoped_call {c : Call} {f : Ret c → Ui β} (hEffect : ∀ r, effect ⟨c, r⟩ = .skip)
    (hMissed : ∀ r, missed ⟨c, r⟩ = false) (hf : ∀ r, WellScoped (f r)) :
    WellScoped (call c >>= f) :=
  always_bind closed_scoped (always_perform fun r => scoped_skip (hEffect r) (hMissed r)) hf

theorem effect_opening_true (k : Kind) (label : String) :
    effect ⟨.opening k label, true⟩ = .enter k := by
  simp only [effect, Bool.or_true, if_true]

theorem missed_opening_true (k : Kind) (label : String) :
    missed ⟨.opening k label, true⟩ = false := by
  cases k with
  | child => exact Bool.and_false _
  | window | mainMenuBar | menu | popup | combo => rfl

theorem wellScoped_ifOpen (hMissed : missed ⟨.opening k label, false⟩ = k.always)
    (hBody : ∀ s, WellScoped (body s)) (s : σ) : WellScoped (ifOpen k label body s) := by
  apply always_perform_bind
  intro opened
  cases opened with
  | true =>
    refine always_close (c := .closing k) (hBody s) fun events r hEvents => ?_
    exact scoped_enclosed (effect_opening_true k label) rfl (missed_opening_true k label) rfl
      hEvents
  | false =>
    apply always_pure
    cases hAlways : k.always with
    | true =>
      rw [hAlways] at hMissed
      have hEnter : effect ⟨.opening k label, false⟩ = .enter k := by
        simp only [effect, hAlways, Bool.or_false, if_true]
      exact scoped_missed hEnter hMissed
    | false =>
      rw [hAlways] at hMissed
      have hSkip : effect ⟨.opening k label, false⟩ = .skip := by
        simp only [effect, hAlways, Bool.or_false, Bool.false_eq_true, if_false]
      exact scoped_skip hSkip hMissed

theorem wellScoped_enclosed (hAlways : k.always = true)
    (hMissed : ∀ r, missed ⟨.opening k label, r⟩ = false) (hBody : ∀ s, WellScoped (body s))
    (s : σ) : WellScoped (enclosed k label body s) := by
  apply always_perform_bind
  intro r
  refine always_close (c := .closing k) (hBody s) fun events r' hEvents => ?_
  refine scoped_enclosed ?_ rfl (hMissed r) rfl hEvents
  simp only [effect, hAlways, Bool.true_or, if_true]

theorem wellScoped_withID (id : BitVec 64) (hBody : ∀ s, WellScoped (body s)) (s : σ) :
    WellScoped (withID id body s) := by
  refine always_perform_bind (c := Call.pushID id) fun r => ?_
  refine always_close (c := .popID) (hBody s) fun events r' hEvents => ?_
  exact scoped_pushed rfl rfl rfl rfl hEvents

theorem wellScoped_ifExpanded (id : BitVec 64) (hBody : ∀ s, WellScoped (body s)) (s : σ) :
    WellScoped (ifExpanded id label body s) := by
  refine always_perform_bind (c := Call.pushID id) fun r => ?_
  apply always_perform_bind
  intro expanded
  refine always_perform_bind (c := Call.popID) fun r' => ?_
  cases expanded with
  | true =>
    refine always_close (c := .treePop) (hBody s) fun events r'' hEvents => ?_
    refine scoped_crossed rfl rfl rfl rfl ?_ hEvents
    simp [missed]
  | false =>
    apply always_pure
    have hNode : Scoped effect missed [⟨.treeNode label, false⟩] := scoped_skip rfl rfl
    change Scoped effect missed
      (⟨Call.pushID id, r⟩ :: ([⟨Call.treeNode label, false⟩] ++ [⟨Call.popID, r'⟩]))
    exact scoped_pushed rfl rfl rfl rfl hNode

end

end Wondar.Pe.ImGui
