import Wondar.Edges
import Wondar.ImguiBackend.HidMappings

/-!
# Input

In each frame `newFrame` samples the pad, the keyboard and the mouse, and reports what has changed to
the overlay. The hooks on `GetNpadStates` take the pad away from the game while the overlay has it,
which `toggleInput` says; the overlay reads through the same hooks, with `isReadInput` set.

* `input_mirrored`: the overlay hears of each key and of each mouse button exactly when it changes,
  and of the pad never, since the end of `updatePadState` clears `toggleInput`.
* `getNpadStates_game`: for the same reason the game has the pad at every moment, except between two
  stores of the first update.
-/

namespace Wondar.ImguiBackend

open Edges

/-! ## The states of the devices -/

/-- The position of a stick. -/
structure AnalogStickState where
  x : BitVec 32
  y : BitVec 32
deriving DecidableEq, Repr

/-- What a pad is read as. The states of the five styles all have this form. -/
structure NpadBaseState where
  samplingNumber : BitVec 64
  buttons : NpadButton → Bool
  analogStickL : AnalogStickState
  analogStickR : AnalogStickState
  attributes : BitVec 32

/-- The keys that are down. The modifiers and the sampling number are not read. -/
structure KeyboardState where
  keys : KeyboardKey → Bool

/-- The position of the mouse, how far its wheel has turned and the buttons that are down. -/
structure MouseState where
  x : BitVec 32
  y : BitVec 32
  wheelDeltaX : BitVec 32
  wheelDeltaY : BitVec 32
  buttons : MouseButton → Bool

/-- The styles that have a hook on their `GetNpadStates`. -/
inductive NpadStyle
  | fullKey | handheld | joyDual | joyLeft | joyRight
deriving DecidableEq, Repr

/-- What the devices say at some moment. -/
structure Readings where
  styleSet : BitVec 64 → NpadStyle → Bool
  npad : BitVec 64 → NpadStyle → NpadBaseState
  keyboard : KeyboardState
  mouse : MouseState

/-- The sticks of a pad that is left alone. -/
def noSticks : AnalogStickState := ⟨0#32, 0#32⟩

/-! ## `InputHelper` -/

/-- The static fields of the class: each device as it was in the last two frames, and the two
flags that the hooks read. -/
structure InputHelper where
  prevControllerState : NpadBaseState
  curControllerState : NpadBaseState
  prevKeyboardState : KeyboardState
  curKeyboardState : KeyboardState
  prevMouseState : MouseState
  curMouseState : MouseState
  selectedPort : BitVec 64
  isReadInput : Bool
  toggleInput : Bool

namespace InputHelper

/-- At the start, but for the port, which is the one of `setPort(0)`. -/
def initial : InputHelper where
  prevControllerState := ⟨0#64, fun _ => false, noSticks, noSticks, 0#32⟩
  curControllerState := ⟨0#64, fun _ => false, noSticks, noSticks, 0#32⟩
  prevKeyboardState := ⟨fun _ => false⟩
  curKeyboardState := ⟨fun _ => false⟩
  prevMouseState := ⟨0#32, 0#32, 0#32, 0#32, fun _ => false⟩
  curMouseState := ⟨0#32, 0#32, 0#32, 0#32, fun _ => false⟩
  selectedPort := 0#64
  isReadInput := true
  toggleInput := true

variable (h : InputHelper)

/-- Whether it is the overlay that reads the pad. -/
def isReadInputs : Bool := h.isReadInput

/-- Whether the pad belongs to the overlay. -/
def isInputToggled : Bool := h.toggleInput

/-- The button is down, and in the frame before it was not. -/
def isButtonPress : NpadButton → Bool :=
  press h.prevControllerState.buttons h.curControllerState.buttons

/-- The button was down in the frame before, and is not any more. -/
def isButtonRelease : NpadButton → Bool :=
  release h.prevControllerState.buttons h.curControllerState.buttons

/-- As `isButtonPress`, of the keyboard. -/
def isKeyPress : KeyboardKey → Bool := press h.prevKeyboardState.keys h.curKeyboardState.keys

/-- As `isButtonRelease`, of the keyboard. -/
def isKeyRelease : KeyboardKey → Bool := release h.prevKeyboardState.keys h.curKeyboardState.keys

/-- As `isButtonPress`, of the mouse. -/
def isMousePress : MouseButton → Bool := press h.prevMouseState.buttons h.curMouseState.buttons

/-- As `isButtonRelease`, of the mouse. -/
def isMouseRelease : MouseButton → Bool :=
  release h.prevMouseState.buttons h.curMouseState.buttons

end InputHelper

/-! ## The hooks -/

/-- A pad that belongs to the overlay looks untouched to everyone else. Its sampling number and
its attributes are kept. -/
def disableButtons (h : InputHelper) (state : NpadBaseState) : NpadBaseState :=
  if !h.isReadInputs && h.isInputToggled then
    { state with
      buttons := fun _ => false
      analogStickL := noSticks
      analogStickR := noSticks }
  else state

/-- The callback of a hook. Of the states that the original has stored it sees the first one. -/
def disableState (h : InputHelper) : List NpadBaseState → List NpadBaseState
  | [] => []
  | state :: states => disableButtons h state :: states

/-- The callbacks of the five hooks, which differ in the type of the state alone. -/
def disableFullKeyState : InputHelper → List NpadBaseState → List NpadBaseState := disableState
def disableHandheldState : InputHelper → List NpadBaseState → List NpadBaseState := disableState
def disableJoyDualState : InputHelper → List NpadBaseState → List NpadBaseState := disableState
def disableJoyLeftState : InputHelper → List NpadBaseState → List NpadBaseState := disableState
def disableJoyRightState : InputHelper → List NpadBaseState → List NpadBaseState := disableState

/-- `GetNpadStates`, with the hooks installed. -/
def getNpadStates (h : InputHelper) : NpadStyle → List NpadBaseState → List NpadBaseState
  | .fullKey => disableFullKeyState h
  | .handheld => disableHandheldState h
  | .joyDual => disableJoyDualState h
  | .joyLeft => disableJoyLeftState h
  | .joyRight => disableJoyRightState h

/-- `GetNpadState` is `GetNpadStates` of one state. -/
def getNpadState (h : InputHelper) (style : NpadStyle) (state : NpadBaseState) : NpadBaseState :=
  (getNpadStates h style [state]).headD state

/-! ## The update -/

/-- The first style of those that `tryGetContState` knows. -/
def connected (styleSet : NpadStyle → Bool) : Option NpadStyle :=
  if styleSet .fullKey then some .fullKey
  else if styleSet .handheld then some .handheld
  else if styleSet .joyDual then some .joyDual
  else if styleSet .joyLeft then some .joyLeft
  else if styleSet .joyRight then some .joyRight
  else none

/-- Samples the pad, through the hooks, with `isReadInput` set. Without a pad the state of the
last frame is kept. -/
def tryGetContState (h : InputHelper) (r : Readings) : InputHelper × Bool :=
  let h := { h with isReadInput := true }
  let (h, result) :=
    match connected (r.styleSet h.selectedPort) with
    | some style =>
      ({ h with curControllerState := getNpadState h style (r.npad h.selectedPort style) }, true)
    | none => (h, false)
  ({ h with isReadInput := false }, result)

/-- Samples the three devices. The input is never toggled again: the line that would do it is
commented out. -/
def updatePadState (h : InputHelper) (r : Readings) : InputHelper :=
  let h := { h with prevControllerState := h.curControllerState }
  let h := (tryGetContState h r).1
  let h := { h with prevKeyboardState := h.curKeyboardState }
  let h := { h with curKeyboardState := r.keyboard }
  let h := { h with prevMouseState := h.curMouseState }
  let h := { h with curMouseState := r.mouse }
  { h with toggleInput := false }

/-! ## What the overlay hears -/

/-- Single precision, as far as `updateMouse` uses it. -/
structure FloatOps (float : Type) where
  ofInt : BitVec 32 → float
  /-- The product with 1.5, in double precision. -/
  scaled : float → float
  isZero : float → Bool
  isPositive : float → Bool
  zero : float
  half : float
  minusHalf : float

/-- What the overlay is told with `AddMousePosEvent` and its siblings. -/
inductive Event (float : Type)
  | mousePos (x y : float)
  | mouseWheel (x y : float)
  | mouseButton (button : ImGuiMouseButton) (down : Bool)
  | key (key : ImGuiKey) (down : Bool)

section

variable {float : Type} (fl : FloatOps float) (h : InputHelper)

/-- The position, always; the wheel, if it has turned sideways; the buttons that have changed. -/
def updateMouse : List (Event float) :=
  let pos := Event.mousePos (fl.scaled (fl.ofInt h.curMouseState.x))
    (fl.scaled (fl.ofInt h.curMouseState.y))
  let x := fl.ofInt h.curMouseState.wheelDeltaX
  let wheel :=
    if !fl.isZero x then
      [Event.mouseWheel fl.zero (if fl.isPositive x then fl.half else fl.minusHalf)]
    else []
  let buttons := mouseMapping.filterMap fun (im, nx) =>
    if h.isMousePress nx then some (Event.mouseButton im true)
    else if h.isMouseRelease nx then some (Event.mouseButton im false)
    else none
  pos :: wheel ++ buttons

/-- The keys that have changed. -/
def updateKeyboard : List (Event float) :=
  keyMapping.filterMap fun (im, nx) =>
    if h.isKeyPress nx then some (Event.key im true)
    else if h.isKeyRelease nx then some (Event.key im false)
    else none

/-- The buttons of the pad that have changed. -/
def updateGamepad : List (Event float) :=
  npadMapping.filterMap fun (im, nx) =>
    if h.isButtonPress nx then some (Event.key im true)
    else if h.isButtonRelease nx then some (Event.key im false)
    else none

/-- The pad is only reported while the input is toggled. -/
def updateInput : List (Event float) :=
  updateKeyboard h ++ updateMouse fl h ++ if h.isInputToggled then updateGamepad h else []

/-- The state of the input, with what the overlay has heard. -/
structure Overlay (float : Type) where
  helper : InputHelper
  events : List (Event float)

/-- Before the first frame the overlay has heard nothing. -/
def Overlay.initial : Overlay float := ⟨.initial, []⟩

/-- A frame: the devices are sampled, and then the overlay hears of them. -/
def newFrame (s : Overlay float) (r : Readings) : Overlay float :=
  let h := updatePadState s.helper r
  ⟨h, s.events ++ updateInput fl h⟩

/-- The keys among the events, which those of the pad are too. -/
def keyEvents (events : List (Event float)) : List (ImGuiKey × Bool) :=
  events.filterMap fun
    | .key key down => some (key, down)
    | _ => none

/-- The buttons of the mouse among the events. -/
def buttonEvents (events : List (Event float)) : List (ImGuiMouseButton × Bool) :=
  events.filterMap fun
    | .mouseButton button down => some (button, down)
    | _ => none

end

section

variable {float : Type} {fl : FloatOps float} {h : InputHelper} {s : Overlay float}

/-! ## Frame by frame -/

theorem tryGetContState_eq (h : InputHelper) (r : Readings) :
    (tryGetContState h r).1 =
      { h with
        isReadInput := false
        curControllerState :=
          match connected (r.styleSet h.selectedPort) with
          | some style =>
            getNpadState { h with isReadInput := true } style (r.npad h.selectedPort style)
          | none => h.curControllerState } := by
  cases hStyle : connected (r.styleSet h.selectedPort) <;> simp only [tryGetContState, hStyle]

theorem updatePadState_keyboard (h : InputHelper) (r : Readings) :
    (updatePadState h r).prevKeyboardState = h.curKeyboardState ∧
      (updatePadState h r).curKeyboardState = r.keyboard := by
  rw [updatePadState, tryGetContState_eq]
  exact ⟨rfl, rfl⟩

theorem updatePadState_mouse (h : InputHelper) (r : Readings) :
    (updatePadState h r).prevMouseState = h.curMouseState ∧
      (updatePadState h r).curMouseState = r.mouse := by
  rw [updatePadState, tryGetContState_eq]
  exact ⟨rfl, rfl⟩

/-- The loop over a table. -/
theorem loop_eq {name input : Type} (event : name → Bool → Event float) (table : List (name × input))
    (prev cur : input → Bool) :
    (table.filterMap fun (im, nx) =>
      if press prev cur nx then some (event im true)
      else if release prev cur nx then some (event im false)
      else none) = (report table prev cur).map fun e => event e.1 e.2 := by
  rw [report, List.map_filterMap]
  apply List.filterMap_congr
  rintro ⟨im, nx⟩ -
  rw [reportEntry]
  dsimp only
  split_ifs <;> rfl

theorem keyEvents_append (events events' : List (Event float)) :
    keyEvents (events ++ events') = keyEvents events ++ keyEvents events' := List.filterMap_append

theorem buttonEvents_append (events events' : List (Event float)) :
    buttonEvents (events ++ events') = buttonEvents events ++ buttonEvents events' :=
  List.filterMap_append

theorem updateKeyboard_eq (h : InputHelper) : (updateKeyboard h : List (Event float)) =
    (report keyMapping h.prevKeyboardState.keys h.curKeyboardState.keys).map
      fun e => .key e.1 e.2 := loop_eq ..

theorem events_updateKeyboard (h : InputHelper) :
    keyEvents (updateKeyboard h : List (Event float)) =
      report keyMapping h.prevKeyboardState.keys h.curKeyboardState.keys ∧
    buttonEvents (updateKeyboard h : List (Event float)) = [] := by
  rw [updateKeyboard_eq, keyEvents, buttonEvents, List.filterMap_map, List.filterMap_map]
  exact ⟨List.filterMap_some, List.filterMap_eq_nil_iff.mpr fun _ _ => rfl⟩

/-- The motion of the mouse, and then its buttons. -/
theorem updateMouse_eq (fl : FloatOps float) (h : InputHelper) : ∃ motion : List (Event float),
    keyEvents motion = [] ∧ buttonEvents motion = [] ∧ updateMouse fl h = motion ++
      (report mouseMapping h.prevMouseState.buttons h.curMouseState.buttons).map
        fun e => .mouseButton e.1 e.2 := by
  refine ⟨_, ?_, ?_, congrArg (_ ++ ·) (loop_eq ..)⟩ <;> split <;> rfl

theorem events_updateMouse (fl : FloatOps float) (h : InputHelper) :
    keyEvents (updateMouse fl h) = [] ∧ buttonEvents (updateMouse fl h) =
      report mouseMapping h.prevMouseState.buttons h.curMouseState.buttons := by
  obtain ⟨motion, hNoKeys, hNoButtons, hMouse⟩ := updateMouse_eq fl h
  rw [hMouse, keyEvents_append, buttonEvents_append, hNoKeys, hNoButtons, keyEvents, buttonEvents,
    List.filterMap_map, List.filterMap_map]
  exact ⟨List.filterMap_eq_nil_iff.mpr fun _ _ => rfl, List.filterMap_some⟩

/-- An update of the input, with the pad kept from the overlay. -/
theorem events_newFrame (fl : FloatOps float) (s : Overlay float) (r : Readings) :
    keyEvents (newFrame fl s r).events =
        keyEvents s.events ++ report keyMapping s.helper.curKeyboardState.keys r.keyboard.keys ∧
      buttonEvents (newFrame fl s r).events =
        buttonEvents s.events ++
          report mouseMapping s.helper.curMouseState.buttons r.mouse.buttons := by
  have hToggle : (updatePadState s.helper r).isInputToggled = false := rfl
  obtain ⟨hPrevKeys, hCurKeys⟩ := updatePadState_keyboard s.helper r
  obtain ⟨hPrevMouse, hCurMouse⟩ := updatePadState_mouse s.helper r
  obtain ⟨hKeys, hNoButtons⟩ := @events_updateKeyboard float (updatePadState s.helper r)
  obtain ⟨hNoKeys, hButtons⟩ := events_updateMouse fl (updatePadState s.helper r)
  rw [newFrame, updateInput, hToggle, if_neg Bool.false_ne_true, List.append_nil]
  rw [keyEvents_append, keyEvents_append, hKeys, hNoKeys, List.append_nil, hPrevKeys, hCurKeys,
    buttonEvents_append, buttonEvents_append, hNoButtons, hButtons, List.nil_append, hPrevMouse,
    hCurMouse]
  exact ⟨rfl, rfl⟩

theorem events_frames (fl : FloatOps float) (s : Overlay float) (frames : List Readings) :
    keyEvents (frames.foldl (newFrame fl) s).events = keyEvents s.events ++
        reports keyMapping s.helper.curKeyboardState.keys (frames.map (·.keyboard.keys)) ∧
      buttonEvents (frames.foldl (newFrame fl) s).events = buttonEvents s.events ++
        reports mouseMapping s.helper.curMouseState.buttons (frames.map (·.mouse.buttons)) := by
  induction frames generalizing s with
  | nil => exact ⟨(List.append_nil _).symm, (List.append_nil _).symm⟩
  | cons r frames ih =>
    obtain ⟨hKeys, hButtons⟩ := events_newFrame fl s r
    have hCurKeys : (newFrame fl s r).helper.curKeyboardState = r.keyboard :=
      (updatePadState_keyboard s.helper r).2
    have hCurMouse : (newFrame fl s r).helper.curMouseState = r.mouse :=
      (updatePadState_mouse s.helper r).2
    rw [List.foldl_cons, (ih _).1, (ih _).2, hKeys, hButtons, hCurKeys, hCurMouse, List.append_assoc,
      List.append_assoc]
    exact ⟨rfl, rfl⟩

/-- For each key and each mouse button that has a name, what the overlay hears is what the device
has said frame by frame, without repetitions; of the pad it hears nothing. -/
theorem input_mirrored (fl : FloatOps float) (frames : List Readings) :
    (∀ im nx, (im, nx) ∈ keyMapping →
      false :: under im (keyEvents (frames.foldl (newFrame fl) .initial).events) =
        (frames.map (·.keyboard.keys nx)).destutter' (· ≠ ·) false) ∧
    (∀ im nx, (im, nx) ∈ mouseMapping →
      false :: under im (buttonEvents (frames.foldl (newFrame fl) .initial).events) =
        (frames.map (·.mouse.buttons nx)).destutter' (· ≠ ·) false) ∧
    ∀ im ∈ npadMapping.map Prod.fst,
      under im (keyEvents (frames.foldl (newFrame fl) .initial).events) = [] := by
  obtain ⟨hKeys, hButtons⟩ := events_frames fl .initial frames
  rw [hKeys, hButtons]
  refine ⟨fun im nx hMem => ?_, fun im nx hMem => ?_, fun im hMem => ?_⟩
  · have h := @cons_reports _ _ _ _ (fun _ => false) _ _ keyMapping_nodup hMem
      (frames.map (·.keyboard.keys))
    rw [List.map_map] at h
    exact h
  · have h := @cons_reports _ _ _ _ (fun _ => false) _ _ mouseMapping_nodup hMem
      (frames.map (·.mouse.buttons))
    rw [List.map_map] at h
    exact h
  · exact under_reports_of_not_mem (npad_not_key im hMem) _

/-! ## Between the steps of an update -/

/-- What `newFrame` does next. -/
inductive Pc
  /-- The pad is about to be sampled. -/
  | idle
  | styleSet
  /-- `GetNpadState` is about to be called for the style. -/
  | reading (style : Option NpadStyle)
  | ending
  | prevKeyboard
  | keyboard
  | prevMouse
  | mouse
  | toggling
  /-- The pad has been updated, and the overlay is about to hear of it. -/
  | reporting
deriving DecidableEq

/-- The thread that draws. -/
structure Thread (float : Type) where
  overlay : Overlay float
  pc : Pc

/-- The thread behind a store of `updatePadState`. -/
def Thread.after (t : Thread float) (h : InputHelper) (pc : Pc) : Thread float :=
  ⟨{ t.overlay with helper := h }, pc⟩

variable (fl) in
/-- A step with what the devices say at its moment. Each step but the last makes one store. -/
def next (t : Thread float) (r : Readings) : Thread float :=
  let h := t.overlay.helper
  match t.pc with
  | .idle => t.after { h with prevControllerState := h.curControllerState } .styleSet
  | .styleSet =>
    t.after { h with isReadInput := true } (.reading (connected (r.styleSet h.selectedPort)))
  | .reading (some style) =>
    t.after { h with
      curControllerState := getNpadState h style (r.npad h.selectedPort style) } .ending
  | .reading none => t.after h .ending
  | .ending => t.after { h with isReadInput := false } .prevKeyboard
  | .prevKeyboard => t.after { h with prevKeyboardState := h.curKeyboardState } .keyboard
  | .keyboard => t.after { h with curKeyboardState := r.keyboard } .prevMouse
  | .prevMouse => t.after { h with prevMouseState := h.curMouseState } .mouse
  | .mouse => t.after { h with curMouseState := r.mouse } .toggling
  | .toggling => t.after { h with toggleInput := false } .reporting
  | .reporting => ⟨{ t.overlay with events := t.overlay.events ++ updateInput fl h }, .idle⟩

/-- Ten steps are a frame, with each device as it was at its own step. -/
theorem ten_steps (s : Overlay float) (r₁ r₂ r₃ r₄ r₅ r₆ r₇ r₈ r₉ r₁₀ : Readings) :
    [r₁, r₂, r₃, r₄, r₅, r₆, r₇, r₈, r₉, r₁₀].foldl (next fl) ⟨s, .idle⟩ =
      ⟨newFrame fl s ⟨r₂.styleSet, r₃.npad, r₆.keyboard, r₈.mouse⟩, .idle⟩ := by
  simp only [List.foldl_cons, List.foldl_nil, newFrame, updatePadState, tryGetContState_eq]
  cases hStyle : connected (r₂.styleSet s.helper.selectedPort) <;>
    simp only [next, Thread.after, hStyle]

/-- How many steps of the frame have been made. -/
def Pc.index : Pc → Nat
  | .idle => 0
  | .styleSet => 1
  | .reading _ => 2
  | .ending => 3
  | .prevKeyboard => 4
  | .keyboard => 5
  | .prevMouse => 6
  | .mouse => 7
  | .toggling => 8
  | .reporting => 9

/-- What a step does to the flags: `isReadInput` holds between the second step and the fourth, and
the ninth clears `toggleInput`. -/
theorem next_flags (t : Thread float) (r : Readings) :
    (next fl t r).pc.index = (t.pc.index + 1) % 10 ∧
      (next fl t r).overlay.helper.isReadInput =
        (if t.pc.index = 1 then true else if t.pc.index = 3 then false
          else t.overlay.helper.isReadInput) ∧
      (next fl t r).overlay.helper.toggleInput =
        (if t.pc.index = 8 then false else t.overlay.helper.toggleInput) := by
  obtain ⟨s, pc⟩ := t
  cases pc with
  | reading style => cases style <;> exact ⟨rfl, rfl, rfl⟩
  | reporting => exact ⟨(Nat.mod_self 10).symm, rfl, rfl⟩
  | _ => exact ⟨rfl, rfl, rfl⟩

/-- The flags after a number of steps. -/
structure AfterSteps (n : Nat) (t : Thread float) : Prop where
  index : t.pc.index = n % 10
  toggle : t.overlay.helper.toggleInput = decide (n < 9)
  read : n < 9 → t.overlay.helper.isReadInput = decide (n < 4)

theorem AfterSteps.next {n : Nat} {t : Thread float} (h : AfterSteps n t) (r : Readings) :
    AfterSteps (n + 1) (ImguiBackend.next fl t r) := by
  obtain ⟨hIndex, hRead, hToggle⟩ := @next_flags float fl t r
  have hCount := h.index
  constructor
  · omega
  · rw [hToggle, h.toggle]
    split_ifs with hClear
    · exact (decide_eq_false (by omega)).symm
    · exact decide_eq_decide.mpr (by omega)
  · intro hn
    rw [hRead, h.read (by omega)]
    split_ifs with hBegin hEnd
    · exact (decide_eq_true (by omega)).symm
    · exact (decide_eq_false (by omega)).symm
    · exact decide_eq_decide.mpr (by omega)

theorem afterSteps (steps : List Readings) {n : Nat} {t : Thread float} (h : AfterSteps n t) :
    AfterSteps (n + steps.length) (steps.foldl (ImguiBackend.next fl) t) := by
  induction steps generalizing n t with
  | nil => exact h
  | cons r steps ih =>
    have hNext : AfterSteps (n + 1) (ImguiBackend.next fl t r) := h.next r
    have hRest := ih hNext
    rw [Nat.add_right_comm, Nat.add_assoc] at hRest
    exact hRest

/-- Wherever the thread that draws has got to, the game is given the pad as it is, except between the
store that ends its own reading, which is the fourth of all steps, and the one that clears
`toggleInput`, which is the ninth. -/
theorem getNpadStates_game (steps : List Readings) (style : NpadStyle)
    (states : List NpadBaseState) :
    getNpadStates (steps.foldl (next fl) ⟨.initial, .idle⟩).overlay.helper style states =
      if 4 ≤ steps.length ∧ steps.length < 9 then
        states.modifyHead fun state =>
          { state with
            buttons := fun _ => false
            analogStickL := noSticks
            analogStickR := noSticks }
      else states := by
  have hInitial : AfterSteps 0 (⟨.initial, .idle⟩ : Thread float) := ⟨rfl, rfl, fun _ => rfl⟩
  have h : AfterSteps (0 + steps.length) (steps.foldl (next fl) ⟨.initial, .idle⟩) :=
    afterSteps steps hInitial
  generalize steps.foldl (next fl) ⟨.initial, .idle⟩ = t at h ⊢
  rw [Nat.zero_add] at h
  have hDisabled : (!t.overlay.helper.isReadInputs && t.overlay.helper.isInputToggled) =
      decide (4 ≤ steps.length ∧ steps.length < 9) := by
    rw [InputHelper.isReadInputs, InputHelper.isInputToggled, h.toggle]
    by_cases hFirst : steps.length < 9
    · rw [h.read hFirst, decide_eq_true hFirst, Bool.and_true, ← decide_not]
      exact decide_eq_decide.mpr (by omega)
    · rw [decide_eq_false hFirst, Bool.and_false]
      exact (decide_eq_false (by omega)).symm
  have hHook : getNpadStates t.overlay.helper style states =
      disableState t.overlay.helper states := by cases style <;> rfl
  rw [hHook]
  cases states with
  | nil =>
    rw [disableState]
    split <;> rfl
  | cons state states =>
    rw [disableState, disableButtons, hDisabled]
    by_cases hWindow : 4 ≤ steps.length ∧ steps.length < 9
    · rw [if_pos (decide_eq_true hWindow), if_pos hWindow]
      rfl
    · rw [if_neg (mt of_decide_eq_true hWindow), if_neg hWindow]

end

end Wondar.ImguiBackend
