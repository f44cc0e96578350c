import Mathlib.Data.List.Basic

/-!
# The names of keys and buttons

The three tables from the names of the console to those of the overlay. No name of the overlay is
twice in a table, and the tables of the keyboard and of the pad have none in common
(`keyMapping_nodup`, `mouseMapping_nodup`, `npad_not_key`).
-/

namespace Wondar.ImguiBackend

/-- The keys of ImGui that a table names. -/
inductive ImGuiKey
  | none | tab | leftArrow | rightArrow | upArrow | downArrow | pageUp | pageDown | home
  | endKey | insert | delete | backspace | space | enter | escape | leftCtrl | leftShift | leftAlt
  | leftSuper | rightCtrl | rightShift | rightAlt | rightSuper | menu | d0 | d1 | d2 | d3 | d4 | d5
  | d6 | d7 | d8 | d9 | a | b | c | d | e | f | g | h | i | j | k | l | m | n | o | p | q | r | s
  | t | u | v | w | x | y | z | f1 | f2 | f3 | f4 | f5 | f6 | f7 | f8 | f9 | f10 | f11 | f12
  | apostrophe | comma | minus | period | slash | semicolon | equal | leftBracket | backslash
  | rightBracket | graveAccent | capsLock | scrollLock | numLock | printScreen | pause | keypad0
  | keypad1 | keypad2 | keypad3 | keypad4 | keypad5 | keypad6 | keypad7 | keypad8 | keypad9
  | keypadDecimal | keypadDivide | keypadMultiply | keypadSubtract | keypadAdd | keypadEnter
  | keypadEqual | gamepadFaceDown | gamepadFaceRight | gamepadFaceUp | gamepadFaceLeft | gamepadL1
  | gamepadR1 | gamepadL2 | gamepadR2 | gamepadStart | gamepadBack | gamepadDpadLeft
  | gamepadDpadRight | gamepadDpadUp | gamepadDpadDown | gamepadLStickLeft | gamepadLStickRight
  | gamepadLStickUp | gamepadLStickDown
deriving DecidableEq, Repr

/-- The buttons of ImGui. -/
inductive ImGuiMouseButton
  | left | right | middle
deriving DecidableEq, Repr

/-- The keys with a name in the table, and the other ones by their codes. -/
inductive KeyboardKey
  | tab | leftArrow | rightArrow | upArrow | downArrow | pageUp | pageDown | home | endKey | insert
  | delete | backspace | space | returnKey | escape | leftControl | leftShift | leftAlt | leftGui
  | rightControl | rightShift | rightAlt | rightGui | application | d0 | d1 | d2 | d3 | d4 | d5
  | d6 | d7 | d8 | d9 | a | b | c | d | e | f | g | h | i | j | k | l | m | n | o | p | q | r | s
  | t | u | v | w | x | y | z | f1 | f2 | f3 | f4 | f5 | f6 | f7 | f8 | f9 | f10 | f11 | f12
  | quote | comma | minus | period | slash | semicolon | plus | openBracket | backslash
  | closeBracket | backquote | capsLock | scrollLock | numLock | printScreen | pause | numPad0
  | numPad1 | numPad2 | numPad3 | numPad4 | numPad5 | numPad6 | numPad7 | numPad8 | numPad9
  | numPadDot | numPadDivide | numPadMultiply | numPadSubtract | numPadAdd | numPadEnter
  | numPadEquals
  | other (code : Nat)
deriving DecidableEq, Repr

/-- The same for the buttons of a pad. -/
inductive NpadButton
  | a | b | x | y | l | r | zl | zr | plus | minus | left | right | up | down | stickLLeft
  | stickLRight | stickLUp | stickLDown
  | other (code : Nat)
deriving DecidableEq, Repr

/-- The buttons of the device, of which the table knows three. -/
inductive MouseButton
  | left | right | middle
  | other (code : Nat)
deriving DecidableEq, Repr

/-- The buttons of the pad, and the keys that they are for ImGui. -/
def npadMapping : List (ImGuiKey × NpadButton) :=
  [(.gamepadFaceDown, .a), (.gamepadFaceRight, .b), (.gamepadFaceUp, .x), (.gamepadFaceLeft, .y),
    (.gamepadL1, .l), (.gamepadR1, .r), (.gamepadL2, .zl), (.gamepadR2, .zr),
    (.gamepadStart, .plus), (.gamepadBack, .minus), (.gamepadDpadLeft, .left),
    (.gamepadDpadRight, .right), (.gamepadDpadUp, .up), (.gamepadDpadDown, .down),
    (.gamepadLStickLeft, .stickLLeft), (.gamepadLStickRight, .stickLRight),
    (.gamepadLStickUp, .stickLUp), (.gamepadLStickDown, .stickLDown)]

/-- The buttons of the mouse. -/
def mouseMapping : List (ImGuiMouseButton × MouseButton) :=
  [(.left, .left), (.right, .right), (.middle, .middle)]

/-- The keys of the keyboard, in the order of the source. -/
def keyMapping : List (ImGuiKey × KeyboardKey) :=
  [(.none, .other 0), (.tab, .tab), (.leftArrow, .leftArrow), (.rightArrow, .rightArrow),
    (.upArrow, .upArrow), (.downArrow, .downArrow), (.pageUp, .pageUp), (.pageDown, .pageDown),
    (.home, .home), (.endKey, .endKey), (.insert, .insert), (.delete, .delete),
    (.backspace, .backspace),
    (.space, .space), (.enter, .returnKey), (.escape, .escape), (.leftCtrl, .leftControl),
    (.leftShift, .leftShift), (.leftAlt, .leftAlt), (.leftSuper, .leftGui),
    (.rightCtrl, .rightControl), (.rightShift, .rightShift), (.rightAlt, .rightAlt),
    (.rightSuper, .rightGui), (.menu, .application), (.d0, .d0), (.d1, .d1), (.d2, .d2), (.d3, .d3),
    (.d4, .d4), (.d5, .d5), (.d6, .d6), (.d7, .d7), (.d8, .d8), (.d9, .d9), (.a, .a), (.b, .b),
    (.c, .c), (.d, .d), (.e, .e), (.f, .f), (.g, .g), (.h, .h), (.i, .i), (.j, .j), (.k, .k),
    (.l, .l), (.m, .m), (.n, .n), (.o, .o), (.p, .p), (.q, .q), (.r, .r), (.s, .s), (.t, .t),
    (.u, .u), (.v, .v), (.w, .w), (.x, .x), (.y, .y), (.z, .z), (.f1, .f1), (.f2, .f2), (.f3, .f3),
    (.f4, .f4), (.f5, .f5), (.f6, .f6), (.f7, .f7), (.f8, .f8), (.f9, .f9), (.f10, .f10),
    (.f11, .f11), (.f12, .f12), (.apostrophe, .quote), (.comma, .comma), (.minus, .minus),
    (.period, .period), (.slash, .slash), (.semicolon, .semicolon), (.equal, .plus),
    (.leftBracket, .openBracket), (.backslash, .backslash), (.rightBracket, .closeBracket),
    (.graveAccent, .backquote), (.capsLock, .capsLock), (.scrollLock, .scrollLock),
    (.numLock, .numLock), (.printScreen, .printScreen), (.pause, .pause), (.keypad0, .numPad0),
    (.keypad1, .numPad1), (.keypad2, .numPad2), (.keypad3, .numPad3), (.keypad4, .numPad4),
    (.keypad5, .numPad5), (.keypad6, .numPad6), (.keypad7, .numPad7), (.keypad8, .numPad8),
    (.keypad9, .numPad9), (.keypadDecimal, .numPadDot), (.keypadDivide, .numPadDivide),
    (.keypadMultiply, .numPadMultiply), (.keypadSubtract, .numPadSubtract),
    (.keypadAdd, .numPadAdd), (.keypadEnter, .numPadEnter), (.keypadEqual, .numPadEquals)]

theorem keyMapping_nodup : (keyMapping.map Prod.fst).Nodup := by decide +kernel

theorem mouseMapping_nodup : (mouseMapping.map Prod.fst).Nodup := by decide

/-- No key of the keyboard is one of the pad. -/
theorem npad_not_key : ∀ key ∈ npadMapping.map Prod.fst, key ∉ keyMapping.map Prod.fst := by
  decide +kernel

end Wondar.ImguiBackend
