import Wondar.Pe.ImGui

/-!
# The memory editor

The contents of the memory editor of `imgui_memory_editor.h`: the bytes in a child window, of which
one may be edited, the line of options below and the preview of a value. What the editor reads and
writes in memory and how it lays out its text is left out.

The editor closes everything that it opens, whatever is clicked, typed or displayed
(`wellScoped_drawContents`).
-/

namespace Wondar.Pe

open ImGui

/-- `ImGuiDataType`, as far as the editor can preview it. -/
inductive DataType
  | s8
  | u8
  | s16
  | u16
  | s32
  | u32
  | s64
  | u64
  | float
  | double
deriving DecidableEq

/-- `(size_t)-1`. -/
def nowhere : BitVec 64 := -1#64

/-- The fields of the class that decide which calls a frame makes. -/
structure MemoryEditor where
  readOnly : Bool := false
  cols : BitVec 32 := 16#32
  optShowOptions : Bool := true
  optShowDataPreview : Bool := false
  optShowHexII : Bool := false
  optShowAscii : Bool := true
  optGreyOutZeroes : Bool := true
  optUpperCaseHex : Bool := true
  contentsWidthChanged : Bool := false
  dataPreviewAddr : BitVec 64 := nowhere
  dataEditingAddr : BitVec 64 := nowhere
  dataEditingTakeFocus : Bool := false
  gotoAddr : BitVec 64 := nowhere
  highlightMin : BitVec 64 := nowhere
  highlightMax : BitVec 64 := nowhere
  previewDataType : DataType := .s32

/-- What the loop over the lines carries. -/
structure Edit where
  editor : MemoryEditor
  dataNext : Bool
  editingAddrNext : BitVec 64

namespace MemoryEditor

/-- The types of the preview with their names. -/
def dataTypes : List (DataType × String) :=
  [(.s8, "Int8"), (.u8, "Uint8"), (.s16, "Int16"), (.u16, "Uint16"), (.s32, "Int32"),
    (.u32, "Uint32"), (.s64, "Int64"), (.u64, "Uint64"), (.float, "Float"), (.double, "Double")]

/-- The next frame scrolls to the address. -/
def gotoAddrAndHighlight (m : MemoryEditor) (addrMin addrMax : BitVec 64) : MemoryEditor :=
  { m with gotoAddr := addrMin, highlightMin := addrMin, highlightMax := addrMax }

/-- The byte that is edited and previewed from now on. -/
def edit (m : MemoryEditor) (addr : BitVec 64) : MemoryEditor :=
  { m with dataEditingAddr := addr, dataPreviewAddr := addr, dataEditingTakeFocus := true }

/-! ## The bytes -/

/-- Where an arrow key moves the cursor to, if it stays inside. -/
def arrowKeys (memSize : BitVec 64) (m : MemoryEditor) : Ui (BitVec 64) := do
  if m.dataEditingAddr = nowhere then pure nowhere
  else
    let cols := m.cols.signExtend 64
    let up ← call (.isKeyPressed .upArrow)
    if up && cols.sle m.dataEditingAddr then pure (m.dataEditingAddr - cols)
    else
      let down ← call (.isKeyPressed .downArrow)
      if down && m.dataEditingAddr.slt (memSize - cols) then pure (m.dataEditingAddr + cols)
      else
        let left ← call (.isKeyPressed .leftArrow)
        if left && (0#64).slt m.dataEditingAddr then pure (m.dataEditingAddr - 1#64)
        else
          let right ← call (.isKeyPressed .rightArrow)
          if right && m.dataEditingAddr.slt (memSize - 1#64) then
            pure (m.dataEditingAddr + 1#64)
          else pure nowhere

/-- The text that was typed is taken over, or the edit ends with the focus. -/
def takeInput (input : Input) (e : Edit) : Ui Edit := do
  if input.ret then pure { e with dataNext := true }
  else if e.editor.dataEditingTakeFocus then pure e
  else
    let active ← call .isItemActive
    if active then pure e
    else pure { e with editor.dataEditingAddr := nowhere, editingAddrNext := nowhere }

/-- The cell that is edited is a text field. -/
def editByte (e : Edit) : Ui Edit := do
  let input ← call (.inputText "##data")
  let e ← takeInput input e
  let dataNext := (e.dataNext || decide (2 ≤ input.cursorPos)) && e.editingAddrNext == nowhere
  pure { e with editor.dataEditingTakeFocus := false, dataNext := dataNext }

/-- The other cells are texts, of which one that is clicked is edited next. -/
def drawByte (e : Edit) (addr : BitVec 64) : Ui Edit := do
  if e.editor.dataEditingAddr = addr then withID addr editByte e
  else if e.editor.readOnly then pure e
  else
    let hovered ← call .isItemHovered
    if hovered then
      let clicked ← call .isMouseClicked
      if clicked then
        pure { e with editor.dataEditingTakeFocus := true, editingAddrNext := addr }
      else pure e
    else pure e

/-- The characters of a line. A click edits the byte of the column. -/
def drawAscii (addr : BitVec 64) (e : Edit) : Ui Edit := do
  let clicked ← call (.invisibleButton "ascii")
  if clicked then
    let column ← call .mouseColumn
    pure { e with editor := e.editor.edit (addr + column) }
  else pure e

/-- The addresses on a line. -/
def lineAddrs (memSize addr : BitVec 64) (cols : BitVec 32) : List (BitVec 64) :=
  ((List.range cols.toInt.toNat).map fun n => addr + BitVec.ofNat 64 n).takeWhile (· < memSize)

/-- A line, each of whose cells has an identifier of its own. -/
def drawLine (memSize : BitVec 64) (e : Edit) (line : Nat) : Ui Edit := do
  let addr := (BitVec.ofNat 32 line * e.editor.cols).signExtend 64
  let e ← (lineAddrs memSize addr e.editor.cols).foldlM drawByte e
  if e.editor.optShowAscii then withID (BitVec.ofNat 64 line) (drawAscii addr) e
  else pure e

/-- The child window with the bytes. -/
def drawLines (memSize : BitVec 64) (e : Edit) : Ui Edit := do
  let m := e.editor
  let cols := m.cols.signExtend 64
  let ranges ← call (.listClipper (((memSize + cols - 1#64) / cols).setWidth 32))
  let m := if m.readOnly || memSize ≤ m.dataEditingAddr then { m with dataEditingAddr := nowhere }
    else m
  let m := if memSize ≤ m.dataPreviewAddr then { m with dataPreviewAddr := nowhere } else m
  let next ← arrowKeys memSize m
  (ranges.flatMap fun r => List.range' r.1 (r.2 - r.1)).foldlM (drawLine memSize) ⟨m, false, next⟩

/-- The byte that is edited after the child window. -/
def nextByte (memSize : BitVec 64) (e : Edit) : MemoryEditor :=
  if e.dataNext && e.editor.dataEditingAddr + 1#64 < memSize then
    e.editor.edit (e.editor.dataEditingAddr + 1#64)
  else if e.editingAddrNext = nowhere then e.editor
  else e.editor.edit e.editingAddrNext

/-! ## The lines below -/

/-- The popup with the options. -/
def drawOptions (m : MemoryEditor) : Ui MemoryEditor := do
  let cols ← call (.dragInt "##cols")
  let showDataPreview ← call (.checkbox "Show Data Preview")
  let showHexII ← call (.checkbox "Show HexII")
  let showAscii ← call (.checkbox "Show Ascii")
  let greyOutZeroes ← call (.checkbox "Grey out zeroes")
  let upperCaseHex ← call (.checkbox "Uppercase Hex")
  pure
    { m with
      cols := cols.elim m.cols fun n => if n.slt 1#32 then 1#32 else n
      contentsWidthChanged := m.contentsWidthChanged || cols.isSome || showAscii
      optShowDataPreview := m.optShowDataPreview != showDataPreview
      optShowHexII := m.optShowHexII != showHexII
      optShowAscii := m.optShowAscii != showAscii
      optGreyOutZeroes := m.optGreyOutZeroes != greyOutZeroes
      optUpperCaseHex := m.optUpperCaseHex != upperCaseHex }

/-- The address that was entered. -/
def enterAddr (base : BitVec 64) (input : Input) (m : MemoryEditor) : MemoryEditor :=
  match input.ret, input.scanned with
  | true, some addr =>
    { m with gotoAddr := addr - base, highlightMin := nowhere, highlightMax := nowhere }
  | _, _ => m

/-- The line below the contents. Going to an address opens the scrolled child again. -/
def drawOptionsLine (memSize base : BitVec 64) (m : MemoryEditor) : Ui MemoryEditor := do
  let _ ← call (.button "Options")
  let m ← ifOpen .popup "context" drawOptions m
  let input ← call (.inputText "##addr")
  let m := enterAddr base input m
  if m.gotoAddr = nowhere then pure m
  else if m.gotoAddr < memSize then
    let m ← enclosed .child "##scrolling" pure m
    pure { m.edit m.gotoAddr with gotoAddr := nowhere }
  else pure { m with gotoAddr := nowhere }

/-- One entry of the list of types. -/
def selectType (m : MemoryEditor) (dataType : DataType × String) : Ui MemoryEditor := do
  let selected ← call (.selectable dataType.2)
  if selected then pure { m with previewDataType := dataType.1 } else pure m

/-- The preview, which can follow a pointer. -/
def drawPreviewLine (base : BitVec 64) (m : MemoryEditor) : Ui MemoryEditor := do
  let m ← ifOpen .combo "##combo_type" (dataTypes.foldlM selectType) m
  if m.previewDataType = .u64 then
    let goto ← call (.button "Goto")
    if goto then
      let value ← call (.readU64 m.dataPreviewAddr)
      pure (m.gotoAddrAndHighlight (value - base) (value - base))
    else pure m
  else pure m

/-- The contents of the window. Whether it has a preview is decided before the options are drawn.
-/
def drawContents (memSize base : BitVec 64) (m : MemoryEditor) : Ui MemoryEditor := do
  let m := if m.cols.slt 1#32 then { m with cols := 1#32 } else m
  let e ← enclosed .child "##scrolling" (drawLines memSize) ⟨m, false, nowhere⟩
  let m := nextByte memSize e
  let lockShowDataPreview := m.optShowDataPreview
  let m ← (if m.optShowOptions then drawOptionsLine memSize base m else pure m)
  if lockShowDataPreview then drawPreviewLine base m else pure m

/-! ## What is open behind it -/

theorem wellScoped_arrowKeys (memSize : BitVec 64) (m : MemoryEditor) :
    WellScoped (arrowKeys memSize m) := by
  apply wellScoped_ite (wellScoped_pure _)
  apply wellScoped_call (fun _ => rfl) (fun _ => rfl)
  intro up
  apply wellScoped_ite (wellScoped_pure _)
  apply wellScoped_call (fun _ => rfl) (fun _ => rfl)
  intro down
  apply wellScoped_ite (wellScoped_pure _)
  apply wellScoped_call (fun _ => rfl) (fun _ => rfl)
  intro left
  apply wellScoped_ite (wellScoped_pure _)
  apply wellScoped_call (fun _ => rfl) (fun _ => rfl)
  intro right
  exact wellScoped_ite (wellScoped_pure _) (wellScoped_pure _)

theorem wellScoped_takeInput (input : Input) (e : Edit) : WellScoped (takeInput input e) := by
  apply wellScoped_ite (wellScoped_pure _)
  apply wellScoped_ite (wellScoped_pure _)
  apply wellScoped_call (fun _ => rfl) (fun _ => rfl)
  intro active
  exact wellScoped_ite (wellScoped_pure _) (wellScoped_pure _)

theorem wellScoped_editByte (e : Edit) : WellScoped (editByte e) := by
  apply wellScoped_call (fun _ => rfl) (fun _ => rfl)
  intro input
  apply WellScoped.bind (wellScoped_takeInput input e)
  intro e'
  exact wellScoped_pure _

theorem wellScoped_drawByte (e : Edit) (addr : BitVec 64) : WellScoped (drawByte e addr) := by
  apply wellScoped_ite
  · exact wellScoped_withID addr wellScoped_editByte e
  apply wellScoped_ite (wellScoped_pure _)
  apply wellScoped_call (fun _ => rfl) (fun _ => rfl)
  intro hovered
  apply wellScoped_ite _ (wellScoped_pure _)
  apply wellScoped_call (fun _ => rfl) (fun _ => rfl)
  intro clicked
  exact wellScoped_ite (wellScoped_pure _) (wellScoped_pure _)

theorem wellScoped_drawAscii (addr : BitVec 64) (e : Edit) : WellScoped (drawAscii addr e) := by
  apply wellScoped_call (fun _ => rfl) (fun _ => rfl)
  intro clicked
  apply wellScoped_ite _ (wellScoped_pure _)
  apply wellScoped_call (fun _ => rfl) (fun _ => rfl)
  intro column
  exact wellScoped_pure _

theorem wellScoped_drawLine (memSize : BitVec 64) (e : Edit) (line : Nat) :
    WellScoped (drawLine memSize e line) := by
  apply WellScoped.bind (wellScoped_foldlM wellScoped_drawByte _ e)
  intro e'
  apply wellScoped_ite _ (wellScoped_pure _)
  exact wellScoped_withID _ (wellScoped_drawAscii _) e'

theorem wellScoped_drawLines (memSize : BitVec 64) (e : Edit) :
    WellScoped (drawLines memSize e) := by
  apply wellScoped_call (fun _ => rfl) (fun _ => rfl)
  intro ranges
  apply WellScoped.bind (wellScoped_arrowKeys memSize _)
  intro next
  exact wellScoped_foldlM (wellScoped_drawLine memSize) _ _

theorem wellScoped_drawOptions (m : MemoryEditor) : WellScoped (drawOptions m) := by
  apply wellScoped_call (fun _ => rfl) (fun _ => rfl)
  intro cols
  apply wellScoped_call (fun _ => rfl) (fun _ => rfl)
  intro showDataPreview
  apply wellScoped_call (fun _ => rfl) (fun _ => rfl)
  intro showHexII
  apply wellScoped_call (fun _ => rfl) (fun _ => rfl)
  intro showAscii
  apply wellScoped_call (fun _ => rfl) (fun _ => rfl)
  intro greyOutZeroes
  apply wellScoped_call (fun _ => rfl) (fun _ => rfl)
  intro upperCaseHex
  exact wellScoped_pure _

theorem wellScoped_drawOptionsLine (memSize base : BitVec 64) (m : MemoryEditor) :
    WellScoped (drawOptionsLine memSize base m) := by
  apply wellScoped_call (fun _ => rfl) (fun _ => rfl)
  intro options
  apply WellScoped.bind (wellScoped_ifOpen rfl wellScoped_drawOptions m)
  intro m'
  apply wellScoped_call (fun _ => rfl) (fun _ => rfl)
  intro input
  apply wellScoped_ite (wellScoped_pure _)
  apply wellScoped_ite _ (wellScoped_pure _)
  apply WellScoped.bind (wellScoped_enclosed rfl (fun _ => rfl) wellScoped_pure _)
  intro m''
  exact wellScoped_pure _

theorem wellScoped_selectType (m : MemoryEditor) (dataType : DataType × String) :
    WellScoped (selectType m dataType) := by
  apply wellScoped_call (fun _ => rfl) (fun _ => rfl)
  intro selected
  exact wellScoped_ite (wellScoped_pure _) (wellScoped_pure _)

theorem wellScoped_drawPreviewLine (base : BitVec 64) (m : MemoryEditor) :
    WellScoped (drawPreviewLine base m) := by
  have hTypes : ∀ m, WellScoped (dataTypes.foldlM selectType m) :=
    wellScoped_foldlM wellScoped_selectType dataTypes
  apply WellScoped.bind (wellScoped_ifOpen rfl hTypes m)
  intro m'
  apply wellScoped_ite _ (wellScoped_pure _)
  apply wellScoped_call (fun _ => rfl) (fun _ => rfl)
  intro goto
  apply wellScoped_ite _ (wellScoped_pure _)
  apply wellScoped_call (fun _ => rfl) (fun _ => rfl)
  intro value
  exact wellScoped_pure _

/-- The contents of the editor leave open what was open before. -/
theorem wellScoped_drawContents (memSize base : BitVec 64) (m : MemoryEditor) :
    WellScoped (drawContents memSize base m) := by
  apply WellScoped.bind (wellScoped_enclosed rfl (fun _ => rfl) (wellScoped_drawLines memSize) _)
  intro e
  apply WellScoped.bind
  · exact wellScoped_ite (wellScoped_drawOptionsLine memSize base _) (wellScoped_pure _)
  · intro m'
    exact wellScoped_ite (wellScoped_drawPreviewLine base m') (wellScoped_pure _)

end MemoryEditor

end Wondar.Pe
