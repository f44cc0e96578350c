import Wondar.Pe.MemoryEditor

/-!
# The windows of the debug GUI

A frame of `DbgGui` draws the menu bar and the windows that are shown. Which scopes it opens
depends on what the user does, on the tree of the heaps and on the list of the actors.

Dear ImGui has every `Begin` and `BeginChild` matched, whatever it returns. The windows call `End`
only where `Begin` returned true, and the log its `EndChild`, so a frame is balanced if and only if
none of them returned false (`draw_balanced_iff`).
-/

namespace Wondar.Pe.Gui

open ImGui Interaction Scopes

/-! ## The state -/

/-- What is shown, and the address that the memory editor is to go to, 0 for none. -/
structure SharedData where
  hideGui : Bool := true
  showDemoWindow : Bool := false
  showLog : Bool := true
  showHeapViewer : Bool := false
  showActorBrowser : Bool := false
  showCamera : Bool := false
  showMemoryEditor : Bool := false
  showDebugInfo : Bool := false
  memoryEditorGotoAddr : BitVec 64 := 0#64

/-- A flag of the shared data that a widget writes. -/
structure Flag where
  get : SharedData → Bool
  set : SharedData → Bool → SharedData

namespace Flag

/-- The entries of the menu, each with the field that it shows and toggles. -/
def showDemoWindow : Flag := ⟨SharedData.showDemoWindow, fun s b => { s with showDemoWindow := b }⟩
def showLog : Flag := ⟨SharedData.showLog, fun s b => { s with showLog := b }⟩
def showHeapViewer : Flag := ⟨SharedData.showHeapViewer, fun s b => { s with showHeapViewer := b }⟩
def showActorBrowser : Flag :=
  ⟨SharedData.showActorBrowser, fun s b => { s with showActorBrowser := b }⟩
def showCamera : Flag := ⟨SharedData.showCamera, fun s b => { s with showCamera := b }⟩
def showMemoryEditor : Flag :=
  ⟨SharedData.showMemoryEditor, fun s b => { s with showMemoryEditor := b }⟩
def showDebugInfo : Flag := ⟨SharedData.showDebugInfo, fun s b => { s with showDebugInfo := b }⟩

end Flag

/-- What the handler that `DbgGui` installs does to the shared data. It answers that the thread
goes on behind the instruction that faulted. -/
def handleException (shared : SharedData) : SharedData :=
  { shared with showLog := true, hideGui := false }

/-- What the frames keep, the flag and the counter that scroll the log included. -/
structure State where
  shared : SharedData := {}
  mEditor : MemoryEditor := {}
  shouldLogWindowScrollDown : Bool := false
  mScrollRefreshCounter : Nat := 0

/-- A heap and the heaps in it. -/
inductive Heap
  | mk (addr startAddress size : BitVec 64) (name : String) (children : List Heap)

/-- A component of an actor, where it lies and what it was made from. -/
structure Component where
  addr : BitVec 64
  mGyamlPath : String

/-- An actor of the list. A component of it may be a null pointer. -/
structure Actor where
  addr : BitVec 64
  name : String
  mActorComponents : List (Option Component)

/-- What the game shows to the windows. -/
structure World where
  rootHeap : Option Heap
  sActorList : List Actor

/-- The button of a heap, an actor or a component that the memory editor is to show. -/
def State.goto (s : State) (addr : BitVec 64) : State :=
  { s with shared.memoryEditorGotoAddr := addr, shared.showMemoryEditor := true }

/-! ## The components -/

/-- `if (show && Begin(name, &show)) { …; End(); }`. -/
def window (flag : Flag) (name : String) (body : State → Ui State) (s : State) : Ui State := do
  if flag.get s.shared then
    let isOpen ← call (.pOpen name)
    ifOpen .window name body { s with shared := flag.set s.shared isOpen }
  else pure s

/-- `Checkbox(label, &flag)`, which turns the flag around where it is pressed. -/
def checkbox (s : State) (item : String × Flag) : Ui State := do
  let pressed ← call (.checkbox item.1)
  pure { s with shared := item.2.set s.shared (item.2.get s.shared != pressed) }

/-- The checkboxes of the menu, in their order. -/
def menuItems : List (String × Flag) :=
  [("Demo Window", .showDemoWindow), ("Log", .showLog), ("HeapViewer", .showHeapViewer),
    ("ActorBrowser", .showActorBrowser), ("Camera", .showCamera),
    ("MemoryEditor", .showMemoryEditor), ("DebugInfo", .showDebugInfo)]

/-- `MenuBar::draw`. -/
def drawMenuBar (_ : World) : State → Ui State :=
  ifOpen .mainMenuBar "" (ifOpen .menu "Windows" (menuItems.foldlM checkbox))

/-- `ImGuiDemo::draw`. -/
def drawImGuiDemo (_ : World) (s : State) : Ui State := do
  if s.shared.showDemoWindow then
    let isOpen ← call .showDemoWindow
    pure { s with shared.showDemoWindow := isOpen }
  else pure s

/-- What is drawn of the log is left out. -/
def scrollLog (s : State) : State :=
  let s := if s.shouldLogWindowScrollDown then
      { s with mScrollRefreshCounter := 10, shouldLogWindowScrollDown := false }
    else s
  { s with mScrollRefreshCounter := s.mScrollRefreshCounter - 1 }

/-- `Log::draw`. -/
def drawLog (_ : World) : State → Ui State :=
  window .showLog "Log" fun s => do
    let _ ← call (.inputText "Filter")
    ifOpen .child "logthing" (fun s => pure (scrollLog s)) s

mutual

/-- A heap, and the heaps in it where it is expanded. -/
def showHeap : Heap → State → Ui State
  | .mk addr startAddress _ name children, s => do
    let goto ← call (.button "Goto")
    ifExpanded addr name (fun s => showHeaps children s)
      (if goto then { s.goto startAddress with shouldLogWindowScrollDown := true } else s)

/-- The heaps of a list, one behind another. -/
def showHeaps : List Heap → State → Ui State
  | [], s => pure s
  | heap :: heaps, s => do
    let s ← showHeap heap s
    showHeaps heaps s

end

/-- `HeapViewer::draw`. -/
def drawHeapViewer (w : World) : State → Ui State :=
  window .showHeapViewer "HeapViewer" fun s => w.rootHeap.elim (pure s) fun heap => showHeap heap s

/-- The button of an actor or of a component. -/
def gotoButton (addr : BitVec 64) (s : State) : Ui State := do
  let goto ← call (.button "Goto")
  pure (if goto then s.goto addr else s)

/-- What the browser shows of the component `item.2` of an actor. -/
def drawComponent (s : State) (item : Option Component × Nat) : Ui State :=
  match item with
  | (none, _) => pure s
  | (some component, i) => do
    let s ← withID component.addr (gotoButton component.addr) s
    let shown ← call (.collapsingHeader component.mGyamlPath)
    if shown && 25 ≤ i && i ≤ 28 then
      let _ ← call (.sliderInt "Item")
      pure s
    else pure s

/-- What the browser shows of an actor, its components where it is expanded. -/
def drawActor (s : State) (actor : Actor) : Ui State :=
  ifExpanded actor.addr actor.name
    (fun s => do
      let s ← gotoButton actor.addr s
      actor.mActorComponents.zipIdx.foldlM drawComponent s) s

/-- `ActorBrowser::draw`. -/
def drawActorBrowser (w : World) : State → Ui State :=
  window .showActorBrowser "ActorBrowser" (w.sActorList.foldlM drawActor)

/-- The start and the size of the root heap. Through a null pointer they are anything. -/
def readHeap : Option Heap → Ui (BitVec 64 × BitVec 64)
  | some (.mk _ startAddress size _ _) => pure (startAddress, size)
  | none => do
    let startAddress ← call (.readU64 0#64)
    let size ← call (.readU64 0#64)
    pure (startAddress, size)

/-- `MemoryEditor::draw`. The addresses of the editor are counted from the start of the heap. -/
def drawMemoryEditor (w : World) : State → Ui State :=
  window .showMemoryEditor "MemoryEditor" fun s => do
    let (startAddress, size) ← readHeap w.rootHeap
    let goto := s.shared.memoryEditorGotoAddr
    let mEditor := if goto = 0#64 then s.mEditor
      else s.mEditor.gotoAddrAndHighlight (goto - startAddress) (goto - startAddress)
    let mEditor ← mEditor.drawContents size startAddress
    pure { s with mEditor := mEditor, shared.memoryEditorGotoAddr := 0#64 }

/-- `DebugInfo::draw`. What is drawn of the modules is left out. -/
def drawDebugInfo (_ : World) : State → Ui State :=
  window .showDebugInfo "DebugInfo" fun s => do
    let _ ← call (.collapsingHeader "Modules")
    let pressed ← call (.button "Abort")
    if pressed then
      call .abort
      -- The log scrolls down to what `EXL_ABORT` wrote, and the fault goes to the handler.
      pure { s with shared := handleException s.shared, shouldLogWindowScrollDown := true }
    else pure s

/-- The components in the order in which the constructor puts them in. -/
def mComponents : List (World → State → Ui State) :=
  [drawMenuBar, drawImGuiDemo, drawLog, drawHeapViewer, drawActorBrowser, drawMemoryEditor,
    drawDebugInfo]

/-- A frame, with the two buttons that hide the GUI. -/
def draw (isZRHold isPlusPress : Bool) (w : World) (s : State) : Ui State :=
  let s := if isZRHold && isPlusPress then { s with shared.hideGui := !s.shared.hideGui } else s
  if s.shared.hideGui then pure s
  else mComponents.foldlM (fun s component => component w s) s

/-! ## What is open behind a frame -/

theorem wellScoped_window (flag : Flag) {name : String} {body : State → Ui State}
    (hBody : ∀ s, WellScoped (body s)) (s : State) : WellScoped (window flag name body s) := by
  apply wellScoped_ite _ (wellScoped_pure _)
  apply wellScoped_call (fun _ => rfl) (fun _ => rfl)
  intro isOpen
  exact wellScoped_ifOpen rfl hBody _

theorem wellScoped_checkbox (s : State) (item : String × Flag) : WellScoped (checkbox s item) := by
  apply wellScoped_call (fun _ => rfl) (fun _ => rfl)
  intro pressed
  exact wellScoped_pure _

theorem wellScoped_drawMenuBar (w : World) (s : State) : WellScoped (drawMenuBar w s) := by
  apply wellScoped_ifOpen rfl
  apply wellScoped_ifOpen rfl
  exact wellScoped_foldlM wellScoped_checkbox menuItems

theorem wellScoped_drawImGuiDemo (w : World) (s : State) : WellScoped (drawImGuiDemo w s) := by
  apply wellScoped_ite _ (wellScoped_pure _)
  apply wellScoped_call (fun _ => rfl) (fun _ => rfl)
  intro isOpen
  exact wellScoped_pure _

theorem wellScoped_drawLog (w : World) (s : State) : WellScoped (drawLog w s) := by
  apply wellScoped_window
  intro s'
  apply wellScoped_call (fun _ => rfl) (fun _ => rfl)
  intro filter
  exact wellScoped_ifOpen rfl (fun _ => wellScoped_pure _) s'

mutual

theorem wellScoped_showHeap : ∀ (heap : Heap) (s : State), WellScoped (showHeap heap s)
  | .mk addr startAddress size name children, s => by
    apply wellScoped_call (fun _ => rfl) (fun _ => rfl)
    intro goto
    exact wellScoped_ifExpanded addr (wellScoped_showHeaps children) _

theorem wellScoped_showHeaps : ∀ (heaps : List Heap) (s : State), WellScoped (showHeaps heaps s)
  | [], s => wellScoped_pure s
  | heap :: heaps, s => (wellScoped_showHeap heap s).bind (wellScoped_showHeaps heaps)

end

theorem wellScoped_drawHeapViewer (w : World) (s : State) : WellScoped (drawHeapViewer w s) := by
  apply wellScoped_window
  intro s'
  cases w.rootHeap with
  | none => exact wellScoped_pure s'
  | some heap => exact wellScoped_showHeap heap s'

theorem wellScoped_gotoButton (addr : BitVec 64) (s : State) : WellScoped (gotoButton addr s) := by
  apply wellScoped_call (fun _ => rfl) (fun _ => rfl)
  intro goto
  exact wellScoped_pure _

theorem wellScoped_drawComponent (s : State) (item : Option Component × Nat) :
    WellScoped (drawComponent s item) := by
  obtain ⟨component | component, i⟩ := item
  · exact wellScoped_pure s
  · apply WellScoped.bind (wellScoped_withID _ (wellScoped_gotoButton _) s)
    intro s'
    apply wellScoped_call (fun _ => rfl) (fun _ => rfl)
    intro shown
    apply wellScoped_ite _ (wellScoped_pure _)
    apply wellScoped_call (fun _ => rfl) (fun _ => rfl)
    intro changed
    exact wellScoped_pure _

theorem wellScoped_drawActor (s : State) (actor : Actor) : WellScoped (drawActor s actor) := by
  apply wellScoped_ifExpanded
  intro s'
  apply WellScoped.bind (wellScoped_gotoButton _ s')
  intro s''
  exact wellScoped_foldlM wellScoped_drawComponent _ s''

theorem wellScoped_drawActorBrowser (w : World) (s : State) :
    WellScoped (drawActorBrowser w s) := by
  apply wellScoped_window
  exact wellScoped_foldlM wellScoped_drawActor w.sActorList

theorem wellScoped_readHeap (heap : Option Heap) : WellScoped (readHeap heap) := by
  match heap with
  | some (.mk _ _ _ _ _) => exact wellScoped_pure _
  | none =>
    apply wellScoped_call (fun _ => rfl) (fun _ => rfl)
    intro startAddress
    apply wellScoped_call (fun _ => rfl) (fun _ => rfl)
    intro size
    exact wellScoped_pure _

theorem wellScoped_drawMemoryEditor (w : World) (s : State) :
    WellScoped (drawMemoryEditor w s) := by
  apply wellScoped_window
  intro s'
  apply WellScoped.bind (wellScoped_readHeap w.rootHeap)
  rintro ⟨startAddress, size⟩
  apply WellScoped.bind (MemoryEditor.wellScoped_drawContents size startAddress _)
  intro mEditor
  exact wellScoped_pure _

theorem wellScoped_drawDebugInfo (w : World) (s : State) : WellScoped (drawDebugInfo w s) := by
  apply wellScoped_window
  intro s'
  apply wellScoped_call (fun _ => rfl) (fun _ => rfl)
  intro modules
  apply wellScoped_call (fun _ => rfl) (fun _ => rfl)
  intro pressed
  apply wellScoped_ite _ (wellScoped_pure _)
  apply wellScoped_call (fun _ => rfl) (fun _ => rfl)
  intro resumed
  exact wellScoped_pure _

theorem wellScoped_mComponents :
    ∀ component ∈ mComponents, ∀ w s, WellScoped (component w s) := by
  simp only [mComponents, List.forall_mem_cons]
  exact ⟨wellScoped_drawMenuBar, wellScoped_drawImGuiDemo, wellScoped_drawLog,
    wellScoped_drawHeapViewer, wellScoped_drawActorBrowser, wellScoped_drawMemoryEditor,
    wellScoped_drawDebugInfo, fun _ hMem => by cases hMem⟩

theorem wellScoped_draw (isZRHold isPlusPress : Bool) (w : World) (s : State) :
    WellScoped (draw isZRHold isPlusPress w s) := by
  apply wellScoped_ite (wellScoped_pure _)
  apply always_foldlM closed_scoped
  intro component hMem
  exact wellScoped_mComponents component hMem w

/-- Whatever the calls of a frame return, and whatever the heaps and the actors are, the frame
leaves nothing open if and only if no window that it draws, nor the list of the log, returned
false. -/
theorem draw_balanced_iff {isZRHold isPlusPress : Bool} {w : World} {s s' : State}
    {events : List (Event Ret)} (hFrame : Emits (draw isZRHold isPlusPress w s) events s') :
    Scopes.Balanced effect base events ↔ ∀ e ∈ events, missed e = false :=
  (wellScoped_draw isZRHold isPlusPress w s events s' hFrame).balanced_iff base

/-! ## The log alone -/

/-- The GUI is shown for the first time, with the log in it. -/
def shown : State where
  shared := { hideGui := false }

/-- Neither heaps nor actors. -/
def noWorld : World := ⟨none, []⟩

/-- A frame with the log. -/
def logFrame : List (Event Ret) :=
  [⟨.opening .mainMenuBar "", false⟩, ⟨.pOpen "Log", true⟩, ⟨.opening .window "Log", true⟩,
    ⟨.inputText "Filter", ⟨false, none, 0⟩⟩, ⟨.opening .child "logthing", true⟩,
    ⟨.closing .child, ()⟩, ⟨.closing .window, ()⟩]

/-- A frame with the log collapsed. -/
def collapsedFrame : List (Event Ret) :=
  [⟨.opening .mainMenuBar "", false⟩, ⟨.pOpen "Log", true⟩, ⟨.opening .window "Log", false⟩]

theorem emits_logFrame : Emits (draw false false noWorld shown) logFrame shown :=
  .ask _ (.ask _ (.ask _ (.ask _ (.ask _ (.ask _ (.ask _ (.ret _)))))))

theorem draw_balanced_iff_log :
    Scopes.Balanced effect base logFrame ↔ ∀ e ∈ logFrame, missed e = false :=
  draw_balanced_iff emits_logFrame

/-- A log that is collapsed is not closed. -/
theorem collapsed_log_left_open :
    Emits (draw false false noWorld shown) collapsedFrame shown ∧
      ¬ Scopes.Balanced effect base collapsedFrame := by
  constructor
  · exact .ask _ (.ask _ (.ask _ (.ret _)))
  · unfold Scopes.Balanced
    decide

end Wondar.Pe.Gui
