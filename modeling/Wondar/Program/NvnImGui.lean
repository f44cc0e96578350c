import Mathlib.Tactic.SplitIfs
import Mathlib.Logic.Function.Basic
import Wondar.A64.Bits
import Wondar.Runs

/-!
# The overlay between the game and its graphics driver

The game asks the driver for its functions by name. Six of them are answered with a function of the
overlay, which calls the one of the driver through a pointer that is stored when the game asks. The
overlay starts when a command buffer is initialised behind a device and a queue, and then draws
before each presentation.

The overlay calls the driver for itself as well: `nvnLoadCPPProcs` asks for the functions behind the
C++ wrappers when a device is initialised, and the backend calls through the wrappers. `NvnCpp` is
what is not modelled of these.

`Stepped` says all that a step does.
-/

namespace Wondar.Program

open A64 (Addr)

/-! ## The calls -/

/-- The functions of the overlay that the game is given. -/
inductive NvnHook
  | deviceInit
  | getProc
  | queueInit
  | cmdBufInit
  | setViewport
  | presentTexture
deriving DecidableEq, Repr

/-- What the game calls; all but the first one through a function that it has been given. -/
inductive NvnCall
  | bootstrapLoader (funcName : String)
  | getProc (device : Addr) (procName : String)
  | deviceInit (device builder : Addr)
  | queueInit (queue builder : Addr)
  | cmdBufInit (buffer device : Addr)
  | setViewport (cmdBuf : Addr) (x y w h : BitVec 32)
  | presentTexture (queue window : Addr) (texIndex : BitVec 32)
deriving DecidableEq

/-- The function of the overlay that a call goes to. -/
def NvnCall.hook : NvnCall → Option NvnHook
  | .bootstrapLoader _ => none
  | .getProc _ _ => some .getProc
  | .deviceInit _ _ => some .deviceInit
  | .queueInit _ _ => some .queueInit
  | .cmdBufInit _ _ => some .cmdBufInit
  | .setViewport _ _ _ _ _ => some .setViewport
  | .presentTexture _ _ _ => some .presentTexture

/-- What a call returns, where a function may be a null pointer. -/
inductive NvnAnswer (fn : Type)
  | fn (f : Option fn)
  | boolean (b : Bool)
  | nothing

def NvnAnswer.map {fn fn' : Type} (g : fn → fn') : NvnAnswer fn → NvnAnswer fn'
  | .fn f => .fn (f.map g)
  | .boolean b => .boolean b
  | .nothing => .nothing

section

variable (F : Type)

/-- A function of the overlay or of the driver. -/
inductive NvnFn
  | hook (h : NvnHook)
  | driver (f : F)

/-- A call of the driver on behalf of the game, with its answer. Only `nvnBootstrapLoader` is called
without a pointer. -/
structure NvnEntry where
  fn : Option F
  call : NvnCall
  answer : NvnAnswer F

/-- A call of the driver: for the game, for `nvnLoadCPPProcs`, or through a wrapper. -/
inductive NvnDriverCall
  | game (e : NvnEntry F)
  | loading (fn : F) (device : Addr) (procName : String) (result : Option F)
  | wrapper (fn : F) (procName : String)

/-- The functions of the driver are those that it answers with. What it answers depends on what it
has been called for. -/
structure NvnDriver where
  bootstrapLoader : List (NvnDriverCall F) → String → Option F
  getProcAddress : List (NvnDriverCall F) → F → Addr → String → Option F
  init : List (NvnDriverCall F) → F → NvnCall → Bool

/-- What the overlay does. -/
inductive NvnOverlayEvent
  | init (device queue cmdBuf : Addr)
  | newFrame
  | draw (drawFuncs : List Addr)
deriving DecidableEq

/-- The static variables, where `cppProcs` is what the wrappers call through, and three logs. -/
structure NvnImGui where
  nvnDevice : Addr
  nvnQueue : Addr
  nvnCmdBuf : Addr
  tempGetProcAddressFuncPtr : Option F
  tempBufferInitFuncPtr : Option F
  tempDeviceInitFuncPtr : Option F
  tempQueueInitFuncPtr : Option F
  tempPresentTexFunc : Option F
  tempSetViewportFunc : Option F
  cppProcs : String → Option F
  hasInitImGui : Bool
  sDisableRender : Bool
  drawQueue : List Addr
  backendRendererUserData : Bool
  displaySize : BitVec 32 × BitVec 32
  driverLog : List (NvnDriverCall F)
  answers : List (NvnAnswer (NvnFn F))
  overlayLog : List NvnOverlayEvent

/-- The functions that `nvnLoadCPPProcs` asks for, in its order, and those that the backend calls
through the wrappers when it is initialised and when it renders. -/
structure NvnCpp where
  loads : List String
  initBackend : NvnImGui F → List String
  renderDrawData : NvnImGui F → List String

end

namespace NvnImGui

variable {F : Type}

/-- Nothing has been called. -/
def initial : NvnImGui F where
  nvnDevice := 0#64
  nvnQueue := 0#64
  nvnCmdBuf := 0#64
  tempGetProcAddressFuncPtr := none
  tempBufferInitFuncPtr := none
  tempDeviceInitFuncPtr := none
  tempQueueInitFuncPtr := none
  tempPresentTexFunc := none
  tempSetViewportFunc := none
  cppProcs _ := none
  hasInitImGui := false
  sDisableRender := false
  drawQueue := []
  backendRendererUserData := false
  displaySize := (0#32, 0#32)
  driverLog := []
  answers := []
  overlayLog := []

/-! ## The functions of the overlay -/

/-- The driver is called, if there is a pointer. -/
def enter (s : NvnImGui F) (fn : Option F) (call : NvnCall) (answer : F → NvnAnswer F) :
    Option (NvnImGui F × NvnAnswer F) :=
  fn.map fun f =>
    ({ s with driverLog := s.driverLog ++ [.game ⟨some f, call, answer f⟩] }, answer f)

/-- The game is answered. -/
def reply (s : NvnImGui F) (answer : NvnAnswer (NvnFn F)) : NvnImGui F :=
  { s with answers := s.answers ++ [answer] }

/-- A wrapper calls the driver, if its pointer is stored. -/
def callProc (s : NvnImGui F) (procName : String) : Option (NvnImGui F) :=
  (s.cppProcs procName).map fun f =>
    { s with driverLog := s.driverLog ++ [.wrapper f procName] }

variable (cpp : NvnCpp F)

/-- `ImguiNvnBackend::InitBackend`. -/
def initBackend (s : NvnImGui F) : Option (NvnImGui F) :=
  -- `EXL_ASSERT`
  if s.backendRendererUserData then none
  else (cpp.initBackend s).foldlM callProc { s with
    backendRendererUserData := true
    displaySize := (1600#32, 900#32)
    overlayLog := s.overlayLog ++ [.init s.nvnDevice s.nvnQueue s.nvnCmdBuf] }

/-- `nvnImGui::InitImGui`, and what it returns. -/
def initImGui (s : NvnImGui F) : Option (NvnImGui F × Bool) :=
  if s.nvnDevice ≠ 0#64 ∧ s.nvnQueue ≠ 0#64 ∧ s.nvnCmdBuf ≠ 0#64 then
    (initBackend cpp s).map fun s => (s, true)
  else some (s, false)

/-- `nvnImGui::procDraw`. The functions of the queue draw through Dear ImGui. -/
def procDraw (s : NvnImGui F) : Option (NvnImGui F) :=
  -- `getBackendData`
  if !s.backendRendererUserData then none
  else
    let s : NvnImGui F := { s with overlayLog := s.overlayLog ++ [.newFrame] }
    if s.sDisableRender then some s
    else (cpp.renderDrawData s).foldlM callProc
      { s with overlayLog := s.overlayLog ++ [NvnOverlayEvent.draw s.drawQueue] }

variable (driver : NvnDriver F)

/-- `NvnBootstrapHook::Callback`. -/
def bootstrapLoader (s : NvnImGui F) (funcName : String) : NvnImGui F :=
  let result := driver.bootstrapLoader s.driverLog funcName
  let s : NvnImGui F := { s with
    driverLog := s.driverLog ++ [.game ⟨none, .bootstrapLoader funcName, .fn result⟩] }
  if funcName = "nvnDeviceInitialize" then
    { s with tempDeviceInitFuncPtr := result }.reply (.fn (some (.hook .deviceInit)))
  else if funcName = "nvnDeviceGetProcAddress" then
    { s with tempGetProcAddressFuncPtr := result }.reply (.fn (some (.hook .getProc)))
  else s.reply (.fn (result.map .driver))

/-- The functions are asked of `nvnDevice`, whichever device the game names. -/
def getProc (s : NvnImGui F) (_device : Addr) (procName : String) : Option (NvnImGui F) :=
  let result := s.tempGetProcAddressFuncPtr.bind fun f =>
    driver.getProcAddress s.driverLog f s.nvnDevice procName
  (s.enter s.tempGetProcAddressFuncPtr (.getProc s.nvnDevice procName)
      fun _ => .fn result).map fun (s, answer) =>
    if procName = "nvnQueueInitialize" then
      { s with tempQueueInitFuncPtr := result }.reply (.fn (some (.hook .queueInit)))
    else if procName = "nvnCommandBufferInitialize" then
      { s with tempBufferInitFuncPtr := result }.reply (.fn (some (.hook .cmdBufInit)))
    else if procName = "nvnCommandBufferSetViewport" then
      { s with tempSetViewportFunc := result }.reply (.fn (some (.hook .setViewport)))
    else if procName = "nvnQueuePresentTexture" then
      { s with tempPresentTexFunc := result }.reply (.fn (some (.hook .presentTexture)))
    else s.reply (answer.map .driver)

/-- `nvnLoadCPPProcs` stores what it gets through the pointer that it is passed. -/
def loadProc (s : NvnImGui F) (procName : String) : Option (NvnImGui F) :=
  s.tempGetProcAddressFuncPtr.map fun f =>
    let result := driver.getProcAddress s.driverLog f s.nvnDevice procName
    { s with
      cppProcs := Function.update s.cppProcs procName result
      driverLog := s.driverLog ++ [.loading f s.nvnDevice procName result] }

/-- The wrappers are loaded with the device that the game has just initialised. -/
def deviceInit (s : NvnImGui F) (device builder : Addr) : Option (NvnImGui F) := do
  let call := .deviceInit device builder
  let (s, result) ← s.enter s.tempDeviceInitFuncPtr call
    fun f => .boolean (driver.init s.driverLog f call)
  let s ← cpp.loads.foldlM (loadProc driver) { s with nvnDevice := device }
  some (s.reply (result.map .driver))

/-- The queue is kept for the overlay. -/
def queueInit (s : NvnImGui F) (queue builder : Addr) : Option (NvnImGui F) := do
  let call := .queueInit queue builder
  let (s, result) ← s.enter s.tempQueueInitFuncPtr call
    fun f => .boolean (driver.init s.driverLog f call)
  let s := { s with nvnQueue := queue }
  some (s.reply (result.map .driver))

/-- The overlay starts here, if it has not. -/
def cmdBufInit (s : NvnImGui F) (buffer device : Addr) : Option (NvnImGui F) := do
  let call := .cmdBufInit buffer device
  let (s, result) ← s.enter s.tempBufferInitFuncPtr call
    fun f => .boolean (driver.init s.driverLog f call)
  let s := { s with nvnCmdBuf := buffer }
  if !s.hasInitImGui then
    let (s, hasInitImGui) ← s.initImGui cpp
    some ({ s with hasInitImGui := hasInitImGui }.reply (result.map .driver))
  else some (s.reply (result.map .driver))

/-- The overlay draws in the viewport that was set last. -/
def setViewport (s : NvnImGui F) (cmdBuf : Addr) (x y w h : BitVec 32) : Option (NvnImGui F) := do
  let (s, result) ← s.enter s.tempSetViewportFunc (.setViewport cmdBuf x y w h) fun _ => .nothing
  let s := if s.hasInitImGui then { s with displaySize := (w - x, h - y) } else s
  some (s.reply (result.map .driver))

/-- The overlay draws before the driver presents. -/
def presentTexture (s : NvnImGui F) (queue window : Addr) (texIndex : BitVec 32) :
    Option (NvnImGui F) := do
  let s ← (if s.hasInitImGui then s.procDraw cpp else some s)
  let (s, result) ← s.enter s.tempPresentTexFunc (.presentTexture queue window texIndex)
    fun _ => .nothing
  some (s.reply (result.map .driver))

/-- `nvnImGui::addDrawFunc`. -/
def addDrawFunc (s : NvnImGui F) (func : Addr) : Option (NvnImGui F) :=
  -- `EXL_ASSERT`
  if s.drawQueue.contains func then none else some { s with drawQueue := s.drawQueue ++ [func] }

/-! ## Steps -/

/-- The game calls, and other parts of the program add functions that draw or set
`sDisableRender`. -/
inductive Op
  | call (c : NvnCall)
  | addDrawFunc (func : Addr)
  | disableRender (disable : Bool)

/-- `none` where a pointer is not stored or an assertion fails. -/
def step : Op → NvnImGui F → Option (NvnImGui F)
  | .call (.bootstrapLoader funcName), s => some (s.bootstrapLoader driver funcName)
  | .call (.getProc device procName), s => s.getProc driver device procName
  | .call (.deviceInit device builder), s => s.deviceInit cpp driver device builder
  | .call (.queueInit queue builder), s => s.queueInit driver queue builder
  | .call (.cmdBufInit buffer device), s => s.cmdBufInit cpp driver buffer device
  | .call (.setViewport cmdBuf x y w h), s => s.setViewport cmdBuf x y w h
  | .call (.presentTexture queue window texIndex), s => s.presentTexture cpp queue window texIndex
  | .addDrawFunc func, s => s.addDrawFunc func
  | .disableRender disable, s => some { s with sDisableRender := disable }

/-! ## What a step does -/

/-- The hook that the game is given in place of the function that it asks for. -/
def hookFor : NvnCall → Option NvnHook
  | .bootstrapLoader funcName =>
    if funcName = "nvnDeviceInitialize" then some .deviceInit
    else if funcName = "nvnDeviceGetProcAddress" then some .getProc
    else none
  | .getProc _ procName =>
    if procName = "nvnQueueInitialize" then some .queueInit
    else if procName = "nvnCommandBufferInitialize" then some .cmdBufInit
    else if procName = "nvnCommandBufferSetViewport" then some .setViewport
    else if procName = "nvnQueuePresentTexture" then some .presentTexture
    else none
  | _ => none

/-- What the game gets for an answer of the driver. -/
def relay (e : NvnEntry F) : NvnAnswer (NvnFn F) :=
  match hookFor e.call with
  | some h => .fn (some (.hook h))
  | none => e.answer.map .driver

/-- The calls of the driver; functions are asked of `device`. -/
def forwards (device : Addr) : Op → List NvnCall
  | .call (.getProc _ procName) => [.getProc device procName]
  | .call c => [c]
  | .addDrawFunc _ | .disableRender _ => []

/-- What `nvnLoadCPPProcs` asks for, and of which device. -/
def loadsOf (cpp : NvnCpp F) : Op → List (Addr × String)
  | .call (.deviceInit device _) => cpp.loads.map fun procName => (device, procName)
  | _ => []

/-- `nvnDevice` behind a step. -/
def deviceAfter (device : Addr) : Op → Addr
  | .call (.deviceInit device _) => device
  | _ => device

def queueAfter (queue : Addr) : Op → Addr
  | .call (.queueInit queue _) => queue
  | _ => queue

def drawQueueAfter (drawQueue : List Addr) : Op → List Addr
  | .addDrawFunc func => drawQueue ++ [func]
  | _ => drawQueue

def disableAfter (sDisableRender : Bool) : Op → Bool
  | .disableRender disable => disable
  | _ => sDisableRender

/-- The overlay is initialised in this step. -/
def starts (s : NvnImGui F) : Op → List NvnOverlayEvent
  | .call (.cmdBufInit buffer _) =>
    if s.hasInitImGui = false ∧ s.nvnDevice ≠ 0#64 ∧ s.nvnQueue ≠ 0#64 ∧ buffer ≠ 0#64 then
      [.init s.nvnDevice s.nvnQueue buffer]
    else []
  | _ => []

/-- The frame that an overlay that is initialised draws. -/
def frame (sDisableRender : Bool) (drawQueue : List Addr) : Op → List NvnOverlayEvent
  | .call (.presentTexture _ _ _) => .newFrame :: if sDisableRender then [] else [.draw drawQueue]
  | _ => []

/-- A call of the driver for the game. -/
def forGame : NvnDriverCall F → Option (NvnEntry F)
  | .game e => some e
  | _ => none

/-- A call of the driver by `nvnLoadCPPProcs`. -/
def forProcs : NvnDriverCall F → Option (Addr × String)
  | .loading _ device procName _ => some (device, procName)
  | _ => none

/-- A call of the driver through a wrapper. -/
def forWrapper : NvnDriverCall F → Option String
  | .wrapper _ procName => some procName
  | _ => none

/-- The calls of the driver in a step, and what the game gets of them. -/
structure Logged (cpp : NvnCpp F) (s : NvnImGui F) (op : Op) (s' : NvnImGui F)
    (es : List (NvnDriverCall F)) : Prop where
  driver : s'.driverLog = s.driverLog ++ es
  answers : s'.answers = s.answers ++ (es.filterMap forGame).map relay
  game : (es.filterMap forGame).map NvnEntry.call = forwards s.nvnDevice op
  procs : es.filterMap forProcs = loadsOf cpp op
  wrappers : s'.hasInitImGui = false → es.filterMap forWrapper = []

/-- All that a step does but for the pointers. -/
structure Stepped (cpp : NvnCpp F) (s : NvnImGui F) (op : Op) (s' : NvnImGui F) : Prop where
  log : ∃ es, Logged cpp s op s' es
  device : s'.nvnDevice = deviceAfter s.nvnDevice op
  queue : s'.nvnQueue = queueAfter s.nvnQueue op
  drawQueue : s'.drawQueue = drawQueueAfter s.drawQueue op
  disable : s'.sDisableRender = disableAfter s.sDisableRender op
  hasInit : s'.hasInitImGui = (s.hasInitImGui || (starts s op).length == 1)
  userData : s'.backendRendererUserData = (s.backendRendererUserData || (starts s op).length == 1)
  overlayLog : s'.overlayLog = s.overlayLog ++ starts s op ++
    if s.hasInitImGui then frame s.sDisableRender s.drawQueue op else []

variable {cpp : NvnCpp F} {driver : NvnDriver F} {s s' : NvnImGui F} {op : Op}

/-! ## Calls of the driver -/

theorem enter_eq_some {fn : Option F} {call : NvnCall} {answer : F → NvnAnswer F}
    {r : NvnImGui F × NvnAnswer F} (h : s.enter fn call answer = some r) :
    ∃ f, fn = some f ∧
      r = ({ s with driverLog := s.driverLog ++ [.game ⟨some f, call, answer f⟩] }, answer f) := by
  obtain ⟨f, hFn, rfl⟩ := Option.map_eq_some_iff.mp h
  exact ⟨f, hFn, rfl⟩

/-- Calls that the overlay makes for itself. -/
structure Own (es : List (NvnDriverCall F)) (asked : List (Addr × String)) : Prop where
  game : es.filterMap forGame = []
  procs : es.filterMap forProcs = asked

/-- The backend calls through its wrappers. -/
theorem callProcs_eq_some {names : List String} (h : names.foldlM callProc s = some s') :
    ∃ es, s' = { s with driverLog := s.driverLog ++ es } ∧ Own es [] := by
  induction names generalizing s with
  | nil =>
    cases h
    exact ⟨[], by rw [List.append_nil], rfl, rfl⟩
  | cons name names ih =>
    rw [List.foldlM_cons] at h
    obtain ⟨t, hCall, hRest⟩ := Option.bind_eq_some_iff.mp h
    obtain ⟨f, -, rfl⟩ := Option.map_eq_some_iff.mp hCall
    obtain ⟨es, rfl, hOwn⟩ := ih hRest
    refine ⟨.wrapper f name :: es, ?_, hOwn.game, hOwn.procs⟩
    dsimp only
    rw [List.append_assoc, List.singleton_append]

/-- `nvnLoadCPPProcs` asks for each function once, of the device that there is then. -/
theorem loadProcs_eq_some {names : List String}
    (h : names.foldlM (loadProc driver) s = some s') :
    ∃ es table, s' = { s with cppProcs := table, driverLog := s.driverLog ++ es } ∧
      Own es (names.map fun name => (s.nvnDevice, name)) ∧ es.filterMap forWrapper = [] := by
  induction names generalizing s with
  | nil =>
    cases h
    exact ⟨[], _, by rw [List.append_nil], ⟨rfl, rfl⟩, rfl⟩
  | cons name names ih =>
    rw [List.foldlM_cons] at h
    obtain ⟨t, hCall, hRest⟩ := Option.bind_eq_some_iff.mp h
    obtain ⟨f, -, rfl⟩ := Option.map_eq_some_iff.mp hCall
    obtain ⟨es, table, rfl, hOwn, hNoWrapper⟩ := ih hRest
    refine ⟨.loading f s.nvnDevice name (driver.getProcAddress s.driverLog f s.nvnDevice name) :: es,
      table, ?_, ⟨hOwn.game, ?_⟩, hNoWrapper⟩
    · dsimp only
      rw [List.append_assoc, List.singleton_append]
    · exact congrArg ((s.nvnDevice, name) :: ·) hOwn.procs

/-- A frame of an overlay that is initialised. -/
theorem procDraw_eq_some (queue window : Addr) (texIndex : BitVec 32)
    (h : s.procDraw cpp = some s') :
    ∃ es, s' = { s with
        driverLog := s.driverLog ++ es
        overlayLog := s.overlayLog ++
          frame s.sDisableRender s.drawQueue (.call (.presentTexture queue window texIndex)) } ∧
      Own es [] := by
  unfold procDraw at h
  dsimp only at h
  split_ifs at h with hUserData hDisable
  · cases h
    refine ⟨[], ?_, rfl, rfl⟩
    rw [frame, if_pos hDisable, List.append_nil]
  · obtain ⟨es, rfl, hOwn⟩ := callProcs_eq_some h
    refine ⟨es, ?_, hOwn⟩
    rw [frame, if_neg hDisable]
    dsimp only
    rw [List.append_assoc]
    rfl

/-! ## What each step does -/

theorem relay_of_hook {e : NvnEntry F} {h : NvnHook} (hFor : hookFor e.call = some h) :
    relay e = .fn (some (.hook h)) := by
  rw [relay, hFor]

theorem relay_of_none {e : NvnEntry F} (hFor : hookFor e.call = none) :
    relay e = e.answer.map .driver := by
  rw [relay, hFor]

/-- A call of the driver for the game, with calls of the overlay before and behind it. -/
theorem Logged.of_game {e : NvnEntry F} {before after : List (NvnDriverCall F)}
    (hBefore : Own before []) (hAfter : Own after (loadsOf cpp op))
    (hWrappers : s'.hasInitImGui = false → (before ++ after).filterMap forWrapper = [])
    (hDriver : s'.driverLog = s.driverLog ++ before ++ [.game e] ++ after)
    (hAnswers : s'.answers = s.answers ++ [relay e]) (hForwards : [e.call] = forwards s.nvnDevice op) :
    Logged cpp s op s' (before ++ .game e :: after) := by
  have hGame : (before ++ .game e :: after).filterMap forGame = [e] := by
    rw [List.filterMap_append, hBefore.game, List.nil_append]
    exact congrArg (e :: ·) hAfter.game
  constructor
  · rw [hDriver, List.append_assoc, List.append_assoc]
    rfl
  · rw [hAnswers, hGame, List.map_singleton]
  · rw [hGame, List.map_singleton, hForwards]
  · rw [List.filterMap_append, hBefore.procs, List.nil_append, List.filterMap_cons_none rfl,
      hAfter.procs]
  · intro hInit
    have hNone := hWrappers hInit
    rw [List.filterMap_append] at hNone ⊢
    rw [List.filterMap_cons_none rfl, hNone]

theorem append_nil_append {α : Type} (xs ys zs : List α) : xs ++ ys ++ zs = xs ++ [] ++ ys ++ zs := by
  rw [List.append_nil]

theorem own_nil : Own ([] : List (NvnDriverCall F)) [] := ⟨rfl, rfl⟩

/-- A call behind which the overlay does nothing. -/
theorem Stepped.of_quiet {e : NvnEntry F} {answer : NvnAnswer (NvnFn F)}
    (hStarts : starts s op = []) (hFrame : frame s.sDisableRender s.drawQueue op = [])
    (hLoads : loadsOf cpp op = [])
    (hLog : s'.driverLog = s.driverLog ++ [.game e]) (hAnswers : s'.answers = s.answers ++ [answer])
    (hRelay : relay e = answer)
    (hForwards : [e.call] = forwards s.nvnDevice op)
    (hDevice : s'.nvnDevice = deviceAfter s.nvnDevice op)
    (hQueue : s'.nvnQueue = queueAfter s.nvnQueue op)
    (hDrawQueue : s'.drawQueue = drawQueueAfter s.drawQueue op)
    (hDisable : s'.sDisableRender = disableAfter s.sDisableRender op)
    (hInit : s'.hasInitImGui = s.hasInitImGui)
    (hUserData : s'.backendRendererUserData = s.backendRendererUserData)
    (hOverlay : s'.overlayLog = s.overlayLog) : Stepped cpp s op s' where
  log := ⟨_, .of_game own_nil (hLoads ▸ own_nil) (fun _ => rfl)
    (by rw [hLog, List.append_nil, List.append_nil]) (by rw [hAnswers, hRelay]) hForwards⟩
  device := hDevice
  queue := hQueue
  drawQueue := hDrawQueue
  disable := hDisable
  hasInit := by
    rw [hStarts, hInit]
    exact (Bool.or_false _).symm
  userData := by
    rw [hStarts, hUserData]
    exact (Bool.or_false _).symm
  overlayLog := by
    rw [hStarts, hFrame, hOverlay, ite_self, List.append_nil, List.append_nil]

theorem stepped_bootstrapLoader (driver : NvnDriver F) (s : NvnImGui F) (funcName : String) :
    Stepped cpp s (.call (.bootstrapLoader funcName)) (s.bootstrapLoader driver funcName) := by
  have hFor : hookFor (.bootstrapLoader funcName) =
      if funcName = "nvnDeviceInitialize" then some .deviceInit
      else if funcName = "nvnDeviceGetProcAddress" then some .getProc else none := rfl
  unfold bootstrapLoader
  dsimp only
  split_ifs at hFor ⊢ with hDevice hGetProc
  · exact .of_quiet rfl rfl rfl rfl rfl (relay_of_hook hFor) rfl rfl rfl rfl rfl rfl rfl rfl
  · exact .of_quiet rfl rfl rfl rfl rfl (relay_of_hook hFor) rfl rfl rfl rfl rfl rfl rfl rfl
  · exact .of_quiet rfl rfl rfl rfl rfl (relay_of_none hFor) rfl rfl rfl rfl rfl rfl rfl rfl

theorem stepped_getProc {device : Addr} {procName : String}
    (h : s.getProc driver device procName = some s') :
    Stepped cpp s (.call (.getProc device procName)) s' := by
  have hFor : hookFor (.getProc s.nvnDevice procName) =
      if procName = "nvnQueueInitialize" then some .queueInit
      else if procName = "nvnCommandBufferInitialize" then some .cmdBufInit
      else if procName = "nvnCommandBufferSetViewport" then some .setViewport
      else if procName = "nvnQueuePresentTexture" then some .presentTexture else none := rfl
  obtain ⟨r, hEnter, hNext⟩ := Option.map_eq_some_iff.mp h
  obtain ⟨f, hFn, rfl⟩ := enter_eq_some hEnter
  dsimp only at hNext
  split_ifs at hFor hNext <;> cases hNext
  · exact .of_quiet rfl rfl rfl rfl rfl (relay_of_hook hFor) rfl rfl rfl rfl rfl rfl rfl rfl
  · exact .of_quiet rfl rfl rfl rfl rfl (relay_of_hook hFor) rfl rfl rfl rfl rfl rfl rfl rfl
  · exact .of_quiet rfl rfl rfl rfl rfl (relay_of_hook hFor) rfl rfl rfl rfl rfl rfl rfl rfl
  · exact .of_quiet rfl rfl rfl rfl rfl (relay_of_hook hFor) rfl rfl rfl rfl rfl rfl rfl rfl
  · exact .of_quiet rfl rfl rfl rfl rfl (relay_of_none hFor) rfl rfl rfl rfl rfl rfl rfl rfl

theorem stepped_deviceInit {device builder : Addr}
    (h : s.deviceInit cpp driver device builder = some s') :
    Stepped cpp s (.call (.deviceInit device builder)) s' := by
  obtain ⟨r, hEnter, hNext⟩ := Option.bind_eq_some_iff.mp h
  obtain ⟨f, hFn, rfl⟩ := enter_eq_some hEnter
  dsimp only at hNext
  obtain ⟨t, hLoad, hDone⟩ := Option.bind_eq_some_iff.mp hNext
  obtain ⟨es, table, rfl, hOwn, hNoWrapper⟩ := loadProcs_eq_some hLoad
  cases hDone
  refine ⟨⟨_, .of_game own_nil hOwn (fun _ => hNoWrapper) (append_nil_append ..) rfl rfl⟩, rfl, rfl,
    rfl, rfl, (Bool.or_false _).symm, (Bool.or_false _).symm, ?_⟩
  have hFrame : frame s.sDisableRender s.drawQueue (.call (.deviceInit device builder)) = [] := rfl
  rw [hFrame, ite_self, List.append_nil]
  exact (List.append_nil _).symm

theorem stepped_queueInit {queue builder : Addr} (h : s.queueInit driver queue builder = some s') :
    Stepped cpp s (.call (.queueInit queue builder)) s' := by
  obtain ⟨r, hEnter, hNext⟩ := Option.bind_eq_some_iff.mp h
  obtain ⟨f, hFn, rfl⟩ := enter_eq_some hEnter
  cases hNext
  exact .of_quiet rfl rfl rfl rfl rfl (relay_of_none rfl) rfl rfl rfl rfl rfl rfl rfl rfl

theorem stepped_setViewport {cmdBuf : Addr} {x y w h : BitVec 32}
    (hStep : s.setViewport cmdBuf x y w h = some s') :
    Stepped cpp s (.call (.setViewport cmdBuf x y w h)) s' := by
  obtain ⟨r, hEnter, hNext⟩ := Option.bind_eq_some_iff.mp hStep
  obtain ⟨f, hFn, rfl⟩ := enter_eq_some hEnter
  dsimp only at hNext
  split_ifs at hNext <;> cases hNext <;>
    exact .of_quiet rfl rfl rfl rfl rfl (relay_of_none rfl) rfl rfl rfl rfl rfl rfl rfl rfl

theorem stepped_cmdBufInit {buffer device : Addr}
    (h : s.cmdBufInit cpp driver buffer device = some s') :
    Stepped cpp s (.call (.cmdBufInit buffer device)) s' := by
  obtain ⟨r, hEnter, hNext⟩ := Option.bind_eq_some_iff.mp h
  obtain ⟨f, hFn, rfl⟩ := enter_eq_some hEnter
  dsimp only at hNext
  cases hInit : s.hasInitImGui with
  | true =>
    have hStarts : starts s (.call (.cmdBufInit buffer device)) = [] :=
      if_neg fun hAll => Bool.false_ne_true (hAll.1.symm.trans hInit)
    rw [hInit, Bool.not_true, if_neg Bool.false_ne_true] at hNext
    cases hNext
    exact .of_quiet hStarts rfl rfl rfl rfl (relay_of_none rfl) rfl rfl rfl rfl rfl hInit.symm rfl rfl
  | false =>
    rw [hInit, Bool.not_false, if_pos rfl] at hNext
    obtain ⟨⟨s₁, hasInit⟩, hImGui, hDone⟩ := Option.bind_eq_some_iff.mp hNext
    cases hDone
    unfold initImGui at hImGui
    split_ifs at hImGui with hReady
    · obtain ⟨s₂, hBackend, hSome⟩ := Option.map_eq_some_iff.mp hImGui
      cases hSome
      unfold initBackend at hBackend
      split_ifs at hBackend with hUserData
      obtain ⟨es, rfl, hOwn⟩ := callProcs_eq_some hBackend
      have hStarts : starts s (.call (.cmdBufInit buffer device)) =
          [.init s.nvnDevice s.nvnQueue buffer] := if_pos ⟨hInit, hReady⟩
      exact
        { log := ⟨_, .of_game own_nil hOwn nofun (append_nil_append ..) rfl rfl⟩
          device := rfl
          queue := rfl
          drawQueue := rfl
          disable := rfl
          hasInit := by rw [hStarts, hInit]; rfl
          userData := by rw [hStarts]; exact (Bool.or_true _).symm
          overlayLog := by rw [hStarts, hInit]; exact (List.append_nil _).symm }
    · cases hImGui
      have hStarts : starts s (.call (.cmdBufInit buffer device)) = [] :=
        if_neg fun hAll => hReady hAll.2
      exact .of_quiet hStarts rfl rfl rfl rfl (relay_of_none rfl) rfl rfl rfl rfl rfl hInit.symm rfl
        rfl

/-- What the overlay has done when the driver is called to present. -/
theorem drawn_eq_some (queue window : Addr) (texIndex : BitVec 32)
    (h : (if s.hasInitImGui then s.procDraw cpp else some s) = some s') :
    ∃ es, s' = { s with
        driverLog := s.driverLog ++ es
        overlayLog := s.overlayLog ++ if s.hasInitImGui then
          frame s.sDisableRender s.drawQueue (.call (.presentTexture queue window texIndex))
        else [] } ∧
      Own es [] ∧ (s.hasInitImGui = false → es = []) := by
  by_cases hInit : s.hasInitImGui = true
  · rw [if_pos hInit] at h
    obtain ⟨es, rfl, hOwn⟩ := procDraw_eq_some queue window texIndex h
    exact ⟨es, by rw [if_pos hInit], hOwn, fun hNot => absurd (hInit.symm.trans hNot) nofun⟩
  · rw [if_neg hInit] at h
    cases h
    exact ⟨[], by rw [if_neg hInit, List.append_nil, List.append_nil], own_nil, fun _ => rfl⟩

theorem stepped_presentTexture {queue window : Addr} {texIndex : BitVec 32}
    (h : s.presentTexture cpp queue window texIndex = some s') :
    Stepped cpp s (.call (.presentTexture queue window texIndex)) s' := by
  obtain ⟨t, hDrawn, hRest⟩ := Option.bind_eq_some_iff.mp h
  obtain ⟨es, rfl, hOwn, hNone⟩ := drawn_eq_some queue window texIndex hDrawn
  obtain ⟨r, hEnter, hNext⟩ := Option.bind_eq_some_iff.mp hRest
  obtain ⟨f, hFn, rfl⟩ := enter_eq_some hEnter
  cases hNext
  have hWrappers : s.hasInitImGui = false → (es ++ []).filterMap forWrapper = [] := by
    intro hInit
    rw [hNone hInit]
    rfl
  exact
    { log := ⟨_, .of_game hOwn own_nil hWrappers (List.append_nil _).symm rfl rfl⟩
      device := rfl
      queue := rfl
      drawQueue := rfl
      disable := rfl
      hasInit := (Bool.or_false _).symm
      userData := (Bool.or_false _).symm
      overlayLog := congrArg (· ++ _) (List.append_nil _).symm }

/-- A step of which the driver and the game see nothing. -/
theorem Stepped.of_silent (hStarts : starts s op = [])
    (hFrame : frame s.sDisableRender s.drawQueue op = []) (hLoads : loadsOf cpp op = [])
    (hForwards : forwards s.nvnDevice op = [])
    (hDevice : deviceAfter s.nvnDevice op = s.nvnDevice)
    (hQueue : queueAfter s.nvnQueue op = s.nvnQueue)
    (hState : s' = { s with
      drawQueue := drawQueueAfter s.drawQueue op
      sDisableRender := disableAfter s.sDisableRender op }) : Stepped cpp s op s' := by
  subst hState
  refine ⟨⟨[], ?_⟩, hDevice.symm, hQueue.symm, rfl, rfl, ?_, ?_, ?_⟩
  · exact ⟨(List.append_nil _).symm, (List.append_nil _).symm, hForwards.symm, hLoads.symm,
      fun _ => rfl⟩
  · rw [hStarts]
    exact (Bool.or_false _).symm
  · rw [hStarts]
    exact (Bool.or_false _).symm
  · rw [hStarts, hFrame, ite_self, List.append_nil, List.append_nil]

/-- **A step.** -/
theorem step_stepped (h : step cpp driver op s = some s') : Stepped cpp s op s' := by
  match op with
  | .call (.bootstrapLoader funcName) =>
    cases h
    exact stepped_bootstrapLoader driver s funcName
  | .call (.getProc _ _) => exact stepped_getProc h
  | .call (.deviceInit _ _) => exact stepped_deviceInit h
  | .call (.queueInit _ _) => exact stepped_queueInit h
  | .call (.cmdBufInit _ _) => exact stepped_cmdBufInit h
  | .call (.setViewport _ _ _ _ _) => exact stepped_setViewport h
  | .call (.presentTexture _ _ _) => exact stepped_presentTexture h
  | .addDrawFunc func =>
    have hStep : s.addDrawFunc func = some s' := h
    unfold addDrawFunc at hStep
    split_ifs at hStep
    cases hStep
    exact .of_silent rfl rfl rfl rfl rfl rfl rfl
  | .disableRender disable =>
    cases h
    exact .of_silent rfl rfl rfl rfl rfl rfl rfl

end NvnImGui

end Wondar.Program
