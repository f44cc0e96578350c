import Wondar.Program.NvnFrames

/-!
# No call through a missing pointer

`run_answered`: a game that calls what it has been given, and initialises a device behind asking for
`nvnDeviceGetProcAddress`, never makes the overlay call through a pointer that is not stored; neither
one of the six that are stored as the game asks, nor one behind a wrapper. The wrappers are called
only with a device, and `nvnLoadCPPProcs` has run by then.
-/

namespace Wondar.Program

open A64 (Addr)
open Runs

namespace NvnImGui

variable {F : Type} {cpp : NvnCpp F} {driver : NvnDriver F} {s s' : NvnImGui F} {op : Op}

/-! ## The invariant -/

/-- The pointer that a function of the overlay calls through. -/
def pointer (s : NvnImGui F) : NvnHook → Option F
  | .deviceInit => s.tempDeviceInitFuncPtr
  | .getProc => s.tempGetProcAddressFuncPtr
  | .queueInit => s.tempQueueInitFuncPtr
  | .cmdBufInit => s.tempBufferInitFuncPtr
  | .setViewport => s.tempSetViewportFunc
  | .presentTexture => s.tempPresentTexFunc

/-- The functions that the backend calls through the wrappers. -/
def Calls (cpp : NvnCpp F) (procName : String) : Prop :=
  ∃ s, procName ∈ cpp.initBackend s ∨ procName ∈ cpp.renderDrawData s

/-- `nvnLoadCPPProcs` asks for the function of each wrapper. -/
def LoadsWrappers (cpp : NvnCpp F) : Prop := ∀ procName, Calls cpp procName → procName ∈ cpp.loads

/-- The driver has the functions that are asked for on behalf of the six and of the wrappers. -/
structure Complete (cpp : NvnCpp F) (driver : NvnDriver F) : Prop where
  bootstrap : ∀ log, ∀ name ∈ ["nvnDeviceInitialize", "nvnDeviceGetProcAddress"],
    (driver.bootstrapLoader log name).isSome
  procs : ∀ log f device, ∀ name ∈ ["nvnQueueInitialize", "nvnCommandBufferInitialize",
    "nvnCommandBufferSetViewport", "nvnQueuePresentTexture"],
    (driver.getProcAddress log f device name).isSome
  wrappers : ∀ log f device name, Calls cpp name → (driver.getProcAddress log f device name).isSome

/-- The game has been given the function. -/
def Held (s : NvnImGui F) (h : NvnHook) : Prop := .fn (some (.hook h)) ∈ s.answers

/-- The game calls what it has been given, and no function that draws is added twice.
`nvnDeviceGetProcAddress` has been asked for before a device is initialised. -/
def Permitted (s : NvnImGui F) : Op → Prop
  | .call c => (∀ h, c.hook = some h → s.Held h) ∧ (c.hook = some .deviceInit → s.Held .getProc)
  | .addDrawFunc func => func ∉ s.drawQueue
  | .disableRender _ => True

/-- The pointers of the wrappers are stored. -/
def Loaded (cpp : NvnCpp F) (s : NvnImGui F) : Prop :=
  ∀ procName, Calls cpp procName → (s.cppProcs procName).isSome

/-- The invariant: what the game can call through is stored, and with a device the pointers of the
wrappers are. -/
structure Ready (cpp : NvnCpp F) (s : NvnImGui F) : Prop where
  pointers : ∀ h, s.Held h → (s.pointer h).isSome
  userData : s.backendRendererUserData = s.hasInitImGui
  loaded : s.nvnDevice ≠ 0#64 ∨ s.hasInitImGui = true → Loaded cpp s

/-- The function that is asked for in a step. -/
def asked (device : Addr) (op : Op) : List NvnHook := (forwards device op).filterMap hookFor

theorem Stepped.held (hStepped : Stepped cpp s op s') {h : NvnHook} (hHeld : s'.Held h) :
    s.Held h ∨ h ∈ asked s.nvnDevice op := by
  obtain ⟨es, hEs⟩ := hStepped.log
  rw [Held, hEs.answers] at hHeld
  rcases List.mem_append.mp hHeld with hOld | hNew
  · exact .inl hOld
  · obtain ⟨e, he, hRelay⟩ := List.mem_map.mp hNew
    refine .inr (List.mem_filterMap.mpr ⟨e.call, ?_, ?_⟩)
    · rw [← hEs.game]
      exact List.mem_map_of_mem he
    · cases hFor : hookFor e.call with
      | some h' =>
        rw [relay_of_hook hFor] at hRelay
        cases hRelay
        rfl
      | none =>
        rw [relay_of_none hFor] at hRelay
        cases hAnswer : e.answer with
        | fn f =>
          rw [hAnswer] at hRelay
          cases f <;> cases hRelay
        | boolean b =>
          rw [hAnswer] at hRelay
          cases hRelay
        | nothing =>
          rw [hAnswer] at hRelay
          cases hRelay

/-- A step that stores one pointer. -/
theorem pointer_of_stored (stored : NvnHook) {hook : NvnHook} (hStored : (s'.pointer stored).isSome)
    (hOthers : ∀ h, h ≠ stored → s'.pointer h = s.pointer h)
    (hBefore : some stored = some hook ∨ (s.pointer hook).isSome) : (s'.pointer hook).isSome := by
  by_cases hSame : hook = stored
  · rw [hSame]
    exact hStored
  · rw [hOthers hook hSame]
    exact hBefore.resolve_left fun hEq => hSame (Option.some.inj hEq).symm

theorem pointer_bootstrapLoader (hComplete : Complete cpp driver) (s : NvnImGui F) (funcName : String)
    (hook : NvnHook)
    (hBefore : hookFor (.bootstrapLoader funcName) = some hook ∨ (s.pointer hook).isSome) :
    ((s.bootstrapLoader driver funcName).pointer hook).isSome := by
  have hFor : hookFor (.bootstrapLoader funcName) =
      if funcName = "nvnDeviceInitialize" then some .deviceInit
      else if funcName = "nvnDeviceGetProcAddress" then some .getProc else none := rfl
  have hBootstrap := hComplete.bootstrap s.driverLog funcName
  unfold bootstrapLoader
  dsimp only
  split_ifs at hFor ⊢ with hDevice hGetProc <;> rw [hFor] at hBefore
  · refine pointer_of_stored .deviceInit (hBootstrap (by simp [hDevice])) (fun h hNe => ?_) hBefore
    cases h <;> first | rfl | exact absurd rfl hNe
  · refine pointer_of_stored .getProc (hBootstrap (by simp [hGetProc])) (fun h hNe => ?_) hBefore
    cases h <;> first | rfl | exact absurd rfl hNe
  · exact hBefore.resolve_left nofun

theorem pointer_getProc (hComplete : Complete cpp driver) {device : Addr} {procName : String}
    (h : s.getProc driver device procName = some s') (hook : NvnHook)
    (hBefore : hookFor (.getProc s.nvnDevice procName) = some hook ∨ (s.pointer hook).isSome) :
    (s'.pointer hook).isSome := by
  have hFor : hookFor (.getProc s.nvnDevice procName) =
      if procName = "nvnQueueInitialize" then some .queueInit
      else if procName = "nvnCommandBufferInitialize" then some .cmdBufInit
      else if procName = "nvnCommandBufferSetViewport" then some .setViewport
      else if procName = "nvnQueuePresentTexture" then some .presentTexture else none := rfl
  obtain ⟨r, hEnter, hNext⟩ := Option.map_eq_some_iff.mp h
  obtain ⟨f, hFn, rfl⟩ := enter_eq_some hEnter
  dsimp only at hNext
  rw [hFn, Option.bind_some] at hNext
  have hProcs := hComplete.procs s.driverLog f s.nvnDevice procName
  split_ifs at hFor hNext with hQueue hCmdBuf hViewport hPresent <;> rw [hFor] at hBefore <;>
    cases hNext
  · refine pointer_of_stored (s := s) .queueInit (hProcs (by simp [hQueue])) (fun h hNe => ?_)
      hBefore
    cases h <;> first | rfl | exact hFn.symm | exact absurd rfl hNe
  · refine pointer_of_stored (s := s) .cmdBufInit (hProcs (by simp [hCmdBuf])) (fun h hNe => ?_)
      hBefore
    cases h <;> first | rfl | exact hFn.symm | exact absurd rfl hNe
  · refine pointer_of_stored (s := s) .setViewport (hProcs (by simp [hViewport])) (fun h hNe => ?_)
      hBefore
    cases h <;> first | rfl | exact hFn.symm | exact absurd rfl hNe
  · refine pointer_of_stored (s := s) .presentTexture (hProcs (by simp [hPresent]))
      (fun h hNe => ?_) hBefore
    cases h <;> first | rfl | exact hFn.symm | exact absurd rfl hNe
  · have hOld := hBefore.resolve_left nofun
    cases hook <;> first | rfl | exact hOld

/-- A step that stores no pointer. -/
structure Kept (s s' : NvnImGui F) : Prop where
  pointer : ∀ h, s'.pointer h = s.pointer h
  cppProcs : s'.cppProcs = s.cppProcs

theorem kept_cmdBufInit {buffer device : Addr}
    (h : s.cmdBufInit cpp driver buffer device = some s') : Kept s s' := by
  obtain ⟨r, hEnter, hNext⟩ := Option.bind_eq_some_iff.mp h
  obtain ⟨f, hFn, rfl⟩ := enter_eq_some hEnter
  dsimp only at hNext
  split_ifs at hNext with hInit
  · obtain ⟨⟨s₁, hasInit⟩, hImGui, hDone⟩ := Option.bind_eq_some_iff.mp hNext
    cases hDone
    unfold initImGui at hImGui
    split_ifs at hImGui with hReady
    · obtain ⟨s₂, hBackend, hSome⟩ := Option.map_eq_some_iff.mp hImGui
      cases hSome
      unfold initBackend at hBackend
      split_ifs at hBackend
      obtain ⟨es, rfl, -⟩ := callProcs_eq_some hBackend
      exact ⟨fun hook => by cases hook <;> rfl, rfl⟩
    · cases hImGui
      exact ⟨fun hook => by cases hook <;> rfl, rfl⟩
  · cases hNext
    exact ⟨fun hook => by cases hook <;> rfl, rfl⟩

theorem kept_presentTexture {queue window : Addr} {texIndex : BitVec 32}
    (h : s.presentTexture cpp queue window texIndex = some s') : Kept s s' := by
  obtain ⟨t, hDrawn, hRest⟩ := Option.bind_eq_some_iff.mp h
  obtain ⟨es, rfl, -⟩ := drawn_eq_some queue window texIndex hDrawn
  obtain ⟨r, hEnter, hNext⟩ := Option.bind_eq_some_iff.mp hRest
  obtain ⟨f, hFn, rfl⟩ := enter_eq_some hEnter
  cases hNext
  exact ⟨fun hook => by cases hook <;> rfl, rfl⟩

/-- The calls that store pointers. -/
def Stores : Op → Prop
  | .call (.bootstrapLoader _) | .call (.getProc _ _) | .call (.deviceInit _ _) => True
  | _ => False

theorem kept_step (h : step cpp driver op s = some s') (hStores : ¬ Stores op) : Kept s s' := by
  match op with
  | .call (.bootstrapLoader _) | .call (.getProc _ _) | .call (.deviceInit _ _) =>
    exact absurd trivial hStores
  | .call (.queueInit _ _) =>
    obtain ⟨r, hEnter, hNext⟩ := Option.bind_eq_some_iff.mp h
    obtain ⟨f, hFn, rfl⟩ := enter_eq_some hEnter
    cases hNext
    exact ⟨fun hook => by cases hook <;> rfl, rfl⟩
  | .call (.cmdBufInit _ _) => exact kept_cmdBufInit h
  | .call (.setViewport _ _ _ _ _) =>
    obtain ⟨r, hEnter, hNext⟩ := Option.bind_eq_some_iff.mp h
    obtain ⟨f, hFn, rfl⟩ := enter_eq_some hEnter
    dsimp only at hNext
    split_ifs at hNext <;> cases hNext <;> exact ⟨fun hook => by cases hook <;> rfl, rfl⟩
  | .call (.presentTexture _ _ _) => exact kept_presentTexture h
  | .addDrawFunc func =>
    have hStep : s.addDrawFunc func = some s' := h
    unfold addDrawFunc at hStep
    split_ifs at hStep
    cases hStep
    exact ⟨fun hook => by cases hook <;> rfl, rfl⟩
  | .disableRender _ =>
    cases h
    exact ⟨fun hook => by cases hook <;> rfl, rfl⟩

/-- What has been loaded is stored, and what was stored before. -/
theorem cppProcs_of_loadProcs (hComplete : Complete cpp driver) {names : List String}
    (h : names.foldlM (loadProc driver) s = some s') {procName : String}
    (hCalls : Calls cpp procName) (hBefore : procName ∈ names ∨ (s.cppProcs procName).isSome) :
    (s'.cppProcs procName).isSome := by
  induction names generalizing s with
  | nil =>
    cases h
    exact hBefore.resolve_left List.not_mem_nil
  | cons name names ih =>
    rw [List.foldlM_cons] at h
    obtain ⟨t, hLoad, hRest⟩ := Option.bind_eq_some_iff.mp h
    obtain ⟨f, -, rfl⟩ := Option.map_eq_some_iff.mp hLoad
    refine ih hRest (Or.imp_right (fun hOld => ?_) (or_assoc.mp (hBefore.imp_left fun hMem =>
      (List.mem_cons.mp hMem).symm)))
    dsimp only
    rcases hOld with rfl | hOld
    · rw [Function.update_self]
      exact hComplete.wrappers _ f _ _ hCalls
    · by_cases hSame : procName = name
      · rw [hSame, Function.update_self]
        exact hComplete.wrappers _ f _ _ (hSame ▸ hCalls)
      · rw [Function.update_of_ne hSame]
        exact hOld

/-- A device has been initialised: the six pointers are kept, and those of the wrappers stored. -/
theorem loaded_deviceInit (hComplete : Complete cpp driver) (hLoads : LoadsWrappers cpp)
    {device builder : Addr} (h : s.deviceInit cpp driver device builder = some s') :
    (∀ hook, s'.pointer hook = s.pointer hook) ∧ Loaded cpp s' := by
  obtain ⟨r, hEnter, hNext⟩ := Option.bind_eq_some_iff.mp h
  obtain ⟨f, hFn, rfl⟩ := enter_eq_some hEnter
  obtain ⟨t, hLoad, hDone⟩ := Option.bind_eq_some_iff.mp hNext
  have hStored : ∀ procName, Calls cpp procName → (t.cppProcs procName).isSome :=
    fun procName hCalls => cppProcs_of_loadProcs hComplete hLoad hCalls (.inl (hLoads _ hCalls))
  obtain ⟨es, table, rfl, -⟩ := loadProcs_eq_some hLoad
  cases hDone
  exact ⟨fun hook => by cases hook <;> rfl, hStored⟩

theorem cppProcs_getProc (device : Addr) {procName : String}
    (h : s.getProc driver device procName = some s') : s'.cppProcs = s.cppProcs := by
  obtain ⟨r, hEnter, hNext⟩ := Option.map_eq_some_iff.mp h
  obtain ⟨f, hFn, rfl⟩ := enter_eq_some hEnter
  dsimp only at hNext
  split_ifs at hNext <;> cases hNext <;> rfl

theorem cppProcs_bootstrapLoader (driver : NvnDriver F) (s : NvnImGui F) (funcName : String) :
    (s.bootstrapLoader driver funcName).cppProcs = s.cppProcs := by
  unfold bootstrapLoader
  dsimp only
  split_ifs <;> rfl

/-- A function that is asked for is stored, and the other pointers stay. -/
theorem pointer_step (hComplete : Complete cpp driver) (hLoads : LoadsWrappers cpp)
    (h : step cpp driver op s = some s') (hook : NvnHook)
    (hBefore : hook ∈ asked s.nvnDevice op ∨ (s.pointer hook).isSome) :
    (s'.pointer hook).isSome := by
  have hOf (hNone : asked s.nvnDevice op = []) (hSame : s'.pointer hook = s.pointer hook) :
      (s'.pointer hook).isSome := by
    rw [hSame]
    exact hBefore.resolve_left (hNone ▸ List.not_mem_nil)
  match op with
  | .call (.bootstrapLoader funcName) =>
    cases h
    exact pointer_bootstrapLoader hComplete s funcName hook
      (hBefore.imp_left fun hAsked => by simpa [asked, forwards] using hAsked)
  | .call (.getProc device procName) =>
    exact @pointer_getProc _ _ _ _ _ hComplete device _ h hook
      (hBefore.imp_left fun hAsked => by simpa [asked, forwards] using hAsked)
  | .call (.deviceInit _ _) => exact hOf rfl ((loaded_deviceInit hComplete hLoads h).1 hook)
  | .call (.queueInit _ _) | .call (.cmdBufInit _ _) | .call (.setViewport _ _ _ _ _)
  | .call (.presentTexture _ _ _) | .addDrawFunc _ | .disableRender _ =>
    exact hOf rfl ((kept_step h not_false).pointer hook)

/-- The pointers of the wrappers stay stored, and are stored behind a device. -/
theorem loaded_step (hComplete : Complete cpp driver) (hLoads : LoadsWrappers cpp)
    (hReady : Ready cpp s) (h : step cpp driver op s = some s')
    (hSome : s'.nvnDevice ≠ 0#64 ∨ s'.hasInitImGui = true) : Loaded cpp s' := by
  have hStepped := step_stepped h
  have hOf (hSame : s'.cppProcs = s.cppProcs) (hDevice : deviceAfter s.nvnDevice op = s.nvnDevice) :
      Loaded cpp s' := by
    rw [hStepped.device, hDevice, hStepped.hasInit, Bool.or_eq_true] at hSome
    have hBefore : s.nvnDevice ≠ 0#64 ∨ s.hasInitImGui = true := by
      rcases hSome with hNonnull | hInit | hStarts
      · exact .inl hNonnull
      · exact .inr hInit
      · have hNotNil : starts s op ≠ [] := by
          intro hNone
          rw [hNone] at hStarts
          exact Bool.false_ne_true hStarts
        obtain ⟨buffer, device, -, hNonnull, -⟩ := of_starts_ne_nil hNotNil
        exact .inl hNonnull
    rw [Loaded, hSame]
    exact hReady.loaded hBefore
  match op with
  | .call (.bootstrapLoader funcName) =>
    cases h
    exact hOf (cppProcs_bootstrapLoader driver s funcName) rfl
  | .call (.getProc device _) => exact hOf (cppProcs_getProc device h) rfl
  | .call (.deviceInit _ _) => exact (loaded_deviceInit hComplete hLoads h).2
  | .call (.queueInit _ _) | .call (.cmdBufInit _ _) | .call (.setViewport _ _ _ _ _)
  | .call (.presentTexture _ _ _) | .addDrawFunc _ | .disableRender _ =>
    exact hOf (kept_step h not_false).cppProcs rfl

/-! ## That a step is defined -/

theorem exists_callProcs (names : List String) (h : ∀ name ∈ names, (s.cppProcs name).isSome) :
    ∃ s', names.foldlM callProc s = some s' := by
  induction names generalizing s with
  | nil => exact ⟨s, rfl⟩
  | cons name names ih =>
    obtain ⟨hName, hNames⟩ := List.forall_mem_cons.mp h
    obtain ⟨f, hFn⟩ := Option.isSome_iff_exists.mp hName
    have hCall : s.callProc name = some { s with driverLog := s.driverLog ++ [.wrapper f name] } := by
      rw [callProc, hFn, Option.map_some]
    rw [List.foldlM_cons, hCall]
    exact ih hNames

theorem exists_loadProcs (driver : NvnDriver F) (names : List String)
    (h : s.tempGetProcAddressFuncPtr.isSome) :
    ∃ s', names.foldlM (loadProc driver) s = some s' := by
  induction names generalizing s with
  | nil => exact ⟨s, rfl⟩
  | cons name names ih =>
    obtain ⟨f, hFn⟩ := Option.isSome_iff_exists.mp h
    obtain ⟨t, hLoad, hPointer⟩ : ∃ t, s.loadProc driver name = some t ∧
        t.tempGetProcAddressFuncPtr.isSome := by
      rw [loadProc, hFn]
      exact ⟨_, rfl, rfl⟩
    rw [List.foldlM_cons, hLoad]
    exact ih hPointer

theorem pointer_of_ready (hReady : Ready cpp s) {c : NvnCall} {h : NvnHook}
    (hPermitted : Permitted s (.call c)) (hHook : c.hook = some h) : ∃ f, s.pointer h = some f :=
  Option.isSome_iff_exists.mp (hReady.pointers h (hPermitted.1 h hHook))

/-- The call of the driver succeeds. -/
theorem enter_of_ready (hReady : Ready cpp s) {c : NvnCall} {h : NvnHook}
    (hPermitted : Permitted s (.call c)) (hHook : c.hook = some h) (call : NvnCall)
    (answer : F → NvnAnswer F) :
    ∃ f, s.enter (s.pointer h) call answer =
      some ({ s with driverLog := s.driverLog ++ [.game ⟨some f, call, answer f⟩] }, answer f) := by
  obtain ⟨f, hFn⟩ := pointer_of_ready hReady hPermitted hHook
  exact ⟨f, by rw [enter, hFn, Option.map_some]⟩

/-- The backend is initialised once, through wrappers whose pointers are stored. -/
theorem exists_initImGui (hUserData : s.backendRendererUserData = false)
    (hLoaded : s.nvnDevice ≠ 0#64 → Loaded cpp s) : ∃ r, s.initImGui cpp = some r := by
  rw [initImGui]
  split_ifs with hAll
  · rw [initBackend, hUserData, if_neg Bool.false_ne_true]
    obtain ⟨t, hCalls⟩ := exists_callProcs (cpp.initBackend s) (s := { s with
      backendRendererUserData := true
      displaySize := (1600#32, 900#32)
      overlayLog := s.overlayLog ++ [.init s.nvnDevice s.nvnQueue s.nvnCmdBuf] })
      fun name hName => hLoaded hAll.1 name ⟨s, .inl hName⟩
    exact ⟨_, congrArg (Option.map _) hCalls⟩
  · exact ⟨_, rfl⟩

theorem exists_cmdBufInit (hReady : Ready cpp s) {buffer device : Addr}
    (hPermitted : Permitted s (.call (.cmdBufInit buffer device))) :
    ∃ s', s.cmdBufInit cpp driver buffer device = some s' := by
  obtain ⟨f, hEnter⟩ := enter_of_ready hReady hPermitted rfl (.cmdBufInit buffer device)
    fun f => .boolean (driver.init s.driverLog f (.cmdBufInit buffer device))
  have hBind : s.cmdBufInit cpp driver buffer device = _ := congrArg (Option.bind · _) hEnter
  rw [hBind, Option.bind_some]
  dsimp only
  split_ifs with hInit
  · have hUserData : s.backendRendererUserData = false :=
      hReady.userData.trans ((Bool.not_eq_true' _).mp hInit)
    obtain ⟨⟨t, hasInit⟩, hImGui⟩ := exists_initImGui (s := { s with
      nvnCmdBuf := buffer
      driverLog := s.driverLog ++ [.game ⟨some f, .cmdBufInit buffer device,
        .boolean (driver.init s.driverLog f (.cmdBufInit buffer device))⟩] }) hUserData
      fun hDevice => hReady.loaded (.inl hDevice)
    exact ⟨_, congrArg (Option.bind · _) hImGui⟩
  · exact ⟨_, rfl⟩

/-- A frame goes through wrappers whose pointers are stored. -/
theorem exists_drawn (hReady : Ready cpp s) :
    ∃ s', (if s.hasInitImGui then s.procDraw cpp else some s) = some s' := by
  by_cases hInit : s.hasInitImGui = true
  · rw [if_pos hInit, procDraw, hReady.userData, hInit, Bool.not_true, if_neg Bool.false_ne_true]
    dsimp only
    split_ifs with hDisable
    · exact ⟨_, rfl⟩
    · refine exists_callProcs _ fun name hName => ?_
      exact hReady.loaded (.inr hInit) name ⟨_, .inr hName⟩
  · exact ⟨s, if_neg hInit⟩

/-- What is permitted is defined. -/
theorem exists_step (hReady : Ready cpp s) (hPermitted : Permitted s op) :
    ∃ s', step cpp driver op s = some s' := by
  match op with
  | .call (.bootstrapLoader _) => exact ⟨_, rfl⟩
  | .call (.getProc device procName) =>
    obtain ⟨f, hEnter⟩ := enter_of_ready hReady hPermitted rfl (.getProc s.nvnDevice procName)
      fun _ => .fn (s.tempGetProcAddressFuncPtr.bind fun f =>
        driver.getProcAddress s.driverLog f s.nvnDevice procName)
    have hMap : s.getProc driver device procName = _ := congrArg (Option.map _) hEnter
    exact ⟨_, hMap⟩
  | .call (.deviceInit device builder) =>
    obtain ⟨f, hEnter⟩ := enter_of_ready hReady hPermitted rfl (.deviceInit device builder)
      fun f => .boolean (driver.init s.driverLog f (.deviceInit device builder))
    have hBind : s.deviceInit cpp driver device builder = _ := congrArg (Option.bind · _) hEnter
    have hPointer : s.tempGetProcAddressFuncPtr.isSome := hReady.pointers _ (hPermitted.2 rfl)
    rw [Option.bind_some] at hBind
    obtain ⟨t, hLoad⟩ := exists_loadProcs driver cpp.loads (s := { s with
      nvnDevice := device
      driverLog := s.driverLog ++ [.game ⟨some f, .deviceInit device builder,
        .boolean (driver.init s.driverLog f (.deviceInit device builder))⟩] }) hPointer
    rw [step, hBind]
    exact ⟨_, congrArg (Option.bind · _) hLoad⟩
  | .call (.queueInit queue builder) =>
    obtain ⟨f, hEnter⟩ := enter_of_ready hReady hPermitted rfl (.queueInit queue builder)
      fun f => .boolean (driver.init s.driverLog f (.queueInit queue builder))
    have hBind : s.queueInit driver queue builder = _ := congrArg (Option.bind · _) hEnter
    exact ⟨_, hBind⟩
  | .call (.cmdBufInit _ _) => exact exists_cmdBufInit hReady hPermitted
  | .call (.setViewport cmdBuf x y w h) =>
    obtain ⟨f, hEnter⟩ := enter_of_ready hReady hPermitted rfl (.setViewport cmdBuf x y w h)
      fun _ => .nothing
    have hBind : s.setViewport cmdBuf x y w h = _ := congrArg (Option.bind · _) hEnter
    exact ⟨_, hBind⟩
  | .call (.presentTexture queue window texIndex) =>
    obtain ⟨f, hFn⟩ := pointer_of_ready hReady hPermitted rfl
    obtain ⟨t, hDrawn⟩ := exists_drawn hReady
    have hBind : s.presentTexture cpp queue window texIndex = _ := congrArg (Option.bind · _) hDrawn
    obtain ⟨es, rfl, -⟩ := drawn_eq_some queue window texIndex hDrawn
    have hFn' : s.tempPresentTexFunc = some f := hFn
    rw [step, hBind, Option.bind_some]
    dsimp only
    rw [enter, hFn']
    exact ⟨_, rfl⟩
  | .addDrawFunc func =>
    have hNew : s.drawQueue.contains func = false := by
      have hNot : func ∉ s.drawQueue := hPermitted
      simpa using hNot
    exact ⟨_, if_neg (by rw [hNew]; exact Bool.false_ne_true)⟩
  | .disableRender _ => exact ⟨_, rfl⟩

/-! ## Runs -/

theorem Ready.step (hComplete : Complete cpp driver) (hLoads : LoadsWrappers cpp)
    (hReady : Ready cpp s) (h : NvnImGui.step cpp driver op s = some s') : Ready cpp s' where
  pointers hook hHeld := pointer_step hComplete hLoads h hook
    (((step_stepped h).held hHeld).symm.imp_right (hReady.pointers hook))
  userData := by
    have hStepped := step_stepped h
    rw [hStepped.userData, hStepped.hasInit, hReady.userData]
  loaded := loaded_step hComplete hLoads hReady h

theorem initial_ready : Ready cpp (initial : NvnImGui F) where
  pointers _ hHeld := absurd hHeld List.not_mem_nil
  userData := rfl
  loaded h := h.elim (absurd rfl) (fun hInit => absurd hInit Bool.false_ne_true)

/-- **No missing pointer.** Every run of a game that keeps to what it has been given goes on to its
end: no call of the game and none of the backend goes through a pointer that is not stored, and the
overlay is not initialised a second time. -/
theorem run_answered (hComplete : Complete cpp driver) (hLoads : LoadsWrappers cpp) {ops : List Op}
    (hAlong : Along (step cpp driver) Permitted ops initial) :
    ∃ s, run (step cpp driver) ops initial = some s := by
  refine exists_run_of_along (I := Ready cpp) (fun s op hReady hPermitted => ?_) initial_ready
    hAlong
  obtain ⟨s', hStep⟩ := exists_step hReady hPermitted
  exact ⟨s', hStep, hReady.step hComplete hLoads hStep⟩

theorem sampleCpp_loads : LoadsWrappers sampleCpp := by
  rintro procName ⟨s, hInit | hRender⟩
  · cases List.mem_singleton.mp hInit
    exact List.mem_cons_self
  · exact absurd hRender List.not_mem_nil

theorem sampleDriver_complete : Complete sampleCpp sampleDriver :=
  ⟨fun _ _ _ => rfl, fun _ _ _ _ _ => rfl, fun _ _ _ _ _ => rfl⟩

theorem run_answered_sample : ∃ s, run (step sampleCpp sampleDriver)
    [.call (.bootstrapLoader "nvnDeviceInitialize"),
      .call (.bootstrapLoader "nvnDeviceGetProcAddress"),
      .call (.deviceInit 0x1000#64 0x1100#64)] initial = some s := by
  refine run_answered sampleDriver_complete sampleCpp_loads ⟨⟨nofun, nofun⟩, fun s₁ h₁ => ?_⟩
  cases h₁
  refine ⟨⟨nofun, nofun⟩, fun s₂ h₂ => ?_⟩
  cases h₂
  refine ⟨⟨fun h hHook => ?_, fun _ => ?_⟩, fun _ _ => trivial⟩
  · cases hHook
    exact List.mem_cons_self
  · exact List.mem_cons_of_mem _ List.mem_cons_self

end NvnImGui

end Wondar.Program
