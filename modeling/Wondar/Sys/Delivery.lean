import Wondar.Packing
import Wondar.Runs
import Wondar.Sys.ProcHandle

/-!
# The delivery of the process handle

In every order of the steps and with every answer of the kernel a call of `Get` returns what the
kernel delivered, with the handles of the fallback closed, and later calls ask nothing
(`get_served`).

`svcGetInfo` stores a doubleword, whatever its result, and `s_Handle` is a word. The four bytes
behind it stay as they are if and only if they already held the upper half (`get_correct_iff`).
-/

namespace Wondar.Sys.ProcHandle

open Blocks Handles Packing

/-! ## What it is for -/

/-- Nothing has been asked yet. -/
structure Start (L : Layout) (s : State) : Prop where
  caller : s.caller = .idle
  receiver : s.receiver = .absent
  invalid : s.sHandle L = invalidHandle
  delivered : s.delivered = []
  returned : s.returned = []

/-- A call that returned gave the one handle that the kernel delivered, which `s_Handle` holds. No
kernel call has been made since, and between two calls the handles in use are those from before and
the one delivered. -/
structure Served (L : Layout) (s₀ s : State) : Prop where
  delivered : ∀ r ∈ s.returned, s.delivered = [r.1] ∧ s.sHandle L = r.1
  cached : ∀ r ∈ s.returned, r.2 = s.calls
  closed : s.caller = .idle →
    s.handles.entries = s.delivered.map (fun h => (h, .process)) ++ s₀.handles.entries

/-- A byte of `s_Handle` or of a message. -/
def Layout.Owns (L : Layout) (b : Nat) : Prop :=
  L.sHandle ≤ b ∧ b < L.sHandle + 4 ∨ L.callerTls ≤ b ∧ b < L.callerTls + messageSize ∨
    L.receiverTls ≤ b ∧ b < L.receiverTls + messageSize

instance (L : Layout) (b : Nat) : Decidable (L.Owns b) := inferInstanceAs (Decidable (_ ∨ _))

def Frame (L : Layout) (s₀ s : State) : Prop := ∀ b, ¬ L.Owns b → s.mem b = s₀.mem b

structure Correct (L : Layout) (s₀ s : State) : Prop where
  served : Served L s₀ s
  frame : Frame L s₀ s

/-- Where the kernel is asked, which only the calling thread does, the word behind `s_Handle` is the
upper half of its answer. -/
def KeepsBehind (L : Layout) (s : State) (act : Act) : Prop :=
  s.caller = .getInfo → load32 s.mem (L.sHandle + 4) = act.2.x1.extractLsb' 32 32

variable {L : Layout} {a : Answer} {s₀ s s' : State} {act : Act}

/-! ## Memory -/

section

variable {mem : Nat → BitVec 8} {ws : List (BitVec 32)} {cs : List (BitVec 8)} {tls b : Nat}

theorem message_write (h : ws.length = 4) :
    message (write mem tls (ws.flatMap bytesOf32)) tls = ws := by
  obtain ⟨w₀, w₁, w₂, w₃, rfl⟩ := List.length_eq_four.mp h
  have hWord (k : Nat) {w : BitVec 32} (hk : [w₀, w₁, w₂, w₃][k]? = some w) :
      load32 (write mem tls ([w₀, w₁, w₂, w₃].flatMap bytesOf32)) (tls + 4 * k) = w :=
    load32_write_words hk
  simp only [message, List.range, List.range.loop, List.map_cons, List.map_nil]
  rw [hWord 0 rfl, hWord 1 rfl, hWord 2 rfl, hWord 3 rfl]

theorem message_write_of_apart (h : Block.Apart ⟨tls, messageSize⟩ ⟨b, cs.length⟩) :
    message (write mem b cs) tls = message mem tls := by
  apply List.map_congr_left
  intro k hk
  have hLt : k < 4 := List.mem_range.mp hk
  apply load32_write_of_apart
  simp only [Block.Apart, messageSize] at h ⊢
  omega

theorem sHandle_write_of_apart {a : Nat} (hBuffer : Block.Apart ⟨a, 8⟩ ⟨tls, messageSize⟩)
    (hLen : cs.length = messageSize) : load32 (write mem tls cs) a = load32 mem a := by
  apply load32_write_of_apart
  simp only [Block.Apart, hLen] at hBuffer ⊢
  omega

end

/-! ## The invariant -/

/-- Where the receiver can be. -/
def Caller.Allows : Caller → Receiver → Prop
  | .getInfo, r => r = .absent
  | .createSession, r => r = .absent
  | .createThread, r => r = .absent
  | .startThread, r => r = .created
  | .closeThread, r => r = .exited
  | .idle, r => r = .absent ∨ r = .exited
  | .ret, r => r = .absent ∨ r = .exited
  | _, r => r ≠ .absent ∧ r ≠ .created

/-- The receiver has received nothing. -/
def Receiver.Before : Receiver → Prop
  | .absent => True
  | .created => True
  | .memset => True
  | .replyAndReceive => True
  | _ => False

/-- Where the caller can be when a handle has been delivered. -/
def Caller.After : Caller → Prop
  | .getInfo => False
  | .createSession => False
  | .createThread => False
  | .startThread => False
  | _ => True

def Caller.threadOpen : Caller → Bool
  | .startThread => true
  | .memcpy => true
  | .sendSyncRequest => true
  | .sending => true
  | .closeClient => true
  | .waitSynchronization => true
  | .closeThread => true
  | _ => false

def Caller.clientOpen : Caller → Bool
  | .createThread => true
  | .startThread => true
  | .memcpy => true
  | .sendSyncRequest => true
  | .sending => true
  | .closeClient => true
  | _ => false

/-- As far as the calling thread goes. -/
def Caller.serverOpen (c : Caller) : Bool := c.threadOpen || c.clientOpen

def Receiver.serverOpen : Receiver → Bool
  | .exitThread => false
  | .exited => false
  | _ => true

namespace State

/-- The handles that the program has opened and not closed. -/
def inUse (s : State) : List (Handle × Object) :=
  s.delivered.map (fun h => (h, .process)) ++
    ((if s.caller.threadOpen then [(s.threadHandle, .thread)] else []) ++
      ((if s.caller.clientOpen then [(s.clientHandle, .client)] else []) ++
        (if s.caller.serverOpen && s.receiver.serverOpen then [(s.serverHandle, .server)] else [])))

/-- Nothing has been delivered. -/
structure Waiting (L : Layout) (s : State) : Prop where
  delivered : s.delivered = []
  returned : s.returned = []
  caller : s.caller ≠ .ret
  receiver : s.receiver.Before
  invalid : s.caller = .idle ∨ s.caller = .getInfo → s.sHandle L = invalidHandle

/-- A handle has been delivered. It is in the message first. -/
structure Has (L : Layout) (s : State) (h : Handle) : Prop where
  valid : h ≠ invalidHandle
  delivered : s.delivered = [h]
  caller : s.caller.After
  receiver : s.receiver = .absent ∨ ¬ s.receiver.Before
  received : s.receiver = .setHandle → load32 s.mem (L.receiverTls + 4 * 3) = h
  stored : s.receiver ≠ .setHandle → s.sHandle L = h

end State

structure Inv (L : Layout) (s₀ s : State) : Prop where
  control : s.caller.Allows s.receiver
  session : s.receiver ≠ .absent → s.sessionHandle = s.serverHandle
  handles : s.handles.entries = s.inUse ++ s₀.handles.entries
  sent : s.caller = .sendSyncRequest ∨ s.caller = .sending →
    message s.mem L.callerTls = sendProcessHandleMessage
  progress : s.Waiting L ∨ ∃ h, s.Has L h
  returned : ∀ r ∈ s.returned, (s.caller = .idle ∨ s.caller = .ret) ∧ s.sHandle L = r.1 ∧
    r.2 = s.calls

theorem Start.inv (h : Start L s) : Inv L s s where
  control := by
    rw [h.caller, h.receiver]
    exact .inl rfl
  session hReceiver := absurd h.receiver hReceiver
  handles := by
    simp [State.inUse, h.caller, h.delivered, Caller.threadOpen, Caller.clientOpen,
      Caller.serverOpen]
  sent hCaller := by
    rw [h.caller] at hCaller
    rcases hCaller with hCaller | hCaller
    · cases hCaller
    · cases hCaller
  progress := by
    refine .inl ⟨h.delivered, h.returned, ?_, ?_, fun _ => h.invalid⟩
    · simp [h.caller]
    · rw [h.receiver]
      trivial
  returned r hr := by
    rw [h.returned] at hr
    cases hr

/-! ## What a step preserves -/

/-- The receiver thread runs only while the message is exchanged. -/
theorem Caller.Allows.moves {c : Caller} {r r' : Receiver} (h : c.Allows r)
    (hRuns : r ≠ .absent ∧ r ≠ .created ∧ r ≠ .exited) (hRuns' : r' ≠ .absent ∧ r' ≠ .created) :
    c.Allows r' := by
  obtain ⟨hAbsent, hCreated, hExited⟩ := hRuns
  cases c with
  | idle => exact absurd h (not_or.mpr ⟨hAbsent, hExited⟩)
  | getInfo => exact absurd h hAbsent
  | createSession => exact absurd h hAbsent
  | createThread => exact absurd h hAbsent
  | startThread => exact absurd h hCreated
  | closeThread => exact absurd h hExited
  | ret => exact absurd h (not_or.mpr ⟨hAbsent, hExited⟩)
  | _ => exact hRuns'

theorem Caller.Allows.serverOpen {c : Caller} (h : c.Allows .closeSession) :
    c.serverOpen = true := by
  cases c with
  | idle | ret => simp [Caller.Allows] at h
  | getInfo | createSession | createThread | startThread | closeThread => cases h
  | _ => rfl

/-- In front of the exchange nothing has been delivered. -/
theorem Inv.waiting (hInv : Inv L s₀ s) (h : ¬ s.caller.After) : s.Waiting L := by
  rcases hInv.progress with hWaiting | ⟨w, hHas⟩
  · exact hWaiting
  · exact absurd hHas.caller h

/-- A call that finds no handle is the first. -/
theorem Inv.waiting_of_invalid (hInv : Inv L s₀ s) (h : s.caller = .idle)
    (hInvalid : s.sHandle L = invalidHandle) : s.Waiting L ∧ s.receiver = .absent := by
  have hControl := hInv.control
  rw [h] at hControl
  have hNe : s.receiver ≠ .setHandle := by
    rcases hControl with hReceiver | hReceiver
    · simp [hReceiver]
    · simp [hReceiver]
  rcases hInv.progress with hWaiting | ⟨w, hHas⟩
  · refine ⟨hWaiting, ?_⟩
    rcases hControl with hReceiver | hReceiver
    · exact hReceiver
    · have hBefore := hWaiting.receiver
      rw [hReceiver] at hBefore
      exact hBefore.elim
  · exact absurd ((hHas.stored hNe).symm.trans hInvalid) hHas.valid

theorem control_move (hInv : Inv L s₀ s) (hMove : Move L a s s') :
    s'.caller.Allows s'.receiver := by
  have hControl := hInv.control
  cases hMove with
  | aborts h => exact hControl
  | asks h hInvalid => exact (hInv.waiting_of_invalid h hInvalid).2
  | cached h _ | rejected h | createSession h _ _ | memcpy h | sendSyncRequest h | sending h
  | closeClient h | ret h =>
    rw [h] at hControl
    exact hControl
  | answered h t hValid ht =>
    rw [h] at hControl
    exact .inl hControl
  | createThread h t ht => exact rfl
  | startThread h => simp [Caller.Allows]
  | waitSynchronization h hExited => exact hExited
  | closeThread h =>
    rw [h] at hControl
    exact .inr hControl
  | memset h | translated h _ _ _ _ | copied h _ _ | setHandle h | closeSession h | exitThread h =>
    rw [h] at hControl
    exact hControl.moves (by simp) (by simp)

theorem session_move (hInv : Inv L s₀ s) (hMove : Move L a s s') :
    s'.receiver ≠ .absent → s'.sessionHandle = s'.serverHandle := by
  have hSession := hInv.session
  cases hMove with
  | createSession h t ht =>
    have hControl := hInv.control
    rw [h] at hControl
    exact fun hReceiver => absurd hControl hReceiver
  | createThread h t ht => exact fun _ => rfl
  | startThread h =>
    have hControl := hInv.control
    rw [h] at hControl
    have hCreated : s.receiver = .created := hControl
    exact fun _ => hSession (by simp [hCreated])
  | memset h | setHandle h | closeSession h | exitThread h | translated h _ _ _ _ | copied h _ _ =>
    exact fun _ => hSession (by simp [h])
  | _ => exact hSession

theorem sent_move (hInv : Inv L s₀ s) (hMove : Move L a s s') :
    s'.caller = .sendSyncRequest ∨ s'.caller = .sending →
      message s'.mem L.callerTls = sendProcessHandleMessage := by
  have hSent := hInv.sent
  cases hMove with
  | aborts h => exact hSent
  | memcpy h => exact fun _ => message_write rfl
  | sendSyncRequest h => exact fun _ => hSent (.inl h)
  | memset h =>
    exact fun hCaller => (message_write_of_apart L.tls_apart).trans (hSent hCaller)
  | translated h hSending t hValid ht =>
    exact fun hCaller => (message_write_of_apart L.tls_apart).trans (hSent hCaller)
  | copied h hSending hOther => exact absurd (hSent (.inr hSending)) hOther
  | setHandle h =>
    intro hCaller
    have hApart := L.caller_apart
    refine (message_write_of_apart ?_).trans (hSent hCaller)
    simp only [Block.Apart, messageSize, length_bytesOf32] at hApart ⊢
    omega
  | closeSession h => exact hSent
  | exitThread h => exact hSent
  | _ => simp

/-- Each close takes out the entry that it is for. -/
theorem handles_move (hInv : Inv L s₀ s) (hMove : Move L a s s') :
    s'.handles.entries = s'.inUse ++ s₀.handles.entries := by
  have hHandles := hInv.handles
  have hControl := hInv.control
  cases hMove with
  | aborts h => exact hHandles
  | asks h _ | cached h _ | rejected h | memcpy h | sendSyncRequest h | sending h | ret h =>
    simp only [State.inUse, h] at hHandles
    exact hHandles
  | answered h t hValid ht =>
    simp only [State.inUse, h] at hHandles
    exact ht.trans (congrArg _ hHandles)
  | createSession h t ht =>
    have hDelivered := (hInv.waiting (by rw [h]; exact id)).delivered
    rw [h] at hControl
    have hAbsent : s.receiver = .absent := hControl
    simp only [State.inUse, h, hDelivered] at hHandles
    rw [hHandles] at ht
    simp only [State.inUse, State.called, hDelivered, hAbsent]
    exact ht
  | createThread h t ht =>
    have hDelivered := (hInv.waiting (by rw [h]; exact id)).delivered
    rw [h] at hControl
    have hAbsent : s.receiver = .absent := hControl
    simp only [State.inUse, h, hDelivered, hAbsent] at hHandles
    rw [hHandles] at ht
    simp only [State.inUse, State.called, hDelivered]
    exact ht
  | startThread h =>
    rw [h] at hControl
    have hCreated : s.receiver = .created := hControl
    simp only [State.inUse, h, hCreated] at hHandles
    exact hHandles
  | closeClient h =>
    have hEntry : s.handles.entries =
        (s.delivered.map (fun h => (h, .process)) ++ [(s.threadHandle, .thread)]) ++
          (s.clientHandle, .client) ::
            ((if s.receiver.serverOpen then [(s.serverHandle, .server)] else []) ++
              s₀.handles.entries) := by
      simpa [State.inUse, h, Caller.threadOpen, Caller.clientOpen, Caller.serverOpen] using hHandles
    refine (Table.entries_close hEntry).trans ?_
    simp [State.inUse, State.closed, State.called, Caller.threadOpen, Caller.clientOpen,
      Caller.serverOpen]
  | waitSynchronization h hExited =>
    simp only [State.inUse, h, hExited] at hHandles
    simp only [State.inUse, State.called, hExited]
    exact hHandles
  | closeThread h =>
    rw [h] at hControl
    have hExited : s.receiver = .exited := hControl
    have hEntry : s.handles.entries = s.delivered.map (fun h => (h, .process)) ++
        (s.threadHandle, .thread) :: s₀.handles.entries := by
      simpa [State.inUse, h, hExited, Caller.threadOpen, Caller.clientOpen,
        Receiver.serverOpen] using hHandles
    refine (Table.entries_close hEntry).trans ?_
    simp [State.inUse, State.closed, State.called, Caller.threadOpen, Caller.clientOpen,
      Caller.serverOpen]
  | memset h | setHandle h | exitThread h =>
    simp only [State.inUse, h] at hHandles
    exact hHandles
  | translated h hSending t hValid ht =>
    simp only [State.inUse, h] at hHandles
    exact ht.trans (congrArg _ hHandles)
  | copied h hSending hOther => exact absurd (hInv.sent (.inr hSending)) hOther
  | closeSession h =>
    rw [h] at hControl
    have hOpen : s.caller.serverOpen = true := hControl.serverOpen
    have hSame : s.sessionHandle = s.serverHandle := hInv.session (by simp [h])
    have hEntry : s.handles.entries =
        (s.delivered.map (fun h => (h, .process)) ++
            ((if s.caller.threadOpen then [(s.threadHandle, .thread)] else []) ++
              (if s.caller.clientOpen then [(s.clientHandle, .client)] else []))) ++
          (s.sessionHandle, .server) :: s₀.handles.entries := by
      simpa [State.inUse, h, hOpen, hSame, Receiver.serverOpen] using hHandles
    refine (Table.entries_close hEntry).trans ?_
    simp only [State.inUse, Receiver.serverOpen, Bool.and_false, Bool.false_eq_true, if_false,
      List.append_nil]
    rfl

/-- A handle that has been delivered stays. -/
theorem has_move {w : Handle} (hInv : Inv L s₀ s) (hHas : s.Has L w) (hMove : Move L a s s') :
    s'.Has L w := by
  have hBuffer : Block.Apart ⟨L.receiverTls + 4 * 3, 4⟩ ⟨L.callerTls, messageSize⟩ := by
    have hApart := L.tls_apart
    simp only [Block.Apart, messageSize] at hApart ⊢
    omega
  obtain ⟨hValid, hDelivered, hCaller, hReceiver, hReceived, hStored⟩ := hHas
  cases hMove with
  | aborts h => exact ⟨hValid, hDelivered, hCaller, hReceiver, hReceived, hStored⟩
  | asks h hInvalid =>
    have hNone := (hInv.waiting_of_invalid h hInvalid).1.delivered
    rw [hDelivered] at hNone
    cases hNone
  | rejected h | answered h _ _ _ | createSession h _ _ | createThread h _ _ | startThread h =>
    rw [h] at hCaller
    exact hCaller.elim
  | cached h _ | sendSyncRequest h | sending h | closeClient h | waitSynchronization h _
  | closeThread h | ret h =>
    exact ⟨hValid, hDelivered, trivial, hReceiver, hReceived, hStored⟩
  | memcpy h =>
    refine ⟨hValid, hDelivered, trivial, hReceiver, fun hSet => ?_, fun hSet => ?_⟩
    · exact (load32_write_of_apart hBuffer).trans (hReceived hSet)
    · exact (sHandle_write_of_apart L.caller_apart rfl).trans (hStored hSet)
  | memset h | translated h _ _ _ _ | copied h _ _ =>
    rw [h] at hReceiver
    simp [Receiver.Before] at hReceiver
  | setHandle h =>
    refine ⟨hValid, hDelivered, hCaller, .inr id, fun hSet => ?_, fun _ => ?_⟩
    · cases hSet
    · exact load32_store32.trans (hReceived h)
  | closeSession h | exitThread h =>
    refine ⟨hValid, hDelivered, hCaller, .inr id, fun hSet => ?_, fun _ => ?_⟩
    · cases hSet
    · exact hStored (by simp [h])

/-- Nothing is delivered but by an answer to the query or by the message. -/
theorem waiting_move (hInv : Inv L s₀ s) (hWaiting : s.Waiting L) (hMove : Move L a s s') :
    s'.Waiting L ∨ ∃ w, s'.Has L w := by
  have hControl := hInv.control
  obtain ⟨hDelivered, hReturned, hCaller, hReceiver, hInvalid⟩ := hWaiting
  cases hMove with
  | aborts h => exact .inl ⟨hDelivered, hReturned, hCaller, hReceiver, hInvalid⟩
  | asks h hInvalid => exact .inl ⟨hDelivered, hReturned, by simp, hReceiver, fun _ => hInvalid⟩
  | cached h hValid => exact absurd (hInvalid (.inl h)) hValid
  | rejected h | createSession h _ _ | memcpy h | sendSyncRequest h | sending h | closeClient h =>
    exact .inl ⟨hDelivered, hReturned, by simp, hReceiver, by simp⟩
  | createThread h _ _ | startThread h =>
    exact .inl ⟨hDelivered, hReturned, by simp, trivial, by simp⟩
  | answered h t hValid ht =>
    rw [h] at hControl
    have hAbsent : s.receiver = .absent := hControl
    refine .inr ⟨a.w1, hValid, ?_, trivial, .inl hAbsent, fun hSet => ?_, fun _ => ?_⟩
    · exact congrArg _ hDelivered
    · cases hAbsent.symm.trans hSet
    · exact (load32_store64_low s.mem L.sHandle a.x1).trans
        (BitVec.setWidth_eq_extractLsb' (by decide)).symm
  | waitSynchronization h hExited =>
    rw [hExited] at hReceiver
    exact hReceiver.elim
  | closeThread h =>
    rw [h] at hControl
    have hExited : s.receiver = .exited := hControl
    rw [hExited] at hReceiver
    exact hReceiver.elim
  | ret h => exact absurd h hCaller
  | memset h =>
    refine .inl ⟨hDelivered, hReturned, hCaller, trivial, fun hFirst => ?_⟩
    exact (sHandle_write_of_apart L.receiver_apart rfl).trans (hInvalid hFirst)
  | translated h hSending t hValid ht =>
    refine .inr ⟨a.copied, hValid, congrArg _ hDelivered, ?_, .inr id, fun _ => ?_, fun hSet => ?_⟩
    · have hAfter : s.caller.After := by
        rw [hSending]
        trivial
      exact hAfter
    · exact load32_write_words rfl
    · exact absurd rfl hSet
  | copied h hSending hOther => exact absurd (hInv.sent (.inr hSending)) hOther
  | setHandle h | closeSession h | exitThread h =>
    rw [h] at hReceiver
    exact hReceiver.elim

/-- A thread that is at work has not returned before. -/
theorem Inv.returned_nil (hInv : Inv L s₀ s) (h : s.caller ≠ .idle ∧ s.caller ≠ .ret ∨
    s.receiver ≠ .absent ∧ s.receiver ≠ .exited) : s.returned = [] := by
  apply List.eq_nil_iff_forall_not_mem.mpr
  intro r hr
  obtain ⟨hCaller, -⟩ := hInv.returned r hr
  have hControl := hInv.control
  rcases h with ⟨hIdle, hRet⟩ | ⟨hAbsent, hExited⟩
  · exact hCaller.elim hIdle hRet
  · have hAllowed : s.receiver = .absent ∨ s.receiver = .exited := by
      rcases hCaller with hCaller | hCaller
      · rwa [hCaller] at hControl
      · rwa [hCaller] at hControl
    exact hAllowed.elim hAbsent hExited

/-- Behind the first return there are no more kernel calls. -/
theorem returned_move (hInv : Inv L s₀ s) (hMove : Move L a s s') :
    ∀ r ∈ s'.returned, (s'.caller = .idle ∨ s'.caller = .ret) ∧ s'.sHandle L = r.1 ∧
      r.2 = s'.calls := by
  have hNone {s' : State} (hNil : s.returned = []) (hSame : s'.returned = s.returned) :
      ∀ r ∈ s'.returned, (s'.caller = .idle ∨ s'.caller = .ret) ∧ s'.sHandle L = r.1 ∧
        r.2 = s'.calls := by
    rw [hSame, hNil]
    exact fun r hr => by cases hr
  cases hMove with
  | aborts h =>
    refine hNone (hInv.returned_nil ?_) rfl
    rcases h with h | h | h | h | h
    · exact .inl (by simp [h])
    · exact .inl (by simp [h])
    · exact .inl (by simp [h])
    · exact .inl (by simp [h])
    · exact .inr (by simp [h])
  | asks h hInvalid => exact hNone (hInv.waiting_of_invalid h hInvalid).1.returned rfl
  | rejected h | answered h _ _ _ | createSession h _ _ | createThread h _ _ | startThread h
  | memcpy h | sendSyncRequest h | sending h | closeClient h | waitSynchronization h _
  | closeThread h => exact hNone (hInv.returned_nil (.inl (by simp [h]))) rfl
  | memset h | translated h _ _ _ _ | copied h _ _ | setHandle h | closeSession h | exitThread h =>
    exact hNone (hInv.returned_nil (.inr (by simp [h]))) rfl
  | cached h hValid =>
    intro r hr
    exact ⟨.inr rfl, (hInv.returned r hr).2⟩
  | ret h =>
    intro r hr
    rcases List.mem_cons.mp hr with rfl | hr
    · exact ⟨.inl rfl, rfl, rfl⟩
    · exact ⟨.inl rfl, (hInv.returned r hr).2⟩

theorem Inv.step (hInv : Inv L s₀ s) (hStep : step L act s = some s') : Inv L s₀ s' := by
  have hMove := move_of_step hStep
  refine ⟨control_move hInv hMove, session_move hInv hMove, handles_move hInv hMove,
    sent_move hInv hMove, ?_, returned_move hInv hMove⟩
  rcases hInv.progress with hWaiting | ⟨w, hHas⟩
  · exact waiting_move hInv hWaiting hMove
  · exact .inr ⟨w, has_move hInv hHas hMove⟩

theorem Inv.served (hInv : Inv L s₀ s) : Served L s₀ s where
  delivered r hr := by
    obtain ⟨hCaller, hHolds, -⟩ := hInv.returned r hr
    rcases hInv.progress with hWaiting | ⟨w, hHas⟩
    · rw [hWaiting.returned] at hr
      cases hr
    · have hNe : s.receiver ≠ .setHandle := by
        intro hSet
        rw [hInv.returned_nil (.inr (by simp [hSet]))] at hr
        cases hr
      have hSame : w = r.1 := (hHas.stored hNe).symm.trans hHolds
      exact ⟨hSame ▸ hHas.delivered, hHolds⟩
  cached r hr := (hInv.returned r hr).2.2
  closed hCaller := by
    have hHandles := hInv.handles
    simpa [State.inUse, hCaller, Caller.threadOpen, Caller.clientOpen, Caller.serverOpen]
      using hHandles

/-! ## Runs -/

/-- Whatever the kernel answers, and in every order of the steps. -/
theorem get_served (hStart : Start L s₀) (acts : List Act) :
    Runs.Throughout (step L) (Served L s₀) acts s₀ :=
  Runs.throughout_of_along (fun _ hInv => Inv.served hInv)
    (fun _ _ _ hInv _ hStep => Inv.step hInv hStep) hStart.inv
    (Runs.along_of_forall (P := fun _ _ => True) (fun _ _ => trivial) acts s₀)

/-! ## The bytes behind the handle -/

/-- A byte that is not the program's lies behind `s_Handle` or away from it. -/
theorem store64_of_not_owned {b : Nat} {value : BitVec 64} (hb : ¬ L.Owns b)
    (hBehind : load32 s.mem (L.sHandle + 4) = value.extractLsb' 32 32) :
    store64 s.mem L.sHandle value b = s.mem b := by
  have hNot : ¬ (L.sHandle ≤ b ∧ b < L.sHandle + 4) := fun hIn => hb (.inl hIn)
  have hLen : (bytesOf value).length = 8 := rfl
  by_cases hWord : L.sHandle + 4 ≤ b ∧ b < L.sHandle + 8
  · have hSame : load32 (store64 s.mem L.sHandle value) (L.sHandle + 4) =
        load32 s.mem (L.sHandle + 4) := (load32_store64_high s.mem L.sHandle value).trans hBehind.symm
    obtain ⟨i, rfl⟩ := Nat.exists_eq_add_of_le hWord.1
    have hi : i < 4 := by omega
    exact List.map_inj_left.mp (read_eq_of_load32 hSame) i (List.mem_range.mpr hi)
  · exact write_outside (by omega)

theorem frame_move (hMove : Move L act.2 s s') (hKeeps : KeepsBehind L s act) :
    Frame L s s' := by
  intro b hb
  have hParts := not_or.mp hb
  obtain ⟨hCaller, hReceiver⟩ := not_or.mp hParts.2
  cases hMove with
  | rejected h | answered h _ _ _ => exact store64_of_not_owned hb (hKeeps h)
  | memcpy h => exact write_outside hCaller
  | memset h | translated h _ _ _ _ | copied h _ _ => exact write_outside hReceiver
  | setHandle h => exact write_outside hParts.1
  | _ => rfl

/-- The step that asks the kernel stores a doubleword, whatever the kernel answers. -/
theorem mem_getInfo (hInv : Inv L s₀ s) (h : s.caller = .getInfo)
    (hMove : Move L a s s') : s'.mem = store64 s.mem L.sHandle a.x1 := by
  have hControl := hInv.control
  rw [h] at hControl
  have hAbsent : s.receiver = .absent := hControl
  cases hMove with
  | rejected _ | answered _ _ _ _ => rfl
  | aborts hAbort => simp [State.MayAbort, h, hAbsent] at hAbort
  | asks hPc _ | cached hPc _ | createSession hPc _ _ | createThread hPc _ _ | startThread hPc
  | memcpy hPc | sendSyncRequest hPc | sending hPc | closeClient hPc | waitSynchronization hPc _
  | closeThread hPc | ret hPc => cases h.symm.trans hPc
  | memset hPc | translated hPc _ _ _ _ | copied hPc _ _ | setHandle hPc | closeSession hPc
  | exitThread hPc => cases hAbsent.symm.trans hPc

theorem not_owns_behind {i : Nat} (hi : i < 4) : ¬ L.Owns (L.sHandle + 4 + i) := by
  intro hOwned
  have hCaller := L.caller_apart
  have hReceiver := L.receiver_apart
  simp only [Block.Apart] at hCaller hReceiver
  unfold Layout.Owns at hOwned
  omega

theorem frame_broken (hInv : Inv L s₀ s) (hFrame : Frame L s₀ s) (hKeeps : ¬ KeepsBehind L s act)
    (hMove : Move L act.2 s s') : ¬ Frame L s₀ s' := by
  intro hFrame'
  apply hKeeps
  intro h
  have hSame : load32 s.mem (L.sHandle + 4) = load32 s'.mem (L.sHandle + 4) :=
    load32_congr fun i hi =>
      (hFrame _ (not_owns_behind hi)).trans (hFrame' _ (not_owns_behind hi)).symm
  rw [hSame, mem_getInfo hInv h hMove]
  exact load32_store64_high s.mem L.sHandle act.2.x1

theorem keeps_step (hKeeps : KeepsBehind L s act) (h : Inv L s₀ s ∧ Frame L s₀ s)
    (hStep : step L act s = some s') : Inv L s₀ s' ∧ Frame L s₀ s' := by
  refine ⟨h.1.step hStep, fun b hb => ?_⟩
  exact (frame_move (move_of_step hStep) hKeeps b hb).trans (h.2 b hb)

/-- A kernel whose answers all have the upper half that the word behind `s_Handle` holds. -/
theorem along_of_upper {acts : List Act} (hStart : Start L s₀)
    (hUpper : ∀ act ∈ acts, load32 s₀.mem (L.sHandle + 4) = act.2.x1.extractLsb' 32 32) :
    Runs.Along (step L) (KeepsBehind L) acts s₀ := by
  have hBehind {s : State} (hFrame : Frame L s₀ s) :
      load32 s.mem (L.sHandle + 4) = load32 s₀.mem (L.sHandle + 4) :=
    load32_congr fun i hi => hFrame _ (not_owns_behind hi)
  suffices hAll : ∀ s, Inv L s₀ s ∧ Frame L s₀ s → Runs.Along (step L) (KeepsBehind L) acts s from
    hAll s₀ ⟨hStart.inv, fun _ _ => rfl⟩
  induction acts with
  | nil => exact fun _ _ => trivial
  | cons act acts ih =>
    intro s h
    obtain ⟨hHead, hTail⟩ := List.forall_mem_cons.mp hUpper
    have hKeeps : KeepsBehind L s act := fun _ => (hBehind h.2).trans hHead
    exact ⟨hKeeps, fun s' hStep => ih hTail s' (keeps_step hKeeps h hStep)⟩

/-- The exact condition under which nothing else is touched. -/
theorem get_correct_iff (L : Layout) (s₀ s : State) (acts : List Act) (hStart : Start L s₀)
    (hRun : Runs.run (step L) acts s₀ = some s) :
    Runs.Throughout (step L) (Correct L s₀) acts s₀ ↔
      Runs.Along (step L) (KeepsBehind L) acts s₀ := by
  have hBreak : ∀ s act s', Inv L s₀ s ∧ Frame L s₀ s → ¬ KeepsBehind L s act →
      step L act s = some s' → ¬ Correct L s₀ s' := by
    rintro s act s' ⟨hInv, hFrame⟩ hKeeps hStep hCorrect
    exact frame_broken hInv hFrame hKeeps (move_of_step hStep) hCorrect.frame
  exact Runs.throughout_iff_along (fun s h => ⟨h.1.served, h.2⟩)
    (fun s act s' h hKeeps hStep => keeps_step hKeeps h hStep) hBreak
    ⟨hStart.inv, fun _ _ => rfl⟩ hRun

/-! ## Samples -/

def layout : Layout where
  sHandle := 0x1000
  callerTls := 0x2000
  receiverTls := 0x3000
  caller_apart := by decide
  receiver_apart := by decide
  tls_apart := by decide

/-- Some handle is in use, and `behind` is the byte behind `s_Handle`. -/
def initial (behind : BitVec 8) : State where
  caller := .idle
  receiver := .absent
  serverHandle := 0#32
  clientHandle := 0#32
  threadHandle := 0#32
  sessionHandle := 0#32
  mem a := if a = 0x1004 then behind else 0#8
  handles := ⟨[(0x20#32, .other)], List.nodup_singleton _⟩
  aborted := false
  delivered := []
  calls := 0
  returned := []

theorem initial_start (behind : BitVec 8) : Start layout (initial behind) :=
  ⟨rfl, rfl, rfl, rfl, rfl⟩

def acts (steps : List (Thread × Result × BitVec 64 × BitVec 64 × Handle)) : List Act :=
  steps.map fun a => (a.1, ⟨a.2.1, a.2.2.1, a.2.2.2.1, a.2.2.2.2⟩)

/-- A kernel that knows the query. -/
def direct : List Act :=
  acts [(.caller, 0, 0, 0, 0), (.caller, 0, 0x21, 0, 0), (.caller, 0, 0, 0, 0)]

/-- A kernel that does not know it, and a second call. -/
def fallback : List Act :=
  acts [(.caller, 0, 0, 0, 0), (.caller, 0xF001, 0, 0, 0), (.caller, 0, 0x21, 0x22, 0),
    (.caller, 0, 0x23, 0, 0), (.caller, 0, 0, 0, 0), (.receiver, 0, 0, 0, 0),
    (.caller, 0, 0, 0, 0), (.caller, 0, 0, 0, 0), (.receiver, 0, 0, 0, 0x24),
    (.receiver, 0, 0, 0, 0), (.receiver, 0, 0, 0, 0), (.caller, 0, 0, 0, 0),
    (.caller, 0, 0, 0, 0), (.receiver, 0, 0, 0, 0), (.caller, 0, 0, 0, 0),
    (.caller, 0, 0, 0, 0), (.caller, 0, 0, 0, 0), (.caller, 0, 0, 0, 0), (.caller, 0, 0, 0, 0)]

theorem get_correct_iff_fallback :
    ∃ s, Runs.run (step layout) fallback (initial 0#8) = some s ∧
      s.returned = [(0x24#32, 11), (0x24#32, 11)] ∧
      Runs.Throughout (step layout) (Correct layout (initial 0#8)) fallback (initial 0#8) := by
  have hReturned : (Runs.run (step layout) fallback (initial 0#8)).map State.returned =
      some [(0x24#32, 11), (0x24#32, 11)] := by decide +kernel
  obtain ⟨s, hRun, hSame⟩ := Option.map_eq_some_iff.mp hReturned
  refine ⟨s, hRun, hSame, ?_⟩
  apply (get_correct_iff layout (initial 0#8) s fallback (initial_start 0#8) hRun).mpr
  exact along_of_upper (initial_start 0#8) (by decide +kernel)

/-- The byte behind `s_Handle` is lost. -/
theorem get_overwrites :
    Start layout (initial 1#8) ∧
      ∃ s, Runs.run (step layout) direct (initial 1#8) = some s ∧ s.returned = [(0x21#32, 1)] ∧
        s.mem 0x1004 = 0#8 ∧
        ¬ Runs.Throughout (step layout) (Correct layout (initial 1#8)) direct (initial 1#8) := by
  have hRead : (Runs.run (step layout) direct (initial 1#8)).map
      (fun s => (s.returned, s.mem 0x1004)) = some ([(0x21#32, 1)], 0#8) := by decide +kernel
  obtain ⟨s, hRun, hSame⟩ := Option.map_eq_some_iff.mp hRead
  obtain ⟨hReturned, hByte⟩ := Prod.mk.inj hSame
  refine ⟨initial_start 1#8, s, hRun, hReturned, hByte, fun hAll => ?_⟩
  have hFrame := (hAll.final hRun).frame 0x1004 (by decide)
  rw [hByte] at hFrame
  exact absurd hFrame (by decide)

end Wondar.Sys.ProcHandle
