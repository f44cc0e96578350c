import Wondar.Blocks
import Wondar.Handles
import Wondar.Setting

/-!
# The process handle

`proc_handle::Get` keeps the handle in `s_Handle`. The first call asks the kernel with
`svcGetInfo`, and where the kernel rejects that it sends the handle to itself: a thread that it
creates receives it through a session.

A step is one of the calling thread or of the receiver thread, with what the kernel answers to the
call that is made there. `move_of_step` lists all that a step can do.
-/

namespace Wondar.Sys.ProcHandle

open Blocks Handles

/-! ## Kernel objects and memory -/

abbrev Handle := BitVec 32

/-- `INVALID_HANDLE`. -/
def invalidHandle : Handle := 0#32

/-- `CUR_PROCESS_HANDLE`. -/
def curProcessHandle : Handle := 0xFFFF8001#32

inductive Object
  | process
  | server
  | client
  | thread
  | other
deriving DecidableEq, Repr

/-- The words of `SendProcessHandleMessage`: no data, and one handle to copy. -/
def sendProcessHandleMessage : List (BitVec 32) :=
  [0x00000000#32, 0x80000000#32, 0x00000002#32, curProcessHandle]

/-- What the message of four words takes. -/
def messageSize : Nat := 0x10

/-- Where `s_Handle` and the message buffers of the two threads are. The doubleword at `s_Handle` is
no part of a buffer. -/
structure Layout where
  sHandle : Nat
  callerTls : Nat
  receiverTls : Nat
  caller_apart : Block.Apart ⟨sHandle, 8⟩ ⟨callerTls, messageSize⟩
  receiver_apart : Block.Apart ⟨sHandle, 8⟩ ⟨receiverTls, messageSize⟩
  tls_apart : Block.Apart ⟨callerTls, messageSize⟩ ⟨receiverTls, messageSize⟩

/-- The message in a buffer. -/
def message (mem : Nat → BitVec 8) (tls : Nat) : List (BitVec 32) :=
  (List.range 4).map fun k => load32 mem (tls + 4 * k)

/-! ## The two threads -/

/-- What the calling thread does next. `sending` is inside `svcSendSyncRequest`. -/
inductive Caller
  | idle
  | getInfo
  | createSession
  | createThread
  | startThread
  | memcpy
  | sendSyncRequest
  | sending
  | closeClient
  | waitSynchronization
  | closeThread
  | ret
deriving DecidableEq, Repr

/-- What the receiver thread does next. -/
inductive Receiver
  | absent
  | created
  | memset
  | replyAndReceive
  | setHandle
  | closeSession
  | exitThread
  | exited
deriving DecidableEq, Repr

inductive Thread
  | caller
  | receiver
deriving DecidableEq, Repr

/-- What the kernel leaves in the registers, and the handle that it puts in place of one to copy. -/
structure Answer where
  result : Result
  x1 : BitVec 64
  x2 : BitVec 64
  copied : Handle

def Answer.w1 (a : Answer) : Handle := a.x1.setWidth 32

def Answer.w2 (a : Answer) : Handle := a.x2.setWidth 32

abbrev Act := Thread × Answer

/-- `delivered` are the handles to the process that the kernel gave, the last first, `calls` counts
the kernel calls of both threads, and `returned` has what the calls of `Get` returned, the last
first, each with the count at the time. -/
structure State where
  caller : Caller
  receiver : Receiver
  serverHandle : Handle
  clientHandle : Handle
  threadHandle : Handle
  sessionHandle : Handle
  mem : Nat → BitVec 8
  handles : Table Handle Object
  aborted : Bool
  delivered : List Handle
  calls : Nat
  returned : List (Handle × Nat)

namespace State

def sHandle (L : Layout) (s : State) : Handle := load32 s.mem L.sHandle

def called (s : State) : State := { s with calls := s.calls + 1 }

/-- `R_ABORT_UNLESS` in front of what follows. -/
def abortUnless (s : State) (result : Result) (next : Option State) : Option State :=
  if rFailed result then some { s with aborted := true } else next

/-- The kernel opens a handle, never one in use and never the invalid one. -/
def opened (s : State) (h : Handle) (o : Object) : Option State :=
  if h = invalidHandle then none else (s.handles.insert h o).map fun t => { s with handles := t }

/-- `svcCloseHandle`. -/
def closed (s : State) (h : Handle) : State := { s.called with handles := s.handles.close h }

/-- The kernel delivers a handle to the process. -/
def deliver (s : State) (h : Handle) : Option State :=
  (s.opened h .process).map fun s => { s with delivered := h :: s.delivered }

end State

/-! ## The functions -/

/-- The result is stored whether the kernel knows the query or not. -/
def getViaMesosphere (L : Layout) (a : Answer) (s : State) : Option State :=
  let s := { s.called with mem := store64 s.mem L.sHandle a.x1 }
  if rFailed a.result then some { s with caller := .createSession }
  else (s.deliver a.w1).map fun s => { s with caller := .ret }

/-- `svcSendSyncRequest` may come back at any time, and the result is not looked at;
`svcWaitSynchronizationSingle` succeeds when the thread has exited. -/
def getViaIpcTrick (L : Layout) (a : Answer) (s : State) : Option State :=
  match s.caller with
  | .createSession =>
    s.called.abortUnless a.result <|
      ((s.called.opened a.w1 .server).bind fun s => s.opened a.w2 .client).map fun s =>
        { s with serverHandle := a.w1, clientHandle := a.w2, caller := .createThread }
  | .createThread =>
    s.called.abortUnless a.result <|
      (s.called.opened a.w1 .thread).map fun s =>
        { s with
          threadHandle := a.w1
          sessionHandle := s.serverHandle
          receiver := .created
          caller := .startThread }
  | .startThread =>
    s.called.abortUnless a.result <| some { s.called with receiver := .memset, caller := .memcpy }
  | .memcpy =>
    some { s with
      mem := write s.mem L.callerTls (sendProcessHandleMessage.flatMap bytesOf32)
      caller := .sendSyncRequest }
  | .sendSyncRequest => some { s.called with caller := .sending }
  | .sending => some { s with caller := .closeClient }
  | .closeClient => some { s.closed s.clientHandle with caller := .waitSynchronization }
  | .waitSynchronization =>
    s.called.abortUnless a.result <|
      if s.receiver = .exited then some { s.called with caller := .closeThread } else none
  | .closeThread => some { s.closed s.threadHandle with caller := .ret }
  | _ => none

def get (L : Layout) (a : Answer) (s : State) : Option State :=
  match s.caller with
  | .idle => some { s with caller := if s.sHandle L = invalidHandle then .getInfo else .ret }
  | .getInfo => getViaMesosphere L a s
  | .ret => some { s with caller := .idle, returned := (s.sHandle L, s.calls) :: s.returned }
  | _ => getViaIpcTrick L a s

/-- `svcReplyAndReceive` succeeds while the other thread sends. The kernel copies the message, with
a handle to the process in word 3 where the message asks for that. -/
def receiveProcessHandleThreadMain (L : Layout) (a : Answer) (s : State) : Option State :=
  match s.receiver with
  | .memset =>
    some { s with
      mem := write s.mem L.receiverTls (List.replicate messageSize 0#8)
      receiver := .replyAndReceive }
  | .replyAndReceive =>
    s.called.abortUnless a.result <|
      if s.caller = .sending then
        let sent := message s.mem L.callerTls
        let received (s : State) (words : List (BitVec 32)) : State :=
          { s with
            mem := write s.mem L.receiverTls (words.flatMap bytesOf32)
            receiver := .setHandle }
        if sent = sendProcessHandleMessage then
          (s.called.deliver a.copied).map fun s => received s (sent.set 3 a.copied)
        else some (received s.called sent)
      else none
  | .setHandle =>
    some { s with
      mem := store32 s.mem L.sHandle (load32 s.mem (L.receiverTls + 4 * 3))
      receiver := .closeSession }
  | .closeSession => some { s.closed s.sessionHandle with receiver := .exitThread }
  | .exitThread => some { s.called with receiver := .exited }
  | _ => none

/-- A step of one of the threads, unless the process has been aborted. -/
def step (L : Layout) (act : Act) (s : State) : Option State :=
  if s.aborted then none
  else
    match act.1 with
    | .caller => get L act.2 s
    | .receiver => receiveProcessHandleThreadMain L act.2 s

variable {L : Layout} {a : Answer} {s s' : State} {act : Act}

/-! ## The steps -/

/-- The next call may abort. -/
def State.MayAbort (s : State) : Prop :=
  s.caller = .createSession ∨ s.caller = .createThread ∨ s.caller = .startThread ∨
    s.caller = .waitSynchronization ∨ s.receiver = .replyAndReceive

/-- All that a step can do. -/
inductive Move (L : Layout) (a : Answer) (s : State) : State → Prop
  | aborts (h : s.MayAbort) : Move L a s { s.called with aborted := true }
  | asks (h : s.caller = .idle) (hInvalid : s.sHandle L = invalidHandle) :
      Move L a s { s with caller := .getInfo }
  | cached (h : s.caller = .idle) (hValid : s.sHandle L ≠ invalidHandle) :
      Move L a s { s with caller := .ret }
  | rejected (h : s.caller = .getInfo) :
      Move L a s { s.called with mem := store64 s.mem L.sHandle a.x1, caller := .createSession }
  | answered (h : s.caller = .getInfo) (t : Table Handle Object) (hValid : a.w1 ≠ invalidHandle)
      (ht : t.entries = (a.w1, .process) :: s.handles.entries) :
      Move L a s { s.called with
        mem := store64 s.mem L.sHandle a.x1
        handles := t
        delivered := a.w1 :: s.delivered
        caller := .ret }
  | createSession (h : s.caller = .createSession) (t : Table Handle Object)
      (ht : t.entries = (a.w2, .client) :: (a.w1, .server) :: s.handles.entries) :
      Move L a s { s.called with
        handles := t
        serverHandle := a.w1
        clientHandle := a.w2
        caller := .createThread }
  | createThread (h : s.caller = .createThread) (t : Table Handle Object)
      (ht : t.entries = (a.w1, .thread) :: s.handles.entries) :
      Move L a s { s.called with
        handles := t
        threadHandle := a.w1
        sessionHandle := s.serverHandle
        receiver := .created
        caller := .startThread }
  | startThread (h : s.caller = .startThread) :
      Move L a s { s.called with receiver := .memset, caller := .memcpy }
  | memcpy (h : s.caller = .memcpy) :
      Move L a s { s with
        mem := write s.mem L.callerTls (sendProcessHandleMessage.flatMap bytesOf32)
        caller := .sendSyncRequest }
  | sendSyncRequest (h : s.caller = .sendSyncRequest) :
      Move L a s { s.called with caller := .sending }
  | sending (h : s.caller = .sending) : Move L a s { s with caller := .closeClient }
  | closeClient (h : s.caller = .closeClient) :
      Move L a s { s.closed s.clientHandle with caller := .waitSynchronization }
  | waitSynchronization (h : s.caller = .waitSynchronization) (hExited : s.receiver = .exited) :
      Move L a s { s.called with caller := .closeThread }
  | closeThread (h : s.caller = .closeThread) :
      Move L a s { s.closed s.threadHandle with caller := .ret }
  | ret (h : s.caller = .ret) :
      Move L a s { s with caller := .idle, returned := (s.sHandle L, s.calls) :: s.returned }
  | memset (h : s.receiver = .memset) :
      Move L a s { s with
        mem := write s.mem L.receiverTls (List.replicate messageSize 0#8)
        receiver := .replyAndReceive }
  | translated (h : s.receiver = .replyAndReceive) (hSending : s.caller = .sending)
      (t : Table Handle Object) (hValid : a.copied ≠ invalidHandle)
      (ht : t.entries = (a.copied, .process) :: s.handles.entries) :
      Move L a s { s.called with
        mem := write s.mem L.receiverTls
          ((sendProcessHandleMessage.set 3 a.copied).flatMap bytesOf32)
        handles := t
        delivered := a.copied :: s.delivered
        receiver := .setHandle }
  | copied (h : s.receiver = .replyAndReceive) (hSending : s.caller = .sending)
      (hOther : message s.mem L.callerTls ≠ sendProcessHandleMessage) :
      Move L a s { s.called with
        mem := write s.mem L.receiverTls ((message s.mem L.callerTls).flatMap bytesOf32)
        receiver := .setHandle }
  | setHandle (h : s.receiver = .setHandle) :
      Move L a s { s with
        mem := store32 s.mem L.sHandle (load32 s.mem (L.receiverTls + 4 * 3))
        receiver := .closeSession }
  | closeSession (h : s.receiver = .closeSession) :
      Move L a s { s.closed s.sessionHandle with receiver := .exitThread }
  | exitThread (h : s.receiver = .exitThread) : Move L a s { s.called with receiver := .exited }

theorem State.opened_eq {h : Handle} {o : Object} (hOpened : s.opened h o = some s') :
    h ≠ invalidHandle ∧
      ∃ t, s' = { s with handles := t } ∧ t.entries = (h, o) :: s.handles.entries := by
  unfold State.opened at hOpened
  split at hOpened
  · cases hOpened
  · rename_i hValid
    obtain ⟨t, hInsert, rfl⟩ := Option.map_eq_some_iff.mp hOpened
    exact ⟨hValid, t, rfl, Table.entries_insert hInsert⟩

theorem State.deliver_eq {h : Handle} (hDeliver : s.deliver h = some s') :
    h ≠ invalidHandle ∧ ∃ t, s' = { s with handles := t, delivered := h :: s.delivered } ∧
      t.entries = (h, .process) :: s.handles.entries := by
  obtain ⟨s₁, hOpened, rfl⟩ := Option.map_eq_some_iff.mp hDeliver
  obtain ⟨hValid, t, rfl, hEntries⟩ := State.opened_eq hOpened
  exact ⟨hValid, t, rfl, hEntries⟩

/-- A call that aborts where it fails. -/
theorem State.abortUnless_eq {result : Result} {next : Option State}
    (h : s.abortUnless result next = some s') : s' = { s with aborted := true } ∨ next = some s' := by
  unfold State.abortUnless at h
  split at h
  · cases h
    exact .inl rfl
  · exact .inr h

theorem move_of_getViaMesosphere (h : s.caller = .getInfo)
    (hStep : getViaMesosphere L a s = some s') : Move L a s s' := by
  unfold getViaMesosphere at hStep
  dsimp only at hStep
  split at hStep
  · cases hStep
    exact .rejected h
  · obtain ⟨s₁, hDeliver, rfl⟩ := Option.map_eq_some_iff.mp hStep
    obtain ⟨hValid, t, rfl, hEntries⟩ := State.deliver_eq hDeliver
    exact .answered h t hValid hEntries

theorem move_of_getViaIpcTrick (hStep : getViaIpcTrick L a s = some s') : Move L a s s' := by
  unfold getViaIpcTrick at hStep
  split at hStep
  · rename_i h
    rcases State.abortUnless_eq hStep with rfl | hNext
    · exact .aborts (.inl h)
    · obtain ⟨s₂, hBoth, rfl⟩ := Option.map_eq_some_iff.mp hNext
      obtain ⟨s₁, hServer, hClient⟩ := Option.bind_eq_some_iff.mp hBoth
      obtain ⟨-, t₁, rfl, hEntries₁⟩ := State.opened_eq hServer
      obtain ⟨-, t₂, rfl, hEntries₂⟩ := State.opened_eq hClient
      exact .createSession h t₂ (hEntries₂.trans (congrArg _ hEntries₁))
  · rename_i h
    rcases State.abortUnless_eq hStep with rfl | hNext
    · exact .aborts (.inr (.inl h))
    · obtain ⟨s₁, hOpened, rfl⟩ := Option.map_eq_some_iff.mp hNext
      obtain ⟨-, t, rfl, hEntries⟩ := State.opened_eq hOpened
      exact .createThread h t hEntries
  · rename_i h
    rcases State.abortUnless_eq hStep with rfl | hNext
    · exact .aborts (.inr (.inr (.inl h)))
    · cases hNext
      exact .startThread h
  · rename_i h
    cases hStep
    exact .memcpy h
  · rename_i h
    cases hStep
    exact .sendSyncRequest h
  · rename_i h
    cases hStep
    exact .sending h
  · rename_i h
    cases hStep
    exact .closeClient h
  · rename_i h
    rcases State.abortUnless_eq hStep with rfl | hNext
    · exact .aborts (.inr (.inr (.inr (.inl h))))
    · split at hNext
      · rename_i hExited
        cases hNext
        exact .waitSynchronization h hExited
      · cases hNext
  · rename_i h
    cases hStep
    exact .closeThread h
  · cases hStep

theorem move_of_get (hStep : get L a s = some s') : Move L a s s' := by
  unfold get at hStep
  split at hStep
  · rename_i h
    cases hStep
    by_cases hInvalid : s.sHandle L = invalidHandle
    · rw [if_pos hInvalid]
      exact .asks h hInvalid
    · rw [if_neg hInvalid]
      exact .cached h hInvalid
  · rename_i h
    exact move_of_getViaMesosphere h hStep
  · rename_i h
    cases hStep
    exact .ret h
  · exact move_of_getViaIpcTrick hStep

theorem move_of_receiver (hStep : receiveProcessHandleThreadMain L a s = some s') :
    Move L a s s' := by
  unfold receiveProcessHandleThreadMain at hStep
  split at hStep
  · rename_i h
    cases hStep
    exact .memset h
  · rename_i h
    rcases State.abortUnless_eq hStep with rfl | hNext
    · exact .aborts (.inr (.inr (.inr (.inr h))))
    · split at hNext
      · rename_i hSending
        dsimp only at hNext
        split at hNext
        · rename_i hAsks
          obtain ⟨s₁, hDeliver, rfl⟩ := Option.map_eq_some_iff.mp hNext
          obtain ⟨hValid, t, rfl, hEntries⟩ := State.deliver_eq hDeliver
          rw [hAsks]
          exact .translated h hSending t hValid hEntries
        · rename_i hOther
          cases hNext
          exact .copied h hSending hOther
      · cases hNext
  · rename_i h
    cases hStep
    exact .setHandle h
  · rename_i h
    cases hStep
    exact .closeSession h
  · rename_i h
    cases hStep
    exact .exitThread h
  · cases hStep

theorem move_of_step (hStep : step L act s = some s') : Move L act.2 s s' := by
  unfold step at hStep
  split at hStep
  · cases hStep
  · split at hStep
    · exact move_of_get hStep
    · exact move_of_receiver hStep

end Wondar.Sys.ProcHandle
