import Mathlib.Algebra.Group.Nat.Defs
import Mathlib.Data.List.Forall2
import Mathlib.Data.List.Nodup
import Wondar.Blocks
import Wondar.CString
import Wondar.Sead.PtrArray
import Wondar.Traced

/-!
# The log

`log`, `warn` and `err` write a record, a type and a text, into the memory of the log heap and
append it to `sLogLines`; before that the oldest records are freed until there is a line left and
the heap has some room. The heap is the `ExpHeap` of sead, which is not part of the repository.

A call is computed with its effects: what it asks of the heap, and its stores. Over a sequence of
calls every record that was allocated is freed or listed, in the order of the calls, and the listed
ones hold the most recent messages (`keeps_recent`).
-/

namespace Wondar.Pe.Log

open Blocks CString Sead

/-! ## The calls -/

structure ExpHeap (heap : Type) extends Allocator heap where
  getFreeSize : heap → Nat

inductive LogType
  | log
  | warning
  | error
deriving DecidableEq, Repr

def LogType.val : LogType → Byte
  | .log => 0#8
  | .warning => 1#8
  | .error => 2#8

/-- A formatted message. `vsnprintf` returns its size as an `int`. -/
structure Message where
  type : LogType
  text : Str
  representable : text.bytes.length < 2 ^ 31

def Message.len (m : Message) : Nat := m.text.bytes.length

/-- The bytes of a record: the type, the text and its NUL. -/
def Message.record (m : Message) : List Byte := m.type.val :: (m.text.bytes ++ [0#8])

/-- What a call does: to the heap, and to the memory, with the heap at that time. -/
inductive Effect (heap : Type)
  | alloc (data : Nat)
  | free (line : Nat)
  | store (addr : Nat) (bytes : List Byte) (h : heap)

structure State (heap array : Type) where
  mem : Nat → Byte
  sLogHeap : heap
  sLogLines : array
  shouldLogWindowScrollDown : Bool

def sMaxLines : Nat := 8192

/-- Where the loop of `addLog` is after some rounds. -/
inductive Loop (state : Type)
  | running
  | popEmpty
  | ended (s : state)

section

variable {heap array : Type} (H : ExpHeap heap) (P : PtrArray Nat array)

/-- The state in which the first message is logged. -/
def initializeLog (mem : Nat → Byte) (h : heap) : State heap array where
  mem := mem
  sLogHeap := h
  sLogLines := P.allocBuffer sMaxLines
  shouldLogWindowScrollDown := false

def store (addr : Nat) (bytes : List Byte) (s : State heap array) :
    Traced (Effect heap) (State heap array) :=
  ⟨[.store addr bytes s.sLogHeap], some { s with mem := write s.mem addr bytes }⟩

/-- The condition of the loop. -/
def Crowded (len : Nat) (s : State heap array) : Prop :=
  sMaxLines ≤ P.size s.sLogLines ∨ H.getFreeSize s.sLogHeap < len + 256

instance (len : Nat) (s : State heap array) : Decidable (Crowded H P len s) :=
  inferInstanceAs (Decidable (_ ∨ _))

/-- A round of the loop: the oldest line, and the state without it. -/
def freeLine (s : State heap array) : Option (Nat × State heap array) :=
  (P.popFront s.sLogLines).map fun (line, lines) =>
    (line, { s with sLogHeap := H.free s.sLogHeap line, sLogLines := lines })

/-- The loop of `addLog` with a number of rounds; a round that finds no line calls `popFront` on the
empty array. -/
def evictLoop (len : Nat) :
    Nat → State heap array → Traced (Effect heap) (Loop (State heap array))
  | 0, _ => return .running
  | rounds + 1, s =>
    if Crowded H P len s then
      match freeLine H P s with
      | some (line, s) => do
        Traced.emit (.free line)
        evictLoop len rounds s
      | none => return .popEmpty
    else return .ended s

/-- The loop of `addLog`. Every round takes a line off the array, and with no line left a round
changes nothing: the call does not return. -/
def evict (len : Nat) (s : State heap array) : Traced (Effect heap) (State heap array) := do
  match ← evictLoop H P len (P.size s.sLogLines + 1) s with
  | .ended s => return s
  | _ => Traced.stop

def freeAll (h : heap) (lines : List Nat) : heap := lines.foldl H.free h

/-- `addLog` up to the loop: the address of the record, and the state. The type is stored through
what `alloc` returned, and null is no memory. -/
def newRecord (type : LogType) (len : Nat) (s : State heap array) :
    Traced (Effect heap) (Nat × State heap array) :=
  match H.alloc s.sLogHeap (len + 2) with
  | none => do
    let _ ← store 0 [type.val] s
    Traced.stop
  | some (data, h) => do
    Traced.emit (.alloc data)
    let s ← store data [type.val] { s with sLogHeap := h }
    return (data, s)

/-- `addLog`. -/
def addLog (type : LogType) (len : Nat) (s : State heap array) :
    Traced (Effect heap) (Nat × State heap array) := do
  let (data, s) ← newRecord H type len s
  let s ← evict H P len s
  return (data + 1, { s with sLogLines := P.pushBack s.sLogLines data })

/-- `log`, `warn` and `err`. -/
def log (m : Message) (s : State heap array) : Traced (Effect heap) (State heap array) := do
  let (msg, s) ← addLog H P m.type m.len s
  let s ← store msg (m.text.bytes ++ [0#8]) s
  return { s with shouldLogWindowScrollDown := true }

/-! ## The most recent messages -/

/-- The records that were allocated, in order. -/
def allocated (effects : List (Effect heap)) : List Nat :=
  effects.filterMap fun
    | .alloc data => some data
    | _ => none

/-- The records that were freed, in order. -/
def freed (effects : List (Effect heap)) : List Nat :=
  effects.filterMap fun
    | .free line => some line
    | _ => none

/-- The record of a message lies at an address. -/
def RecordAt (s : State heap array) (p : Nat) (m : Message) : Prop :=
  read s.mem p m.record.length = m.record

/-- The next call finds room in the array. -/
def HasRoom (s : State heap array) : Prop :=
  ∀ type len data s' s'', (newRecord H type len s).result = some (data, s') →
    (evict H P len s').result = some s'' →
    P.size s''.sLogLines < P.ptrNumMax s''.sLogLines

/-- An address holds the record of a message, in a block of the heap that is not freed. -/
def Listed (s : State heap array) (p : Nat) (m : Message) : Prop :=
  RecordAt s p m ∧ ⟨p, m.record.length⟩ ∈ H.blocks s.sLogHeap

/-- Behind the calls for `messages` and their effects: every record that was allocated has been
freed once or is listed, and the listed ones are those of the last messages. -/
structure KeepsRecent (messages : List Message) (effects : List (Effect heap))
    (s : State heap array) : Prop where
  counted : (allocated effects).length = messages.length
  ledger : allocated effects = freed effects ++ P.elems s.sLogLines
  recent : List.Forall₂ (Listed H s) (P.elems s.sLogLines) (messages.drop (freed effects).length)
  newest : messages ≠ [] → P.elems s.sLogLines ≠ []
  bounded : P.size s.sLogLines ≤ sMaxLines
  room : HasRoom H P s
  freeSize : ∀ m ∈ messages.getLast?, m.len + 256 ≤ H.getFreeSize s.sLogHeap

/-- What every run keeps. -/
structure Inv (messages : List Message) (effects : List (Effect heap)) (s : State heap array) :
    Prop where
  counted : (allocated effects).length = messages.length
  ledger : allocated effects = freed effects ++ P.elems s.sLogLines
  listed : List.Forall₂ (Listed H s) (P.elems s.sLogLines) (messages.drop (freed effects).length)
  newest : messages ≠ [] → P.elems s.sLogLines ≠ []
  bounded : P.size s.sLogLines ≤ sMaxLines
  freeSize : ∀ m ∈ messages.getLast?, m.len + 256 ≤ H.getFreeSize s.sLogHeap
  max : P.ptrNumMax s.sLogLines = sMaxLines
  nodup : (P.elems s.sLogLines).Nodup

/-- What a call does: it allocates the record at `data`, frees the lines `evicted`, keeps the lines
of `lines`, and lists the record. `h` is the heap with the record. -/
structure Logged (m : Message) (data : Nat) (h : heap) (evicted : List Nat) (lines : array)
    (effects : List (Effect heap)) (s s' : State heap array) : Prop where
  alloc : H.alloc s.sLogHeap (m.len + 2) = some (data, h)
  elems : P.elems s.sLogLines = evicted ++ P.elems lines
  max : P.ptrNumMax lines = P.ptrNumMax s.sLogLines
  bounded : P.size lines < sMaxLines
  freeSize : m.len + 256 ≤ H.getFreeSize (freeAll H h evicted)
  effects : effects = [.alloc data, .store data [m.type.val] h] ++ evicted.map .free ++
    [.store (data + 1) (m.text.bytes ++ [0#8]) (freeAll H h evicted)]
  state : s' = ⟨write s.mem data m.record, freeAll H h evicted, P.pushBack lines data, true⟩

variable {H P} {s s' : State heap array} {len rounds : Nat} {m : Message} {messages : List Message}
  {effects es : List (Effect heap)}

@[simp]
theorem length_record (m : Message) : m.record.length = m.len + 2 := by
  simp [Message.record, Message.len]

theorem forall₂_mem_left {α β : Type} {R : α → β → Prop} {as : List α} {bs : List β}
    (h : List.Forall₂ R as bs) {a : α} (ha : a ∈ as) : ∃ b ∈ bs, R a b := by
  induction h with
  | nil => cases ha
  | cons hHead _ ih =>
    rcases List.mem_cons.mp ha with rfl | ha
    · exact ⟨_, List.mem_cons_self, hHead⟩
    · obtain ⟨b, hb, hR⟩ := ih ha
      exact ⟨b, List.mem_cons_of_mem _ hb, hR⟩

/-! ## The loop -/

theorem freeLine_empty (hP : P.Lawful) (hElems : P.elems s.sLogLines = []) :
    freeLine H P s = none := by
  rw [freeLine, hP.popFront_empty _ hElems, Option.map_none]

theorem freeLine_oldest (hP : P.Lawful) {line : Nat} {rest : List Nat}
    (hElems : P.elems s.sLogLines = line :: rest) :
    ∃ lines, P.elems lines = rest ∧ P.ptrNumMax lines = P.ptrNumMax s.sLogLines ∧
      freeLine H P s =
        some (line, { s with sLogHeap := H.free s.sLogHeap line, sLogLines := lines }) := by
  obtain ⟨lines, hPop, hRest, hMax⟩ := hP.popFront_oldest _ _ _ hElems
  refine ⟨lines, hRest, hMax, ?_⟩
  rw [freeLine, hPop, Option.map_some]

theorem blocks_freeAll (hH : H.toAllocator.Lawful) (h : heap) (lines : List Nat) :
    H.blocks (freeAll H h lines) = (H.blocks h).filter (·.addr ∉ lines) := by
  induction lines generalizing h with
  | nil => simp [freeAll]
  | cons line lines ih =>
    have hFirst : freeAll H h (line :: lines) = freeAll H (H.free h line) lines := rfl
    rw [hFirst, ih, hH.blocks_free, List.filter_filter]
    apply List.filter_congr
    intro b _
    simp [Bool.and_comm]

/-- A loop that ends has freed the oldest lines. -/
theorem evictLoop_ended (hP : P.Lawful)
    (hRun : evictLoop H P len rounds s = ⟨es, some (.ended s')⟩) :
    ∃ evicted lines, es = evicted.map .free ∧ P.elems s.sLogLines = evicted ++ P.elems lines ∧
      P.ptrNumMax lines = P.ptrNumMax s.sLogLines ∧
      s' = { s with sLogHeap := freeAll H s.sLogHeap evicted, sLogLines := lines } ∧
      ¬ Crowded H P len s' := by
  induction rounds generalizing s es with
  | zero =>
    obtain ⟨-, hEnded⟩ := Traced.pure_eq_ended.mp hRun
    cases hEnded
  | succ rounds ih =>
    rw [evictLoop] at hRun
    split at hRun
    · cases hElems : P.elems s.sLogLines with
      | nil =>
        rw [freeLine_empty hP hElems] at hRun
        obtain ⟨-, hEnded⟩ := Traced.pure_eq_ended.mp hRun
        cases hEnded
      | cons line rest =>
        obtain ⟨lines, hRest, hMax, hFree⟩ := freeLine_oldest (H := H) hP hElems
        rw [hFree] at hRun
        obtain ⟨⟨⟩, es₁, es₂, hEmit, hLoop, rfl⟩ := Traced.bind_eq_ended.mp hRun
        obtain ⟨evicted, lines', rfl, hSplit, hMax', hEq, hSettled⟩ := ih hLoop
        cases hEmit
        refine ⟨line :: evicted, lines', rfl, ?_, hMax'.trans hMax, hEq, hSettled⟩
        rw [List.cons_append, ← hSplit, hRest]
    · rename_i hSettled
      obtain ⟨rfl, hEnded⟩ := Traced.pure_eq_ended.mp hRun
      cases hEnded
      exact ⟨[], _, rfl, rfl, rfl, rfl, hSettled⟩

theorem evict_ended (hP : P.Lawful) (hRun : evict H P len s = ⟨es, some s'⟩) :
    ∃ evicted lines, es = evicted.map .free ∧ P.elems s.sLogLines = evicted ++ P.elems lines ∧
      P.ptrNumMax lines = P.ptrNumMax s.sLogLines ∧
      s' = { s with sLogHeap := freeAll H s.sLogHeap evicted, sLogLines := lines } ∧
      ¬ Crowded H P len s' := by
  obtain ⟨loop, es₁, es₂, hLoop, hRest, rfl⟩ := Traced.bind_eq_ended.mp hRun
  cases loop with
  | running => cases hRest
  | popEmpty => cases hRest
  | ended t =>
    obtain ⟨rfl, rfl⟩ := Traced.pure_eq_ended.mp hRest
    rw [List.append_nil]
    exact evictLoop_ended hP hLoop

/-! ## One call -/

/-- The record, if there is one. -/
theorem newRecord_ended {type : LogType} {data : Nat} :
    newRecord H type len s = ⟨es, some (data, s')⟩ ↔
      ∃ h, H.alloc s.sLogHeap (len + 2) = some (data, h) ∧
        es = [.alloc data, .store data [type.val] h] ∧
        s' = { s with mem := write s.mem data [type.val], sLogHeap := h } := by
  unfold newRecord
  cases hAlloc : H.alloc s.sLogHeap (len + 2) with
  | none =>
    constructor
    · intro hRun
      obtain ⟨t, es₁, es₂, -, hStop, -⟩ := Traced.bind_eq_ended.mp hRun
      cases hStop
    · rintro ⟨h, hSome, -⟩
      cases hSome
  | some found =>
    obtain ⟨data', h⟩ := found
    constructor
    · intro hRun
      cases hRun
      exact ⟨h, rfl, rfl, rfl⟩
    · rintro ⟨h', hSome, rfl, rfl⟩
      cases hSome
      rfl

/-- A call that returns. -/
theorem log_spec (hP : P.Lawful) (hLog : log H P m s = ⟨es, some s'⟩) :
    ∃ data h evicted lines, Logged H P m data h evicted lines es s s' := by
  obtain ⟨⟨msg, s₂⟩, es₁, es₂, hAdd, hRest, rfl⟩ := Traced.bind_eq_ended.mp hLog
  obtain ⟨⟨data, s₁⟩, es₃, es₄, hNew, hLoop, rfl⟩ := Traced.bind_eq_ended.mp hAdd
  obtain ⟨s₃, es₅, es₆, hEvict, hPush, rfl⟩ := Traced.bind_eq_ended.mp hLoop
  obtain ⟨h, hAlloc, rfl, rfl⟩ := newRecord_ended.mp hNew
  obtain ⟨evicted, lines, rfl, hElems, hMax, rfl, hSettled⟩ := evict_ended hP hEvict
  cases hPush
  cases hRest
  obtain ⟨hSize, hFree⟩ := not_or.mp hSettled
  refine ⟨data, h, evicted, lines, hAlloc, hElems, hMax, Nat.not_le.mp hSize, Nat.not_lt.mp hFree,
    ?_, ?_⟩
  · simp only [List.append_nil, List.append_assoc]
    rfl
  · have hRecord := write_write s.mem data [m.type.val] (m.text.bytes ++ [0#8])
    exact congrArg (fun mem => (⟨mem, freeAll H h evicted, P.pushBack lines data, true⟩ :
      State heap array)) hRecord

/-! ## The invariant -/

section

variable {data : Nat} {h : heap} {evicted : List Nat} {lines : array}

theorem Logged.allocated (hLogged : Logged H P m data h evicted lines es s s') :
    Log.allocated es = [data] := by
  rw [hLogged.effects]
  simp [Log.allocated, List.filterMap_map]

theorem Logged.freed (hLogged : Logged H P m data h evicted lines es s s') :
    Log.freed es = evicted := by
  rw [hLogged.effects]
  simp [Log.freed, List.filterMap_map]

/-- The array behind the call: there was room for the record. -/
theorem Logged.after (hLogged : Logged H P m data h evicted lines es s s') (hP : P.Lawful)
    (hMax : P.ptrNumMax s.sLogLines = sMaxLines) :
    P.elems s'.sLogLines = P.elems lines ++ [data] ∧ P.ptrNumMax s'.sLogLines = sMaxLines := by
  have hRoom : P.ptrNumMax lines = sMaxLines := hLogged.max.trans hMax
  rw [hLogged.state]
  exact ⟨hP.elems_pushBack lines data (hRoom ▸ hLogged.bounded),
    (hP.ptrNumMax_pushBack lines data).trans hRoom⟩

theorem Logged.blocks (hLogged : Logged H P m data h evicted lines es s s')
    (hH : H.toAllocator.Lawful) : H.blocks s'.sLogHeap =
      (⟨data, m.record.length⟩ :: H.blocks s.sLogHeap).filter (·.addr ∉ evicted) := by
  rw [hLogged.state, length_record, ← hH.blocks_alloc _ _ _ _ hLogged.alloc]
  exact blocks_freeAll hH h evicted

theorem Logged.apart (hLogged : Logged H P m data h evicted lines es s s')
    (hH : H.toAllocator.Lawful) :
    ∀ b ∈ H.blocks s.sLogHeap, Block.Apart ⟨data, m.record.length⟩ b := by
  rw [length_record]
  exact hH.apart _ _ _ _ hLogged.alloc

/-- A record that the list keeps is neither written nor freed. -/
theorem Logged.keeps (hLogged : Logged H P m data h evicted lines es s s')
    (hH : H.toAllocator.Lawful) {p : Nat} {m' : Message} (hListed : Listed H s p m')
    (hKept : p ∉ evicted) : Listed H s' p m' := by
  obtain ⟨hRecord, hBlock⟩ := hListed
  refine ⟨?_, ?_⟩
  · rw [RecordAt, hLogged.state, read_write_of_apart (hLogged.apart hH _ hBlock).symm]
    exact hRecord
  · rw [hLogged.blocks hH]
    exact List.mem_filter.mpr ⟨List.mem_cons_of_mem _ hBlock, decide_eq_true hKept⟩

/-- A block apart from all others is none of the list. -/
theorem Inv.fresh (hInv : Inv H P messages effects s) {n : Nat} (hn : 0 < n)
    (hApart : ∀ b ∈ H.blocks s.sLogHeap, Block.Apart ⟨data, n⟩ b) : data ∉ P.elems s.sLogLines := by
  intro hData
  obtain ⟨m', -, -, hBlock⟩ := forall₂_mem_left hInv.listed hData
  have hNe : data ≠ data := (hApart _ hBlock).addr_ne hn (by simp)
  exact hNe rfl

theorem Logged.fresh (hLogged : Logged H P m data h evicted lines es s s')
    (hH : H.toAllocator.Lawful) (hInv : Inv H P messages effects s) :
    data ∉ evicted ∧ data ∉ P.elems lines := by
  have hFresh := hInv.fresh (by simp) (hLogged.apart hH)
  rwa [hLogged.elems, List.mem_append, not_or] at hFresh

theorem Logged.newest (hLogged : Logged H P m data h evicted lines es s s')
    (hH : H.toAllocator.Lawful) (hInv : Inv H P messages effects s) : Listed H s' data m := by
  refine ⟨?_, ?_⟩
  · rw [RecordAt, hLogged.state]
    exact read_write_self s.mem data m.record
  · rw [hLogged.blocks hH]
    exact List.mem_filter.mpr
      ⟨List.mem_cons_self, decide_eq_true (hLogged.fresh hH hInv).1⟩

/-- The lines that are kept hold the messages behind those of the freed ones. -/
theorem Logged.listed (hLogged : Logged H P m data h evicted lines es s s')
    (hH : H.toAllocator.Lawful) (hInv : Inv H P messages effects s) :
    List.Forall₂ (Listed H s') (P.elems lines)
      (messages.drop (Log.freed effects ++ evicted).length) := by
  have hDisjoint : ∀ p ∈ P.elems lines, p ∉ evicted := fun p hp hEvicted =>
    List.disjoint_of_nodup_append (hLogged.elems ▸ hInv.nodup) hEvicted hp
  have hRest := List.forall₂_drop evicted.length hInv.listed
  rw [hLogged.elems, List.drop_left, List.drop_drop, ← List.length_append] at hRest
  refine ((List.forall₂_and_left _ _).mpr ⟨hDisjoint, hRest⟩).imp ?_
  rintro p m' ⟨hNot, hListed⟩
  exact hLogged.keeps hH hListed hNot

theorem Logged.counted (hLogged : Logged H P m data h evicted lines es s s')
    (hInv : Inv H P messages effects s) :
    (Log.freed effects ++ evicted).length ≤ messages.length := by
  have hCount := congrArg List.length hInv.ledger
  simp only [hLogged.elems, hInv.counted, List.length_append] at hCount
  rw [List.length_append]
  omega

theorem Inv.logged (hInv : Inv H P messages effects s) (hH : H.toAllocator.Lawful) (hP : P.Lawful)
    (hLogged : Logged H P m data h evicted lines es s s') :
    Inv H P (messages ++ [m]) (effects ++ es) s' := by
  obtain ⟨hAfter, hMax⟩ := hLogged.after hP hInv.max
  have hFreed : Log.freed (effects ++ es) = Log.freed effects ++ evicted := by
    rw [Log.freed, List.filterMap_append]
    exact congrArg _ hLogged.freed
  have hAllocated : Log.allocated (effects ++ es) = Log.allocated effects ++ [data] := by
    rw [Log.allocated, List.filterMap_append]
    exact congrArg _ hLogged.allocated
  constructor
  · rw [hAllocated, List.length_append, List.length_append, hInv.counted, List.length_singleton,
      List.length_singleton]
  · rw [hAllocated, hFreed, hAfter, hInv.ledger, hLogged.elems]
    simp only [List.append_assoc]
  · rw [hAfter, hFreed, List.drop_append_of_le_length (hLogged.counted hInv)]
    exact List.rel_append (hLogged.listed hH hInv) (.cons (hLogged.newest hH hInv) .nil)
  · intro _
    rw [hAfter]
    exact List.append_ne_nil_of_right_ne_nil _ (List.cons_ne_nil _ _)
  · rw [PtrArray.size, hAfter, List.length_append]
    exact hLogged.bounded
  · intro m' hLast
    rw [List.getLast?_concat, Option.mem_some_iff] at hLast
    subst hLast
    rw [hLogged.state]
    exact hLogged.freeSize
  · exact hMax
  · have hNodup := hInv.nodup
    rw [hLogged.elems] at hNodup
    rw [hAfter, ← List.concat_eq_append]
    exact List.Nodup.concat (hLogged.fresh hH hInv).2 hNodup.of_append_right

end

theorem Inv.log (hInv : Inv H P messages effects s) (hH : H.toAllocator.Lawful) (hP : P.Lawful)
    (hLog : log H P m s = ⟨es, some s'⟩) : Inv H P (messages ++ [m]) (effects ++ es) s' := by
  obtain ⟨data, h, evicted, lines, hLogged⟩ := log_spec hP hLog
  exact hInv.logged hH hP hLogged

theorem Inv.room (hInv : Inv H P messages effects s) (hP : P.Lawful) : HasRoom H P s := by
  intro type len data s' s'' hNew hEvict
  obtain ⟨h, -, -, rfl⟩ := newRecord_ended.mp (Traced.of_result hNew)
  obtain ⟨evicted, lines, -, -, hMax, rfl, hSettled⟩ := evict_ended hP (Traced.of_result hEvict)
  obtain ⟨hSize, -⟩ := not_or.mp hSettled
  have hRoom : P.ptrNumMax lines = sMaxLines := hMax.trans hInv.max
  dsimp only at hSize ⊢
  omega

theorem Inv.keepsRecent (hInv : Inv H P messages effects s) (hP : P.Lawful) :
    KeepsRecent H P messages effects s where
  counted := hInv.counted
  ledger := hInv.ledger
  recent := hInv.listed
  newest := hInv.newest
  bounded := hInv.bounded
  room := hInv.room hP
  freeSize := hInv.freeSize

theorem inv_initializeLog (hP : P.Lawful) (mem : Nat → Byte) (h : heap) :
    Inv H P [] [] (initializeLog P mem h) := by
  have hElems : P.elems (initializeLog P mem h).sLogLines = [] :=
    hP.elems_allocBuffer sMaxLines
  constructor
  · rfl
  · rw [hElems]
    rfl
  · rw [hElems]
    exact .nil
  · intro hNe
    exact absurd rfl hNe
  · rw [PtrArray.size, hElems]
    exact Nat.zero_le _
  · intro m hLast
    cases hLast
  · exact hP.ptrNumMax_allocBuffer sMaxLines
  · rw [hElems]
    exact List.nodup_nil

theorem inv_performed (hH : H.toAllocator.Lawful) (hP : P.Lawful) {mem : Nat → Byte} {h : heap}
    (hRun : Traced.performed (log H P) messages (initializeLog P mem h) = ⟨effects, some s⟩) :
    Inv H P messages effects s :=
  Traced.performed_invariant (I := Inv H P) (fun _ _ _ _ _ _ hInv hLog => hInv.log hH hP hLog)
    (inv_initializeLog hP mem h) hRun

variable (H P) in
/-- After every sequence of calls that return, the log keeps the most recent messages, in the order
of the calls: whatever the calls are, and whatever the memory and the heap are at the first one. -/
theorem keeps_recent (hH : H.toAllocator.Lawful) (hP : P.Lawful) (mem : Nat → Byte) (h : heap)
    (messages : List Message) (effects : List (Effect heap)) (s : State heap array)
    (hRun : Traced.performed (log H P) messages (initializeLog P mem h) = ⟨effects, some s⟩) :
    KeepsRecent H P messages effects s :=
  (inv_performed hH hP hRun).keepsRecent hP

end

/-! ## A small heap -/

def sampleHeap : ExpHeap Arena := ⟨Arena.allocator, Arena.freeSize⟩

/-- There is room for one record. -/
def sampleArena : Arena := ⟨260, 0x2000, [], fun _ h => (List.not_mem_nil h).elim, by decide⟩

/-- The text `a`, logged as a warning. -/
def sampleMessage : Message where
  type := .warning
  text := ⟨[0x61#8], by decide⟩
  representable := by decide

/-- The second call frees the record of the first. -/
theorem keeps_recent_sample : ∃ effects s,
    Traced.performed (log sampleHeap (PtrArray.ofList Nat)) [sampleMessage, sampleMessage]
      (initializeLog (PtrArray.ofList Nat) (fun _ => 0#8) sampleArena) = ⟨effects, some s⟩ ∧
    freed effects = [0x2000] ∧
    KeepsRecent sampleHeap (PtrArray.ofList Nat) [sampleMessage, sampleMessage] effects s :=
  ⟨_, _, rfl, rfl, keeps_recent sampleHeap (PtrArray.ofList Nat) Arena.allocator_lawful
    (PtrArray.ofList_lawful Nat) (fun _ => 0#8) sampleArena [sampleMessage, sampleMessage] _ _ rfl⟩

end Wondar.Pe.Log
