import Mathlib.Algebra.Order.BigOperators.Group.List
import Mathlib.Algebra.Order.Group.Nat
import Wondar.Pe.Log

/-!
# Room in the log

`addLog` allocates the record before it makes room for it.

* The type byte is stored through what `alloc` returned, null or not: a call stores into memory
  of its own if and only if the heap has room for the record before anything is freed
  (`stores_owned_iff`).
* The loop wants `len + 256` bytes beside the record. It ends if and only if the heap has them once
  every older line is freed; if not, it takes a line off the empty array (`loops_end_iff`). In a
  heap that accounts for its bytes that depends on the length alone (`loop_ends_iff_length`).
-/

namespace Wondar.Pe.Log

open Blocks CString Sead

/-! ## A heap of 192 KiB -/

/-- What the array of `sMaxLines` pointers leaves of the heap. -/
def logArena : Arena := ⟨0x30000, 0x8000, [], fun _ h => (List.not_mem_nil h).elim, by decide⟩

/-- A message of one letter. -/
def letters (n : Nat) (h : n < 2 ^ 31) : Message where
  type := .log
  text := ⟨List.replicate n 0x61#8, fun hMem => absurd (List.eq_of_mem_replicate hMem) (by decide)⟩
  representable := by rwa [List.length_replicate]

@[simp]
theorem letters_len (n : Nat) (h : n < 2 ^ 31) : (letters n h).len = n := List.length_replicate

theorem arena_grow (h : Arena) (p : Nat) :
    sampleHeap.getFreeSize h ≤ sampleHeap.getFreeSize (sampleHeap.free h p) := by
  have hSum : ((h.blocks.filter (·.addr ≠ p)).map Block.size).sum ≤ (h.blocks.map Block.size).sum :=
    (List.filter_sublist.map _).sum_le_sum (fun _ _ => Nat.zero_le _)
  exact Nat.sub_le_sub_left hSum h.limit

theorem arena_null (h : Arena) (n : Nat) (hFull : sampleHeap.getFreeSize h < n) :
    sampleHeap.alloc h n = none := if_neg (Nat.not_le.mpr hFull)

/-- The arena serves what is free. -/
theorem arena_alloc (h : Arena) (n : Nat) (hRoom : n ≤ sampleHeap.getFreeSize h) :
    ∃ h', sampleHeap.alloc h n = some (h.next, h') ∧ h'.limit = h.limit ∧
      h'.blocks = ⟨h.next, n⟩ :: h.blocks :=
  ⟨_, if_pos hRoom, rfl, rfl⟩

def logStart : State Arena (PtrArray.BoundedList Nat) :=
  initializeLog (PtrArray.ofList Nat) (fun _ => 0#8) logArena

/-! ## The loop -/

section

variable {heap array : Type} (H : ExpHeap heap) (P : PtrArray Nat array)

/-- A call, without its effects. -/
def logState (m : Message) (s : State heap array) : Option (State heap array) := (log H P m s).result

/-- The loop of a call ends, and takes no line off the empty array. -/
def LoopEnds (m : Message) (s : State heap array) : Prop :=
  ∀ data s₁, (newRecord H m.type m.len s).result = some (data, s₁) →
    ∃ rounds s₂, (evictLoop H P m.len rounds s₁).result = some (.ended s₂)

/-- The heap has `len + 256` bytes beside the record, once every older line is freed. -/
def RoomBeside (m : Message) (s : State heap array) : Prop :=
  ∀ data h, H.alloc s.sLogHeap (m.len + 2) = some (data, h) →
    m.len + 256 ≤ H.getFreeSize (freeAll H h (P.elems s.sLogLines))

variable {H P} {s s' : State heap array} {len rounds : Nat} {m : Message} {messages : List Message}
  {effects es : List (Effect heap)}

theorem evictLoop_settled (hSettled : ¬ Crowded H P len s) :
    evictLoop H P len (rounds + 1) s = pure (.ended s) := by
  rw [evictLoop, if_neg hSettled]

/-- A round that frees a line. -/
theorem evictLoop_free {t : State heap array} {line : Nat} (hCrowded : Crowded H P len s)
    (hFree : freeLine H P s = some (line, t)) : (evictLoop H P len (rounds + 1) s).result =
      (evictLoop H P len rounds t).result := by
  rw [evictLoop, if_pos hCrowded, hFree, Traced.result_bind]
  rfl

theorem crowded_empty (hElems : P.elems s.sLogLines = []) :
    Crowded H P len s ↔ H.getFreeSize s.sLogHeap < len + 256 := by
  rw [Crowded, PtrArray.size, hElems, List.length_nil]
  exact or_iff_right (by decide)

theorem getFreeSize_freeAll (hGrow : ∀ h p, H.getFreeSize h ≤ H.getFreeSize (H.free h p)) (h : heap)
    (lines : List Nat) : H.getFreeSize h ≤ H.getFreeSize (freeAll H h lines) := by
  induction lines generalizing h with
  | nil => exact Nat.le_refl _
  | cons line lines ih => exact Nat.le_trans (hGrow h line) (ih (H.free h line))

/-- With room the loop ends: at the latest when no line is left. -/
theorem evictLoop_room (hP : P.Lawful) {lines : List Nat} (hElems : P.elems s.sLogLines = lines)
    (hRoom : len + 256 ≤ H.getFreeSize (freeAll H s.sLogHeap lines)) :
    ∃ s', (evictLoop H P len (lines.length + 1) s).result = some (.ended s') := by
  induction lines generalizing s with
  | nil =>
    have hSettled : ¬ Crowded H P len s := mt (crowded_empty hElems).mp (Nat.not_lt.mpr hRoom)
    rw [evictLoop_settled hSettled]
    exact ⟨s, rfl⟩
  | cons line rest ih =>
    by_cases hCrowded : Crowded H P len s
    · obtain ⟨lines, hRest, -, hFree⟩ := freeLine_oldest (H := H) hP hElems
      rw [evictLoop_free hCrowded hFree]
      exact ih hRest hRoom
    · rw [evictLoop_settled hCrowded]
      exact ⟨s, rfl⟩

/-- Without room the loop takes a line off the empty array. -/
theorem evictLoop_popEmpty (hP : P.Lawful)
    (hGrow : ∀ h p, H.getFreeSize h ≤ H.getFreeSize (H.free h p)) {lines : List Nat}
    (hElems : P.elems s.sLogLines = lines)
    (hFull : H.getFreeSize (freeAll H s.sLogHeap lines) < len + 256) (rounds : Nat) :
    (evictLoop H P len rounds s).result =
      some (if rounds ≤ lines.length then .running else .popEmpty) := by
  induction lines generalizing s rounds with
  | nil =>
    cases rounds with
    | zero =>
      rw [if_pos (Nat.zero_le _)]
      rfl
    | succ rounds =>
      rw [evictLoop, if_pos ((crowded_empty hElems).mpr hFull), freeLine_empty hP hElems,
        List.length_nil, if_neg (Nat.not_succ_le_zero rounds)]
      rfl
  | cons line rest ih =>
    have hCrowded : Crowded H P len s :=
      .inr (Nat.lt_of_le_of_lt (getFreeSize_freeAll hGrow s.sLogHeap (line :: rest)) hFull)
    cases rounds with
    | zero =>
      rw [if_pos (Nat.zero_le _)]
      rfl
    | succ rounds =>
      obtain ⟨lines, hRest, -, hFree⟩ := freeLine_oldest (H := H) hP hElems
      rw [evictLoop_free hCrowded hFree, List.length_cons]
      simp only [Nat.add_le_add_iff_right]
      exact ih hRest hFull rounds

theorem evictLoop_ends_iff (hP : P.Lawful)
    (hGrow : ∀ h p, H.getFreeSize h ≤ H.getFreeSize (H.free h p)) :
    (∃ rounds s', (evictLoop H P len rounds s).result = some (.ended s')) ↔
      len + 256 ≤ H.getFreeSize (freeAll H s.sLogHeap (P.elems s.sLogLines)) := by
  constructor
  · rintro ⟨rounds, s', hEnded⟩
    by_contra hFull
    rw [evictLoop_popEmpty hP hGrow rfl (Nat.not_le.mp hFull), Option.some.injEq] at hEnded
    split at hEnded
    · cases hEnded
    · cases hEnded
  · intro hRoom
    obtain ⟨s', hEnded⟩ := evictLoop_room hP rfl hRoom
    exact ⟨_, s', hEnded⟩

theorem newRecord_result {type : LogType} {data : Nat} {s₁ : State heap array} :
    (newRecord H type len s).result = some (data, s₁) ↔
      ∃ h, H.alloc s.sLogHeap (len + 2) = some (data, h) ∧
        s₁ = { s with mem := write s.mem data [type.val], sLogHeap := h } := by
  constructor
  · intro hNew
    obtain ⟨h, hAlloc, -, hState⟩ := newRecord_ended.mp (Traced.of_result hNew)
    exact ⟨h, hAlloc, hState⟩
  · rintro ⟨h, hAlloc, hState⟩
    rw [newRecord_ended.mpr ⟨h, hAlloc, rfl, hState⟩]

/-- The loop of a call ends if and only if the heap has room beside the record. -/
theorem loop_ends_iff (hP : P.Lawful)
    (hGrow : ∀ h p, H.getFreeSize h ≤ H.getFreeSize (H.free h p)) :
    LoopEnds H P m s ↔ RoomBeside H P m s := by
  constructor
  · intro hEnds data h hAlloc
    exact (evictLoop_ends_iff hP hGrow).mp (hEnds data _ (newRecord_result.mpr ⟨h, hAlloc, rfl⟩))
  · intro hRoom data s₁ hNew
    obtain ⟨h, hAlloc, rfl⟩ := newRecord_result.mp hNew
    exact (evictLoop_ends_iff hP hGrow).mpr (hRoom data h hAlloc)

variable (H P) in
/-- In a run of calls every loop ends if and only if every call finds the room. -/
theorem loops_end_iff (hP : P.Lawful)
    (hGrow : ∀ h p, H.getFreeSize h ≤ H.getFreeSize (H.free h p)) (mem : Nat → Byte) (h : heap)
    (messages : List Message) :
    Runs.Along (logState H P) (fun s m => LoopEnds H P m s) messages (initializeLog P mem h) ↔
      Runs.Along (logState H P) (fun s m => RoomBeside H P m s) messages (initializeLog P mem h) :=
  Runs.along_congr (I := fun _ => True) (fun _ _ _ _ _ => trivial)
    (fun _ _ _ => loop_ends_iff hP hGrow) trivial

/-- The first message finds room beside its record. -/
theorem loops_end_start : Runs.Along (logState sampleHeap (PtrArray.ofList Nat))
    (fun s m => LoopEnds sampleHeap (PtrArray.ofList Nat) m s) [sampleMessage] logStart := by
  apply (loops_end_iff sampleHeap (PtrArray.ofList Nat) (PtrArray.ofList_lawful Nat) arena_grow
    (fun _ => 0#8) logArena [sampleMessage]).mpr
  refine ⟨?_, fun _ _ => trivial⟩
  intro data h hAlloc
  cases hAlloc
  decide

/-- There is room for the message but not beside its record: the loop takes a line off the empty
array. -/
theorem long_message_pops_empty : ∃ m : Message, m.len = 100000 ∧
    (sampleHeap.alloc logStart.sLogHeap (m.len + 2)).isSome ∧
    ¬ LoopEnds sampleHeap (PtrArray.ofList Nat) m logStart := by
  refine ⟨letters 100000 (by decide), letters_len _ _, ?_⟩
  obtain ⟨h, hAlloc, hLimit, hBlocks⟩ := arena_alloc logArena ((letters 100000 (by decide)).len + 2)
    (by rw [letters_len]; decide)
  refine ⟨Option.isSome_iff_exists.mpr ⟨_, hAlloc⟩, ?_⟩
  intro hEnds
  obtain ⟨rounds, s', hEnded⟩ := hEnds _ _ (newRecord_result.mpr ⟨h, hAlloc, rfl⟩)
  have hFull : sampleHeap.getFreeSize (freeAll sampleHeap h []) <
      (letters 100000 (by decide)).len + 256 := by
    change h.limit - (h.blocks.map Block.size).sum < _
    rw [hLimit, hBlocks, letters_len]
    decide
  rw [evictLoop_popEmpty (PtrArray.ofList_lawful Nat) arena_grow rfl hFull,
    Option.some.injEq] at hEnded
  split at hEnded
  · cases hEnded
  · cases hEnded

/-! ## A heap that accounts for its bytes -/

/-- A block of `n` bytes takes `cost n` bytes, which are free again when it is freed. -/
structure Accounted (H : ExpHeap heap) (cost : Nat → Nat) : Prop where
  alloc : ∀ h n p h', H.alloc h n = some (p, h') → H.getFreeSize h' + cost n = H.getFreeSize h
  free : ∀ h b, b ∈ H.blocks h → H.getFreeSize (H.free h b.addr) = H.getFreeSize h + cost b.size
  grow : ∀ h p, H.getFreeSize h ≤ H.getFreeSize (H.free h p)

variable {cost : Nat → Nat}

theorem freeAll_append (h : heap) (lines lines' : List Nat) :
    freeAll H h (lines ++ lines') = freeAll H (freeAll H h lines) lines' :=
  List.foldl_append

/-- Blocks of the heap give their bytes back. -/
theorem Accounted.freeAll (hAcc : Accounted H cost) (hH : H.toAllocator.Lawful) {h : heap}
    {lines sizes : List Nat} (hNodup : lines.Nodup)
    (hBlocks : List.Forall₂ (fun p n => Block.mk p n ∈ H.blocks h) lines sizes) :
    H.getFreeSize (freeAll H h lines) = H.getFreeSize h + (sizes.map cost).sum := by
  induction lines generalizing h sizes with
  | nil =>
    cases hBlocks
    rfl
  | cons p lines ih =>
    obtain ⟨hFirst, hNodup⟩ := List.nodup_cons.mp hNodup
    obtain ⟨n, rest, hHead, hRest, rfl⟩ := List.forall₂_cons_left_iff.mp hBlocks
    have hLeft : List.Forall₂ (fun q n => Block.mk q n ∈ H.blocks (H.free h p)) lines rest := by
      have hOther : ∀ q ∈ lines, q ≠ p := fun q hq hEq => hFirst (hEq ▸ hq)
      refine ((List.forall₂_and_left _ _).mpr ⟨hOther, hRest⟩).imp ?_
      rintro q n ⟨hNe, hMem⟩
      rw [hH.blocks_free]
      exact List.mem_filter.mpr ⟨hMem, decide_eq_true hNe⟩
    have hFree := hAcc.free h _ hHead
    have hStep : Log.freeAll H h (p :: lines) = Log.freeAll H (H.free h p) lines := rfl
    rw [hStep, ih hNodup hLeft, hFree, List.map_cons, List.sum_cons, Nat.add_assoc]

/-- What the heap has free once every line is freed. -/
def Freed (H : ExpHeap heap) (P : PtrArray Nat array) (s : State heap array) : Nat :=
  H.getFreeSize (Log.freeAll H s.sLogHeap (P.elems s.sLogLines))

theorem Inv.blocks (hInv : Inv H P messages effects s) : ∃ sizes, List.Forall₂
    (fun p n => Block.mk p n ∈ H.blocks s.sLogHeap) (P.elems s.sLogLines) sizes := by
  refine ⟨(messages.drop (freed effects).length).map fun m => m.record.length, ?_⟩
  rw [List.forall₂_map_right_iff]
  exact hInv.listed.imp fun _ _ hListed => hListed.2

/-- The record takes its cost from what the lines leave. -/
theorem Accounted.beside (hAcc : Accounted H cost) (hH : H.toAllocator.Lawful)
    (hInv : Inv H P messages effects s) {data n : Nat} {h : heap}
    (hAlloc : H.alloc s.sLogHeap n = some (data, h)) :
    H.getFreeSize (Log.freeAll H h (P.elems s.sLogLines)) + cost n = Freed H P s := by
  obtain ⟨sizes, hBlocks⟩ := hInv.blocks
  have hKept : List.Forall₂ (fun p n => Block.mk p n ∈ H.blocks h) (P.elems s.sLogLines) sizes := by
    refine hBlocks.imp ?_
    intro p n hMem
    rw [hH.blocks_alloc _ _ _ _ hAlloc]
    exact List.mem_cons_of_mem _ hMem
  have hCost := hAcc.alloc _ _ _ _ hAlloc
  rw [Freed, hAcc.freeAll hH hInv.nodup hKept, hAcc.freeAll hH hInv.nodup hBlocks]
  omega

/-- A call leaves free what it finds, once every line is freed. -/
theorem Accounted.log (hAcc : Accounted H cost) (hH : H.toAllocator.Lawful) (hP : P.Lawful)
    (hInv : Inv H P messages effects s) (hLog : log H P m s = ⟨es, some s'⟩) :
    Freed H P s' = Freed H P s := by
  obtain ⟨data, h, evicted, lines, hLogged⟩ := log_spec hP hLog
  obtain ⟨hAfter, -⟩ := hLogged.after hP hInv.max
  obtain ⟨sizes, hBlocks⟩ := hInv.blocks
  have hAlloc := hLogged.alloc
  have hHeap : s'.sLogHeap = Log.freeAll H h evicted := by rw [hLogged.state]
  have hFresh := hInv.fresh (Nat.succ_pos _) (hH.apart _ _ _ _ hAlloc)
  have hNew : Block.mk data (m.len + 2) ∈ H.blocks h := by
    rw [hH.blocks_alloc _ _ _ _ hAlloc]
    exact List.mem_cons_self
  have hAll : List.Forall₂ (fun p n => Block.mk p n ∈ H.blocks h)
      (P.elems s.sLogLines ++ [data]) (sizes ++ [m.len + 2]) := by
    refine List.rel_append ?_ (.cons hNew .nil)
    refine hBlocks.imp ?_
    intro p n hMem
    rw [hH.blocks_alloc _ _ _ _ hAlloc]
    exact List.mem_cons_of_mem _ hMem
  have hNodup : (P.elems s.sLogLines ++ [data]).Nodup := by
    rw [← List.concat_eq_append]
    exact hInv.nodup.concat hFresh
  have hCost := hAcc.alloc _ _ _ _ hAlloc
  -- the lines evicted in the call are freed first
  calc Freed H P s' = H.getFreeSize (Log.freeAll H h (P.elems s.sLogLines ++ [data])) := by
        rw [Freed, hHeap, hAfter, hLogged.elems, ← freeAll_append, List.append_assoc]
    _ = H.getFreeSize h + ((sizes ++ [m.len + 2]).map cost).sum :=
        hAcc.freeAll hH hNodup hAll
    _ = H.getFreeSize s.sLogHeap + (sizes.map cost).sum := by
        rw [List.map_append, List.sum_append, List.map_singleton, List.sum_singleton]
        omega
    _ = Freed H P s := (hAcc.freeAll hH hInv.nodup hBlocks).symm

variable (H P) in
/-- Where the heap accounts for its bytes, the loop of a call ends if and only if the message is
short enough for the heap that the log was given. -/
theorem loop_ends_iff_length (hH : H.toAllocator.Lawful) (hP : P.Lawful) (hAcc : Accounted H cost)
    (mem : Nat → Byte) (h : heap) (messages : List Message) (s : State heap array)
    (hRun : Runs.run (logState H P) messages (initializeLog P mem h) = some s) (m : Message)
    (hServed : (H.alloc s.sLogHeap (m.len + 2)).isSome) :
    LoopEnds H P m s ↔ m.len + 256 + cost (m.len + 2) ≤ H.getFreeSize h := by
  have hInitial : Freed H P (initializeLog P mem h) = H.getFreeSize h := by
    have hElems : P.elems (initializeLog P mem h).sLogLines = [] := hP.elems_allocBuffer sMaxLines
    rw [Freed, hElems]
    rfl
  obtain ⟨hInv, hFreed⟩ := Traced.performed_invariant
    (I := fun ms es s => Inv H P ms es s ∧ Freed H P s = H.getFreeSize h)
    (fun _ _ _ _ _ _ hs hLog =>
      ⟨hs.1.log hH hP hLog, (hAcc.log hH hP hs.1 hLog).trans hs.2⟩)
    ⟨inv_initializeLog hP mem h, hInitial⟩ (Traced.performed_of_run hRun)
  obtain ⟨⟨data, h'⟩, hAlloc⟩ := Option.isSome_iff_exists.mp hServed
  have hBeside := hAcc.beside hH hInv hAlloc
  rw [loop_ends_iff hP hAcc.grow]
  constructor
  · intro hRoom
    have := hRoom data h' hAlloc
    omega
  · intro hShort data' h'' hAlloc'
    rw [hAlloc] at hAlloc'
    cases hAlloc'
    omega

/-! ## Stores -/

variable (H P) in
/-- Every store of a call, whether it returns or not, is inside the record that `alloc` returned,
which is not freed at that time. -/
def StoresOwned (m : Message) (s : State heap array) : Prop :=
  ∀ addr bytes h', .store addr bytes h' ∈ (log H P m s).events →
    ∃ data h, H.alloc s.sLogHeap (m.len + 2) = some (data, h) ∧
      data ≤ addr ∧ addr + bytes.length ≤ data + (m.len + 2) ∧ ⟨data, m.len + 2⟩ ∈ H.blocks h'

variable (H P) in
/-- There are `len + 256` bytes once every older line is freed. -/
def Fits (m : Message) (s : State heap array) : Prop :=
  m.len + 256 ≤ H.getFreeSize (freeAll H s.sLogHeap (P.elems s.sLogLines))

variable (H) in
/-- The heap has room for the record before anything is freed. -/
def Served (m : Message) (s : State heap array) : Prop :=
  (H.alloc s.sLogHeap (m.len + 2)).isSome = true

/-- The loop stores nothing. -/
theorem store_not_mem_evict {addr : Nat} {bytes : List Byte} {h : heap} :
    .store addr bytes h ∉ (evict H P len s).events := by
  have hLoop : ∀ rounds (t : State heap array),
      .store addr bytes h ∉ (evictLoop H P len rounds t).events := by
    intro rounds
    induction rounds with
    | zero => exact fun t => List.not_mem_nil
    | succ rounds ih =>
      intro t hStore
      rw [evictLoop] at hStore
      split at hStore
      · split at hStore
        · rw [Traced.mem_events_bind] at hStore
          rcases hStore with hStore | ⟨⟨⟩, -, hStore⟩
          · simp at hStore
          · exact ih _ hStore
        · exact List.not_mem_nil hStore
      · exact List.not_mem_nil hStore
  intro hStore
  rw [evict, Traced.mem_events_bind] at hStore
  rcases hStore with hStore | ⟨loop, -, hStore⟩
  · exact hLoop _ s hStore
  · cases loop <;> exact List.not_mem_nil hStore

/-- The stores of a call: the type byte through what `alloc` returned, and behind the loop the
text and its NUL. -/
theorem store_mem_log {addr : Nat} {bytes : List Byte} {h' : heap}
    (hStore : .store addr bytes h' ∈ (log H P m s).events) :
    H.alloc s.sLogHeap (m.len + 2) = none ∨
      ∃ data h, H.alloc s.sLogHeap (m.len + 2) = some (data, h) ∧
        (addr = data ∧ bytes = [m.type.val] ∧ h' = h ∨
          ∃ s₁, (evict H P m.len { s with mem := write s.mem data [m.type.val], sLogHeap := h }).result =
              some s₁ ∧
            addr = data + 1 ∧ bytes = m.text.bytes ++ [0#8] ∧ h' = s₁.sLogHeap) := by
  cases hAlloc : H.alloc s.sLogHeap (m.len + 2) with
  | none => exact .inl rfl
  | some found =>
    obtain ⟨data, h⟩ := found
    refine .inr ⟨data, h, rfl, ?_⟩
    have hNew : newRecord H m.type m.len s = _ := newRecord_ended.mpr ⟨h, hAlloc, rfl, rfl⟩
    rw [log, Traced.mem_events_bind] at hStore
    rcases hStore with hAdd | ⟨⟨msg, s₂⟩, hAdd, hStore⟩
    · -- up to the end of `addLog`
      rw [addLog, hNew, Traced.mem_events_bind] at hAdd
      rcases hAdd with hFirst | ⟨⟨data', t⟩, hSame, hRest⟩
      · exact .inl (by simpa using hFirst)
      · cases hSame
        rcases Traced.mem_events_bind.mp hRest with hEvict | ⟨s₁, -, hPush⟩
        · exact absurd hEvict store_not_mem_evict
        · exact absurd hPush List.not_mem_nil
    · rw [addLog, hNew, Traced.result_bind, Option.bind_some, Traced.result_bind,
        Option.bind_eq_some_iff] at hAdd
      obtain ⟨s₁, hEvict, hPush⟩ := hAdd
      cases hPush
      refine .inr ⟨s₁, hEvict, ?_⟩
      simpa [store, Traced.mem_events_bind] using hStore

/-- Evicting older lines does not free the record. -/
theorem record_kept (hH : H.toAllocator.Lawful) (hP : P.Lawful)
    (hInv : Inv H P messages effects s) {data : Nat} {h : heap} {mem : Nat → Byte}
    {s₁ : State heap array} (hAlloc : H.alloc s.sLogHeap (m.len + 2) = some (data, h))
    (hEvict : (evict H P m.len { s with mem, sLogHeap := h }).result = some s₁) :
    ⟨data, m.len + 2⟩ ∈ H.blocks s₁.sLogHeap := by
  obtain ⟨evicted, lines, -, hElems, -, rfl, -⟩ := evict_ended hP (Traced.of_result hEvict)
  have hFresh := hInv.fresh (Nat.succ_pos _) (hH.apart _ _ _ _ hAlloc)
  have hKept : data ∉ evicted := by
    intro hData
    apply hFresh
    have hLines : P.elems s.sLogLines = evicted ++ P.elems lines := hElems
    rw [hLines]
    exact List.mem_append_left _ hData
  dsimp only
  rw [blocks_freeAll hH, hH.blocks_alloc _ _ _ _ hAlloc]
  exact List.mem_filter.mpr ⟨List.mem_cons_self, decide_eq_true hKept⟩

theorem stores_owned (hH : H.toAllocator.Lawful) (hP : P.Lawful)
    (hInv : Inv H P messages effects s) (hServed : Served H m s) : StoresOwned H P m s := by
  intro addr bytes h' hStore
  rcases store_mem_log hStore with hNone | ⟨data, h, hAlloc, hStore⟩
  · rw [Served, hNone] at hServed
    cases hServed
  · refine ⟨data, h, hAlloc, ?_⟩
    rcases hStore with ⟨rfl, rfl, rfl⟩ | ⟨s₁, hEvict, rfl, rfl, rfl⟩
    · refine ⟨Nat.le_refl _, by simp, ?_⟩
      rw [hH.blocks_alloc _ _ _ _ hAlloc]
      exact List.mem_cons_self
    · refine ⟨Nat.le_succ _, ?_, record_kept hH hP hInv hAlloc hEvict⟩
      rw [List.length_append, List.length_singleton, Message.len]
      omega

/-- A call without room stores through null. -/
theorem store_null (hNone : H.alloc s.sLogHeap (m.len + 2) = none) :
    .store 0 [m.type.val] s.sLogHeap ∈ (log H P m s).events := by
  refine Traced.mem_events_bind.mpr (.inl ?_)
  refine Traced.mem_events_bind.mpr (.inl ?_)
  rw [newRecord, hNone]
  exact List.mem_cons_self

theorem served_of_stores_owned (hOwned : StoresOwned H P m s) : Served H m s := by
  rw [Served, Option.isSome_iff_ne_none]
  intro hNone
  obtain ⟨data, h, hAlloc, -⟩ := hOwned _ _ _ (store_null hNone)
  rw [hNone] at hAlloc
  cases hAlloc

variable (H P) in
/-- In a run of calls every call that would fit once the older lines are freed stores into a record
of its own, if and only if the heap has room for that record before anything is freed. A heap with
fewer bytes has not. -/
theorem stores_owned_iff (hH : H.toAllocator.Lawful) (hP : P.Lawful)
    (hNull : ∀ h n, H.getFreeSize h < n → H.alloc h n = none) (mem : Nat → Byte) (h : heap)
    (messages : List Message) :
    (Runs.Along (logState H P) (fun s m => Fits H P m s → StoresOwned H P m s) messages
        (initializeLog P mem h) ↔
      Runs.Along (logState H P) (fun s m => Fits H P m s → Served H m s) messages
        (initializeLog P mem h)) ∧
      ∀ (s : State heap array) m, H.getFreeSize s.sLogHeap < m.len + 2 → ¬ Served H m s := by
  refine ⟨?_, ?_⟩
  · refine Runs.along_congr (I := fun s => ∃ ms es, Inv H P ms es s) ?_ ?_
      ⟨[], [], inv_initializeLog hP mem h⟩
    · rintro s m s' ⟨ms, es, hInv⟩ hLog
      exact ⟨_, _, hInv.log hH hP (Traced.of_result hLog)⟩
    · rintro s m ⟨ms, es, hInv⟩
      have hIff : StoresOwned H P m s ↔ Served H m s :=
        ⟨served_of_stores_owned, stores_owned hH hP hInv⟩
      rw [hIff]
  · intro s m hFull hServed
    rw [Served, hNull _ _ hFull] at hServed
    cases hServed

/-- The first message is stored in its record. -/
theorem stores_owned_start : Runs.Along (logState sampleHeap (PtrArray.ofList Nat))
    (fun s m => Fits sampleHeap (PtrArray.ofList Nat) m s →
      StoresOwned sampleHeap (PtrArray.ofList Nat) m s) [sampleMessage] logStart := by
  apply (stores_owned_iff sampleHeap (PtrArray.ofList Nat) Arena.allocator_lawful
    (PtrArray.ofList_lawful Nat) arena_null (fun _ => 0#8) logArena [sampleMessage]).1.mpr
  refine ⟨fun _ => ?_, fun _ _ => trivial⟩
  obtain ⟨h, hAlloc, -⟩ := arena_alloc logArena (sampleMessage.len + 2) (by decide)
  exact Option.isSome_iff_exists.mpr ⟨_, hAlloc⟩

/-- A call for which there is room, and in the array as well. -/
theorem log_of_room {data : Nat} {h : heap} (hAlloc : H.alloc s.sLogHeap (m.len + 2) = some (data, h))
    (hLines : P.size s.sLogLines < sMaxLines) (hFree : m.len + 256 ≤ H.getFreeSize h) :
    ∃ s', logState H P m s = some s' ∧ s'.sLogHeap = h ∧
      s'.sLogLines = P.pushBack s.sLogLines data := by
  have hSettled : ¬ Crowded H P m.len
      { s with mem := write s.mem data [m.type.val], sLogHeap := h } := by
    rintro (hSize | hLess)
    · exact absurd hLines (Nat.not_lt.mpr hSize)
    · exact absurd hFree (Nat.not_le.mpr hLess)
  have hNew : (newRecord H m.type m.len s).result = _ := newRecord_result.mpr ⟨h, hAlloc, rfl⟩
  have hLog : logState H P m s = some
      { mem := write (write s.mem data [m.type.val]) (data + 1) (m.text.bytes ++ [0#8])
        sLogHeap := h
        sLogLines := P.pushBack s.sLogLines data
        shouldLogWindowScrollDown := true } := by
    rw [logState, log, addLog]
    simp only [Traced.result_bind, hNew, Option.bind_some, evict, evictLoop_settled hSettled,
      Traced.result_pure, store]
  exact ⟨_, hLog, rfl, rfl⟩

/-- Half of the heap is taken by a line. A longer message, for which there were room without that
line, is stored through null. -/
theorem half_full_stores_null : ∃ m m' s, m.len = 98000 ∧ m'.len = 100000 ∧
    Runs.run (logState sampleHeap (PtrArray.ofList Nat)) [m] logStart = some s ∧
    Fits sampleHeap (PtrArray.ofList Nat) m' s ∧
    sampleHeap.getFreeSize s.sLogHeap < m'.len + 2 ∧
    (∃ bytes h, .store 0 bytes h ∈ (log sampleHeap (PtrArray.ofList Nat) m' s).events) ∧
    ¬ StoresOwned sampleHeap (PtrArray.ofList Nat) m' s := by
  obtain ⟨h, hAlloc, hLimit, hBlocks⟩ := arena_alloc logArena ((letters 98000 (by decide)).len + 2)
    (by rw [letters_len]; decide)
  rw [letters_len] at hBlocks
  have hLeft : sampleHeap.getFreeSize h = 98606 := by
    change h.limit - (h.blocks.map Block.size).sum = _
    rw [hLimit, hBlocks]
    rfl
  have hAll : sampleHeap.getFreeSize (sampleHeap.free h logArena.next) = 196608 := by
    change h.limit - ((h.blocks.filter (·.addr ≠ logArena.next)).map Block.size).sum = _
    rw [hLimit, hBlocks]
    rfl
  obtain ⟨s, hLog, hHeap, hLines⟩ := log_of_room (P := PtrArray.ofList Nat) (s := logStart) hAlloc
    (by decide) (by rw [letters_len, hLeft]; decide)
  have hElems : (PtrArray.ofList Nat).elems s.sLogLines = [logArena.next] := by
    rw [hLines]
    rfl
  have hNull : sampleHeap.alloc s.sLogHeap ((letters 100000 (by decide)).len + 2) = none := by
    apply arena_null
    rw [hHeap, hLeft, letters_len]
    decide
  refine ⟨letters 98000 (by decide), letters 100000 (by decide), s, letters_len _ _, letters_len _ _,
    ?_, ?_, ?_, ?_, ?_⟩
  · rw [Runs.run, hLog, Option.bind_some, Runs.run]
  · rw [Fits, hHeap, hElems, letters_len]
    exact Nat.le_trans (by decide) (Nat.le_of_eq hAll.symm)
  · rw [hHeap, hLeft, letters_len]
    decide
  · exact ⟨_, _, store_null hNull⟩
  · intro hOwned
    have hServed := served_of_stores_owned hOwned
    rw [Served, hNull] at hServed
    cases hServed

/-- Where the heap serves whatever is free, a message that is not 255 bytes longer than the one
before it finds room. -/
theorem stores_owned_of_short (hH : H.toAllocator.Lawful) (hP : P.Lawful)
    (hServe : ∀ h n, n ≤ H.getFreeSize h → (H.alloc h n).isSome) (mem : Nat → Byte) (h : heap)
    {last : Message} (hRun : Runs.run (logState H P) (messages ++ [last]) (initializeLog P mem h) =
      some s) (hShort : m.len < last.len + 255) : StoresOwned H P m s := by
  have hInv := inv_performed hH hP (Traced.performed_of_run hRun)
  have hFree := hInv.freeSize last (by rw [List.getLast?_concat]; rfl)
  exact stores_owned hH hP hInv (hServe _ _ (by omega))

end

end Wondar.Pe.Log
