import Mathlib.Logic.Function.Basic
import Wondar.Pe.FSHacks

/-!
# Writing a file

`FsHelper::writeFileToPath` removes the file that is there, creates it with the size of the
buffer, opens it and writes the buffer. `nn::fs` and `nn::result` are not part of the repository:
`FileStore` lists the calls, and `FileStore.Lawful` what they do to the contents and to the open
handles.

The function returns `ConstructResult(1)` where everything succeeded, which is a failure, and
leaves the handle open where the write fails. It is all or nothing only where it gives up before
the write, with the previous file untouched (`writeFileToPath_iff`).
-/

namespace Wondar.Pe

open CString

/-! ## The calls -/

/-- What `OpenFile` writes through the pointer to a handle. -/
abbrev FileHandle := BitVec 64

/-- `nn::fs` with the calls that change a file, and `nn::result::detail::ConstructResult`, of which
only `constructed` is known. `openedHandle` is the handle that a successful `openFile` writes,
`created` what a new file holds, and `opened` the file of an open handle. -/
structure FileStore (fs : Type) extends FileSystem fs where
  openedHandle : fs → OpenFileArgs → FileHandle
  deleteFile : fs → Str → Result × fs
  createFile : fs → Str → Nat → Result × fs
  writeFile : fs → FileHandle → Nat → List Byte → BitVec 32 → Result × fs
  closeFile : fs → FileHandle → fs
  content : fs → Str → Option (List Byte)
  created : fs → Str → Nat → List Byte
  opened : fs → FileHandle → Option Str
  constructResult : BitVec 32 → Result
  constructed : constructResult 1#32 ≠ 0#32

/-- A call succeeds if and only if its result is zero. -/
structure FileStore.Lawful {fs : Type} (F : FileStore fs) : Prop where
  delete_done : ∀ s p, (F.deleteFile s p).1 = 0#32 → F.content (F.deleteFile s p).2 p = none
  delete_failed : ∀ s p, (F.deleteFile s p).1 ≠ 0#32 →
    F.content (F.deleteFile s p).2 p = F.content s p
  opened_delete : ∀ s p, F.opened (F.deleteFile s p).2 = F.opened s
  create_done : ∀ s p n, (F.createFile s p n).1 = 0#32 →
    F.content (F.createFile s p n).2 p = some (F.created s p n)
  created_length : ∀ s p n, (F.created s p n).length = n
  create_failed : ∀ s p n, (F.createFile s p n).1 ≠ 0#32 →
    F.content (F.createFile s p n).2 p = F.content s p
  opened_create : ∀ s p n, F.opened (F.createFile s p n).2 = F.opened s
  open_done : ∀ s args, (F.openFile s args).1 = 0#32 →
    F.opened s (F.openedHandle s args) = none ∧
      F.opened (F.openFile s args).2 =
        Function.update (F.opened s) (F.openedHandle s args) (some args.path)
  open_failed : ∀ s args, (F.openFile s args).1 ≠ 0#32 →
    F.opened (F.openFile s args).2 = F.opened s
  content_open : ∀ s args, F.content (F.openFile s args).2 = F.content s
  write_done : ∀ s h p old buf flags, F.opened s h = some p → F.content s p = some old →
    (F.writeFile s h 0 buf flags).1 = 0#32 →
    F.content (F.writeFile s h 0 buf flags).2 p = some (buf ++ old.drop buf.length)
  opened_write : ∀ s h pos buf flags, F.opened (F.writeFile s h pos buf flags).2 = F.opened s
  opened_close : ∀ s h, F.opened (F.closeFile s h) = Function.update (F.opened s) h none
  content_close : ∀ s h, F.content (F.closeFile s h) = F.content s

/-- `OpenMode_Write`. -/
def openModeWrite : BitVec 32 := 2#32

/-- `WriteOptionFlag_Flush`. -/
def writeOptionFlagFlush : BitVec 32 := 1#32

section

variable {fs : Type} (F : FileStore fs)

/-- The file system behind the removal of the previous file. -/
def removePrevious (s : fs) (type : BitVec 32) (path : Str) : fs :=
  if isFileExist F.toFileSystem s type path then (F.deleteFile s path).2 else s

/-- `FsHelper::writeFileToPath`: `buf` has the `size` bytes at the pointer, `type` is what lies in
the place of the local variable of `isFileExist`, and `handle` the address of the handle. -/
def writeFileToPath (s : fs) (type : BitVec 32) (handle : A64.Addr) (buf : List Byte) (path : Str) :
    Result × fs :=
  let created := F.createFile (removePrevious F s type path) path buf.length
  if rFailed created.1 then created
  else
    let args : OpenFileArgs := ⟨handle, path, openModeWrite⟩
    let opened := F.openFile created.2 args
    if rFailed opened.1 then opened
    else
      let written := F.writeFile opened.2 (F.openedHandle created.2 args) 0 buf writeOptionFlagFlush
      if rFailed written.1 then written
      else (F.constructResult 1#32, F.closeFile written.2 (F.openedHandle created.2 args))

/-- `R_ABORT_UNLESS(result.IsFailure())` in `CreateShaderBinary`. -/
def abortsUnless (result : Result) : Bool := rFailed ((BitVec.ofBool (rFailed result)).setWidth 32)

/-! ## All or nothing -/

/-- The result is a success if and only if the file now holds the buffer, a failure leaves the
previous file as it was, and no handle is left open. -/
structure AllOrNothing (s : fs) (buf : List Byte) (path : Str) (r : Result × fs) : Prop where
  success : r.1 = 0#32 ↔ F.content r.2 path = some buf
  failure : r.1 ≠ 0#32 → ∀ old, F.content s path = some old → F.content r.2 path = some old
  closed : ∀ h, F.opened s h = none → F.opened r.2 h = none

/-- The previous file is removed. -/
def Removed (s : fs) (type : BitVec 32) (path : Str) : Prop :=
  isFileExist F.toFileSystem s type path = true ∧ (F.deleteFile s path).1 = 0#32

/-- `CreateFile` fails, no file has been removed, and the one that is there does not hold the
buffer. -/
def CreateFails (s : fs) (type : BitVec 32) (buf : List Byte) (path : Str) : Prop :=
  (F.createFile (removePrevious F s type path) path buf.length).1 ≠ 0#32 ∧
    (Removed F s type path → F.content s path = none) ∧
    (¬ Removed F s type path → F.content s path ≠ some buf)

/-- `OpenFile` fails, the new file does not hold the buffer, and the one before it, if there was
one, held the same. -/
def OpenFails (s : fs) (type : BitVec 32) (handle : A64.Addr) (buf : List Byte) (path : Str) : Prop :=
  let s₁ := removePrevious F s type path
  (F.createFile s₁ path buf.length).1 = 0#32 ∧
    (F.openFile (F.createFile s₁ path buf.length).2 ⟨handle, path, openModeWrite⟩).1 ≠ 0#32 ∧
    F.created s₁ path buf.length ≠ buf ∧
    ∀ old, F.content s path = some old → old = F.created s₁ path buf.length

variable {F} {s : fs} {type : BitVec 32} {handle : A64.Addr} {buf : List Byte} {path : Str}

theorem rFailed_iff (r : Result) : rFailed r = true ↔ r ≠ 0#32 := bne_iff_ne

/-! ## The ways a call ends -/

variable (F s type handle buf path) in
theorem writeFileToPath_cases :
    let created := F.createFile (removePrevious F s type path) path buf.length
    let args : OpenFileArgs := ⟨handle, path, openModeWrite⟩
    let opened := F.openFile created.2 args
    let written := F.writeFile opened.2 (F.openedHandle created.2 args) 0 buf writeOptionFlagFlush
    created.1 ≠ 0#32 ∧ writeFileToPath F s type handle buf path = created ∨
      created.1 = 0#32 ∧ opened.1 ≠ 0#32 ∧ writeFileToPath F s type handle buf path = opened ∨
      created.1 = 0#32 ∧ opened.1 = 0#32 ∧ written.1 ≠ 0#32 ∧
        writeFileToPath F s type handle buf path = written ∨
      created.1 = 0#32 ∧ opened.1 = 0#32 ∧ written.1 = 0#32 ∧
        writeFileToPath F s type handle buf path =
          (F.constructResult 1#32, F.closeFile written.2 (F.openedHandle created.2 args)) := by
  intro created args opened written
  have hDone : ∀ r : Result, r = 0#32 → ¬ rFailed r = true := fun r h hFailed =>
    (rFailed_iff r).mp hFailed h
  by_cases hCreate : created.1 = 0#32
  · by_cases hOpen : opened.1 = 0#32
    · by_cases hWrite : written.1 = 0#32
      · refine .inr (.inr (.inr ⟨hCreate, hOpen, hWrite, ?_⟩))
        rw [writeFileToPath, if_neg (hDone _ hCreate)]
        dsimp only
        rw [if_neg (hDone _ hOpen), if_neg (hDone _ hWrite)]
      · refine .inr (.inr (.inl ⟨hCreate, hOpen, hWrite, ?_⟩))
        rw [writeFileToPath, if_neg (hDone _ hCreate)]
        dsimp only
        rw [if_neg (hDone _ hOpen), if_pos ((rFailed_iff _).mpr hWrite)]
    · refine .inr (.inl ⟨hCreate, hOpen, ?_⟩)
      rw [writeFileToPath, if_neg (hDone _ hCreate)]
      dsimp only
      rw [if_pos ((rFailed_iff _).mpr hOpen)]
  · refine .inl ⟨hCreate, ?_⟩
    rw [writeFileToPath, if_pos ((rFailed_iff _).mpr hCreate)]

/-- A call returns no success. -/
theorem writeFileToPath_ne_zero : (writeFileToPath F s type handle buf path).1 ≠ 0#32 := by
  rcases writeFileToPath_cases F s type handle buf path with ⟨h, hEq⟩ | ⟨-, h, hEq⟩ | ⟨-, -, h, hEq⟩ |
    ⟨-, -, -, hEq⟩
  · rw [hEq]
    exact h
  · rw [hEq]
    exact h
  · rw [hEq]
    exact h
  · rw [hEq]
    exact F.constructed

/-! ## The contents and the handles -/

theorem removed_content (hF : F.Lawful) (h : Removed F s type path) :
    F.content (removePrevious F s type path) path = none := by
  rw [removePrevious, if_pos h.1]
  exact hF.delete_done s path h.2

theorem kept_content (hF : F.Lawful) (h : ¬ Removed F s type path) :
    F.content (removePrevious F s type path) path = F.content s path := by
  unfold removePrevious
  split
  · rename_i hExist
    exact hF.delete_failed s path fun hDone => h ⟨hExist, hDone⟩
  · rfl

theorem opened_removePrevious (hF : F.Lawful) :
    F.opened (removePrevious F s type path) = F.opened s := by
  unfold removePrevious
  split
  · exact hF.opened_delete s path
  · rfl

theorem opened_created (hF : F.Lawful) (n : Nat) :
    F.opened (F.createFile (removePrevious F s type path) path n).2 = F.opened s :=
  (hF.opened_create _ path n).trans (opened_removePrevious hF)

/-- A failure of `CreateFile` leaves what the removal left. -/
theorem createFails_iff (hF : F.Lawful)
    (hCreate : (F.createFile (removePrevious F s type path) path buf.length).1 ≠ 0#32) :
    AllOrNothing F s buf path (F.createFile (removePrevious F s type path) path buf.length) ↔
      CreateFails F s type buf path := by
  have hContent := hF.create_failed _ path buf.length hCreate
  have hClosed : ∀ h, F.opened s h = none →
      F.opened (F.createFile (removePrevious F s type path) path buf.length).2 h = none := by
    intro h hNone
    rw [opened_created hF]
    exact hNone
  by_cases hRemoved : Removed F s type path
  · rw [removed_content hF hRemoved] at hContent
    constructor
    · intro hAll
      refine ⟨hCreate, fun _ => ?_, fun hNot => absurd hRemoved hNot⟩
      rcases hOld : F.content s path with _ | old
      · rfl
      · rw [hAll.failure hCreate old hOld] at hContent
        cases hContent
    · rintro ⟨-, hNone, -⟩
      refine ⟨iff_of_false hCreate ?_, ?_, hClosed⟩
      · rw [hContent]
        intro h
        cases h
      · intro _ old hOld
        rw [hNone hRemoved] at hOld
        cases hOld
  · rw [kept_content hF hRemoved] at hContent
    constructor
    · intro hAll
      refine ⟨hCreate, fun h => absurd h hRemoved, fun _ hBuf => ?_⟩
      exact hCreate (hAll.success.mpr (hContent.trans hBuf))
    · rintro ⟨-, -, hNe⟩
      refine ⟨iff_of_false hCreate ?_, ?_, hClosed⟩
      · rw [hContent]
        exact hNe hRemoved
      · intro _ old hOld
        rw [hContent, hOld]

/-- A failure of `OpenFile` leaves the new file. -/
theorem openFails_iff (hF : F.Lawful)
    (hCreate : (F.createFile (removePrevious F s type path) path buf.length).1 = 0#32)
    (hOpen : (F.openFile (F.createFile (removePrevious F s type path) path buf.length).2
      ⟨handle, path, openModeWrite⟩).1 ≠ 0#32) :
    AllOrNothing F s buf path
        (F.openFile (F.createFile (removePrevious F s type path) path buf.length).2
          ⟨handle, path, openModeWrite⟩) ↔
      OpenFails F s type handle buf path := by
  have hContent := hF.create_done _ path buf.length hCreate
  rw [← hF.content_open _ ⟨handle, path, openModeWrite⟩] at hContent
  constructor
  · intro hAll
    refine ⟨hCreate, hOpen, ?_, ?_⟩
    · intro hBuf
      rw [hBuf] at hContent
      exact hOpen (hAll.success.mpr hContent)
    · intro old hOld
      have hKept := hAll.failure hOpen old hOld
      rw [hContent] at hKept
      exact (Option.some.inj hKept).symm
  · rintro ⟨-, -, hNe, hSame⟩
    refine ⟨iff_of_false hOpen ?_, ?_, ?_⟩
    · rw [hContent]
      exact fun h => hNe (Option.some.inj h)
    · intro _ old hOld
      rw [hContent, hSame old hOld]
    · intro h hNone
      rw [hF.open_failed _ _ hOpen, opened_created hF]
      exact hNone

/-- A failure of `WriteFile` leaves the handle open. -/
theorem writeFails_leaks (hF : F.Lawful) {created : fs} {args : OpenFileArgs}
    (hOpened : F.opened created = F.opened s) (hOpen : (F.openFile created args).1 = 0#32) :
    ¬ AllOrNothing F s buf path (F.writeFile (F.openFile created args).2 (F.openedHandle created args)
      0 buf writeOptionFlagFlush) := by
  intro hAll
  obtain ⟨hFresh, hUpdate⟩ := hF.open_done created args hOpen
  have hNone := hAll.closed (F.openedHandle created args) (hOpened ▸ hFresh)
  rw [hF.opened_write, hUpdate, Function.update_self] at hNone
  cases hNone

/-- Where everything succeeds the file holds the buffer, and the result is a failure. -/
theorem writeDone_failure (hF : F.Lawful) {created : fs} {args : OpenFileArgs} {old : List Byte}
    (hOpen : (F.openFile created args).1 = 0#32) (hContent : F.content created args.path = some old)
    (hLength : old.length = buf.length)
    (hWrite : (F.writeFile (F.openFile created args).2 (F.openedHandle created args) 0 buf
      writeOptionFlagFlush).1 = 0#32) :
    ¬ AllOrNothing F s buf args.path (F.constructResult 1#32,
      F.closeFile (F.writeFile (F.openFile created args).2 (F.openedHandle created args) 0 buf
        writeOptionFlagFlush).2 (F.openedHandle created args)) := by
  intro hAll
  obtain ⟨-, hUpdate⟩ := hF.open_done created args hOpen
  have hTarget : F.opened (F.openFile created args).2 (F.openedHandle created args) =
      some args.path := by
    rw [hUpdate, Function.update_self]
  rw [← hF.content_open created args] at hContent
  have hWritten := hF.write_done _ _ _ _ _ _ hTarget hContent hWrite
  rw [← hLength, List.drop_length, List.append_nil] at hWritten
  refine F.constructed (hAll.success.mpr ?_)
  rw [hF.content_close]
  exact hWritten

variable (F) in
/-- A call is all or nothing if and only if `CreateFile` or `OpenFile` fails, with the previous
file as it was. -/
theorem writeFileToPath_iff (hF : F.Lawful) (s : fs) (type : BitVec 32) (handle : A64.Addr)
    (buf : List Byte) (path : Str) :
    AllOrNothing F s buf path (writeFileToPath F s type handle buf path) ↔
      CreateFails F s type buf path ∨ OpenFails F s type handle buf path := by
  rcases writeFileToPath_cases F s type handle buf path with ⟨hCreate, hEq⟩ | ⟨hCreate, hOpen, hEq⟩ |
    ⟨hCreate, hOpen, hWrite, hEq⟩ | ⟨hCreate, hOpen, hWrite, hEq⟩
  · rw [hEq, createFails_iff hF hCreate, or_iff_left]
    exact fun h => hCreate h.1
  · rw [hEq, openFails_iff hF hCreate hOpen, or_iff_right]
    exact fun h => h.1 hCreate
  · rw [hEq]
    refine iff_of_false (writeFails_leaks hF (opened_created hF _) hOpen) ?_
    rintro (h | h)
    · exact h.1 hCreate
    · exact h.2.1 hOpen
  · rw [hEq]
    refine iff_of_false (writeDone_failure hF hOpen (hF.create_done _ path buf.length hCreate)
      (hF.created_length _ _ _) hWrite) ?_
    rintro (h | h)
    · exact h.1 hCreate
    · exact h.2.1 hOpen

/-- The caller that aborts on a failure aborts after every call. -/
theorem writeFileToPath_aborts :
    abortsUnless (writeFileToPath F s type handle buf path).1 = true := by
  rw [abortsUnless, (rFailed_iff _).mpr writeFileToPath_ne_zero]
  decide

end

/-! ## A card -/

/-- A card can be locked, so that no file is removed or created, and broken, so that nothing is
written. -/
structure Card where
  files : Str → Option (List Byte)
  handles : FileHandle → Option Str
  next : FileHandle
  locked : Bool
  broken : Bool

def card : FileStore Card where
  mountSdCardForDebug s := s
  getEntryType s p := (s.files p).map fun _ => .file
  openFile s args :=
    if (s.files args.path).isSome ∧ s.handles s.next = none then
      (0#32, { s with
        handles := Function.update s.handles s.next (some args.path)
        next := s.next + 1#64 })
    else (0x202#32, s)
  openedHandle s _ := s.next
  deleteFile s p :=
    if s.locked = false ∧ (s.files p).isSome then
      (0#32, { s with files := Function.update s.files p none })
    else (0x202#32, s)
  createFile s p n :=
    if s.locked = false ∧ s.files p = none then
      (0#32, { s with files := Function.update s.files p (some (List.replicate n 0#8)) })
    else (0x402#32, s)
  writeFile s h pos buf _ :=
    match s.handles h with
    | none => (0x602#32, s)
    | some p =>
      match s.files p with
      | none => (0x602#32, s)
      | some old =>
        if s.broken = false ∧ pos + buf.length ≤ old.length then
          (0#32, { s with
            files := Function.update s.files p
              (some (old.take pos ++ buf ++ old.drop (pos + buf.length))) })
        else (0x802#32, s)
  closeFile s h := { s with handles := Function.update s.handles h none }
  content := Card.files
  created _ _ n := List.replicate n 0#8
  opened := Card.handles
  constructResult value := value
  constructed := by decide

theorem card_lawful : card.Lawful where
  delete_done s p h := by
    by_cases hDelete : s.locked = false ∧ (s.files p).isSome
    · simp [card, hDelete]
    · simp [card, hDelete] at h
  delete_failed s p h := by
    by_cases hDelete : s.locked = false ∧ (s.files p).isSome
    · simp [card, hDelete] at h
    · simp [card, hDelete]
  opened_delete s p := by
    simp only [card]
    split
    · rfl
    · rfl
  create_done s p n h := by
    by_cases hCreate : s.locked = false ∧ s.files p = none
    · simp [card, hCreate]
    · simp [card, hCreate] at h
  created_length s p n := List.length_replicate
  create_failed s p n h := by
    by_cases hCreate : s.locked = false ∧ s.files p = none
    · simp [card, hCreate] at h
    · simp [card, hCreate]
  opened_create s p n := by
    simp only [card]
    split
    · rfl
    · rfl
  open_done s args h := by
    by_cases hOpen : (s.files args.path).isSome ∧ s.handles s.next = none
    · simp [card, hOpen]
    · simp [card, hOpen] at h
  open_failed s args h := by
    by_cases hOpen : (s.files args.path).isSome ∧ s.handles s.next = none
    · simp [card, hOpen] at h
    · simp [card, hOpen]
  content_open s args := by
    simp only [card]
    split
    · rfl
    · rfl
  write_done s h p old buf flags hTarget hOld hDone := by
    have hTarget : s.handles h = some p := hTarget
    have hOld : s.files p = some old := hOld
    by_cases hWrite : s.broken = false ∧ buf.length ≤ old.length
    · simp [card, hTarget, hOld, hWrite]
    · simp [card, hTarget, hOld, hWrite] at hDone
  opened_write s h pos buf flags := by
    simp only [card]
    split
    · rfl
    · split
      · rfl
      · split
        · rfl
        · rfl
  opened_close s h := rfl
  content_close s h := rfl

/-- `sd:/a`. -/
def cardPath : Str := ⟨[0x73#8, 0x64#8, 0x3a#8, 0x2f#8, 0x61#8], by decide⟩

/-- A card with one file. -/
def oneFile (locked broken : Bool) : Card where
  files p := if p = cardPath then some [1#8] else none
  handles _ := none
  next := 1#64
  locked := locked
  broken := broken

/-- On a locked card the file stays, and the result says so. -/
theorem writeFileToPath_locked :
    AllOrNothing card (oneFile true false) [2#8] cardPath
      (writeFileToPath card (oneFile true false) 0#32 0x8000#64 [2#8] cardPath) := by
  apply (writeFileToPath_iff card card_lawful _ _ _ _ _).mpr
  refine .inl ⟨by decide, ?_, ?_⟩
  · intro hRemoved
    exact absurd hRemoved.2 (by decide)
  · intro _
    decide

/-- The file is replaced and the result is a failure; on a broken card the previous file is lost and
the handle stays open. -/
theorem writeFileToPath_fails :
    (writeFileToPath card (oneFile false false) 0#32 0x8000#64 [2#8] cardPath).1 = 1#32 ∧
      card.content (writeFileToPath card (oneFile false false) 0#32 0x8000#64 [2#8] cardPath).2
        cardPath = some [2#8] ∧
      ¬ AllOrNothing card (oneFile false false) [2#8] cardPath
        (writeFileToPath card (oneFile false false) 0#32 0x8000#64 [2#8] cardPath) ∧
      card.content (writeFileToPath card (oneFile false true) 0#32 0x8000#64 [2#8] cardPath).2
        cardPath = some [0#8] ∧
      card.opened (writeFileToPath card (oneFile false true) 0#32 0x8000#64 [2#8] cardPath).2 1#64 =
        some cardPath := by
  have hContent : card.content
      (writeFileToPath card (oneFile false false) 0#32 0x8000#64 [2#8] cardPath).2 cardPath =
        some [2#8] := by decide
  refine ⟨by decide, hContent, ?_, by decide, by decide⟩
  intro hAll
  exact writeFileToPath_ne_zero (hAll.success.mpr hContent)

end Wondar.Pe
