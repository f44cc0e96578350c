import Wondar.Packing
import Wondar.Pe.FsHelper

/-!
# Loading a file

`FsHelper::loadFileFromPath` opens a file, allocates as many bytes as it has, and reads them. It
aborts where a call fails, but for `GetFileSize`, whose result it does not look at: the size is 0
then.

* `loadFileFromPath_whole_iff`: a call that returns has loaded the whole file, unless the size was
  not to be had; it leaves no handle open.
* `writeFileToPath_content`: what has been written is there to be loaded.
-/

namespace Wondar.Pe

open Blocks CString Packing

/-! ## The calls -/

/-- `nn::fs` with the calls that read a file. `getFileSize` is `none` where the call fails. -/
structure ReadableStore (fs : Type) extends FileStore fs where
  getFileSize : fs → FileHandle → Option (BitVec 64)
  readFile : fs → FileHandle → Nat → BitVec 64 → Result × List Byte × fs

structure ReadableStore.Lawful {fs : Type} (F : ReadableStore fs) : Prop where
  store : F.toFileStore.Lawful
  size_done : ∀ s h p c n, F.opened s h = some p → F.content s p = some c →
    F.getFileSize s h = some n → n.toNat = c.length
  read_done : ∀ s h p c pos size, F.opened s h = some p → F.content s p = some c →
    (F.readFile s h pos size).1 = 0#32 →
      pos + size.toNat ≤ c.length ∧ (F.readFile s h pos size).2.1 = (c.drop pos).take size.toNat
  opened_read : ∀ s h pos size, F.opened (F.readFile s h pos size).2.2 = F.opened s
  content_read : ∀ s h pos size, F.content (F.readFile s h pos size).2.2 = F.content s

/-- `OpenMode_Read`. -/
def openModeRead : BitVec 32 := 1#32

/-- `LoadData`, with what has become of the memory and the files. -/
structure Loaded (fs : Type) where
  buffer : A64.Addr
  bufSize : BitVec 64
  mem : Nat → BitVec 8
  fileSystem : fs

section

variable {fs : Type} (F : ReadableStore fs)

/-- `FsHelper::loadFileFromPath`, or the value that it aborts with. `alloc` is that of the heap of
Peepa or of the game, whichever is asked for; `type` and `handle` are as for `writeFileToPath`. -/
def loadFileFromPath (alloc : BitVec 64 → A64.Addr) (s : fs) (mem : Nat → BitVec 8)
    (type : BitVec 32) (handle : A64.Addr) (path : Str) : Except Result (Loaded fs) :=
  if isFileExist F.toFileSystem s type path = false then .error 0#32
  else
    let args : OpenFileArgs := ⟨handle, path, openModeRead⟩
    let opened := F.openFile s args
    if abortsUnless opened.1 then .error 1#32
    else
      let size := (F.getFileSize opened.2 (F.openedHandle s args)).getD 0#64
      let buffer := alloc size
      if buffer = 0#64 then .error 0#32
      else
        let read := F.readFile opened.2 (F.openedHandle s args) 0 size
        if abortsUnless read.1 then .error 1#32
        else
          .ok
            { buffer
              bufSize := size
              mem := write mem buffer.toNat read.2.1
              fileSystem := F.closeFile read.2.2 (F.openedHandle s args) }

/-- `FsHelper::getFileSize`. -/
def getFileSize (s : fs) (handle : A64.Addr) (path : Str) : BitVec 64 × fs :=
  let args : OpenFileArgs := ⟨handle, path, openModeRead⟩
  let opened := F.openFile s args
  if rFailed opened.1 then (-1#64, opened.2)
  else
    ((F.getFileSize opened.2 (F.openedHandle s args)).getD (-1#64),
      F.closeFile opened.2 (F.openedHandle s args))

/-- `GetFileSize` succeeds behind `OpenFile`. -/
def SizeKnown (s : fs) (handle : A64.Addr) (path : Str) : Prop :=
  let args : OpenFileArgs := ⟨handle, path, openModeRead⟩
  (F.getFileSize (F.openFile s args).2 (F.openedHandle s args)).isSome

/-- The buffer holds the file. -/
def Loaded.Whole (r : Loaded fs) (c : List Byte) : Prop :=
  r.bufSize.toNat = c.length ∧ ReadsAs r.mem r.buffer.toNat c

variable {F} {alloc : BitVec 64 → A64.Addr} {s : fs} {mem : Nat → BitVec 8} {type : BitVec 32}
  {handle : A64.Addr} {path : Str} {r : Loaded fs} {c : List Byte}

theorem abortsUnless_eq (r : Result) : abortsUnless r = rFailed r := by
  rw [abortsUnless]
  cases rFailed r <;> rfl

/-- What a call that returns has done. -/
theorem loadFileFromPath_ok (h : loadFileFromPath F alloc s mem type handle path = .ok r) :
    let args : OpenFileArgs := ⟨handle, path, openModeRead⟩
    let opened := F.openFile s args
    let size := (F.getFileSize opened.2 (F.openedHandle s args)).getD 0#64
    let read := F.readFile opened.2 (F.openedHandle s args) 0 size
    opened.1 = 0#32 ∧ read.1 = 0#32 ∧
      r = ⟨alloc size, size, write mem (alloc size).toNat read.2.1,
        F.closeFile read.2.2 (F.openedHandle s args)⟩ := by
  intro args opened size read
  have hDone : ∀ result : Result, ¬ abortsUnless result = true → result = 0#32 := by
    intro result hNot
    rw [abortsUnless_eq, rFailed_iff] at hNot
    exact not_not.mp hNot
  unfold loadFileFromPath at h
  split at h
  · cases h
  dsimp only at h
  split at h
  · cases h
  rename_i hOpen
  split at h
  · cases h
  split at h
  · cases h
  rename_i hRead
  exact ⟨hDone _ hOpen, hDone _ hRead, (Except.ok.inj h).symm⟩

/-- A file that is opened and closed again leaves the other handles. -/
theorem update_opened {opened : FileHandle → Option Str} {h : FileHandle} {p : Str}
    (hNone : opened h = none) :
    Function.update (Function.update opened h (some p)) h none = opened := by
  rw [Function.update_idem, ← hNone, Function.update_eq_self]

/-- **Loading.** -/
theorem loadFileFromPath_whole_iff (hF : F.Lawful) (hContent : F.content s path = some c)
    (h : loadFileFromPath F alloc s mem type handle path = .ok r) :
    (r.Whole c ↔ SizeKnown F s handle path ∨ c = []) ∧
      (∀ b, b < r.buffer.toNat ∨ r.buffer.toNat + r.bufSize.toNat ≤ b → r.mem b = mem b) ∧
      F.opened r.fileSystem = F.opened s ∧ F.content r.fileSystem = F.content s := by
  obtain ⟨hOpen, hRead, rfl⟩ := loadFileFromPath_ok h
  obtain ⟨hFresh, hUpdate⟩ := hF.store.open_done s _ hOpen
  have hTarget : F.opened (F.openFile s ⟨handle, path, openModeRead⟩).2
      (F.openedHandle s ⟨handle, path, openModeRead⟩) = some path := by
    rw [hUpdate, Function.update_self]
  have hThere : F.content (F.openFile s ⟨handle, path, openModeRead⟩).2 path = some c := by
    rw [hF.store.content_open]
    exact hContent
  obtain ⟨hFits, hBytes⟩ := hF.read_done _ _ _ _ _ _ hTarget hThere hRead
  rw [Nat.zero_add] at hFits
  rw [List.drop_zero] at hBytes
  refine ⟨?_, ?_, ?_, ?_⟩
  · rw [Loaded.Whole, hBytes, SizeKnown]
    dsimp only
    cases hSize : F.getFileSize (F.openFile s ⟨handle, path, openModeRead⟩).2
      (F.openedHandle s ⟨handle, path, openModeRead⟩) with
    | none =>
      refine ⟨fun hWhole => Or.inr (List.length_eq_zero_iff.mp hWhole.1.symm), ?_⟩
      rintro (hKnown | rfl)
      · cases hKnown
      · exact ⟨rfl, rfl⟩
    | some n =>
      have hLength := hF.size_done _ _ _ _ _ hTarget hThere hSize
      refine iff_of_true ⟨hLength, ?_⟩ (Or.inl rfl)
      rw [Option.getD_some, hLength, List.take_length]
      exact read_write_self mem _ c
  · intro b hb
    rw [hBytes]
    apply write_outside
    rw [List.length_take]
    dsimp only at hb
    omega
  · dsimp only
    rw [hF.store.opened_close, hF.opened_read, hUpdate, update_opened hFresh]
  · dsimp only
    rw [hF.store.content_close, hF.content_read, hF.store.content_open]

/-- The three calls of a write succeed. -/
def Written (F : FileStore fs) (s : fs) (type : BitVec 32) (handle : A64.Addr) (buf : List Byte)
    (path : Str) : Prop :=
  let created := F.createFile (removePrevious F s type path) path buf.length
  let args : OpenFileArgs := ⟨handle, path, openModeWrite⟩
  let opened := F.openFile created.2 args
  created.1 = 0#32 ∧ opened.1 = 0#32 ∧
    (F.writeFile opened.2 (F.openedHandle created.2 args) 0 buf writeOptionFlagFlush).1 = 0#32

/-- What has been written is there, and the handle is closed. -/
theorem writeFileToPath_content {F : FileStore fs} {buf : List Byte} (hF : F.Lawful)
    (h : Written F s type handle buf path) :
    F.content (writeFileToPath F s type handle buf path).2 path = some buf ∧
      F.opened (writeFileToPath F s type handle buf path).2 = F.opened s := by
  obtain ⟨hCreate, hOpen, hWrite⟩ := h
  have hContent := hF.create_done _ path buf.length hCreate
  rw [← hF.content_open _ ⟨handle, path, openModeWrite⟩] at hContent
  obtain ⟨hFresh, hUpdate⟩ := hF.open_done _ _ hOpen
  have hTarget : F.opened (F.openFile (F.createFile (removePrevious F s type path) path
      buf.length).2 ⟨handle, path, openModeWrite⟩).2 (F.openedHandle (F.createFile
        (removePrevious F s type path) path buf.length).2 ⟨handle, path, openModeWrite⟩) =
      some path := by
    rw [hUpdate, Function.update_self]
  have hWritten := hF.write_done _ _ _ _ _ _ hTarget hContent hWrite
  have hNothing : (F.created (removePrevious F s type path) path buf.length).drop buf.length = [] :=
    List.drop_of_length_le (Nat.le_of_eq (hF.created_length _ path buf.length))
  rw [hNothing, List.append_nil] at hWritten
  rcases writeFileToPath_cases F s type handle buf path with ⟨h, -⟩ | ⟨-, h, -⟩ | ⟨-, -, h, -⟩ |
    ⟨-, -, -, hEq⟩
  · exact absurd hCreate h
  · exact absurd hOpen h
  · exact absurd hWrite h
  · rw [hEq]
    dsimp only
    rw [hF.content_close, hF.opened_close, hF.opened_write, hUpdate, update_opened hFresh,
      opened_created hF]
    exact ⟨hWritten, rfl⟩

/-- **Written and loaded.** -/
theorem load_after_write (hF : F.Lawful) {buf : List Byte} {type' : BitVec 32} {handle' : A64.Addr}
    (hWritten : Written F.toFileStore s type handle buf path)
    (h : loadFileFromPath F alloc (writeFileToPath F.toFileStore s type handle buf path).2 mem type'
      handle' path = .ok r) :
    (r.Whole buf ↔
      SizeKnown F (writeFileToPath F.toFileStore s type handle buf path).2 handle' path ∨ buf = []) ∧
      F.opened r.fileSystem = F.opened s := by
  obtain ⟨hContent, hOpened⟩ := writeFileToPath_content hF.store hWritten
  obtain ⟨hWhole, -, hHandles, -⟩ := loadFileFromPath_whole_iff hF hContent h
  exact ⟨hWhole, hHandles.trans hOpened⟩

/-- The size of a file, or else -1. -/
theorem getFileSize_spec (hF : F.Lawful) (hContent : F.content s path = some c) :
    ((getFileSize F s handle path).1 = -1#64 ∨
      (getFileSize F s handle path).1.toNat = c.length) ∧
      F.opened (getFileSize F s handle path).2 = F.opened s := by
  by_cases hOpen : (F.openFile s ⟨handle, path, openModeRead⟩).1 = 0#32
  · have hDone : ¬ rFailed (F.openFile s ⟨handle, path, openModeRead⟩).1 = true :=
      fun hFailed => (rFailed_iff _).mp hFailed hOpen
    obtain ⟨hFresh, hUpdate⟩ := hF.store.open_done s _ hOpen
    have hTarget : F.opened (F.openFile s ⟨handle, path, openModeRead⟩).2
        (F.openedHandle s ⟨handle, path, openModeRead⟩) = some path := by
      rw [hUpdate, Function.update_self]
    rw [← hF.store.content_open s ⟨handle, path, openModeRead⟩] at hContent
    rw [getFileSize, if_neg hDone, hF.store.opened_close, hUpdate, update_opened hFresh]
    refine ⟨?_, rfl⟩
    cases hSize : F.getFileSize (F.openFile s ⟨handle, path, openModeRead⟩).2
      (F.openedHandle s ⟨handle, path, openModeRead⟩) with
    | none => exact Or.inl rfl
    | some n => exact Or.inr (hF.size_done _ _ _ _ _ hTarget hContent hSize)
  · rw [getFileSize, if_pos ((rFailed_iff _).mpr hOpen)]
    exact ⟨Or.inl rfl, hF.store.open_failed s _ hOpen⟩

end

/-! ## A card -/

def readableCard : ReadableStore Card where
  toFileStore := card
  getFileSize s h :=
    ((s.handles h).bind s.files).bind fun c =>
      if c.length < 2 ^ 64 then some (BitVec.ofNat 64 c.length) else none
  readFile s h pos size :=
    match (s.handles h).bind s.files with
    | none => (0x602#32, [], s)
    | some c =>
      if pos + size.toNat ≤ c.length then (0#32, (c.drop pos).take size.toNat, s)
      else (0xbc02#32, [], s)

theorem readableCard_lawful : readableCard.Lawful where
  store := card_lawful
  size_done s h p c n hOpened hContent hSize := by
    have hFile : (s.handles h).bind s.files = some c := by
      rw [show s.handles h = some p from hOpened]
      exact hContent
    simp only [readableCard, hFile, Option.bind_some] at hSize
    split at hSize
    · rename_i hLt
      rw [← Option.some.inj hSize, BitVec.toNat_ofNat, Nat.mod_eq_of_lt hLt]
    · cases hSize
  read_done s h p c pos size hOpened hContent hDone := by
    have hFile : (s.handles h).bind s.files = some c := by
      rw [show s.handles h = some p from hOpened]
      exact hContent
    simp only [readableCard, hFile] at hDone ⊢
    split at hDone
    · rename_i hFits
      rw [if_pos hFits]
      exact ⟨hFits, rfl⟩
    · cases hDone
  opened_read s h pos size := by
    simp only [readableCard]
    split
    · rfl
    · split <;> rfl
  content_read s h pos size := by
    simp only [readableCard]
    split
    · rfl
    · split <;> rfl

/-- A file on the card is loaded. -/
theorem loadFileFromPath_readableCard {alloc : BitVec 64 → A64.Addr} {s : Card}
    {mem : Nat → BitVec 8} {type : BitVec 32} {handle : A64.Addr} {path : Str} {c : List Byte}
    (hFile : s.files path = some c) (hNext : s.handles s.next = none) (hLength : c.length < 2 ^ 64)
    (hAlloc : alloc (BitVec.ofNat 64 c.length) ≠ 0#64) :
    ∃ r, loadFileFromPath readableCard alloc s mem type handle path = .ok r ∧
      r.buffer = alloc (BitVec.ofNat 64 c.length) ∧ r.bufSize = BitVec.ofNat 64 c.length := by
  let args : OpenFileArgs := ⟨handle, path, openModeRead⟩
  let opened : Card := { s with
    handles := Function.update s.handles s.next (some path)
    next := s.next + 1#64 }
  have hExist : isFileExist readableCard.toFileSystem s type path = true := by
    simp only [isFileExist, readableCard, card, hFile, Option.map_some]
    rfl
  have hOpen : readableCard.openFile s args = (0#32, opened) := by
    have hSome : (s.files path).isSome = true := by
      rw [hFile]
      rfl
    exact if_pos ⟨hSome, hNext⟩
  have hHandle : (opened.handles s.next).bind opened.files = some c := by
    simp only [opened, Function.update_self, Option.bind_some, hFile]
  have hSize : readableCard.getFileSize opened s.next = some (BitVec.ofNat 64 c.length) := by
    simp only [readableCard, hHandle, Option.bind_some, if_pos hLength]
  have hRead : (readableCard.readFile opened s.next 0 (BitVec.ofNat 64 c.length)).1 = 0#32 := by
    simp only [readableCard, hHandle, BitVec.toNat_ofNat, Nat.mod_eq_of_lt hLength, Nat.zero_add,
      Nat.le_refl, if_true]
  have hHandleOpened : readableCard.openedHandle s args = s.next := rfl
  have hDone : abortsUnless 0#32 = false := rfl
  let read := readableCard.readFile opened s.next 0 (BitVec.ofNat 64 c.length)
  refine ⟨⟨alloc (BitVec.ofNat 64 c.length), BitVec.ofNat 64 c.length,
    write mem (alloc (BitVec.ofNat 64 c.length)).toNat read.2.1,
    readableCard.closeFile read.2.2 s.next⟩, ?_, rfl, rfl⟩
  rw [loadFileFromPath, hExist, if_neg (by decide)]
  simp only [args, hOpen, hHandleOpened, hSize, hRead, hDone, Option.getD_some, Bool.false_eq_true,
    if_false, if_neg hAlloc]
  rfl

theorem load_after_write_card :
    ∃ r, loadFileFromPath readableCard (fun _ => 0x9000#64)
        (writeFileToPath card (oneFile false false) 0#32 0x8000#64 [2#8] cardPath).2 (fun _ => 0#8)
        0#32 0x8000#64 cardPath = .ok r ∧ r.Whole [2#8] := by
  have hWritten : Written readableCard.toFileStore (oneFile false false) 0#32 0x8000#64 [2#8]
      cardPath := ⟨by decide, by decide, by decide⟩
  have hReturns : ∃ r, loadFileFromPath readableCard (fun _ => 0x9000#64)
      (writeFileToPath card (oneFile false false) 0#32 0x8000#64 [2#8] cardPath).2 (fun _ => 0#8)
      0#32 0x8000#64 cardPath = .ok r := ⟨_, rfl⟩
  obtain ⟨r, hLoad⟩ := hReturns
  exact ⟨r, hLoad, (load_after_write readableCard_lawful hWritten hLoad).1.mpr (Or.inl rfl)⟩

end Wondar.Pe
