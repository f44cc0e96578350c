import Wondar.A64.Bits
import Wondar.CString
import Wondar.Setting

/-!
# File redirection

The hook on `nn::fs::OpenFile` opens a file of the game from the SD card instead when the card
holds one of that name. `nn::fs` is not part of the repository: `FileSystem` lists the calls the
hook makes of it.

`FsHelper::isFileExist` reads the entry type that `GetEntryType` did not write when it failed,
so what an unrelated earlier call left on the stack can redirect a file that has no override
(`openFile_redirects_iff`).
-/

namespace Wondar.Pe

open CString

/-! ## The file system -/

/-- The enumerators of `nn::fs::DirectoryEntryType`. -/
inductive DirectoryEntryType
  | directory
  | file
deriving DecidableEq, Repr

def DirectoryEntryType.val : DirectoryEntryType → BitVec 32
  | .directory => 0#32
  | .file => 1#32

structure OpenFileArgs where
  out : A64.Addr
  path : Str
  mode : BitVec 32
deriving DecidableEq

/-- `nn::fs` on file systems of type `fs`. `getEntryType` is `none` where the call fails. -/
structure FileSystem (fs : Type) where
  mountSdCardForDebug : fs → fs
  getEntryType : fs → Str → Option DirectoryEntryType
  openFile : fs → OpenFileArgs → Result × fs

section

variable {fs : Type} (F : FileSystem fs)

/-- `FsHelper::isFileExist`. `type` is what lies in the place of the local variable. -/
def isFileExist (s : fs) (type : BitVec 32) (path : Str) : Bool :=
  let type := match F.getEntryType s path with
    | some entryType => entryType.val
    | none => type
  type == DirectoryEntryType.file.val

/-! ## The hook -/

/-- `content:/`. -/
def contentRoot : Str where
  bytes := ['c', 'o', 'n', 't', 'e', 'n', 't', ':', '/'].map fun c => BitVec.ofNat 8 c.toNat
  nonzero := by decide

/-- `sd:/Peepa/romfs/`. -/
def romfsRoot : Str where
  bytes := ['s', 'd', ':', '/', 'P', 'e', 'e', 'p', 'a', '/', 'r', 'o', 'm', 'f', 's', '/'].map
    fun c => BitVec.ofNat 8 c.toNat
  nonzero := by decide

/-- The largest path of `nn::fs`. -/
def pathMax : Nat := 0x300

structure State (fs : Type) where
  sdCardMounted : Bool
  fileSystem : fs

/-- A return of the hook, with the calls it made of the original. -/
structure Returned (fs : Type) where
  result : Result
  state : State fs
  calls : List OpenFileArgs

/-- The file system that the hook looks into. -/
def State.mounted (s : State fs) : fs :=
  if s.sdCardMounted then s.fileSystem else F.mountSdCardForDebug s.fileSystem

/-- `Orig`. -/
def orig (s : fs) (args : OpenFileArgs) : Returned fs where
  result := (F.openFile s args).1
  state := ⟨true, (F.openFile s args).2⟩
  calls := [args]

/-- `OpenFile::Callback`; `none` where a `strcat` leaves the buffer. -/
def openFile (s : State fs) (type : BitVec 32) (out : A64.Addr) (filePath : Str)
    (mode : BitVec 32) : Option (Returned fs) := do
  let mounted := s.mounted F
  if strncmp filePath.bytes contentRoot.bytes 9 = 0 then
    let path ← strcat (List.replicate 1024 0#8) romfsRoot
    let path ← strcat path (filePath.drop 9)
    if isFileExist F mounted type (strOf path) then
      return orig F mounted ⟨out, strOf path, mode⟩
  return orig F mounted ⟨out, filePath, mode⟩

/-! ## What it is for -/

/-- The path of the override. -/
def overridePath (filePath : Str) : Str := romfsRoot.append (filePath.drop 9)

/-- The path that the file is to be opened from. -/
def redirected (s : fs) (filePath : Str) : Str :=
  if filePath.StartsWith contentRoot ∧ F.getEntryType s (overridePath filePath) = some .file then
    overridePath filePath
  else filePath

/-- The stack decides: the override does not exist, and the place of the entry type holds that
of a file. -/
def Misled (s : fs) (type : BitVec 32) (filePath : Str) : Prop :=
  filePath.StartsWith contentRoot ∧ F.getEntryType s (overridePath filePath) = none ∧
    type = DirectoryEntryType.file.val

variable {F}

theorem isFileExist_iff (s : fs) (type : BitVec 32) (path : Str) :
    isFileExist F s type path = true ↔
      F.getEntryType s path = some .file ∨
        F.getEntryType s path = none ∧ type = DirectoryEntryType.file.val := by
  unfold isFileExist
  cases hType : F.getEntryType s path with
  | none => simp
  | some entryType => cases entryType <;> simp [DirectoryEntryType.val]

theorem overridePath_ne (filePath : Str) (hStart : filePath.StartsWith contentRoot) :
    overridePath filePath ≠ filePath := by
  intro hEq
  have hLen := congrArg (fun s : Str => s.bytes.length) hEq
  have hRoot : contentRoot.bytes.length ≤ filePath.bytes.length := hStart.length_le
  simp only [overridePath, Str.append, Str.drop, List.length_append, List.length_drop] at hLen
  have h16 : romfsRoot.bytes.length = 16 := rfl
  have h9 : contentRoot.bytes.length = 9 := rfl
  omega

/-- The buffer holds the path of the override. -/
theorem override_fits (filePath : Str) (hMax : filePath.bytes.length ≤ pathMax) :
    ∃ root path, strcat (List.replicate 1024 0#8) romfsRoot = some root ∧
      strcat root (filePath.drop 9) = some path ∧ strOf path = overridePath filePath := by
  have hEmpty : strOf (List.replicate 1024 0#8) = ⟨[], by decide⟩ := by
    ext1
    rfl
  have hFirst : (strOf (List.replicate 1024 0#8)).bytes.length + romfsRoot.bytes.length <
      (List.replicate 1024 0#8).length := by
    rw [hEmpty, List.length_replicate]
    decide
  obtain ⟨root, hRoot, hText, hLen⟩ := strcat_of_room hFirst
  have hText : strOf root = romfsRoot := by
    rw [hText, hEmpty]
    rfl
  have hSecond : (strOf root).bytes.length + (filePath.drop 9).bytes.length < root.length := by
    rw [hText, hLen, List.length_replicate, Str.drop, List.length_drop]
    have h16 : romfsRoot.bytes.length = 16 := rfl
    have hMax : filePath.bytes.length ≤ 0x300 := hMax
    omega
  obtain ⟨path, hPath, hText', -⟩ := strcat_of_room hSecond
  refine ⟨root, path, hRoot, hPath, ?_⟩
  rw [hText', hText, overridePath]

/-- What the hook does: one call of the original, with the path that `isFileExist` decides on. -/
theorem openFile_eq (s : State fs) (type : BitVec 32) (out : A64.Addr) (filePath : Str)
    (mode : BitVec 32) (hMax : filePath.bytes.length ≤ pathMax) :
    openFile F s type out filePath mode =
      some (orig F (s.mounted F)
        ⟨out, if filePath.StartsWith contentRoot ∧
            isFileExist F (s.mounted F) type (overridePath filePath) = true then
          overridePath filePath else filePath, mode⟩) := by
  have hStart : strncmp filePath.bytes contentRoot.bytes 9 = 0 ↔ filePath.StartsWith contentRoot :=
    strncmp_eq_zero_iff filePath.bytes contentRoot.bytes contentRoot.nonzero
  obtain ⟨root, path, hRoot, hPath, hText⟩ := override_fits filePath hMax
  simp only [openFile, hStart, hRoot, hPath, hText, Option.bind_eq_bind, Option.bind_some]
  by_cases hContent : filePath.StartsWith contentRoot
  · by_cases hExist : isFileExist F (s.mounted F) type (overridePath filePath) = true
    · simp [hContent, hExist]
    · simp [hContent, hExist]
  · simp [hContent]

variable (F) in
/-- The original is called once, with the caller's handle and mode and the path the file is to be
opened from, unless the stack decides. -/
theorem openFile_redirects_iff (s : State fs) (type : BitVec 32) (out : A64.Addr) (filePath : Str)
    (mode : BitVec 32) (hMax : filePath.bytes.length ≤ pathMax) :
    openFile F s type out filePath mode =
        some (orig F (s.mounted F) ⟨out, redirected F (s.mounted F) filePath, mode⟩) ↔
      ¬ Misled F (s.mounted F) type filePath := by
  rw [openFile_eq s type out filePath mode hMax, Option.some_inj]
  constructor
  · rintro hEq ⟨hStart, hNone, hType⟩
    have hCalls := congrArg Returned.calls hEq
    have hExist : isFileExist F (s.mounted F) type (overridePath filePath) = true :=
      (isFileExist_iff _ _ _).mpr (.inr ⟨hNone, hType⟩)
    have hPath : overridePath filePath = redirected F (s.mounted F) filePath := by
      rw [if_pos ⟨hStart, hExist⟩] at hCalls
      simpa [orig] using hCalls
    rw [redirected, hNone, if_neg (by simp)] at hPath
    exact overridePath_ne filePath hStart hPath
  · intro hMisled
    have hIff : (filePath.StartsWith contentRoot ∧
          isFileExist F (s.mounted F) type (overridePath filePath) = true) ↔
        (filePath.StartsWith contentRoot ∧
          F.getEntryType (s.mounted F) (overridePath filePath) = some .file) := by
      rw [isFileExist_iff]
      constructor
      · rintro ⟨hStart, hFile | ⟨hNone, hType⟩⟩
        · exact ⟨hStart, hFile⟩
        · exact absurd ⟨hStart, hNone, hType⟩ hMisled
      · rintro ⟨hStart, hFile⟩
        exact ⟨hStart, .inl hFile⟩
    simp only [redirected, hIff]

end

/-! ## A card with no override -/

/-- A file system that is a list of its entries. -/
def listed : FileSystem (List (Str × DirectoryEntryType)) where
  mountSdCardForDebug s := s
  getEntryType s path := s.lookup path
  openFile s args := (if s.lookup args.path = some .file then 0#32 else 0x202#32, s)

/-- `content:/b`. -/
def samplePath : Str := contentRoot.append ⟨[0x62#8], by decide⟩

/-- The file of the game, and nothing on the card. -/
def sampleState : State (List (Str × DirectoryEntryType)) := ⟨false, [(samplePath, .file)]⟩

theorem openFile_redirects_iff_sample :
    samplePath.bytes.length ≤ pathMax ∧
      (openFile listed sampleState 0#32 0x8000#64 samplePath 1#32 =
          some (orig listed (sampleState.mounted listed)
            ⟨0x8000#64, redirected listed (sampleState.mounted listed) samplePath, 1#32⟩) ↔
        ¬ Misled listed (sampleState.mounted listed) 0#32 samplePath) :=
  ⟨by decide, openFile_redirects_iff listed sampleState 0#32 0x8000#64 samplePath 1#32 (by decide)⟩

/-- With the value of a file on the stack the original is called with a path that no file has. -/
theorem openFile_misled :
    openFile listed sampleState 1#32 0x8000#64 samplePath 1#32 ≠
      some (orig listed (sampleState.mounted listed)
        ⟨0x8000#64, redirected listed (sampleState.mounted listed) samplePath, 1#32⟩) := by
  intro hEq
  have hCalls := congrArg (Option.map Returned.result) hEq
  revert hCalls
  rw [openFile_eq sampleState 1#32 0x8000#64 samplePath 1#32 (by decide)]
  decide

end Wondar.Pe
