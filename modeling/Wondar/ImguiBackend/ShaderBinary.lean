import Wondar.Packing
import Wondar.Pe.FsHelper
import Wondar.Setting

/-!
# The shader binary

`CreateShaderBinary` copies the control and the data part of every GPU-code section of a compiler
output into one binary, and writes the offsets to a header of four words. The place of an offset in
the header is the index of its section, behind the number of all sections for the data part.
`BinaryHeader` reads the header with the fragment shader first.

The two agree if and only if the output has the two sections alone, the one of the fragment shader
first (`createShaderBinary_decodes_iff`); with any other section an offset is written behind the
header. Where a file is asked for the function does not return, for what is aborted on is the
failure that `writeFileToPath` always reports.
-/

namespace Wondar.ImguiBackend

open Blocks Packing
open CString (Str)

/-! ## The compiler output -/

inductive NVNshaderStage
  | vertex
  | fragment
  | geometry
  | tessControl
  | tessEvaluation
  | compute
deriving DecidableEq, Repr

structure GpuCodeHeader where
  stage : NVNshaderStage
  controlOffset : BitVec 32
  dataOffset : BitVec 32
  controlSize : BitVec 32
  dataSize : BitVec 32
deriving DecidableEq, Repr

/-- `size` and `dataOffset` are common to all sections. `gpuCode` is `none` for a section of
another type. -/
structure SectionHeader where
  size : BitVec 32
  dataOffset : BitVec 32
  gpuCode : Option GpuCodeHeader
deriving DecidableEq, Repr

/-- `bytes` is what lies at the address of the output and behind it. -/
structure GLSLCoutput where
  headers : List SectionHeader
  bytes : Nat → BitVec 8

/-- The two parts of a GPU-code section. -/
inductive Part
  | control
  | data
deriving DecidableEq, Repr

namespace GpuCodeHeader

def offsetOf (g : GpuCodeHeader) : Part → BitVec 32
  | .control => g.controlOffset
  | .data => g.dataOffset

def sizeOf (g : GpuCodeHeader) : Part → BitVec 32
  | .control => g.controlSize
  | .data => g.dataSize

end GpuCodeHeader

/-- The bytes of a part. -/
def GLSLCoutput.part (o : GLSLCoutput) (s : SectionHeader) (g : GpuCodeHeader) (part : Part) :
    List (BitVec 8) :=
  read o.bytes (s.dataOffset + g.offsetOf part).toNat (g.sizeOf part).toNat

/-! ## `CreateShaderBinary` -/

/-- A store, except for those to single local variables. `memcpy` has the section and the part that
it copies. -/
inductive Store
  | memset (size : BitVec 64)
  | memcpy (sec : Nat) (part : Part) (dst : BitVec 32) (bytes : List (BitVec 8))
  | headerInfo (index : Nat)
  | header
  | fullPath (size : Nat)

structure Writer where
  curBinaryPos : BitVec 32
  headerInfo : Nat → BitVec 32
  binary : Nat → BitVec 8
  stores : List Store

def sizeofHeaderInfo : Nat := 16

/-- `fullPath` is an array of so many characters. -/
def sizeofFullPath : Nat := 0x40

/-- The first loop. -/
def binarySizeFrom : List SectionHeader → BitVec 64 → BitVec 64
  | [], binarySize => binarySize
  | s :: ss, binarySize =>
    match s.gpuCode with
    | some _ => binarySizeFrom ss (alignUp (binarySize + s.size.setWidth 64) 0x100#64)
    | none => binarySizeFrom ss binarySize

def binarySize (o : GLSLCoutput) : BitVec 64 :=
  alignUp (binarySizeFrom o.headers 0#64 + 0x1000#64) 0x1000#64

/-- The end of a part, rounded up. The sum is of 64 bits. -/
def nextBinaryPos (pos size : BitVec 32) : BitVec 32 :=
  (alignUp (pos.setWidth 64 + size.setWidth 64) 0x100#64).setWidth 32

/-- A round of the loops over one part, with the first place of its offsets in `headerInfo`. -/
def copySection (o : GLSLCoutput) (part : Part) (base : Nat) (w : Writer)
    (sec : SectionHeader × Nat) : Writer :=
  match sec.1.gpuCode with
  | none => w
  | some g =>
    let bytes := o.part sec.1 g part
    { curBinaryPos := nextBinaryPos w.curBinaryPos (g.sizeOf part)
      headerInfo := Function.update w.headerInfo (base + sec.2) w.curBinaryPos
      binary := write w.binary w.curBinaryPos.toNat bytes
      stores := w.stores ++
        [.memcpy sec.2 part w.curBinaryPos bytes, .headerInfo (base + sec.2)] }

def copyControl (o : GLSLCoutput) (w : Writer) : Writer :=
  o.headers.zipIdx.foldl (copySection o .control 0) w

def copyData (o : GLSLCoutput) (w : Writer) : Writer :=
  o.headers.zipIdx.foldl (copySection o .data o.headers.length) w

/-- The binary behind the `memset`. -/
def startBinary (o : GLSLCoutput) : Writer where
  curBinaryPos := 0x10#32
  headerInfo := fun _ => 0#32
  binary := fun _ => 0#8
  stores := [.memset (binarySize o)]

/-- The `memcpy` of the header. -/
def copyHeader (w : Writer) : Writer :=
  { w with
    binary := write w.binary 0 ((List.range 4).flatMap fun k => bytesOf32 (w.headerInfo k))
    stores := w.stores ++ [.header] }

/-- What the function does up to the output of the file. -/
def writeBinary (o : GLSLCoutput) : Writer :=
  copyHeader (copyData o (copyControl o (startBinary o)))

structure CompiledData where
  ptr : Nat → BitVec 8
  size : BitVec 64

/-- The stores, and what is returned if nothing aborts. -/
structure Created (fs : Type) where
  stores : List Store
  data : Option CompiledData
  fileSystem : fs

/-- `sd:/LunaKit/ImGuiData/`, `/` and `.bin` around the name. -/
def shaderPath (shaderName : Str) : Str where
  bytes := (['s', 'd', ':', '/', 'L', 'u', 'n', 'a', 'K', 'i', 't', '/', 'I', 'm', 'G', 'u', 'i', 'D',
    'a', 't', 'a', '/', '/'].map fun c => BitVec.ofNat 8 c.toNat) ++ shaderName.bytes ++
      (['.', 'b', 'i', 'n'].map fun c => BitVec.ofNat 8 c.toNat)
  nonzero h := by
    rcases List.mem_append.mp h with h | h
    · rcases List.mem_append.mp h with h | h
      · exact absurd h (by decide)
      · exact shaderName.nonzero h
    · exact absurd h (by decide)

/-- `type` and `handle` are what `writeFileToPath` finds on the stack. -/
def createShaderBinary {fs : Type} (F : Pe.FileStore fs) (s : fs) (type : BitVec 32)
    (handle : A64.Addr) (o : GLSLCoutput) (shaderName : Str) (outputFile : Bool) : Created fs :=
  let w := writeBinary o
  let data : CompiledData := ⟨w.binary, binarySize o⟩
  if outputFile then
    let path := shaderPath shaderName
    let buf := read w.binary 0 (binarySize o).toNat
    let written := Pe.writeFileToPath F s type handle buf path
    { stores := w.stores ++ [.fullPath (path.bytes.length + 1)]
      data := if Pe.abortsUnless written.1 then none else some data
      fileSystem := written.2 }
  else ⟨w.stores, some data, s⟩

/-! ## `BinaryHeader` -/

/-- The offsets of the two shaders, by part. -/
structure BinaryHeader where
  mVertexControlOffset : BitVec 32
  mVertexDataOffset : BitVec 32
  mFragmentControlOffset : BitVec 32
  mFragmentDataOffset : BitVec 32
deriving DecidableEq, Repr

/-- The word at an index. -/
def wordAt (binary : Nat → BitVec 8) (k : Nat) : BitVec 32 := load32 binary (0 + 4 * k)

/-- The constructor. -/
def BinaryHeader.new (binary : Nat → BitVec 8) : BinaryHeader where
  mFragmentControlOffset := wordAt binary 0
  mVertexControlOffset := wordAt binary 1
  mFragmentDataOffset := wordAt binary 2
  mVertexDataOffset := wordAt binary 3

namespace BinaryHeader

def vertex (h : BinaryHeader) : Part → BitVec 32
  | .control => h.mVertexControlOffset
  | .data => h.mVertexDataOffset

def fragment (h : BinaryHeader) : Part → BitVec 32
  | .control => h.mFragmentControlOffset
  | .data => h.mFragmentDataOffset

end BinaryHeader

/-! ## What it is for -/

/-- A section holds the code of a stage. -/
def SectionHeader.IsFor (s : SectionHeader) (stage : NVNshaderStage) : Prop :=
  ∃ g, s.gpuCode = some g ∧ g.stage = stage

/-- There is exactly one section with the code of a stage. -/
def GLSLCoutput.One (o : GLSLCoutput) (stage : NVNshaderStage) : Prop :=
  ∃! i : Nat, ∃ s : SectionHeader, o.headers[i]? = some s ∧ s.IsFor stage

/-- The two parts of a section fit in it. -/
def GLSLCoutput.PartsFit (o : GLSLCoutput) : Prop :=
  ∀ s ∈ o.headers, ∀ g, s.gpuCode = some g → g.controlSize.toNat + g.dataSize.toNat ≤ s.size.toNat

/-- A store inside the variable or the binary that it is for. -/
def Store.Inside (size : BitVec 64) : Store → Prop
  | .memset n => n.toNat ≤ size.toNat
  | .memcpy _ _ dst bytes => dst.toNat + bytes.length ≤ size.toNat
  | .headerInfo index => index < 4
  | .header => sizeofHeaderInfo ≤ size.toNat
  | .fullPath size => size ≤ sizeofFullPath

/-- The offsets of a stage are those that the parts of its section have been copied to. The parts
are there where the binary has no more bytes than 32 bits can count. -/
def Located (o : GLSLCoutput) (stores : List Store) (data : CompiledData) (stage : NVNshaderStage)
    (offset : Part → BitVec 32) : Prop :=
  ∀ i s g, o.headers[i]? = some s → s.gpuCode = some g → g.stage = stage → ∀ part,
    .memcpy i part (offset part) (o.part s g part) ∈ stores ∧
      (data.size.toNat ≤ 2 ^ 32 → ReadsAs data.ptr (offset part).toNat (o.part s g part))

/-- All stores are inside, and the header that is read back locates both shaders. -/
structure DecodesAsEncoded {fs : Type} (o : GLSLCoutput) (c : Created fs) : Prop where
  inside : ∀ st ∈ c.stores, st.Inside (binarySize o)
  located : ∃ data, c.data = some data ∧
    Located o c.stores data .vertex (BinaryHeader.new data.ptr).vertex ∧
    Located o c.stores data .fragment (BinaryHeader.new data.ptr).fragment

/-- The two shaders and nothing else, the fragment shader first. -/
def FragmentFirst (o : GLSLCoutput) : Prop :=
  ∃ s₀ s₁, o.headers = [s₀, s₁] ∧ s₀.IsFor .fragment ∧ s₁.IsFor .vertex

variable {o : GLSLCoutput} {s₀ s₁ : SectionHeader} {g₀ g₁ : GpuCodeHeader}

/-! ## The positions -/

theorem nextBinaryPos_toNat (pos size : BitVec 32) :
    (nextBinaryPos pos size).toNat = (pos.toNat + size.toNat + 255) / 256 * 256 % 2 ^ 32 := by
  have hPos := pos.isLt
  have hSize := size.isLt
  have hSum : (pos.setWidth 64 + size.setWidth 64).toNat = pos.toNat + size.toNat := by
    rw [BitVec.toNat_add, BitVec.toNat_setWidth, BitVec.toNat_setWidth]
    omega
  have hUp := alignUp_pow_toNat (x := pos.setWidth 64 + size.setWidth 64) (k := 8) (by decide)
    (by rw [hSum]; omega)
  rw [hSum] at hUp
  rw [nextBinaryPos, BitVec.toNat_setWidth]
  exact congrArg (· % 2 ^ 32) hUp

theorem nextBinaryPos_aligned (pos size : BitVec 32) : (nextBinaryPos pos size).toNat % 256 = 0 := by
  rw [nextBinaryPos_toNat]
  omega

theorem nextBinaryPos_le (pos size : BitVec 32) :
    (nextBinaryPos pos size).toNat ≤ pos.toNat + size.toNat + 255 := by
  rw [nextBinaryPos_toNat]
  omega

theorem le_nextBinaryPos {pos size : BitVec 32} (h : pos.toNat + size.toNat + 255 < 2 ^ 32) :
    pos.toNat + size.toNat ≤ (nextBinaryPos pos size).toNat := by
  rw [nextBinaryPos_toNat]
  omega

theorem binarySizeFrom_toNat {s : SectionHeader} {l : List SectionHeader} {g : GpuCodeHeader}
    {n : BitVec 64} (hGpu : s.gpuCode = some g) (hn : n.toNat + 2 ^ 33 < 2 ^ 64) :
    ∃ n' : BitVec 64, binarySizeFrom (s :: l) n = binarySizeFrom l n' ∧
      n.toNat + s.size.toNat ≤ n'.toNat ∧ n'.toNat ≤ n.toNat + s.size.toNat + 255 := by
  have hLt := s.size.isLt
  have hSum : (n + s.size.setWidth 64).toNat = n.toNat + s.size.toNat := by
    rw [BitVec.toNat_add, BitVec.toNat_setWidth]
    omega
  have hUp := alignUp_pow_toNat (x := n + s.size.setWidth 64) (k := 8) (by decide)
    (by rw [hSum]; omega)
  rw [hSum] at hUp
  have hValue : (alignUp (n + s.size.setWidth 64) 0x100#64).toNat =
      (n.toNat + s.size.toNat + 255) / 256 * 256 := hUp
  refine ⟨alignUp (n + s.size.setWidth 64) 0x100#64, ?_, ?_, ?_⟩
  · rw [binarySizeFrom, hGpu]
  · omega
  · omega

/-- The binary has room for two sections, and a page to spare. -/
theorem binarySize_pair (h : o.headers = [s₀, s₁]) (h₀ : s₀.gpuCode = some g₀)
    (h₁ : s₁.gpuCode = some g₁) :
    s₀.size.toNat + s₁.size.toNat + 0x1000 ≤ (binarySize o).toNat := by
  have hLt₀ := s₀.size.isLt
  have hLt₁ := s₁.size.isLt
  obtain ⟨n, hFirst, hLow, hHigh⟩ :=
    binarySizeFrom_toNat (l := [s₁]) (n := 0#64) h₀ (by decide)
  have hZero : (0#64).toNat = 0 := rfl
  obtain ⟨n', hSecond, hLow', hHigh'⟩ :=
    binarySizeFrom_toNat (l := []) (n := n) h₁ (by omega)
  have hFrom : binarySizeFrom o.headers 0#64 = n' := by
    rw [h, hFirst, hSecond]
    rfl
  have hSum : (n' + 0x1000#64).toNat = n'.toNat + 0x1000 := by
    have hPage : (0x1000#64).toNat = 0x1000 := rfl
    rw [BitVec.toNat_add, hPage]
    omega
  have hUp := alignUp_toNat (x := n' + 0x1000#64) (by rw [hSum]; omega)
  have hSize : (binarySize o).toNat = (n'.toNat + 0x1000 + 4095) / 4096 * 4096 := by
    rw [binarySize, hFrom, ← hSum]
    exact hUp
  omega

/-! ## Two sections -/

/-- The places of the parts of both sections: the control parts, and the data parts behind them. -/
structure Positions (g₀ g₁ : GpuCodeHeader) (pos₀ pos₁ : Part → BitVec 32) : Prop where
  control₀ : pos₀ .control = 0x10#32
  control₁ : pos₁ .control = nextBinaryPos (pos₀ .control) g₀.controlSize
  data₀ : pos₀ .data = nextBinaryPos (pos₁ .control) g₁.controlSize
  data₁ : pos₁ .data = nextBinaryPos (pos₀ .data) g₀.dataSize

theorem exists_positions (g₀ g₁ : GpuCodeHeader) : ∃ pos₀ pos₁, Positions g₀ g₁ pos₀ pos₁ := by
  let p₁ := nextBinaryPos 0x10#32 g₀.controlSize
  let p₂ := nextBinaryPos p₁ g₁.controlSize
  let pos₀ : Part → BitVec 32
    | .control => 0x10#32
    | .data => p₂
  let pos₁ : Part → BitVec 32
    | .control => p₁
    | .data => nextBinaryPos p₂ g₀.dataSize
  exact ⟨pos₀, pos₁, rfl, rfl, rfl, rfl⟩

variable {pos₀ pos₁ : Part → BitVec 32}

/-- The words of the header. -/
def headerWords (pos₀ pos₁ : Part → BitVec 32) : List (BitVec 32) :=
  [pos₀ .control, pos₁ .control, pos₀ .data, pos₁ .data]

/-- What is copied where, the header last. -/
def partCopies (o : GLSLCoutput) (s₀ s₁ : SectionHeader) (g₀ g₁ : GpuCodeHeader)
    (pos₀ pos₁ : Part → BitVec 32) : List (Nat × List (BitVec 8)) :=
  [((pos₀ .control).toNat, o.part s₀ g₀ .control), ((pos₁ .control).toNat, o.part s₁ g₁ .control),
    ((pos₀ .data).toNat, o.part s₀ g₀ .data), ((pos₁ .data).toNat, o.part s₁ g₁ .data),
    (0, (headerWords pos₀ pos₁).flatMap bytesOf32)]

/-- The parts lie behind each other, if the positions do not wrap. -/
theorem Positions.le (hPos : Positions g₀ g₁ pos₀ pos₁) :
    (pos₀ .control).toNat = 0x10 ∧
      (pos₁ .control).toNat ≤ (pos₀ .control).toNat + g₀.controlSize.toNat + 255 ∧
      (pos₀ .data).toNat ≤ (pos₁ .control).toNat + g₁.controlSize.toNat + 255 ∧
      (pos₁ .data).toNat ≤ (pos₀ .data).toNat + g₀.dataSize.toNat + 255 := by
  refine ⟨by rw [hPos.control₀]; rfl, ?_, ?_, ?_⟩
  · rw [hPos.control₁]
    exact nextBinaryPos_le _ _
  · rw [hPos.data₀]
    exact nextBinaryPos_le _ _
  · rw [hPos.data₁]
    exact nextBinaryPos_le _ _

theorem Positions.ge (hPos : Positions g₀ g₁ pos₀ pos₁)
    (h : g₀.controlSize.toNat + g₁.controlSize.toNat + g₀.dataSize.toNat + 0x400 < 2 ^ 32) :
    (pos₀ .control).toNat + g₀.controlSize.toNat ≤ (pos₁ .control).toNat ∧
      (pos₁ .control).toNat + g₁.controlSize.toNat ≤ (pos₀ .data).toNat ∧
      (pos₀ .data).toNat + g₀.dataSize.toNat ≤ (pos₁ .data).toNat := by
  obtain ⟨hStart, hLe₁, hLe₂, -⟩ := hPos.le
  refine ⟨?_, ?_, ?_⟩
  · rw [hPos.control₁]
    exact le_nextBinaryPos (by omega)
  · rw [hPos.data₀]
    exact le_nextBinaryPos (by omega)
  · rw [hPos.data₁]
    exact le_nextBinaryPos (by omega)

theorem length_part (s : SectionHeader) (g : GpuCodeHeader) (part : Part) :
    (o.part s g part).length = (g.sizeOf part).toNat := length_read

section

variable (h : o.headers = [s₀, s₁]) (h₀ : s₀.gpuCode = some g₀) (h₁ : s₁.gpuCode = some g₁)
  (hPos : Positions g₀ g₁ pos₀ pos₁)
include h h₀ h₁ hPos

theorem writeBinary_pair :
    (writeBinary o).stores =
        [.memset (binarySize o),
          .memcpy 0 .control (pos₀ .control) (o.part s₀ g₀ .control), .headerInfo 0,
          .memcpy 1 .control (pos₁ .control) (o.part s₁ g₁ .control), .headerInfo 1,
          .memcpy 0 .data (pos₀ .data) (o.part s₀ g₀ .data), .headerInfo 2,
          .memcpy 1 .data (pos₁ .data) (o.part s₁ g₁ .data), .headerInfo 3, .header] ∧
      (writeBinary o).binary = copyAll (fun _ => 0#8) (partCopies o s₀ s₁ g₀ g₁ pos₀ pos₁) := by
  have hControl : copyControl o (startBinary o) =
      copySection o .control 0 (copySection o .control 0 (startBinary o) (s₀, 0)) (s₁, 1) := by
    rw [copyControl, h]
    rfl
  have hData (w : Writer) : copyData o w =
      copySection o .data 2 (copySection o .data 2 w (s₀, 0)) (s₁, 1) := by
    rw [copyData, h]
    rfl
  simp only [partCopies, headerWords, hPos.data₁, hPos.data₀, hPos.control₁, hPos.control₀]
  rw [writeBinary, hControl, hData]
  simp only [copySection, h₀, h₁]
  exact ⟨rfl, rfl⟩

theorem stores_inside (hFit : o.PartsFit) :
    ∀ st ∈ (writeBinary o).stores, st.Inside (binarySize o) := by
  have hRoom := binarySize_pair h h₀ h₁
  have hFit₀ := hFit s₀ (by rw [h]; exact List.mem_cons_self) g₀ h₀
  have hFit₁ := hFit s₁ (by rw [h]; exact List.mem_cons_of_mem s₀ List.mem_cons_self) g₁ h₁
  obtain ⟨hStart, hLe₁, hLe₂, hLe₃⟩ := hPos.le
  rw [(writeBinary_pair h h₀ h₁ hPos).1]
  simp only [List.forall_mem_cons, Store.Inside, length_part, GpuCodeHeader.sizeOf,
    sizeofHeaderInfo]
  refine ⟨Nat.le_refl _, by omega, by decide, by omega, by decide, by omega, by decide, by omega,
    by decide, by omega, fun st hMem => by cases hMem⟩

/-- The header reads back. -/
theorem wordAt_binary {k : Nat} {p : BitVec 32} (hk : (headerWords pos₀ pos₁)[k]? = some p) :
    wordAt (writeBinary o).binary k = p := by
  have hHeader : ReadsAs (writeBinary o).binary 0 ((headerWords pos₀ pos₁).flatMap bytesOf32) := by
    rw [(writeBinary_pair h h₀ h₁ hPos).2]
    exact read_write_self _ 0 _
  exact hHeader.word hk

/-- The first section's offsets are taken for the fragment shader's. -/
theorem fragment_new : (BinaryHeader.new (writeBinary o).binary).fragment = pos₀ := by
  funext part
  cases part with
  | control => exact wordAt_binary h h₀ h₁ hPos (k := 0) rfl
  | data => exact wordAt_binary h h₀ h₁ hPos (k := 2) rfl

theorem vertex_new : (BinaryHeader.new (writeBinary o).binary).vertex = pos₁ := by
  funext part
  cases part with
  | control => exact wordAt_binary h h₀ h₁ hPos (k := 1) rfl
  | data => exact wordAt_binary h h₀ h₁ hPos (k := 3) rfl

/-- The parts read back, where the positions do not wrap. -/
theorem part_binary (hFit : o.PartsFit) (hSize : (binarySize o).toNat ≤ 2 ^ 32)
    {copy : Nat × List (BitVec 8)} (hCopy : copy ∈ partCopies o s₀ s₁ g₀ g₁ pos₀ pos₁) :
    ReadsAs (writeBinary o).binary copy.1 copy.2 := by
  have hRoom := binarySize_pair h h₀ h₁
  have hFit₀ := hFit s₀ (by rw [h]; exact List.mem_cons_self) g₀ h₀
  have hFit₁ := hFit s₁ (by rw [h]; exact List.mem_cons_of_mem s₀ List.mem_cons_self) g₁ h₁
  have hStart := hPos.le.1
  obtain ⟨hLe₁, hLe₂, hLe₃⟩ := hPos.ge (by omega)
  have hHeader : ((headerWords pos₀ pos₁).flatMap bytesOf32).length = 0x10 := rfl
  have hApart : (partCopies o s₀ s₁ g₀ g₁ pos₀ pos₁).Pairwise
      fun copy copy' => Block.Apart ⟨copy.1, copy.2.length⟩ ⟨copy'.1, copy'.2.length⟩ := by
    simp only [partCopies, List.pairwise_cons, List.forall_mem_cons, Block.Apart, length_part,
      GpuCodeHeader.sizeOf, hHeader, List.Pairwise.nil, List.not_mem_nil, false_imp_iff,
      implies_true, and_true]
    omega
  rw [(writeBinary_pair h h₀ h₁ hPos).2]
  exact read_copyAll_mem hApart hCopy

/-- The parts of both sections are where they have been copied to. -/
theorem located_part (hFit : o.PartsFit) {i : Nat} {s : SectionHeader} {g : GpuCodeHeader}
    {pos : Part → BitVec 32} (hSection : i = 0 ∧ s = s₀ ∧ g = g₀ ∧ pos = pos₀ ∨
      i = 1 ∧ s = s₁ ∧ g = g₁ ∧ pos = pos₁) (part : Part) :
    .memcpy i part (pos part) (o.part s g part) ∈ (writeBinary o).stores ∧
      ((binarySize o).toNat ≤ 2 ^ 32 →
        ReadsAs (writeBinary o).binary (pos part).toNat (o.part s g part)) := by
  have hStore : .memcpy i part (pos part) (o.part s g part) ∈ (writeBinary o).stores := by
    rw [(writeBinary_pair h h₀ h₁ hPos).1]
    rcases hSection with ⟨rfl, rfl, rfl, rfl⟩ | ⟨rfl, rfl, rfl, rfl⟩ <;> cases part <;> simp
  have hCopy : ((pos part).toNat, o.part s g part) ∈ partCopies o s₀ s₁ g₀ g₁ pos₀ pos₁ := by
    rcases hSection with ⟨rfl, rfl, rfl, rfl⟩ | ⟨rfl, rfl, rfl, rfl⟩ <;> cases part <;>
      simp [partCopies]
  exact ⟨hStore, fun hSize => part_binary h h₀ h₁ hPos hFit hSize hCopy⟩

end

/-- A section of a stage is one of the two. -/
theorem pair_cases (h : o.headers = [s₀, s₁]) {i : Nat} {s : SectionHeader}
    (hi : o.headers[i]? = some s) : i = 0 ∧ s = s₀ ∨ i = 1 ∧ s = s₁ := by
  rw [h] at hi
  match i with
  | 0 =>
    cases hi
    exact .inl ⟨rfl, rfl⟩
  | 1 =>
    cases hi
    exact .inr ⟨rfl, rfl⟩

section

variable {fs : Type} (F : Pe.FileStore fs) (s : fs) (type : BitVec 32) (handle : A64.Addr)
  (shaderName : Str)

theorem createShaderBinary_false :
    createShaderBinary F s type handle o shaderName false =
      ⟨(writeBinary o).stores, some ⟨(writeBinary o).binary, binarySize o⟩, s⟩ := rfl

/-- Where a file is asked for nothing is returned. -/
theorem createShaderBinary_true :
    (createShaderBinary F s type handle o shaderName true).data = none := by
  simp only [createShaderBinary, if_true, Pe.writeFileToPath_aborts]

theorem FragmentFirst.decodes (hFirst : FragmentFirst o) (hFit : o.PartsFit) :
    DecodesAsEncoded o (createShaderBinary F s type handle o shaderName false) := by
  obtain ⟨s₀, s₁, h, ⟨g₀, h₀, hStage₀⟩, ⟨g₁, h₁, hStage₁⟩⟩ := hFirst
  obtain ⟨pos₀, pos₁, hPos⟩ := exists_positions g₀ g₁
  rw [createShaderBinary_false]
  refine ⟨stores_inside h h₀ h₁ hPos hFit, _, rfl, ?_, ?_⟩
  · rw [vertex_new h h₀ h₁ hPos]
    intro i s g hi hg hStage part
    rcases pair_cases h hi with ⟨rfl, rfl⟩ | ⟨rfl, rfl⟩
    · cases h₀.symm.trans hg
      cases hStage₀.symm.trans hStage
    · cases h₁.symm.trans hg
      exact located_part h h₀ h₁ hPos hFit (.inr ⟨rfl, rfl, rfl, rfl⟩) part
  · rw [fragment_new h h₀ h₁ hPos]
    intro i s g hi hg hStage part
    rcases pair_cases h hi with ⟨rfl, rfl⟩ | ⟨rfl, rfl⟩
    · cases h₀.symm.trans hg
      exact located_part h h₀ h₁ hPos hFit (.inl ⟨rfl, rfl, rfl, rfl⟩) part
    · cases h₁.symm.trans hg
      cases hStage₁.symm.trans hStage

end

/-! ## More sections -/

section

variable {part : Part} {base : Nat} {w : Writer} {st : Store} {secs : List (SectionHeader × Nat)}

theorem mem_stores_copySection (h : st ∈ w.stores) (sec : SectionHeader × Nat) :
    st ∈ (copySection o part base w sec).stores := by
  unfold copySection
  split
  · exact h
  · exact List.mem_append_left _ h

theorem mem_stores_foldl (h : st ∈ w.stores) :
    st ∈ (secs.foldl (copySection o part base) w).stores := by
  induction secs generalizing w with
  | nil => exact h
  | cons sec secs ih => exact ih (mem_stores_copySection h sec)

/-- Each section that is copied has its place in the header, inside or not. -/
theorem headerInfo_mem_foldl {sec : SectionHeader × Nat} {g : GpuCodeHeader} (hMem : sec ∈ secs)
    (hGpu : sec.1.gpuCode = some g) :
    .headerInfo (base + sec.2) ∈ (secs.foldl (copySection o part base) w).stores := by
  induction secs generalizing w with
  | nil => cases hMem
  | cons sec' secs ih =>
    rw [List.foldl_cons]
    rcases List.mem_cons.mp hMem with rfl | hRest
    · apply mem_stores_foldl
      simp only [copySection, hGpu]
      simp
    · exact ih hRest

end

theorem headerInfo_mem {i : Nat} {s : SectionHeader} {g : GpuCodeHeader}
    (hi : o.headers[i]? = some s) (hGpu : s.gpuCode = some g) :
    .headerInfo (o.headers.length + i) ∈ (writeBinary o).stores := by
  have hMem : (s, i) ∈ o.headers.zipIdx := List.mem_zipIdx_iff_getElem?.mpr hi
  apply List.mem_append_left
  exact headerInfo_mem_foldl hMem hGpu

/-- The places of both shaders' offsets are inside the header only if there is no third section. -/
theorem pair_of_inside (hVertex : o.One .vertex) (hFragment : o.One .fragment)
    (hInside : ∀ st ∈ (writeBinary o).stores, st.Inside (binarySize o)) :
    FragmentFirst o ∨
      ∃ s₀ s₁, o.headers = [s₀, s₁] ∧ s₀.IsFor .vertex ∧ s₁.IsFor .fragment := by
  obtain ⟨i, ⟨sv, hv, gv, hGpuV, hStageV⟩, -⟩ := hVertex
  obtain ⟨j, ⟨sf, hf, gf, hGpuF, hStageF⟩, -⟩ := hFragment
  have hPlaceV : o.headers.length + i < 4 := hInside _ (headerInfo_mem hv hGpuV)
  have hPlaceF : o.headers.length + j < 4 := hInside _ (headerInfo_mem hf hGpuF)
  have hNe : i ≠ j := by
    rintro rfl
    cases hv.symm.trans hf
    cases hGpuV.symm.trans hGpuF
    cases hStageV.symm.trans hStageF
  obtain ⟨hi, -⟩ := List.getElem?_eq_some_iff.mp hv
  obtain ⟨hj, -⟩ := List.getElem?_eq_some_iff.mp hf
  obtain ⟨s₀, s₁, h⟩ : ∃ s₀ s₁, o.headers = [s₀, s₁] := List.length_eq_two.mp (by omega)
  rcases pair_cases h hv with ⟨rfl, rfl⟩ | ⟨rfl, rfl⟩ <;>
    rcases pair_cases h hf with ⟨rfl, rfl⟩ | ⟨rfl, rfl⟩
  · exact absurd rfl hNe
  · exact .inr ⟨sv, sf, h, ⟨gv, hGpuV, hStageV⟩, ⟨gf, hGpuF, hStageF⟩⟩
  · exact .inl ⟨sf, sv, h, ⟨gf, hGpuF, hStageF⟩, ⟨gv, hGpuV, hStageV⟩⟩
  · exact absurd rfl hNe

section

variable {fs : Type} (F : Pe.FileStore fs) (s : fs) (type : BitVec 32) (handle : A64.Addr)
  (o : GLSLCoutput) (shaderName : Str)

/-- The vertex shader's offset is taken for the fragment shader's. -/
theorem not_decodes_of_vertexFirst (h : o.headers = [s₀, s₁]) (hFor : s₁.IsFor .fragment)
    (hFor₀ : s₀.IsFor .vertex) :
    ¬ DecodesAsEncoded o (createShaderBinary F s type handle o shaderName false) := by
  rintro ⟨-, data, hData, -, hLocated⟩
  obtain ⟨g₀, h₀, -⟩ := hFor₀
  obtain ⟨g₁, h₁, hStage⟩ := hFor
  obtain ⟨pos₀, pos₁, hPos⟩ := exists_positions g₀ g₁
  rw [createShaderBinary_false] at hData hLocated
  cases hData
  rw [fragment_new h h₀ h₁ hPos] at hLocated
  have hSecond : o.headers[1]? = some s₁ := by
    rw [h]
    rfl
  have hCopied := (hLocated 1 s₁ g₁ hSecond h₁ hStage .control).1
  rw [(writeBinary_pair h h₀ h₁ hPos).1] at hCopied
  have hSame : pos₀ .control = pos₁ .control := by
    simpa using hCopied
  have hAligned := nextBinaryPos_aligned (pos₀ .control) g₀.controlSize
  rw [← hPos.control₁, ← hSame, hPos.control₀] at hAligned
  exact absurd hAligned (by decide)

theorem createShaderBinary_decodes_iff (outputFile : Bool) (hVertex : o.One .vertex)
    (hFragment : o.One .fragment) (hFit : o.PartsFit) :
    DecodesAsEncoded o (createShaderBinary F s type handle o shaderName outputFile) ↔
      outputFile = false ∧ FragmentFirst o := by
  constructor
  · intro hDecodes
    cases outputFile with
    | true =>
      obtain ⟨data, hData, -⟩ := hDecodes.located
      rw [createShaderBinary_true] at hData
      cases hData
    | false =>
      have hInside := hDecodes.inside
      rw [createShaderBinary_false] at hInside
      rcases pair_of_inside hVertex hFragment hInside with hFirst | ⟨s₀, s₁, h, hFor₀, hFor₁⟩
      · exact ⟨rfl, hFirst⟩
      · exact absurd hDecodes
          (not_decodes_of_vertexFirst F s type handle o shaderName h hFor₁ hFor₀)
  · rintro ⟨rfl, hFirst⟩
    exact hFirst.decodes F s type handle shaderName hFit

end

/-! ## Samples -/

/-- A byte of control and a byte of data. -/
def shaderSection (stage : NVNshaderStage) : SectionHeader :=
  ⟨2#32, 0#32, some ⟨stage, 0#32, 1#32, 1#32, 1#32⟩⟩

/-- The sections of two shaders, and those behind them. -/
def compiled (first second : NVNshaderStage) (rest : List SectionHeader) : GLSLCoutput where
  headers := shaderSection first :: shaderSection second :: rest
  bytes a := BitVec.ofNat 8 (a + 1)

/-- The name `imgui`. -/
def shaderName : Str := ⟨[0x69#8, 0x6d#8, 0x67#8, 0x75#8, 0x69#8], by decide⟩

/-- A section without code. -/
def reflection : SectionHeader := ⟨0x20#32, 0x100#32, none⟩

theorem compiled_partsFit (first second : NVNshaderStage) {rest : List SectionHeader}
    (hRest : ∀ s ∈ rest, s.gpuCode = none) : (compiled first second rest).PartsFit := by
  intro s hMem g hGpu
  rcases List.mem_cons.mp hMem with rfl | hMem
  · cases hGpu
    exact Nat.le_refl 2
  · rcases List.mem_cons.mp hMem with rfl | hMem
    · cases hGpu
      exact Nat.le_refl 2
    · rw [hRest s hMem] at hGpu
      cases hGpu

theorem compiled_one {first second : NVNshaderStage} {rest : List SectionHeader}
    (hNe : first ≠ second) (hRest : ∀ s ∈ rest, s.gpuCode = none) :
    (compiled first second rest).One first ∧ (compiled first second rest).One second := by
  have hOnly : ∀ i s g, (compiled first second rest).headers[i]? = some s → s.gpuCode = some g →
      i = 0 ∧ g.stage = first ∨ i = 1 ∧ g.stage = second := by
    intro i s g hi hGpu
    match i with
    | 0 =>
      cases hi
      cases hGpu
      exact .inl ⟨rfl, rfl⟩
    | 1 =>
      cases hi
      cases hGpu
      exact .inr ⟨rfl, rfl⟩
    | i + 2 =>
      have hMem : s ∈ rest := List.mem_of_getElem? (show rest[i]? = some s from hi)
      rw [hRest s hMem] at hGpu
      cases hGpu
  constructor
  · refine ⟨0, ⟨_, rfl, _, rfl, rfl⟩, ?_⟩
    rintro i ⟨s, hi, g, hGpu, hStage⟩
    rcases hOnly i s g hi hGpu with ⟨rfl, -⟩ | ⟨-, hSecond⟩
    · rfl
    · exact absurd (hStage.symm.trans hSecond) hNe
  · refine ⟨1, ⟨_, rfl, _, rfl, rfl⟩, ?_⟩
    rintro i ⟨s, hi, g, hGpu, hStage⟩
    rcases hOnly i s g hi hGpu with ⟨-, hFirst⟩ | ⟨rfl, -⟩
    · exact absurd (hFirst.symm.trans hStage) hNe
    · rfl

/-- A third section leads to a store behind the header, and the vertex shader first to the wrong
offsets. -/
theorem createShaderBinary_misplaces :
    (compiled .fragment .vertex [reflection]).One .vertex ∧
      (compiled .fragment .vertex [reflection]).One .fragment ∧
      (compiled .fragment .vertex [reflection]).PartsFit ∧
      .headerInfo 4 ∈ (createShaderBinary Pe.card (Pe.oneFile false false) 0#32 0x8000#64
        (compiled .fragment .vertex [reflection]) shaderName false).stores ∧
      ¬ DecodesAsEncoded (compiled .fragment .vertex [reflection])
        (createShaderBinary Pe.card (Pe.oneFile false false) 0#32 0x8000#64
          (compiled .fragment .vertex [reflection]) shaderName false) ∧
      ¬ DecodesAsEncoded (compiled .vertex .fragment [])
        (createShaderBinary Pe.card (Pe.oneFile false false) 0#32 0x8000#64
          (compiled .vertex .fragment []) shaderName false) := by
  have hRest : ∀ s ∈ [reflection], s.gpuCode = none := by decide
  obtain ⟨hFragment, hVertex⟩ :=
    compiled_one (show NVNshaderStage.fragment ≠ .vertex by decide) hRest
  have hBehind : .headerInfo 4 ∈ (createShaderBinary Pe.card (Pe.oneFile false false) 0#32 0x8000#64
      (compiled .fragment .vertex [reflection]) shaderName false).stores :=
    headerInfo_mem (o := compiled .fragment .vertex [reflection]) (i := 1) rfl rfl
  refine ⟨hVertex, hFragment, compiled_partsFit _ _ hRest, hBehind, ?_, ?_⟩
  · intro hDecodes
    have hInside : 4 < 4 := hDecodes.inside _ hBehind
    exact absurd hInside (by decide)
  · exact not_decodes_of_vertexFirst Pe.card _ _ _ _ _ rfl ⟨_, rfl, rfl⟩ ⟨_, rfl, rfl⟩

/-- The two shaders alone. -/
theorem createShaderBinary_decodes_iff_two :
    DecodesAsEncoded (compiled .fragment .vertex [])
      (createShaderBinary Pe.card (Pe.oneFile false false) 0#32 0x8000#64
        (compiled .fragment .vertex []) shaderName false) := by
  have hRest : ∀ s ∈ ([] : List SectionHeader), s.gpuCode = none := fun s hMem => by cases hMem
  obtain ⟨hFragment, hVertex⟩ :=
    compiled_one (show NVNshaderStage.fragment ≠ .vertex by decide) hRest
  apply (createShaderBinary_decodes_iff Pe.card _ _ _ _ _ false hVertex hFragment
    (compiled_partsFit _ _ hRest)).mpr
  exact ⟨rfl, _, _, rfl, ⟨_, rfl, rfl⟩, ⟨_, rfl, rfl⟩⟩

end Wondar.ImguiBackend
