import Wondar.ImguiBackend.ShaderBinary
import Wondar.Pe.LoadFile

/-!
# Setting up the shaders

`createShaders` loads the shader binary from the card, and `setupShaders` hands its parts to the
driver: the control part of a shader by the address of the processor, and the data part by that of
the buffer that has been made of the binary.

Where the file holds what `CreateShaderBinary` makes of the output of the compiler, each shader gets
its own two parts (`shaders_round_trip`). The file is not the one that `CreateShaderBinary` writes
(`shaderPath_ne_imguiBin`).
-/

namespace Wondar.ImguiBackend

open A64 (Addr)
open Blocks Packing
open CString (Str)

/-! ## `createShaders` -/

/-- `sd:/Peepa/ImGuiData/imgui.bin`. -/
def imguiBin : Str where
  bytes := ['s', 'd', ':', '/', 'P', 'e', 'e', 'p', 'a', '/', 'I', 'm', 'G', 'u', 'i', 'D', 'a', 't',
    'a', '/', 'i', 'm', 'g', 'u', 'i', '.', 'b', 'i', 'n'].map fun c => BitVec.ofNat 8 c.toNat
  nonzero := by decide

/-- With the binary that has been loaded. -/
def createShaders {fs : Type} (F : Pe.ReadableStore fs) (alloc : BitVec 64 → Addr) (s : fs)
    (mem : Nat → BitVec 8) (type : BitVec 32) (handle : Addr) :
    Except Result (Bool × Pe.Loaded fs) :=
  (Pe.loadFileFromPath F alloc s mem type handle imguiBin).map fun r =>
    (decide (r.bufSize ≠ 0#64), r)

/-- The fifth character differs. -/
theorem shaderPath_ne_imguiBin (shaderName : Str) : shaderPath shaderName ≠ imguiBin := by
  intro h
  have hByte : (shaderPath shaderName).bytes[4]? = imguiBin.bytes[4]? :=
    congrArg (fun path => path.bytes[4]?) h
  exact absurd (Option.some.inj hByte) (by decide)

/-! ## `setupShaders` -/

/-- `nvn::ShaderData`. -/
structure ShaderData where
  data : BitVec 64
  control : Addr
deriving DecidableEq, Repr

/-- What the driver answers. -/
structure ShaderDriver where
  initializeProgram : Bool
  initializePool : Bool
  initializeBuffer : Bool
  getAddress : BitVec 64
  setShaders : Bool
  initializeUniformPool : Bool
  initializeUniformBuffer : Bool
deriving DecidableEq, Repr

/-- `mIsReady`, behind the constructor of a `MemoryBuffer`. -/
def isBufferReady (initializePool initializeBuffer : Bool) : Bool :=
  if !initializePool then false else if !initializeBuffer then false else true

/-- The header is read from the binary. -/
def offsetData (mem : Nat → BitVec 8) (shaderBinary : Addr) : BinaryHeader :=
  BinaryHeader.new fun a => mem (shaderBinary.toNat + a)

/-- `vertShaderData` and `fragShaderData`. -/
def shaderDatas (d : ShaderDriver) (mem : Nat → BitVec 8) (shaderBinary : Addr) :
    ShaderData × ShaderData :=
  let offsetData := offsetData mem shaderBinary
  (⟨d.getAddress + offsetData.mVertexDataOffset.setWidth 64,
      shaderBinary + offsetData.mVertexControlOffset.setWidth 64⟩,
    ⟨d.getAddress + offsetData.mFragmentDataOffset.setWidth 64,
      shaderBinary + offsetData.mFragmentControlOffset.setWidth 64⟩)

/-- The result, and the argument of `SetShaders`. -/
def setupShaders (d : ShaderDriver) (mem : Nat → BitVec 8) (shaderBinary : Addr) :
    Bool × Option (ShaderData × ShaderData) :=
  if !d.initializeProgram then (false, none)
  else if !isBufferReady d.initializePool d.initializeBuffer then (false, none)
  else if !d.setShaders then (false, some (shaderDatas d mem shaderBinary))
  else if !isBufferReady d.initializeUniformPool d.initializeUniformBuffer then
    (false, some (shaderDatas d mem shaderBinary))
  else (true, some (shaderDatas d mem shaderBinary))

/-- A buffer at `addr` as the GPU sees it. Its memory is at `ptr`. -/
def gpuView (mem : Nat → BitVec 8) (ptr addr : BitVec 64) (a : Nat) : BitVec 8 :=
  mem (ptr.toNat + (a - addr.toNat))

/-- A shader is handed its own parts. -/
def Handed (o : GLSLCoutput) (mem : Nat → BitVec 8) (ptr addr : BitVec 64) (stage : NVNshaderStage)
    (data : ShaderData) : Prop :=
  ∀ (i : Nat) s g, o.headers[i]? = some s → s.gpuCode = some g → g.stage = stage →
    ReadsAs mem data.control.toNat (o.part s g .control) ∧
      ReadsAs (gpuView mem ptr addr) data.data.toNat (o.part s g .data)

/-! ## The round trip -/

section

variable {o : GLSLCoutput} {mem binary : Nat → BitVec 8} {ptr addr size : BitVec 64}
  {stores : List Store} {stage : NVNshaderStage} {offset : Part → BitVec 32}

theorem toNat_add_offset {base size : BitVec 64} {off : BitVec 32}
    (hFits : base.toNat + size.toNat ≤ 2 ^ 64) (h : off.toNat < size.toNat) :
    (base + off.setWidth 64).toNat = base.toNat + off.toNat := by
  have hOff := off.isLt
  rw [BitVec.toNat_add, BitVec.toNat_setWidth]
  omega

/-- The header of the memory is that of the binary. -/
theorem offsetData_eq (hBytes : ∀ k < size.toNat, mem (ptr.toNat + k) = binary k)
    (hHeader : sizeofHeaderInfo ≤ size.toNat) : offsetData mem ptr = BinaryHeader.new binary := by
  have hWord (k : Nat) (hk : k < 4) :
      wordAt (fun a => mem (ptr.toNat + a)) k = wordAt binary k := by
    apply load32_congr
    intro i hi
    apply hBytes
    rw [sizeofHeaderInfo] at hHeader
    omega
  rw [offsetData, BinaryHeader.new, BinaryHeader.new, hWord 0 (by decide), hWord 1 (by decide),
    hWord 2 (by decide), hWord 3 (by decide)]

/-- Offsets that locate the parts in the binary locate them in both address spaces. -/
theorem Located.handed (hLocated : Located o stores ⟨binary, size⟩ stage offset)
    (hInside : ∀ st ∈ stores, st.Inside size) (hSize : size.toNat ≤ 2 ^ 32)
    (hBytes : ∀ k < size.toNat, mem (ptr.toNat + k) = binary k)
    (hPtr : ptr.toNat + size.toNat ≤ 2 ^ 64) (hAddr : addr.toNat + size.toNat ≤ 2 ^ 64) :
    Handed o mem ptr addr stage
      ⟨addr + (offset .data).setWidth 64, ptr + (offset .control).setWidth 64⟩ := by
  intro i s g hi hGpu hStage
  have hPart (part : Part) : (offset part).toNat + (o.part s g part).length ≤ size.toNat ∧
      ReadsAs binary (offset part).toNat (o.part s g part) := by
    obtain ⟨hStore, hReads⟩ := hLocated i s g hi hGpu hStage part
    exact ⟨hInside _ hStore, hReads hSize⟩
  constructor
  · obtain ⟨hEnd, hReads⟩ := hPart .control
    apply hReads.shift
    intro k hk
    rw [toNat_add_offset hPtr (by omega), Nat.add_assoc]
    exact hBytes _ (by omega)
  · obtain ⟨hEnd, hReads⟩ := hPart .data
    apply hReads.shift
    intro k hk
    rw [toNat_add_offset hAddr (by omega), gpuView, Nat.add_assoc, Nat.add_sub_cancel_left]
    exact hBytes _ (by omega)

theorem setupShaders_handed {d : ShaderDriver} {datas : ShaderData × ShaderData}
    (h : (setupShaders d mem ptr).2 = some datas) : datas = shaderDatas d mem ptr := by
  unfold setupShaders at h
  split at h
  · cases h
  split at h
  · cases h
  split at h
  · exact (Option.some.inj h).symm
  split at h <;> exact (Option.some.inj h).symm

/-- Nothing but a file whose size was to be had is taken for a binary. -/
theorem createShaders_ok {fs : Type} {F : Pe.ReadableStore fs} {alloc : BitVec 64 → Addr} {s : fs}
    {type : BitVec 32} {handle : Addr} {r : Pe.Loaded fs}
    (h : createShaders F alloc s mem type handle = .ok (true, r)) :
    Pe.loadFileFromPath F alloc s mem type handle imguiBin = .ok r ∧
      Pe.SizeKnown F s handle imguiBin := by
  have hLoad : Pe.loadFileFromPath F alloc s mem type handle imguiBin = .ok r ∧
      r.bufSize ≠ 0#64 := by
    unfold createShaders at h
    cases hLoaded : Pe.loadFileFromPath F alloc s mem type handle imguiBin with
    | error e =>
      rw [hLoaded] at h
      cases h
    | ok r' =>
      rw [hLoaded] at h
      have hPair := Prod.mk.inj (Except.ok.inj h)
      rw [← hPair.2]
      exact ⟨rfl, of_decide_eq_true hPair.1⟩
  refine ⟨hLoad.1, ?_⟩
  obtain ⟨-, -, rfl⟩ := Pe.loadFileFromPath_ok hLoad.1
  apply Option.isSome_iff_ne_none.mpr
  intro hNone
  apply hLoad.2
  dsimp only
  rw [hNone]
  rfl

/-- **The round trip.** -/
theorem shaders_round_trip {fs : Type} {F : Pe.ReadableStore fs} {alloc : BitVec 64 → Addr} {s : fs}
    {type : BitVec 32} {handle : Addr} {r : Pe.Loaded fs} {d : ShaderDriver}
    {vertShaderData fragShaderData : ShaderData} (hF : F.Lawful) (hFirst : FragmentFirst o)
    (hFit : o.PartsFit) (hSize : (binarySize o).toNat ≤ 2 ^ 32)
    (hContent : F.content s imguiBin =
      some (read (writeBinary o).binary 0 (binarySize o).toNat))
    (hCreate : createShaders F alloc s mem type handle = .ok (true, r))
    (hBuffer : r.buffer.toNat + r.bufSize.toNat ≤ 2 ^ 64)
    (hAddr : d.getAddress.toNat + r.bufSize.toNat ≤ 2 ^ 64)
    (hSetup : (setupShaders d r.mem r.buffer).2 = some (vertShaderData, fragShaderData)) :
    Handed o r.mem r.buffer d.getAddress .vertex vertShaderData ∧
      Handed o r.mem r.buffer d.getAddress .fragment fragShaderData := by
  obtain ⟨hLoad, hKnown⟩ := createShaders_ok hCreate
  have hWhole := (Pe.loadFileFromPath_whole_iff hF hContent hLoad).1.mpr (Or.inl hKnown)
  have hLength : r.bufSize.toNat = (binarySize o).toNat := hWhole.1.trans length_read
  rw [hLength] at hBuffer hAddr
  have hBytes : ∀ k < (binarySize o).toNat,
      r.mem (r.buffer.toNat + k) = (writeBinary o).binary k := by
    intro k hk
    rw [Pe.Loaded.Whole, ReadsAs, length_read] at hWhole
    have hCell := List.map_inj_left.mp hWhole.2 k (List.mem_range.mpr hk)
    rw [hCell, Nat.zero_add]
  have hDecodes := hFirst.decodes F.toFileStore s type handle shaderName hFit
  rw [createShaderBinary_false] at hDecodes
  obtain ⟨hInside, data, hData, hVertex, hFragment⟩ := hDecodes
  cases hData
  have hHeader : sizeofHeaderInfo ≤ (binarySize o).toNat :=
    hInside .header (List.mem_append_right _ List.mem_cons_self)
  have hDatas := setupShaders_handed hSetup
  rw [shaderDatas, offsetData_eq hBytes hHeader] at hDatas
  obtain ⟨rfl, rfl⟩ := Prod.mk.inj hDatas
  exact ⟨hVertex.handed hInside hSize hBytes hBuffer hAddr,
    hFragment.handed hInside hSize hBytes hBuffer hAddr⟩

end

/-! ## A card -/

/-- A card with the binary. -/
def binaryCard (o : GLSLCoutput) : Pe.Card where
  files p := if p = imguiBin then some (read (writeBinary o).binary 0 (binarySize o).toNat) else none
  handles _ := none
  next := 1#64
  locked := false
  broken := false

/-- The driver does all it is asked. -/
def workingDriver : ShaderDriver := ⟨true, true, true, 0x500000#64, true, true, true⟩

theorem binaryCard_content (o : GLSLCoutput) :
    Pe.readableCard.content (binaryCard o) imguiBin =
      some (read (writeBinary o).binary 0 (binarySize o).toNat) := by
  simp only [Pe.readableCard, Pe.card, binaryCard, if_true]

theorem createShaders_binaryCard (o : GLSLCoutput) (hSize : binarySize o ≠ 0#64) :
    ∃ r, createShaders Pe.readableCard (fun _ => 0x9000#64) (binaryCard o) (fun _ => 0#8) 0#32
      0x8000#64 = .ok (true, r) ∧ r.buffer = 0x9000#64 ∧ r.bufSize = binarySize o := by
  have hLength : BitVec.ofNat 64 (read (writeBinary o).binary 0 (binarySize o).toNat).length =
      binarySize o := by
    rw [length_read, BitVec.ofNat_toNat, BitVec.setWidth_eq]
  have hLt : (read (writeBinary o).binary 0 (binarySize o).toNat).length < 2 ^ 64 := by
    rw [length_read]
    exact (binarySize o).isLt
  have hLoaded : ∃ r, Pe.loadFileFromPath Pe.readableCard (fun _ => 0x9000#64) (binaryCard o)
      (fun _ => 0#8) 0#32 0x8000#64 imguiBin = .ok r ∧ r.buffer = 0x9000#64 ∧
        r.bufSize = BitVec.ofNat 64 (read (writeBinary o).binary 0 (binarySize o).toNat).length :=
    Pe.loadFileFromPath_readableCard (binaryCard_content o) rfl hLt (by decide)
  obtain ⟨r, hLoad, hBuffer, hBufSize⟩ := hLoaded
  rw [hLength] at hBufSize
  refine ⟨r, ?_, hBuffer, hBufSize⟩
  rw [createShaders, hLoad, Except.map, hBufSize, decide_eq_true hSize]

/-- The vertex shader, too, is handed its own parts. -/
theorem shaders_round_trip_card :
    ∃ r data, (setupShaders workingDriver r.mem r.buffer).2 = some data ∧
      createShaders Pe.readableCard (fun _ => 0x9000#64)
        (binaryCard (compiled .fragment .vertex [])) (fun _ => 0#8) 0#32 0x8000#64 =
          .ok (true, r) ∧
      Handed (compiled .fragment .vertex []) r.mem r.buffer 0x500000#64 .vertex data.1 := by
  obtain ⟨r, hCreate, hBuffer, hBufSize⟩ :=
    createShaders_binaryCard (compiled .fragment .vertex []) (by decide)
  have hFirst : FragmentFirst (compiled .fragment .vertex []) :=
    ⟨_, _, rfl, ⟨_, rfl, rfl⟩, ⟨_, rfl, rfl⟩⟩
  have hBytes : binarySize (compiled .fragment .vertex []) = 0x2000#64 := by decide
  have hEnd : r.buffer.toNat + r.bufSize.toNat ≤ 2 ^ 64 := by
    rw [hBuffer, hBufSize, hBytes]
    decide
  have hAddr : workingDriver.getAddress.toNat + r.bufSize.toNat ≤ 2 ^ 64 := by
    rw [hBufSize, hBytes]
    decide
  refine ⟨r, shaderDatas workingDriver r.mem r.buffer, rfl, hCreate, ?_⟩
  exact (shaders_round_trip Pe.readableCard_lawful hFirst
    (compiled_partsFit _ _ fun s hMem => by cases hMem) (by rw [hBytes]; decide)
    (binaryCard_content _) hCreate hEnd hAddr rfl).1

end Wondar.ImguiBackend
