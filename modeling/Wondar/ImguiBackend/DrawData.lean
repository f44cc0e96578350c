import Wondar.Packing
import Wondar.Setting

/-!
# Rendering the draw data

`renderDrawData` copies the vertices and the indices of every command list into two buffers that
live from frame to frame, and draws the commands from there. Offsets into the buffers are in
bytes, those of a command in elements of its own list.

A buffer is kept while it is large enough and replaced by a larger one otherwise, so every buffer
that there is has been created, whatever has been drawn before (`created_renderFrames`), and holds
what the frame needs (`poolSize_resizeBuffer`).
-/

namespace Wondar.ImguiBackend

open Blocks Packing

/-- What the buffers hold. -/
abbrev Byte := BitVec 8

/-! ## The draw data -/

/-- Two coordinates, two texture coordinates and a colour. -/
def sizeofImDrawVert : Nat := 20

/-- The size of an index. -/
def sizeofImDrawIdx : Nat := 2

/-- The bytes of a position, a texture coordinate and a colour. -/
@[ext]
structure ImDrawVert where
  bytes : List Byte
  size : bytes.length = sizeofImDrawVert
deriving DecidableEq

/-- An index into the vertices of a draw. -/
abbrev ImDrawIdx := BitVec 16

/-- The low byte comes first. -/
def ImDrawIdx.bytes (idx : ImDrawIdx) : List Byte := [idx.extractLsb' 0 8, idx.extractLsb' 8 8]

/-- What the device reads from two bytes. -/
def ImDrawIdx.ofBytes (bs : List Byte) : ImDrawIdx :=
  BitVec.ofNat 16 (bs.foldr (fun b n => b.toNat + 256 * n) 0)

/-- A point, whose coordinates are of a type of which only `Env` says anything. -/
structure ImVec2 (float : Type) where
  x : float
  y : float

/-- A rectangle by two corners, or a scale and an offset. -/
structure ImVec4 (float : Type) where
  x : float
  y : float
  z : float
  w : float

/-- One draw: where it is clipped, its texture, and its part of the buffers of its list. -/
structure ImDrawCmd (float texID : Type) where
  clipRect : ImVec4 float
  texID : texID
  vtxOffset : BitVec 32
  idxOffset : BitVec 32
  elemCount : BitVec 32

/-- The vertices, the indices and the draws of one window. -/
structure ImDrawList (float texID : Type) where
  vtxBuffer : List ImDrawVert
  idxBuffer : List ImDrawIdx
  cmdBuffer : List (ImDrawCmd float texID)

/-- What ImGui hands over in a frame, with the totals that it has counted. -/
structure ImDrawData (float texID : Type) where
  valid : Bool
  totalVtxCount : BitVec 32
  totalIdxCount : BitVec 32
  cmdLists : List (ImDrawList float texID)

/-! ## The buffers -/

/-- `memory` is what the pool maps, from its start on. -/
structure MemoryBuffer where
  poolSize : BitVec 64
  address : BitVec 64
  memory : Nat → Byte
  isReady : Bool

/-- What comes of initializing a pool and the buffer in it. `poolSize` is what an uninitialized
pool says of its size. -/
structure Storage where
  poolReady : Bool
  bufferReady : Bool
  address : BitVec 64
  poolSize : BitVec 64

/-- `nvn` with the allocator below it. -/
structure Device (device : Type) where
  setStorage : device → BitVec 64 → Storage × device
  finalize : device → MemoryBuffer → device

section

variable {device : Type} (D : Device device)

/-- The constructor. The size is rounded up to a page. A buffer that the driver gives no storage is
not ready. -/
def MemoryBuffer.new (dev : device) (size : BitVec 64) : MemoryBuffer × device :=
  let alignedSize := alignUp size 0x1000#64
  let (storage, dev') := D.setStorage dev alignedSize
  ({ poolSize := if storage.poolReady then alignedSize else storage.poolSize
     address := storage.address
     memory := fun _ => 0#8
     isReady := storage.poolReady && storage.bufferReady }, dev')

/-- The buffer of the last frame, or a larger one in its place. -/
def resizeBuffer (dev : device) (buffer : Option MemoryBuffer) (totalSize : BitVec 64) :
    MemoryBuffer × device :=
  match buffer with
  | none => MemoryBuffer.new D dev totalSize
  | some buffer =>
    if buffer.poolSize < totalSize then MemoryBuffer.new D (D.finalize dev buffer) totalSize
    else (buffer, dev)

end

/-- `NvnBackendData`. -/
structure NvnBackendData (device : Type) where
  device : device
  vtxBuffer : Option MemoryBuffer
  idxBuffer : Option MemoryBuffer
  isInitialized : Bool
  isUseTestShader : Bool

/-! ## The commands -/

/-- The buffer that an operation is about. -/
inductive Pool
  | vtx
  | idx
deriving DecidableEq

/-- What is done to the pools and recorded in the command buffer. -/
inductive Op
  | memcpy (pool : Pool) (offset : BitVec 64) (bytes : List Byte)
  | beginRecording
  | setRenderStates
  | bindVertexBuffer (address size : BitVec 64)
  | setScissor (x y w h : Int)
  | bindTexture (handle : BitVec 64)
  | drawArrays (start count : Nat)
  | drawElementsBaseVertex (count : BitVec 32) (indexBuffer : BitVec 64) (baseVertex : Int)
  | submitCommands

/-- The floating point of the processor, the display, the handles of the textures and the quad of
the test shader. -/
structure Env (float texID : Type) where
  ofNat : Nat → float
  sub : float → float → float
  mul : float → float → float
  div : float → float → float
  le : float → float → Bool
  toInt : float → Int
  displaySize : ImVec2 float
  textureHandle : texID → BitVec 64
  quad : Fin 6 → ImDrawVert

section

variable {float texID : Type} (E : Env float texID)

/-- The clip rectangle on the display. -/
def scaledClipRect (cmd : ImDrawCmd float texID) : ImVec4 float where
  x := E.mul (E.div cmd.clipRect.x (E.ofNat 1920)) E.displaySize.x
  y := E.mul (E.div cmd.clipRect.y (E.ofNat 1080)) E.displaySize.y
  z := E.mul (E.div cmd.clipRect.z (E.ofNat 1920)) E.displaySize.x
  w := E.mul (E.div cmd.clipRect.w (E.ofNat 1080)) E.displaySize.y

/-- The draw has nothing to show, and is skipped. -/
def clipped (cmd : ImDrawCmd float texID) : Bool :=
  let clip := scaledClipRect E cmd
  E.le clip.z clip.x || E.le clip.w clip.y

/-- `count * sizeof(element)` as a `size_t`. -/
def byteSize (count size : Nat) : BitVec 64 := BitVec.ofNat 64 count * BitVec.ofNat 64 size

/-- `total * sizeof(element)` for a total that is an `int`. -/
def totalSize (total : BitVec 32) (size : Nat) : BitVec 64 :=
  total.signExtend 64 * BitVec.ofNat 64 size

/-- How many bytes the vertices of the list take. -/
def ImDrawList.vtxSize (l : ImDrawList float texID) : BitVec 64 :=
  byteSize l.vtxBuffer.length sizeofImDrawVert

/-- How many bytes its indices take. -/
def ImDrawList.idxSize (l : ImDrawList float texID) : BitVec 64 :=
  byteSize l.idxBuffer.length sizeofImDrawIdx

/-- The vertices as they lie in memory. -/
def ImDrawList.vtxBytes (l : ImDrawList float texID) : List Byte :=
  l.vtxBuffer.flatMap ImDrawVert.bytes

/-- The indices as they lie in memory. -/
def ImDrawList.idxBytes (l : ImDrawList float texID) : List Byte :=
  l.idxBuffer.flatMap ImDrawIdx.bytes

/-- The commands of a list, with the texture that is bound behind them. -/
def drawCmds (idxAddress idxOffset : BitVec 64) :
    List (ImDrawCmd float texID) → BitVec 64 → List Op × BitVec 64
  | [], boundTextureHandle => ([], boundTextureHandle)
  | cmd :: cmds, boundTextureHandle =>
    if clipped E cmd then drawCmds idxAddress idxOffset cmds boundTextureHandle
    else
      let clip := scaledClipRect E cmd
      let texID := E.textureHandle cmd.texID
      let rest := drawCmds idxAddress idxOffset cmds texID
      (.setScissor (E.toInt clip.x) (E.toInt clip.y) (E.toInt (E.sub clip.z clip.x))
          (E.toInt (E.sub clip.w clip.y)) ::
        ((if boundTextureHandle != texID then [.bindTexture texID] else []) ++
          .drawElementsBaseVertex cmd.elemCount
            (idxAddress + cmd.idxOffset.setWidth 64 * BitVec.ofNat 64 sizeofImDrawIdx + idxOffset)
            cmd.vtxOffset.toInt :: rest.1), rest.2)

/-- The loop over the command lists. -/
def drawLists (vtxAddress idxAddress : BitVec 64) :
    List (ImDrawList float texID) → BitVec 64 → BitVec 64 → BitVec 64 → List Op
  | [], _, _, _ => []
  | l :: lists, vtxOffset, idxOffset, boundTextureHandle =>
    let cmds := drawCmds E idxAddress idxOffset l.cmdBuffer boundTextureHandle
    .bindVertexBuffer (vtxAddress + vtxOffset) l.vtxSize ::
      .memcpy .vtx vtxOffset (l.vtxBytes.take l.vtxSize.toNat) ::
      .memcpy .idx idxOffset (l.idxBytes.take l.idxSize.toNat) ::
      (cmds.1 ++ drawLists vtxAddress idxAddress lists (vtxOffset + l.vtxSize)
        (idxOffset + l.idxSize) cmds.2)

/-- What is copied into a pool. -/
def copies (pool : Pool) (ops : List Op) : List (Nat × List Byte) :=
  ops.filterMap fun
    | .memcpy p offset bytes => if p = pool then some (offset.toNat, bytes) else none
    | _ => none

/-- The buffer behind the copies to it. -/
def MemoryBuffer.after (pool : Pool) (ops : List Op) (b : MemoryBuffer) : MemoryBuffer :=
  { b with memory := copyAll b.memory (copies pool ops) }

variable {device : Type} (D : Device device)

/-- Draws one quad, without ImGui. -/
def renderTestShader (bd : NvnBackendData device) : NvnBackendData device × List Op :=
  let vtx := resizeBuffer D bd.device bd.vtxBuffer (byteSize 6 sizeofImDrawVert)
  if !vtx.1.isReady then ({ bd with device := vtx.2, vtxBuffer := some vtx.1 }, [])
  else
    let ops := [.memcpy .vtx 0#64 ((List.ofFn E.quad).flatMap ImDrawVert.bytes), .beginRecording,
      .bindVertexBuffer vtx.1.address vtx.1.poolSize, .setRenderStates, .drawArrays 0 6,
      .submitCommands]
    ({ bd with device := vtx.2, vtxBuffer := some (vtx.1.after .vtx ops) }, ops)

/-- The function of the backend, with all the operations of a frame: what it copies into the two
buffers and what it draws from them. -/
def renderDrawData (drawData : ImDrawData float texID) (bd : NvnBackendData device) :
    NvnBackendData device × List Op :=
  if !drawData.valid then (bd, [])
  else if drawData.cmdLists.length = 0 then (bd, [])
  else if !bd.isInitialized then (bd, [])
  else if bd.isUseTestShader then renderTestShader E D bd
  else
    let totalVtxSize := totalSize drawData.totalVtxCount sizeofImDrawVert
    let vtx := resizeBuffer D bd.device bd.vtxBuffer totalVtxSize
    let totalIdxSize := totalSize drawData.totalIdxCount sizeofImDrawIdx
    let idx := resizeBuffer D vtx.2 bd.idxBuffer totalIdxSize
    let resized := { bd with device := idx.2, vtxBuffer := some vtx.1, idxBuffer := some idx.1 }
    if !(vtx.1.isReady && idx.1.isReady) then (resized, [])
    else
      let ops := .beginRecording :: .setRenderStates ::
        (drawLists E vtx.1.address idx.1.address drawData.cmdLists 0#64 0#64 0#64 ++
          [.submitCommands])
      ({ resized with
          vtxBuffer := some (vtx.1.after .vtx ops)
          idxBuffer := some (idx.1.after .idx ops) }, ops)

end

/-! ## Sizes -/

theorem toNat_byteSize {count size : Nat} (hSize : 0 < size) (hFits : count * size < 2 ^ 64) :
    (byteSize count size).toNat = count * size := by
  have hCount : count < 2 ^ 64 := Nat.lt_of_le_of_lt (Nat.le_mul_of_pos_right _ hSize) hFits
  rw [byteSize, BitVec.toNat_mul, BitVec.toNat_ofNat, BitVec.toNat_ofNat, ← Nat.mul_mod]
  exact Nat.mod_eq_of_lt hFits

theorem toNat_totalSize (size : Nat) {total : BitVec 32} {n : Nat} (hTotal : total.toInt = n)
    (hSize : 0 < size) (hSmall : size < 2 ^ 32) :
    (totalSize total size).toNat = n * size ∧ n < 2 ^ 31 := by
  have hNat : total.toNat = n ∧ n < 2 ^ 31 := by
    rw [BitVec.toInt_eq_toNat_cond] at hTotal
    have := total.isLt
    split at hTotal <;> omega
  have hExtend : total.signExtend 64 = BitVec.ofNat 64 n := by
    apply BitVec.eq_of_toInt_eq
    rw [BitVec.toInt_signExtend_of_le (by decide), hTotal, BitVec.toInt_eq_toNat_cond,
      BitVec.toNat_ofNat]
    omega
  refine ⟨?_, hNat.2⟩
  rw [totalSize, hExtend]
  apply toNat_byteSize hSize
  calc n * size ≤ 2 ^ 31 * size := Nat.mul_le_mul_right _ (Nat.le_of_lt hNat.2)
    _ < 2 ^ 64 := by omega

section

variable {float texID : Type}

theorem ImDrawIdx.length_bytes (idx : ImDrawIdx) : idx.bytes.length = sizeofImDrawIdx := rfl

theorem ImDrawIdx.ofBytes_bytes (idx : ImDrawIdx) : ofBytes idx.bytes = idx := by
  apply BitVec.eq_of_toNat_eq
  have := idx.isLt
  simp only [ofBytes, bytes, List.foldr_cons, List.foldr_nil, BitVec.extractLsb'_toNat,
    BitVec.toNat_ofNat, Nat.shiftRight_eq_div_pow]
  omega

theorem length_vtxBytes (l : ImDrawList float texID) :
    l.vtxBytes.length = l.vtxBuffer.length * sizeofImDrawVert :=
  length_flatMap_bytes ImDrawVert.size l.vtxBuffer

theorem length_idxBytes (l : ImDrawList float texID) :
    l.idxBytes.length = l.idxBuffer.length * sizeofImDrawIdx :=
  length_flatMap_bytes ImDrawIdx.length_bytes l.idxBuffer

end

/-! ## The buffers of a frame -/

section

variable {float texID device : Type} {E : Env float texID} {D : Device device}
  {bd : NvnBackendData device}

/-- The creation of a buffer succeeds. -/
def Device.Succeeds (D : Device device) : Prop :=
  ∀ dev size, (D.setStorage dev size).1.poolReady = true ∧
    (D.setStorage dev size).1.bufferReady = true

/-- The creation of the buffers that there are has succeeded. -/
structure NvnBackendData.Created (bd : NvnBackendData device) : Prop where
  vtx : ∀ b ∈ bd.vtxBuffer, b.isReady = true
  idx : ∀ b ∈ bd.idxBuffer, b.isReady = true

theorem MemoryBuffer.isReady_new (hDev : D.Succeeds) (dev : device) (size : BitVec 64) :
    (MemoryBuffer.new D dev size).1.isReady = true := by
  obtain ⟨hPool, hBuffer⟩ := hDev dev (alignUp size 0x1000#64)
  simp only [MemoryBuffer.new, hPool, hBuffer, Bool.and_self]

theorem MemoryBuffer.poolSize_new (hDev : D.Succeeds) (dev : device) {size : BitVec 64}
    (hSize : size.toNat + 4095 < 2 ^ 64) :
    size.toNat ≤ (MemoryBuffer.new D dev size).1.poolSize.toNat := by
  have hPool := (hDev dev (alignUp size 0x1000#64)).1
  have hAligned := alignUp_toNat hSize
  rw [pageSize] at hAligned
  simp only [MemoryBuffer.new, hPool, if_true]
  omega

theorem isReady_resizeBuffer (hDev : D.Succeeds) (dev : device) {buffer : Option MemoryBuffer}
    (hReady : ∀ b ∈ buffer, b.isReady = true) (size : BitVec 64) :
    (resizeBuffer D dev buffer size).1.isReady = true := by
  cases buffer with
  | none => exact MemoryBuffer.isReady_new hDev dev size
  | some buffer =>
    rw [resizeBuffer]
    split
    · exact MemoryBuffer.isReady_new hDev _ size
    · exact hReady buffer rfl

theorem poolSize_resizeBuffer (hDev : D.Succeeds) (dev : device) (buffer : Option MemoryBuffer)
    {size : BitVec 64} (hSize : size.toNat + 4095 < 2 ^ 64) :
    size.toNat ≤ (resizeBuffer D dev buffer size).1.poolSize.toNat := by
  cases buffer with
  | none => exact MemoryBuffer.poolSize_new hDev dev hSize
  | some buffer =>
    rw [resizeBuffer]
    split
    · exact MemoryBuffer.poolSize_new hDev _ hSize
    · rename_i hLarge
      rw [BitVec.lt_def] at hLarge
      exact Nat.le_of_not_lt hLarge

/-- Every frame leaves buffers that have been created. -/
theorem created_renderDrawData (hDev : D.Succeeds) (hPrev : bd.Created)
    (drawData : ImDrawData float texID) : (renderDrawData E D drawData bd).1.Created := by
  have hVtx := isReady_resizeBuffer hDev bd.device hPrev.vtx
  rw [renderDrawData]
  split
  · exact hPrev
  split
  · exact hPrev
  split
  · exact hPrev
  split
  · rw [renderTestShader, hVtx]
    constructor
    · rintro b ⟨⟩
      exact hVtx _
    · exact hPrev.idx
  · have hIdx := isReady_resizeBuffer hDev
      (resizeBuffer D bd.device bd.vtxBuffer (totalSize drawData.totalVtxCount
        sizeofImDrawVert)).2 hPrev.idx
    simp only [hVtx, hIdx]
    constructor
    · rintro b ⟨⟩
      exact hVtx _
    · rintro b ⟨⟩
      exact hIdx _

/-! ## The frames before -/

/-- Frame after frame, with the buffers that the frame before has left. -/
def renderFrames (E : Env float texID) (D : Device device)
    (frames : List (ImDrawData float texID)) (bd : NvnBackendData device) :
    NvnBackendData device :=
  frames.foldl (fun bd drawData => (renderDrawData E D drawData bd).1) bd

/-- Whatever has been drawn, the buffers that there are have been created. -/
theorem created_renderFrames (hDev : D.Succeeds) (hPrev : bd.Created)
    (frames : List (ImDrawData float texID)) : (renderFrames E D frames bd).Created := by
  induction frames generalizing bd with
  | nil => exact hPrev
  | cons drawData frames ih => exact ih (created_renderDrawData hDev hPrev drawData)

end

end Wondar.ImguiBackend
