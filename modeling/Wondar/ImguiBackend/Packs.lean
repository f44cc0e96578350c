import Mathlib.Algebra.Order.BigOperators.Group.List
import Mathlib.Algebra.Order.Group.Nat
import Mathlib.Data.List.Forall2
import Wondar.ImguiBackend.DrawData

/-!
# What the draws of a frame read

The command lists are packed into the two pools in their order, and every draw reads the indices
of its own command and with them the vertices of its own list (`renderDrawData_packs`). `Mapped`
is what the GPU sees of a pool, and `Region` a part of it.
-/

namespace Wondar.ImguiBackend

open Blocks Packing

/-! ## What a draw reads -/

/-- A draw with the vertex buffer that is bound at it. -/
structure Draw where
  vertexBuffer : BitVec 64
  vertexSize : BitVec 64
  count : BitVec 32
  indexBuffer : BitVec 64
  baseVertex : Int

def draws (vertexBuffer vertexSize : BitVec 64) : List Op → List Draw
  | [] => []
  | .bindVertexBuffer address size :: ops => draws address size ops
  | .drawElementsBaseVertex count indexBuffer baseVertex :: ops =>
    ⟨vertexBuffer, vertexSize, count, indexBuffer, baseVertex⟩ ::
      draws vertexBuffer vertexSize ops
  | _ :: ops => draws vertexBuffer vertexSize ops

/-- The `k`-th index of a draw in the memory that the GPU sees. -/
def Draw.index (gpu : Nat → Byte) (d : Draw) (k : Nat) : ImDrawIdx :=
  .ofBytes (read gpu (d.indexBuffer.toNat + sizeofImDrawIdx * k) sizeofImDrawIdx)

/-- Where the `k`-th vertex of a draw lies in the bound vertex buffer. -/
def Draw.vertexOffset (gpu : Nat → Byte) (d : Draw) (k : Nat) : Int :=
  sizeofImDrawVert * (d.baseVertex + (d.index gpu k).toNat)

def Draw.vertex (gpu : Nat → Byte) (d : Draw) (k : Nat) : ImDrawVert where
  bytes := read gpu (d.vertexBuffer.toNat + d.vertexOffset gpu k).toNat sizeofImDrawVert
  size := length_read

section

variable {float texID : Type}

/-- The draw reads the indices of `cmd` in its list, and with them the vertices of the list. -/
structure Draw.Reads (gpu : Nat → Byte) (d : Draw) (l : ImDrawList float texID)
    (cmd : ImDrawCmd float texID) : Prop where
  count : d.count = cmd.elemCount
  index : ∀ k < cmd.elemCount.toNat,
    l.idxBuffer[cmd.idxOffset.toNat + k]? = some (d.index gpu k)
  vertex : ∀ k < cmd.elemCount.toNat,
    l.vtxBuffer[cmd.vtxOffset.toNat + (d.index gpu k).toNat]? = some (d.vertex gpu k)
  bound : ∀ k < cmd.elemCount.toNat,
    0 ≤ d.vertexOffset gpu k ∧ d.vertexOffset gpu k + sizeofImDrawVert ≤ d.vertexSize.toNat

/-- The commands that are not clipped, each with its list. -/
def drawn (E : Env float texID) (lists : List (ImDrawList float texID)) :
    List (ImDrawList float texID × ImDrawCmd float texID) :=
  lists.flatMap fun l => (l.cmdBuffer.filter fun cmd => !clipped E cmd).map fun cmd => (l, cmd)

/-- The elements of a command lie in its own list. -/
structure ImDrawCmd.Within (l : ImDrawList float texID) (cmd : ImDrawCmd float texID) : Prop where
  index : cmd.idxOffset.toNat + cmd.elemCount.toNat ≤ l.idxBuffer.length
  vertex : ∀ k < cmd.elemCount.toNat, ∀ idx, l.idxBuffer[cmd.idxOffset.toNat + k]? = some idx →
    cmd.vtxOffset.toNat + idx.toNat < l.vtxBuffer.length

/-- Draw data as it is valid. -/
structure ImDrawData.WellFormed (drawData : ImDrawData float texID) : Prop where
  valid : drawData.valid = true
  totalVtxCount : drawData.totalVtxCount.toInt =
    (drawData.cmdLists.map fun l => l.vtxBuffer.length).sum
  totalIdxCount : drawData.totalIdxCount.toInt =
    (drawData.cmdLists.map fun l => l.idxBuffer.length).sum
  within : ∀ l ∈ drawData.cmdLists, ∀ cmd ∈ l.cmdBuffer, cmd.Within l

end

/-- The GPU sees the pool at the address of the buffer. -/
structure MemoryBuffer.Mapped (gpu : Nat → Byte) (b : MemoryBuffer) : Prop where
  fits : b.address.toNat + b.poolSize.toNat ≤ 2 ^ 64
  memory : ∀ i < b.poolSize.toNat, gpu (b.address.toNat + i) = b.memory i

/-! ## Regions of a buffer -/

/-- The GPU reads `bytes` at the offset into the buffer. -/
structure Region (gpu : Nat → Byte) (address offset : BitVec 64) (bytes : List Byte) : Prop where
  reads : ReadsAs gpu (address.toNat + offset.toNat) bytes
  fits : address.toNat + offset.toNat + bytes.length ≤ 2 ^ 64
  room : offset.toNat + bytes.length < 2 ^ 64

theorem toNat_add_of_lt (offset : BitVec 64) {size : BitVec 64} {n : Nat} (hSize : size.toNat = n)
    (hFits : offset.toNat + n < 2 ^ 64) : (offset + size).toNat = offset.toNat + n := by
  rw [BitVec.toNat_add, hSize]
  exact Nat.mod_eq_of_lt hFits

theorem Region.split {gpu : Nat → Byte} {address offset size : BitVec 64} {xs ys : List Byte}
    (h : Region gpu address offset (xs ++ ys)) (hSize : size.toNat = xs.length) :
    Region gpu address offset xs ∧ Region gpu address (offset + size) ys := by
  obtain ⟨hHead, hTail⟩ := h.reads.split
  have hFits := h.fits
  have hRoom := h.room
  rw [List.length_append] at hFits hRoom
  have hNext := toNat_add_of_lt offset hSize (by omega)
  refine ⟨⟨hHead, by omega, by omega⟩, ⟨?_, by omega, by omega⟩⟩
  rw [hNext, ← Nat.add_assoc]
  exact hTail

/-! ## One draw -/

section

variable {float texID : Type} {gpu : Nat → Byte} {l : ImDrawList float texID}
  {cmd : ImDrawCmd float texID} {vtxAddress idxAddress vtxOffset idxOffset : BitVec 64} {k : Nat}

/-- The draw of a command of a list that is packed at these offsets. -/
def drawOf (vtxAddress idxAddress vtxOffset idxOffset : BitVec 64) (l : ImDrawList float texID)
    (cmd : ImDrawCmd float texID) : Draw where
  vertexBuffer := vtxAddress + vtxOffset
  vertexSize := l.vtxSize
  count := cmd.elemCount
  indexBuffer :=
    idxAddress + cmd.idxOffset.setWidth 64 * BitVec.ofNat 64 sizeofImDrawIdx + idxOffset
  baseVertex := cmd.vtxOffset.toInt

/-- The list is packed at these offsets of the two buffers. -/
structure PackedAt (gpu : Nat → Byte) (vtxAddress idxAddress vtxOffset idxOffset : BitVec 64)
    (l : ImDrawList float texID) : Prop where
  vtx : Region gpu vtxAddress vtxOffset l.vtxBytes
  idx : Region gpu idxAddress idxOffset l.idxBytes
  vtxCount : l.vtxBuffer.length < 2 ^ 31

theorem PackedAt.index (h : PackedAt gpu vtxAddress idxAddress vtxOffset idxOffset l)
    (hWithin : cmd.Within l) (hk : k < cmd.elemCount.toNat) :
    l.idxBuffer[cmd.idxOffset.toNat + k]? =
      some ((drawOf vtxAddress idxAddress vtxOffset idxOffset l cmd).index gpu k) := by
  have hLast : cmd.idxOffset.toNat + k < l.idxBuffer.length := by
    have := hWithin.index
    omega
  have hFits := h.idx.fits
  rw [length_idxBytes, sizeofImDrawIdx] at hFits
  have hAddress : (drawOf vtxAddress idxAddress vtxOffset idxOffset l cmd).indexBuffer.toNat =
      idxAddress.toNat + idxOffset.toNat + 2 * cmd.idxOffset.toNat := by
    simp only [drawOf, sizeofImDrawIdx, BitVec.toNat_add, BitVec.toNat_mul,
      BitVec.toNat_setWidth, BitVec.toNat_ofNat]
    omega
  have hElem := List.getElem?_eq_getElem hLast
  have hRead := h.idx.reads.element ImDrawIdx.length_bytes hElem
  rw [hElem, Draw.index, hAddress, sizeofImDrawIdx, Nat.add_assoc, ← Nat.mul_add]
  rw [sizeofImDrawIdx] at hRead
  rw [hRead, ImDrawIdx.ofBytes_bytes]

theorem PackedAt.vertexOffset (h : PackedAt gpu vtxAddress idxAddress vtxOffset idxOffset l)
    (hWithin : cmd.Within l) (hk : k < cmd.elemCount.toNat) :
    ∃ n < l.vtxBuffer.length,
      n = cmd.vtxOffset.toNat +
        ((drawOf vtxAddress idxAddress vtxOffset idxOffset l cmd).index gpu k).toNat ∧
      (drawOf vtxAddress idxAddress vtxOffset idxOffset l cmd).vertexOffset gpu k =
        (sizeofImDrawVert * n : Nat) := by
  have hVertex := hWithin.vertex k hk _ (h.index hWithin hk)
  refine ⟨_, hVertex, rfl, ?_⟩
  have hBase : cmd.vtxOffset.toInt = cmd.vtxOffset.toNat := by
    rw [BitVec.toInt_eq_toNat_cond, if_pos]
    have := h.vtxCount
    omega
  rw [Draw.vertexOffset, Int.natCast_mul, Int.natCast_add, ← hBase]
  rfl

theorem PackedAt.reads (h : PackedAt gpu vtxAddress idxAddress vtxOffset idxOffset l)
    (hWithin : cmd.Within l) :
    (drawOf vtxAddress idxAddress vtxOffset idxOffset l cmd).Reads gpu l cmd where
  count := rfl
  index _ hk := h.index hWithin hk
  vertex k hk := by
    obtain ⟨n, hn, hIndex, hOffset⟩ := h.vertexOffset hWithin hk
    have hElem := List.getElem?_eq_getElem hn
    have hRead := h.vtx.reads.element ImDrawVert.size hElem
    have hFits := h.vtx.fits
    rw [length_vtxBytes, sizeofImDrawVert] at hFits
    have hAddress : (drawOf vtxAddress idxAddress vtxOffset idxOffset l cmd).vertexBuffer.toNat =
        vtxAddress.toNat + vtxOffset.toNat := by
      simp only [drawOf, BitVec.toNat_add]
      omega
    rw [← hIndex, hElem]
    apply congrArg some
    apply ImDrawVert.ext
    rw [Draw.vertex, hAddress, hOffset, ← Int.natCast_add, Int.toNat_natCast]
    exact hRead.symm
  bound k hk := by
    obtain ⟨n, hn, -, hOffset⟩ := h.vertexOffset hWithin hk
    have hSize : l.vtxSize.toNat = l.vtxBuffer.length * sizeofImDrawVert := by
      have := h.vtxCount
      apply toNat_byteSize (by decide)
      rw [sizeofImDrawVert]
      omega
    rw [hOffset]
    simp only [drawOf, hSize, sizeofImDrawVert]
    omega

end

/-! ## The loop over the lists -/

section

variable {float texID : Type} {E : Env float texID} {gpu : Nat → Byte} {pool : Pool}
  {l : ImDrawList float texID} {lists : List (ImDrawList float texID)}
  {vtxAddress idxAddress vtxOffset idxOffset : BitVec 64}

/-- The commands copy nothing. -/
theorem copies_drawCmds (cmds : List (ImDrawCmd float texID)) (bound : BitVec 64)
    (ops : List Op) :
    copies pool ((drawCmds E idxAddress idxOffset cmds bound).1 ++ ops) = copies pool ops := by
  induction cmds generalizing bound with
  | nil => rfl
  | cons cmd cmds ih =>
    rw [drawCmds]
    split
    · exact ih bound
    · have hRest := ih (E.textureHandle cmd.texID)
      dsimp only
      split
      all_goals exact hRest

/-- The draws of a list are those of its commands that are not clipped. -/
theorem draws_drawCmds (cmds : List (ImDrawCmd float texID)) (bound : BitVec 64) (ops : List Op) :
    draws (vtxAddress + vtxOffset) l.vtxSize
        ((drawCmds E idxAddress idxOffset cmds bound).1 ++ ops) =
      (cmds.filter fun cmd => !clipped E cmd).map
          (drawOf vtxAddress idxAddress vtxOffset idxOffset l) ++
        draws (vtxAddress + vtxOffset) l.vtxSize ops := by
  induction cmds generalizing bound with
  | nil => rfl
  | cons cmd cmds ih =>
    rw [drawCmds]
    cases hClip : clipped E cmd with
    | true =>
      rw [if_pos rfl, List.filter_cons_of_neg (by rw [hClip]; decide)]
      exact ih bound
    | false =>
      have hRest := congrArg
        (drawOf vtxAddress idxAddress vtxOffset idxOffset l cmd :: ·)
        (ih (E.textureHandle cmd.texID))
      rw [if_neg (by decide), List.filter_cons_of_pos (by rw [hClip]; decide)]
      dsimp only
      split
      all_goals exact hRest

theorem vtxSize_toNat (hFits : l.vtxBytes.length < 2 ^ 64) :
    l.vtxSize.toNat = l.vtxBytes.length := by
  rw [length_vtxBytes] at hFits ⊢
  exact toNat_byteSize (by decide) hFits

theorem idxSize_toNat (hFits : l.idxBytes.length < 2 ^ 64) :
    l.idxSize.toNat = l.idxBytes.length := by
  rw [length_idxBytes] at hFits ⊢
  exact toNat_byteSize (by decide) hFits

/-- The lists are packed behind the offsets, as far as there is room for them. -/
theorem copies_drawLists (vtxAddress idxAddress vtxOffset idxOffset bound : BitVec 64)
    (hVtx : vtxOffset.toNat + (lists.map ImDrawList.vtxBytes).flatten.length < 2 ^ 64)
    (hIdx : idxOffset.toNat + (lists.map ImDrawList.idxBytes).flatten.length < 2 ^ 64) :
    copies .vtx (drawLists E vtxAddress idxAddress lists vtxOffset idxOffset bound) =
        place vtxOffset.toNat (lists.map ImDrawList.vtxBytes) ∧
      copies .idx (drawLists E vtxAddress idxAddress lists vtxOffset idxOffset bound) =
        place idxOffset.toNat (lists.map ImDrawList.idxBytes) := by
  induction lists generalizing vtxOffset idxOffset bound with
  | nil => exact ⟨rfl, rfl⟩
  | cons l lists ih =>
    rw [List.map_cons, List.flatten_cons, List.length_append] at hVtx hIdx
    have hVtxSize : l.vtxSize.toNat = l.vtxBytes.length := vtxSize_toNat (by omega)
    have hIdxSize : l.idxSize.toNat = l.idxBytes.length := idxSize_toNat (by omega)
    have hVtxNext := toNat_add_of_lt vtxOffset hVtxSize (by omega)
    have hIdxNext := toNat_add_of_lt idxOffset hIdxSize (by omega)
    obtain ⟨hVtxRest, hIdxRest⟩ := ih _ _ (drawCmds E idxAddress idxOffset l.cmdBuffer bound).2
      (by rw [hVtxNext]; omega) (by rw [hIdxNext]; omega)
    rw [hVtxNext] at hVtxRest
    rw [hIdxNext] at hIdxRest
    rw [drawLists, hVtxSize, hIdxSize, List.take_length, List.take_length]
    constructor
    · apply congrArg ((vtxOffset.toNat, l.vtxBytes) :: ·)
      exact (copies_drawCmds _ _ _).trans hVtxRest
    · apply congrArg ((idxOffset.toNat, l.idxBytes) :: ·)
      exact (copies_drawCmds _ _ _).trans hIdxRest

/-- Where the lists are packed behind the offsets, every draw reads what it should. -/
theorem reads_drawLists (vertexBuffer vertexSize bound : BitVec 64)
    (hVtx : Region gpu vtxAddress vtxOffset (lists.map ImDrawList.vtxBytes).flatten)
    (hIdx : Region gpu idxAddress idxOffset (lists.map ImDrawList.idxBytes).flatten)
    (hCount : ∀ l ∈ lists, l.vtxBuffer.length < 2 ^ 31)
    (hWithin : ∀ l ∈ lists, ∀ cmd ∈ l.cmdBuffer, cmd.Within l) :
    List.Forall₂ (fun d x => Draw.Reads gpu d x.1 x.2)
      (draws vertexBuffer vertexSize
        (drawLists E vtxAddress idxAddress lists vtxOffset idxOffset bound ++ [.submitCommands]))
      (drawn E lists) := by
  induction lists generalizing vtxOffset idxOffset vertexBuffer vertexSize bound with
  | nil => exact .nil
  | cons l lists ih =>
    rw [List.map_cons, List.flatten_cons] at hVtx hIdx
    have hVtxRoom := hVtx.room
    have hIdxRoom := hIdx.room
    rw [List.length_append] at hVtxRoom hIdxRoom
    obtain ⟨hVtxHead, hVtxTail⟩ := hVtx.split (vtxSize_toNat (by omega))
    obtain ⟨hIdxHead, hIdxTail⟩ := hIdx.split (idxSize_toNat (by omega))
    obtain ⟨hCountHead, hCountTail⟩ := List.forall_mem_cons.mp hCount
    obtain ⟨hWithinHead, hWithinTail⟩ := List.forall_mem_cons.mp hWithin
    have hAt : PackedAt gpu vtxAddress idxAddress vtxOffset idxOffset l :=
      ⟨hVtxHead, hIdxHead, hCountHead⟩
    rw [drawLists, List.cons_append, List.cons_append, List.cons_append, List.append_assoc]
    simp only [draws]
    rw [draws_drawCmds, drawn, List.flatMap_cons]
    apply List.rel_append
    · rw [List.forall₂_map_left_iff, List.forall₂_map_right_iff, List.forall₂_same]
      intro cmd hMem
      exact hAt.reads (hWithinHead cmd (List.mem_of_mem_filter hMem))
    · exact ih _ _ _ hVtxTail hIdxTail hCountTail hWithinTail

end

/-! ## A frame -/

section

variable {float texID device : Type} {E : Env float texID} {D : Device device}
  {drawData : ImDrawData float texID} {bd : NvnBackendData device}

/-- The size of the pool of a buffer. -/
def room (buffer : Option MemoryBuffer) : Nat := buffer.elim 0 fun b => b.poolSize.toNat

theorem length_flatten_vtxBytes (lists : List (ImDrawList float texID)) :
    (lists.map ImDrawList.vtxBytes).flatten.length =
      (lists.map fun l => l.vtxBuffer.length).sum * sizeofImDrawVert :=
  length_flatten_map ImDrawVert.size lists

theorem length_flatten_idxBytes (lists : List (ImDrawList float texID)) :
    (lists.map ImDrawList.idxBytes).flatten.length =
      (lists.map fun l => l.idxBuffer.length).sum * sizeofImDrawIdx :=
  length_flatten_map ImDrawIdx.length_bytes lists

/-- A buffer that holds the items it has been given shows them to the GPU. -/
theorem region_of_mapped {gpu : Nat → Byte} {pool : Pool} {ops : List Op} {b : MemoryBuffer}
    {xss : List (List Byte)} (hMapped : (b.after pool ops).Mapped gpu)
    (hCopies : copies pool ops = place 0 xss) (hRoom : xss.flatten.length ≤ b.poolSize.toNat) :
    Region gpu b.address 0#64 xss.flatten := by
  have hFits : b.address.toNat + b.poolSize.toNat ≤ 2 ^ 64 := hMapped.fits
  have hRead := read_copyAll b.memory 0 xss
  have hPool := b.poolSize.isLt
  rw [← hCopies] at hRead
  constructor
  · apply hRead.shift
    intro i hi
    rw [Nat.zero_add]
    exact hMapped.memory i (by simp only [MemoryBuffer.after]; omega)
  · rw [BitVec.toNat_zero]
    omega
  · rw [BitVec.toNat_zero]
    omega

/-- What is done with two buffers that are ready. -/
def frameOps (E : Env float texID) (drawData : ImDrawData float texID) (vtx idx : MemoryBuffer) :
    List Op :=
  .beginRecording :: .setRenderStates ::
    (drawLists E vtx.address idx.address drawData.cmdLists 0#64 0#64 0#64 ++ [.submitCommands])

/-- A frame with something to draw has two buffers that hold it. -/
theorem renderDrawData_ready (hDev : D.Succeeds) (hPrev : bd.Created)
    (hInit : bd.isInitialized = true) (hShader : bd.isUseTestShader = false)
    (hData : drawData.WellFormed) (hLists : drawData.cmdLists ≠ []) :
    ∃ vtx idx dev,
      (drawData.cmdLists.map ImDrawList.vtxBytes).flatten.length ≤ vtx.poolSize.toNat ∧
      (drawData.cmdLists.map ImDrawList.idxBytes).flatten.length ≤ idx.poolSize.toNat ∧
      renderDrawData E D drawData bd =
        ({ bd with
            device := dev
            vtxBuffer := some (vtx.after .vtx (frameOps E drawData vtx idx))
            idxBuffer := some (idx.after .idx (frameOps E drawData vtx idx)) },
          frameOps E drawData vtx idx) := by
  obtain ⟨hVtxSize, hVtxLt⟩ :=
    toNat_totalSize sizeofImDrawVert hData.totalVtxCount (by decide) (by decide)
  obtain ⟨hIdxSize, hIdxLt⟩ :=
    toNat_totalSize sizeofImDrawIdx hData.totalIdxCount (by decide) (by decide)
  have hVtx := isReady_resizeBuffer hDev bd.device hPrev.vtx
    (totalSize drawData.totalVtxCount sizeofImDrawVert)
  have hVtxRoom := poolSize_resizeBuffer hDev bd.device bd.vtxBuffer
    (show _ < 2 ^ 64 by rw [hVtxSize, sizeofImDrawVert]; omega)
  generalize hVtxNew : resizeBuffer D bd.device bd.vtxBuffer _ = vtx at hVtx hVtxRoom
  have hIdx := isReady_resizeBuffer hDev vtx.2 hPrev.idx
    (totalSize drawData.totalIdxCount sizeofImDrawIdx)
  have hIdxRoom := poolSize_resizeBuffer hDev vtx.2 bd.idxBuffer
    (show _ < 2 ^ 64 by rw [hIdxSize, sizeofImDrawIdx]; omega)
  generalize hIdxNew : resizeBuffer D vtx.2 bd.idxBuffer _ = idx at hIdx hIdxRoom
  refine ⟨vtx.1, idx.1, idx.2, ?_, ?_, ?_⟩
  · rw [length_flatten_vtxBytes, ← hVtxSize]
    exact hVtxRoom
  · rw [length_flatten_idxBytes, ← hIdxSize]
    exact hIdxRoom
  · have hCount : drawData.cmdLists.length ≠ 0 := fun h => hLists (List.length_eq_zero_iff.mp h)
    rw [renderDrawData, hData.valid, hInit, hShader]
    simp only [hVtxNew, hIdxNew, hVtx, hIdx, if_neg hCount]
    rfl

/-- A frame packs the lists into the pools. -/
theorem copies_frameOps {vtx idx : MemoryBuffer}
    (hVtx : (drawData.cmdLists.map ImDrawList.vtxBytes).flatten.length ≤ vtx.poolSize.toNat)
    (hIdx : (drawData.cmdLists.map ImDrawList.idxBytes).flatten.length ≤ idx.poolSize.toNat) :
    copies .vtx (frameOps E drawData vtx idx) =
        place 0 (drawData.cmdLists.map ImDrawList.vtxBytes) ∧
      copies .idx (frameOps E drawData vtx idx) =
        place 0 (drawData.cmdLists.map ImDrawList.idxBytes) := by
  have hVtxPool := vtx.poolSize.isLt
  have hIdxPool := idx.poolSize.isLt
  have hEnd : ∀ (pool : Pool) (ops : List Op), copies pool (ops ++ [.submitCommands]) =
      copies pool ops := by
    intro pool ops
    exact List.filterMap_append.trans (List.append_nil _)
  have hLists := copies_drawLists (E := E) vtx.address idx.address 0#64 0#64 0#64
    (Nat.lt_of_le_of_lt ((Nat.zero_add _).trans_le hVtx) hVtxPool)
    (Nat.lt_of_le_of_lt ((Nat.zero_add _).trans_le hIdx) hIdxPool)
  exact ⟨(hEnd _ _).trans hLists.1, (hEnd _ _).trans hLists.2⟩

/-- Every command list is copied to a place of its own in the two pools, the lists one behind the
other from the start on, and every draw reads the indices of its command and with them the
vertices of its list. -/
theorem renderDrawData_packs (hDev : D.Succeeds) (hPrev : bd.Created)
    (hInit : bd.isInitialized = true) (hShader : bd.isUseTestShader = false)
    (hData : drawData.WellFormed) :
    Packed (room (renderDrawData E D drawData bd).1.vtxBuffer)
        (drawData.cmdLists.map ImDrawList.vtxBytes)
        (copies .vtx (renderDrawData E D drawData bd).2) ∧
      Packed (room (renderDrawData E D drawData bd).1.idxBuffer)
        (drawData.cmdLists.map ImDrawList.idxBytes)
        (copies .idx (renderDrawData E D drawData bd).2) ∧
      ∀ gpu, (∀ b ∈ (renderDrawData E D drawData bd).1.vtxBuffer, b.Mapped gpu) →
        (∀ b ∈ (renderDrawData E D drawData bd).1.idxBuffer, b.Mapped gpu) →
        List.Forall₂ (fun d x => Draw.Reads gpu d x.1 x.2)
          (draws 0#64 0#64 (renderDrawData E D drawData bd).2) (drawn E drawData.cmdLists) := by
  by_cases hLists : drawData.cmdLists = []
  · have hNothing : renderDrawData E D drawData bd = (bd, []) := by
      rw [renderDrawData, hData.valid, hLists]
      rfl
    rw [hNothing, hLists]
    exact ⟨packed_place (Nat.zero_le _), packed_place (Nat.zero_le _), fun _ _ _ => .nil⟩
  · obtain ⟨vtx, idx, dev, hVtxRoom, hIdxRoom, hFrame⟩ :=
      renderDrawData_ready hDev hPrev hInit hShader hData hLists
    obtain ⟨hVtxCopies, hIdxCopies⟩ := copies_frameOps (E := E) hVtxRoom hIdxRoom
    have hVtxLt := (toNat_totalSize 1 hData.totalVtxCount (by decide) (by decide)).2
    rw [hFrame]
    refine ⟨?_, ?_, fun gpu hVtxMapped hIdxMapped => ?_⟩
    · rw [hVtxCopies]
      exact packed_place hVtxRoom
    · rw [hIdxCopies]
      exact packed_place hIdxRoom
    · apply reads_drawLists
      · exact region_of_mapped (hVtxMapped _ rfl) hVtxCopies hVtxRoom
      · exact region_of_mapped (hIdxMapped _ rfl) hIdxCopies hIdxRoom
      · intro l hMem
        have hCount := List.mem_map_of_mem (f := fun l => l.vtxBuffer.length) hMem
        exact Nat.lt_of_le_of_lt (List.le_sum_of_mem hCount) hVtxLt
      · exact hData.within

end

/-! ## Two lists -/

def sampleDevice : Device Nat where
  setStorage next size := (⟨true, true, BitVec.ofNat 64 next, size⟩, next + size.toNat)
  finalize next _ := next

def sampleEnv : Env Nat Nat where
  ofNat n := n
  sub x y := x - y
  mul x y := x * y
  div x y := x / y
  le x y := decide (x ≤ y)
  toInt x := x
  displaySize := ⟨1600, 900⟩
  textureHandle n := BitVec.ofNat 64 n
  quad _ := ⟨List.replicate 20 0#8, rfl⟩

/-- Two vertices with a triangle and a command that is clipped. -/
def sampleList (b : Byte) : ImDrawList Nat Nat where
  vtxBuffer := [⟨List.replicate 20 b, rfl⟩, ⟨List.replicate 20 (b + 1#8), rfl⟩]
  idxBuffer := [0#16, 1#16, 0#16]
  cmdBuffer := [⟨⟨0, 0, 1920, 1080⟩, 1, 0#32, 0#32, 3#32⟩, ⟨⟨0, 0, 0, 0⟩, 1, 0#32, 0#32, 3#32⟩]

def sampleData : ImDrawData Nat Nat where
  valid := true
  totalVtxCount := 4#32
  totalIdxCount := 6#32
  cmdLists := [sampleList 0x10#8, sampleList 0x20#8]

def sampleBackend : NvnBackendData Nat where
  device := 0x1000
  vtxBuffer := none
  idxBuffer := none
  isInitialized := true
  isUseTestShader := false

theorem sampleList_within (b : Byte) :
    ∀ cmd ∈ (sampleList b).cmdBuffer, cmd.Within (sampleList b) := by
  intro cmd hMem
  have hCmd : cmd.idxOffset = 0#32 ∧ cmd.elemCount = 3#32 ∧ cmd.vtxOffset = 0#32 := by
    rcases List.mem_cons.mp hMem with rfl | hMem
    · exact ⟨rfl, rfl, rfl⟩
    · cases List.mem_singleton.mp hMem
      exact ⟨rfl, rfl, rfl⟩
  obtain ⟨hIdx, hCount, hVtx⟩ := hCmd
  constructor
  · rw [hIdx, hCount]
    exact Nat.le_refl 3
  · intro k _ idx hGet
    have hValue : idx = 0#16 ∨ idx = 1#16 := by
      have := List.mem_of_getElem? hGet
      simpa [sampleList, or_comm, or_assoc] using this
    rw [hVtx]
    change _ < 2
    rcases hValue with rfl | rfl
    · decide
    · decide

theorem sampleData_wellFormed : sampleData.WellFormed where
  valid := rfl
  totalVtxCount := rfl
  totalIdxCount := rfl
  within := by
    intro l hMem
    rcases List.mem_cons.mp hMem with rfl | hMem
    · exact sampleList_within _
    · cases List.mem_singleton.mp hMem
      exact sampleList_within _

theorem sampleDevice_succeeds : sampleDevice.Succeeds := fun _ _ => ⟨rfl, rfl⟩

theorem sampleBackend_created : sampleBackend.Created where
  vtx _ hBuffer := by cases hBuffer
  idx _ hBuffer := by cases hBuffer

/-- The first frame. -/
def sampleFrame : NvnBackendData Nat × List Op :=
  renderDrawData sampleEnv sampleDevice sampleData sampleBackend

/-- The vertices lie in one page and the indices in the next. -/
def sampleGpu (a : Nat) : Byte :=
  if a < 0x2000 then sampleFrame.1.vtxBuffer.elim 0#8 fun b => b.memory (a - 0x1000)
  else sampleFrame.1.idxBuffer.elim 0#8 fun b => b.memory (a - 0x2000)

theorem sampleGpu_vtx : ∀ b ∈ sampleFrame.1.vtxBuffer, b.Mapped sampleGpu := by
  intro b hBuffer
  have hPlace : sampleFrame.1.vtxBuffer.map (fun b => (b.address, b.poolSize)) =
      some (0x1000#64, 0x1000#64) := rfl
  have hSome : sampleFrame.1.vtxBuffer = some b := hBuffer
  rw [hSome] at hPlace
  obtain ⟨hAddress, hSize⟩ := Prod.mk.inj (Option.some.inj hPlace)
  constructor
  · rw [hAddress, hSize]
    decide
  · intro i hi
    rw [hSize] at hi
    rw [hAddress]
    change sampleGpu (0x1000 + i) = b.memory i
    have hLow : 0x1000 + i < 0x2000 := Nat.add_lt_add_left hi 0x1000
    rw [sampleGpu, if_pos hLow, hSome, Option.elim_some, Nat.add_sub_cancel_left]

theorem sampleGpu_idx : ∀ b ∈ sampleFrame.1.idxBuffer, b.Mapped sampleGpu := by
  intro b hBuffer
  have hPlace : sampleFrame.1.idxBuffer.map (fun b => (b.address, b.poolSize)) =
      some (0x2000#64, 0x1000#64) := rfl
  have hSome : sampleFrame.1.idxBuffer = some b := hBuffer
  rw [hSome] at hPlace
  obtain ⟨hAddress, hSize⟩ := Prod.mk.inj (Option.some.inj hPlace)
  constructor
  · rw [hAddress, hSize]
    decide
  · intro i hi
    rw [hSize] at hi
    rw [hAddress]
    change sampleGpu (0x2000 + i) = b.memory i
    have hHigh : ¬ 0x2000 + i < 0x2000 := Nat.not_lt.mpr (Nat.le_add_right _ _)
    rw [sampleGpu, if_neg hHigh, hSome, Option.elim_some, Nat.add_sub_cancel_left]

theorem renderDrawData_packs_sample :
    Packed (room sampleFrame.1.vtxBuffer) (sampleData.cmdLists.map ImDrawList.vtxBytes)
        (copies .vtx sampleFrame.2) ∧
      Packed (room sampleFrame.1.idxBuffer) (sampleData.cmdLists.map ImDrawList.idxBytes)
        (copies .idx sampleFrame.2) ∧
      List.Forall₂ (fun d x => Draw.Reads sampleGpu d x.1 x.2)
        (draws 0#64 0#64 sampleFrame.2) (drawn sampleEnv sampleData.cmdLists) := by
  obtain ⟨hVtx, hIdx, hReads⟩ := renderDrawData_packs (E := sampleEnv) sampleDevice_succeeds
    sampleBackend_created rfl rfl sampleData_wellFormed
  exact ⟨hVtx, hIdx, hReads sampleGpu sampleGpu_vtx sampleGpu_idx⟩

end Wondar.ImguiBackend
