import Wondar.Setting

/-!
# The kernel's memory map and `ForEachMemRange`

The kernel answers `svcQueryMemory` with the region that holds the queried address; the
regions partition the 64-bit address space (`KernelMap`). `forEachMemRange` is the loop of
`rw_pages.cpp`: it cuts `[start, start + length)` at the region boundaries and hands each
piece, with its offset from `start`, to a callback. Here it returns the list of pieces.

The loop ends because every query moves to the next region. `forEachMemRange_tiles` is the
result: below the last region of the map it returns, and the pieces tile the range in
order, each inside one region (`Tiles`). The end of the last region is zero as an address, so a
range that reaches into it has the loop start over from the bottom (`forEachLoop_ends_iff`).
-/

namespace Wondar.Sys

open A64

/-! ## The memory map -/

structure Region where
  addr : Addr
  size : BitVec 64

/-- The end of a region, as a number: for the last region this is `2 ^ 64`. -/
def Region.stop (r : Region) : Nat := r.addr.toNat + r.size.toNat

/-- `svcQueryMemory` on a map that partitions the address space. -/
structure KernelMap where
  query : Addr → Region
  start_le : ∀ a, (query a).addr.toNat ≤ a.toNat
  lt_stop : ∀ a, a.toNat < (query a).stop
  stop_le : ∀ a, (query a).stop ≤ 2 ^ 64
  consistent : ∀ a b, (query a).addr.toNat ≤ b.toNat → b.toNat < (query a).stop →
    query b = query a

/-- The lower or the upper half of the address space. -/
def half (a : Addr) : Region :=
  if a.toNat < 2 ^ 63 then ⟨0#64, 0x8000000000000000#64⟩
  else ⟨0x8000000000000000#64, 0x8000000000000000#64⟩

/-- A map of two regions. -/
def KernelMap.halves : KernelMap where
  query := half
  start_le a := by
    unfold half
    split
    · exact Nat.zero_le _
    · simp only [BitVec.toNat_ofNat]
      omega
  lt_stop a := by
    have hLt := a.isLt
    unfold half Region.stop
    split
    · simpa using ‹_›
    · simpa using hLt
  stop_le a := by
    unfold half Region.stop
    split <;> simp
  consistent a b := by
    unfold half Region.stop
    split
    · simp
    · simp only [BitVec.toNat_ofNat]
      intro hLow _
      rw [if_neg (by omega)]

/-! ## The loop -/

/-- One piece of the range, as the callback receives it. -/
structure Piece where
  address : Addr
  size : BitVec 64
  offset : BitVec 64
deriving DecidableEq

def bvMax (a b : BitVec 64) : BitVec 64 := if a < b then b else a
def bvMin (a b : BitVec 64) : BitVec 64 := if b < a then b else a

/-- The `do … while` loop of `ForEachMemRange`; `meminfo` is the region of the previous
query. `none` when the fuel does not suffice. -/
def forEachLoop (query : Addr → Region) (start stop : Addr) : Nat → Region → Option (List Piece)
  | 0, _ => none
  | fuel + 1, previous =>
    let meminfo := query (previous.addr + previous.size)
    let offset := bvMax meminfo.addr start - start
    let current := start + offset
    let length := bvMin stop (meminfo.addr + meminfo.size) - current
    let piece : Piece := ⟨current, length, offset⟩
    if meminfo.addr + meminfo.size < stop then
      (forEachLoop query start stop fuel meminfo).map (piece :: ·)
    else some [piece]

/-- `ForEachMemRange`. The first query is at `start`: the initial `meminfo` has size 0. -/
def forEachMemRange (query : Addr → Region) (start length : Addr) : Option (List Piece) :=
  forEachLoop query start (start + length) (length.toNat + 1) ⟨start, 0#64⟩

/-! ## Tiling -/

/-- The pieces cover `[a, stop)` from left to right without gap or overlap; offsets count
from `start`, and each piece lies in one region. -/
def Tiles (K : KernelMap) (start a stop : Nat) : List Piece → Prop
  | [] => a = stop
  | p :: ps =>
    p.address.toNat = a ∧ 0 < p.size.toNat ∧ a + p.size.toNat ≤ stop ∧
      p.offset.toNat = a - start ∧
      (∀ b : Addr, a ≤ b.toNat → b.toNat < a + p.size.toNat → K.query b = K.query p.address) ∧
      Tiles K start (a + p.size.toNat) stop ps

theorem bvMin_toNat (a b : BitVec 64) : (bvMin a b).toNat = min a.toNat b.toNat := by
  unfold bvMin
  split <;> bv_omega

theorem bvMax_toNat (a b : BitVec 64) : (bvMax a b).toNat = max a.toNat b.toNat := by
  unfold bvMax
  split <;> bv_omega

/-- The end of a region that is not the last one does not wrap around. -/
theorem Region.stop_toNat {r : Region} (h : r.stop < 2 ^ 64) : (r.addr + r.size).toNat = r.stop := by
  unfold Region.stop at *
  rw [BitVec.toNat_add]
  exact Nat.mod_eq_of_lt h

/-- One pass of the loop: the query at `a` gives the piece that starts at `a`. -/
theorem forEachLoop_piece (K : KernelMap) {start stop a : Addr} (hLow : start.toNat ≤ a.toNat)
    (hHigh : a.toNat < stop.toNat) (hLast : (K.query a).stop < 2 ^ 64)
    (hStart : a = start ∨ (K.query a).addr = a) :
    let offset := bvMax (K.query a).addr start - start
    let length := bvMin stop ((K.query a).addr + (K.query a).size) - (start + offset)
    start + offset = a ∧ offset.toNat = a.toNat - start.toNat ∧
      length.toNat = min stop.toNat (K.query a).stop - a.toNat := by
  intro offset length
  have hLe := K.start_le a
  have hLt := K.lt_stop a
  have hMax : (bvMax (K.query a).addr start).toNat = a.toNat := by
    rw [bvMax_toNat]
    rcases hStart with rfl | h
    · omega
    · rw [h]; omega
  have hOffset : offset.toNat = a.toNat - start.toNat := by
    show (bvMax (K.query a).addr start - start).toNat = _
    rw [BitVec.toNat_sub_of_le (by rw [BitVec.le_def]; omega), hMax]
  have hCurrent : start + offset = a := by
    apply BitVec.eq_of_toNat_eq
    rw [BitVec.toNat_add, hOffset]
    have := a.isLt
    omega
  refine ⟨hCurrent, hOffset, ?_⟩
  show (bvMin stop ((K.query a).addr + (K.query a).size) - (start + offset)).toNat = _
  rw [hCurrent, BitVec.toNat_sub_of_le, bvMin_toNat, Region.stop_toNat hLast]
  rw [BitVec.le_def, bvMin_toNat, Region.stop_toNat hLast]
  omega

/-- The rest of the range, from the query at `a` on: the induction is on the fuel, and
each pass moves `a` to the end of its region. -/
theorem forEachLoop_tiles (K : KernelMap) {start stop : Addr}
    (hLast : ∀ a : Addr, a.toNat < stop.toNat → (K.query a).stop < 2 ^ 64) (fuel : Nat)
    {a : Addr} {previous : Region} (hNext : previous.addr + previous.size = a)
    (hLow : start.toNat ≤ a.toNat) (hHigh : a.toNat < stop.toNat)
    (hStart : a = start ∨ (K.query a).addr = a) (hFuel : stop.toNat - a.toNat < fuel) :
    ∃ ps, forEachLoop K.query start stop fuel previous = some ps ∧
      Tiles K start.toNat a.toNat stop.toNat ps := by
  induction fuel generalizing a previous with
  | zero => omega
  | succ fuel ih =>
    obtain ⟨hCurrent, hOffset, hLength⟩ := forEachLoop_piece K hLow hHigh (hLast a hHigh) hStart
    have hLt := K.lt_stop a
    have hRegion : ∀ b : Addr, a.toNat ≤ b.toNat → b.toNat < (K.query a).stop →
        K.query b = K.query a := fun b hb hb' =>
      K.consistent a b (Nat.le_trans (K.start_le a) hb) hb'
    have hEnd := Region.stop_toNat (hLast a hHigh)
    simp only [forEachLoop, hNext, BitVec.lt_def, hEnd]
    by_cases hMore : (K.query a).stop < stop.toNat
    · -- the next query is at the end of this region, which starts the next region
      let b := (K.query a).addr + (K.query a).size
      have hb : b.toNat = (K.query a).stop := hEnd
      have hFirst : (K.query b).addr = b := by
        by_contra hne
        have hbLe := K.start_le b
        have hbLt := K.lt_stop b
        have hNe : (K.query b).addr.toNat ≠ b.toNat := fun h => hne (BitVec.eq_of_toNat_eq h)
        have hSame := K.consistent b (b - 1#64) (by bv_omega) (by bv_omega)
        have hOld := hRegion (b - 1#64) (by bv_omega) (by bv_omega)
        rw [← hSame, hOld] at hbLt
        omega
      have hSum : (K.query a).addr + (K.query a).size = b := rfl
      obtain ⟨ps, hRun, hTiles⟩ := ih hSum (by omega) (by omega) (Or.inr hFirst) (by omega)
      rw [if_pos hMore, hRun]
      refine ⟨_, rfl, ?_⟩
      have hSize : min stop.toNat (K.query a).stop - a.toNat = (K.query a).stop - a.toNat := by omega
      refine ⟨congrArg BitVec.toNat hCurrent, ?_, ?_, hOffset, ?_, ?_⟩
      · rw [hLength]; omega
      · rw [hLength]; omega
      · intro c hc hc'
        rw [hLength] at hc'
        rw [hCurrent]
        exact hRegion c hc (by omega)
      · rw [hLength, hSize, show a.toNat + ((K.query a).stop - a.toNat) = b.toNat by omega]
        exact hTiles
    · rw [if_neg hMore]
      refine ⟨_, rfl, congrArg BitVec.toNat hCurrent, ?_, ?_, hOffset, ?_, ?_⟩
      · rw [hLength]; omega
      · rw [hLength]; omega
      · intro c hc hc'
        rw [hLength] at hc'
        rw [hCurrent]
        exact hRegion c hc (by omega)
      · show a.toNat + _ = stop.toNat
        rw [hLength]
        omega

/-- `ForEachMemRange` returns, and its pieces tile the range. -/
theorem forEachMemRange_tiles (K : KernelMap) {start length : Addr} (hPos : 0 < length.toNat)
    (hWrap : start.toNat + length.toNat < 2 ^ 64)
    (hLast : ∀ a : Addr, a.toNat < start.toNat + length.toNat → (K.query a).stop < 2 ^ 64) :
    ∃ ps, forEachMemRange K.query start length = some ps ∧
      Tiles K start.toNat start.toNat (start.toNat + length.toNat) ps := by
  have hStop : (start + length).toNat = start.toNat + length.toNat := by
    rw [BitVec.toNat_add]
    exact Nat.mod_eq_of_lt hWrap
  rw [← hStop] at hLast ⊢
  have hFirst : (⟨start, 0#64⟩ : Region).addr + (⟨start, 0#64⟩ : Region).size = start := by simp
  exact forEachLoop_tiles K hLast (length.toNat + 1) hFirst (Nat.le_refl _) (by omega) (Or.inl rfl)
    (by omega)

/-! ## The last region -/

namespace KernelMap

/-- The region at the top of the address space. -/
def top (K : KernelMap) : Region := K.query (BitVec.allOnes 64)

variable {K : KernelMap} {a : Addr}

theorem top_stop (K : KernelMap) : K.top.stop = 2 ^ 64 := by
  have hLow := K.lt_stop (BitVec.allOnes 64)
  have hHigh := K.stop_le (BitVec.allOnes 64)
  rw [BitVec.toNat_allOnes] at hLow
  change 2 ^ 64 - 1 < K.top.stop at hLow
  exact Nat.le_antisymm hHigh (by omega)

/-- Only the last region holds addresses from its start on. -/
theorem query_eq_top_iff : K.query a = K.top ↔ K.top.addr.toNat ≤ a.toNat := by
  constructor
  · intro hSame
    rw [← hSame]
    exact K.start_le a
  · intro hLow
    exact K.consistent (BitVec.allOnes 64) a hLow (by
      have hStop := K.top_stop
      unfold top at hStop
      rw [hStop]
      exact a.isLt)

/-- Every other region ends where the last one starts, or before. -/
theorem stop_le_top (h : a.toNat < K.top.addr.toNat) : (K.query a).stop ≤ K.top.addr.toNat := by
  by_contra hOver
  have hIn := K.consistent a K.top.addr (Nat.le_trans (K.start_le a) (by omega)) (by omega)
  have hTop : K.query K.top.addr = K.top := query_eq_top_iff.mpr (Nat.le_refl _)
  exact absurd (query_eq_top_iff.mp (hIn.symm.trans hTop)) (by omega)

/-- As an address, no region ends behind the start of the last one. -/
theorem end_le_top (K : KernelMap) (a : Addr) :
    ((K.query a).addr + (K.query a).size).toNat ≤ K.top.addr.toNat := by
  have hLt := K.top.addr.isLt
  by_cases hTop : K.top.addr.toNat ≤ a.toNat
  · have hStop := K.top_stop
    rw [query_eq_top_iff.mpr hTop, BitVec.toNat_add]
    unfold Region.stop at hStop
    rw [hStop]
    omega
  · have hStop := stop_le_top (K := K) (a := a) (by omega)
    rw [Region.stop_toNat (by omega)]
    exact hStop

end KernelMap

/-- A loop that no region ends does not end. -/
theorem forEachLoop_never {query : Addr → Region} {start stop : Addr}
    (h : ∀ a, (query a).addr + (query a).size < stop) (fuel : Nat) (previous : Region) :
    forEachLoop query start stop fuel previous = none := by
  induction fuel generalizing previous with
  | zero => rfl
  | succ fuel ih =>
    rw [forEachLoop, if_pos (h _), ih]
    rfl

/-- The loop ends exactly when the range does not reach into the last region. -/
theorem forEachLoop_ends_iff (K : KernelMap) {start length : Addr} (hPos : 0 < length.toNat)
    (hWrap : start.toNat + length.toNat < 2 ^ 64) :
    (∃ fuel ps, forEachLoop K.query start (start + length) fuel ⟨start, 0#64⟩ = some ps) ↔
      start.toNat + length.toNat ≤ K.top.addr.toNat := by
  constructor
  · rintro ⟨fuel, ps, hRun⟩
    by_contra hOver
    have hStop : (start + length).toNat = start.toNat + length.toNat := by
      rw [BitVec.toNat_add]
      exact Nat.mod_eq_of_lt hWrap
    rw [forEachLoop_never (fun a => ?_)] at hRun
    · cases hRun
    · have hEnd := K.end_le_top a
      rw [BitVec.lt_def]
      omega
  · intro hTop
    have hLt := K.top.addr.isLt
    obtain ⟨ps, hRun, -⟩ := forEachMemRange_tiles K hPos hWrap fun a ha =>
      Nat.lt_of_le_of_lt (KernelMap.stop_le_top (by omega)) hLt
    exact ⟨_, ps, hRun⟩

end Wondar.Sys
