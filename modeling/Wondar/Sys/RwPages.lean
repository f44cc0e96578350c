import Wondar.Coherence
import Wondar.Sys.MemRange

/-!
# `RwPages`: a writable alias of read-only pages

The constructor reserves a free range of the address space, maps the pages of the claim
there piece by piece, and points `m_Rw` at the claim's first byte in it. It reserves and
maps `GetAlignedSize()` bytes from `GetAlignedRo()` on: the size of the claim rounded up to
pages, without the offset of the claim in its first page.

* `Splits`: the pieces of `ForEachMemRange` cover the aligned range, each at its offset.
* `reservationCovers`: every mapped byte lies in the reservation.
* `givesAccess_iff_fits`: the mappings reach the whole claim exactly when the offset in the first
  page plus the size does not exceed the rounded size.
* `construct_access_iff`: when the constructor returns an object that gives access to its claim.
  Its last assertion compares the claim through both addresses, so that a claim that does not fit is
  already read behind the range that was mapped.
* `translates_iff`: the helpers of a claim subtract an address from the base, not the base from the
  address, so they mirror the claim at its first byte; they are right for that byte only.
-/

namespace Wondar.Sys

open A64 Coherence

/-! ## Claims -/

/-- `RwPages::Claim`; a reservation is known by its number, `nullptr` is `none`. -/
structure Claim where
  ro : Addr
  rw : Addr
  size : BitVec 64
  rwReserve : Option Nat
deriving DecidableEq

namespace Claim

/-- The claim of a moved-from object. -/
def empty : Claim := ⟨0#64, 0#64, 0#64, none⟩

def getAlignedRo (c : Claim) : Addr := alignDown c.ro pageSize
def getAlignedRw (c : Claim) : Addr := alignDown c.rw pageSize
def getAlignedSize (c : Claim) : BitVec 64 := alignUp c.size pageSize

def roToOffset (c : Claim) (address : Addr) : BitVec 64 := c.ro - address

def rwToOffset (c : Claim) (address : Addr) : BitVec 64 := c.rw - address

def roToRw (c : Claim) (address : Addr) : Addr := c.rw + c.roToOffset address

def rwToRo (c : Claim) (address : Addr) : Addr := c.rwToOffset address + c.ro

/-- What `InRo` and `InRw` ask of an offset. -/
def inClaim (c : Claim) (offset : BitVec 64) : Bool := !offset.slt 0#64 && !c.size.ule offset

def inRo (c : Claim) (address : Addr) : Bool := c.inClaim (c.roToOffset address)

def inRw (c : Claim) (address : Addr) : Bool := c.inClaim (c.rwToOffset address)

/-- `RwPages::Flush`: both caches, by the RW address. -/
def flush {ν : Type} (c : Claim) : List (Event ν) :=
  [.dcacheFlush c.getAlignedRw c.getAlignedSize.toNat,
    .icacheInvalidate c.getAlignedRw c.getAlignedSize.toNat]

/-- The cache maintenance of the destructor. -/
def destructorFlush {ν : Type} (c : Claim) : List (Event ν) :=
  [.dcacheFlush c.rw c.size.toNat, .icacheInvalidate c.ro c.size.toNat]

end Claim

/-! ## The constructor -/

/-- A call of `svcMapProcessMemory` or `svcUnmapProcessMemory`. -/
structure Mapping where
  rw : Addr
  ro : Addr
  size : BitVec 64
deriving DecidableEq

/-- What the constructor leaves behind: the object's claim, the mappings it made, and the
range it reserved. -/
structure Constructed where
  claim : Claim
  mappings : List Mapping
  reservedStart : Addr
  reservedSize : BitVec 64

/-- The lambda of the constructor and of the destructor: a piece, at its offset in the
aligned RW range. -/
def Piece.mapping (alignedRw : Addr) (p : Piece) : Mapping := ⟨alignedRw + p.offset, p.address, p.size⟩

/-- Where an access at an address of the alias leads. -/
def resolve (mappings : List Mapping) (a : Addr) : Option Addr :=
  (mappings.find? fun m => a - m.rw < m.size).map fun m => m.ro + (a - m.rw)

/-- What a load gives when the mappings have been made; `read` is what it gave before, `none` where
it faults. -/
def readThrough (mappings : List Mapping) (read : Addr → Option (BitVec 8)) (a : Addr) :
    Option (BitVec 8) :=
  match resolve mappings a with
  | some p => read p
  | none => read a

/-- `memcmp(a, b, n) == 0`, for memory that is read by `left` and by `right`; `none` where a byte
that is compared cannot be read. -/
def memcmp (left right : Addr → Option (BitVec 8)) (a b : Addr) : Nat → Option Bool
  | 0 => some true
  | n + 1 => do
    let l ← left a
    let r ← right b
    if l = r then memcmp left right (a + 1#64) (b + 1#64) n else some false

/-- `RwPages::RwPages(ro, size)` up to its last assertion, where `virtmemFindAslr` returned
`alignedRw` and `virtmemAddReservation` the reservation `reserve`. `none` when an assertion fails. -/
def mapClaim (query : Addr → Region) (alignedRw : Addr) (reserve : Option Nat)
    (ro size : BitVec 64) : Option Constructed :=
  let claim : Claim := ⟨ro, 0#64, size, none⟩
  if alignedRw = 0#64 then none
  else if reserve = none then none
  else
    (forEachMemRange query claim.getAlignedRo claim.getAlignedSize).map fun pieces =>
      { claim := { claim with
          rwReserve := reserve, rw := alignedRw + (ro - claim.getAlignedRo) }
        mappings := pieces.map (Piece.mapping alignedRw)
        reservedStart := alignedRw
        reservedSize := claim.getAlignedSize }

/-- `RwPages::RwPages(ro, size)`. The last assertion reads the claim at its own address and through
the mappings. -/
def construct (query : Addr → Region) (read : Addr → Option (BitVec 8)) (alignedRw : Addr)
    (reserve : Option Nat) (ro size : BitVec 64) : Option Constructed := do
  let c ← mapClaim query alignedRw reserve ro size
  if memcmp read (readThrough c.mappings read) c.claim.ro c.claim.rw c.claim.size.toNat =
      some true then some c
  else none

namespace Constructed

/-- Every byte of the claim is reached through one of the mappings, at `GetRw()` plus its
offset in the claim. -/
def GivesAccess (c : Constructed) : Prop :=
  ∀ k : BitVec 64, k < c.claim.size →
    ∃ m ∈ c.mappings, ∃ j : BitVec 64, j < m.size ∧ m.ro + j = c.claim.ro + k ∧
      m.rw + j = c.claim.rw + k

/-- Every mapped byte lies in the reservation. -/
def ReservationCovers (c : Constructed) : Prop :=
  ∀ m ∈ c.mappings, ∀ j : BitVec 64, j < m.size →
    Covers c.reservedStart c.reservedSize.toNat (m.rw + j)

end Constructed

/-! ## From one alias to the other -/

namespace Claim

/-- The claim's helpers agree with its two ranges. -/
structure Translates (c : Claim) : Prop where
  inRo_iff : ∀ a, c.inRo a = true ↔ c.ro.toNat ≤ a.toNat ∧ a.toNat < c.ro.toNat + c.size.toNat
  inRw_iff : ∀ a, c.inRw a = true ↔ c.rw.toNat ≤ a.toNat ∧ a.toNat < c.rw.toNat + c.size.toNat
  aliases : ∀ k : BitVec 64, k < c.size →
    c.roToRw (c.ro + k) = c.rw + k ∧ c.rwToRo (c.rw + k) = c.ro + k

variable {c : Claim}

/-- An offset counts from the address down. -/
theorem inClaim_iff (a base : Addr) : c.inClaim (base - a) = true ↔
    (base - a).toNat < 2 ^ 63 ∧ (base - a).toNat < c.size.toNat := by
  have hLt := (base - a).isLt
  have hZero : (0#64).toInt = 0 := rfl
  simp only [inClaim, Bool.and_eq_true, Bool.not_eq_true', Bool.eq_false_iff, ne_eq,
    BitVec.slt_iff_toInt_lt, BitVec.ule_iff_toNat_le, BitVec.toInt_eq_toNat_cond (x := base - a),
    hZero]
  split <;> omega

/-- The other alias of a byte of the claim is as far before the base as the byte is behind it. -/
theorem roToRw_add (c : Claim) (k : BitVec 64) : c.roToRw (c.ro + k) = c.rw - k := by
  unfold roToRw roToOffset
  grind

theorem rwToRo_add (c : Claim) (k : BitVec 64) : c.rwToRo (c.rw + k) = c.ro - k := by
  unfold rwToRo rwToOffset
  grind

theorem translates_of_size (h : c.size.toNat ≤ 1) : c.Translates where
  inRo_iff a := by
    rw [inRo, roToOffset, inClaim_iff, BitVec.toNat_sub]
    have := a.isLt
    have := c.ro.isLt
    omega
  inRw_iff a := by
    rw [inRw, rwToOffset, inClaim_iff, BitVec.toNat_sub]
    have := a.isLt
    have := c.rw.isLt
    omega
  aliases k hk := by
    obtain rfl : k = 0#64 := by bv_omega
    rw [roToRw_add, rwToRo_add, BitVec.sub_zero, BitVec.sub_zero, BitVec.add_zero, BitVec.add_zero]
    exact ⟨rfl, rfl⟩

/-- The second byte is the first that is taken wrong. -/
theorem Translates.size_le (h : c.Translates) : c.size.toNat ≤ 1 := by
  by_contra hLarge
  have hOne : (1#64).toNat = 1 := rfl
  obtain ⟨hRw, -⟩ := h.aliases 1#64 (by rw [BitVec.lt_def]; omega)
  rw [roToRw_add] at hRw
  bv_omega

/-- **Translation between the aliases.** The helpers are right for no claim of two bytes or more. -/
theorem translates_iff (c : Claim) : c.Translates ↔ c.size.toNat ≤ 1 :=
  ⟨Translates.size_le, translates_of_size⟩

/-- The second byte of a page is taken for one before the claim, and the byte before the page for
the second. -/
theorem not_translates_page :
    let c : Claim := ⟨0x8000#64, 0x71000#64, 0x1000#64, none⟩
    ¬ c.Translates ∧ c.inRo 0x8001#64 = false ∧ c.inRo 0x7fff#64 = true ∧
      c.roToRw 0x8001#64 = 0x70fff#64 := by
  refine ⟨fun h => ?_, by decide, by decide, by decide⟩
  exact absurd h.size_le (by decide)

end Claim

/-! ## The aligned range -/

/-- The kernel hands out memory in whole pages. -/
def PageGranular (K : KernelMap) : Prop := ∀ a, (K.query a).stop % 4096 = 0

/-- What `virtmemFindAslr` promises about a range it found. -/
structure FreeRange (start : Addr) (size : BitVec 64) : Prop where
  aligned : start.toNat % 4096 = 0
  nonzero : start ≠ 0#64
  fits : start.toNat + size.toNat ≤ 2 ^ 64

/-- The claim lies in memory of the process: no byte of it is in the last region of the map,
which is the inaccessible top of the address space. -/
structure UserRange (K : KernelMap) (ro size : BitVec 64) : Prop where
  pos : 0 < size.toNat
  noWrap : ro.toNat + size.toNat ≤ 2 ^ 64
  granular : PageGranular K
  below : ∀ k : BitVec 64, k < size → (K.query (ro + k)).stop < 2 ^ 64

/-- The last byte of the claim and the end of its region. -/
theorem UserRange.last {K : KernelMap} {ro size : BitVec 64} (h : UserRange K ro size) :
    ∃ b : Addr, b.toNat = ro.toNat + size.toNat - 1 ∧ b.toNat < (K.query b).stop ∧
      (K.query b).stop < 2 ^ 64 := by
  have hPos := h.pos
  have hWrap := h.noWrap
  have hOne : (1#64).toNat = 1 := rfl
  have hLast : (size - 1#64).toNat = size.toNat - 1 :=
    BitVec.toNat_sub_of_le (by rw [BitVec.le_def]; omega)
  refine ⟨ro + (size - 1#64), ?_, K.lt_stop _, h.below _ (by rw [BitVec.lt_def]; omega)⟩
  rw [BitVec.toNat_add, hLast]
  omega

/-- The aligned range of the claim ends below the last region. -/
theorem UserRange.aligned_top {K : KernelMap} {ro size : BitVec 64} (h : UserRange K ro size) :
    (alignDown ro pageSize + alignUp size pageSize).toNat ≤ K.top.addr.toNat := by
  obtain ⟨b, hb, hbLt, hbStop⟩ := h.last
  have hPos := h.pos
  have hPage := h.granular b
  have hDown := alignDown_toNat ro
  have hUp : (alignUp size pageSize).toNat = (size.toNat + 4095) / 4096 * 4096 :=
    alignUp_toNat (by omega)
  have hTop : b.toNat < K.top.addr.toNat := by
    by_contra hOver
    rw [KernelMap.query_eq_top_iff.mpr (by omega), K.top_stop] at hbStop
    omega
  have hStop := KernelMap.stop_le_top hTop
  have hLt := K.top.addr.isLt
  rw [BitVec.toNat_add, Nat.mod_eq_of_lt] <;> omega

theorem halves_granular : PageGranular KernelMap.halves := by
  intro a
  unfold KernelMap.halves half Region.stop
  dsimp only
  split <;> rfl

theorem halves_user {ro size : BitVec 64} (hPos : 0 < size.toNat)
    (hLow : ro.toNat + size.toNat < 2 ^ 63) : UserRange KernelMap.halves ro size where
  pos := hPos
  noWrap := by omega
  granular := halves_granular
  below := by
    intro k hk
    rw [BitVec.lt_def] at hk
    have hSum : (ro + k).toNat < 2 ^ 63 := by
      rw [BitVec.toNat_add]
      omega
    simp only [KernelMap.halves, half, if_pos hSum, Region.stop]
    decide

/-- Rounding up may wrap around to zero, and is never more than a page too much. -/
theorem alignUp_bounds (x : BitVec 64) : (alignUp x pageSize).toNat % 4096 = 0 ∧
    (alignUp x pageSize).toNat ≤ x.toNat + 4095 := by
  have hUp : alignUp x pageSize = alignDown (x + (pageSize - 1#64)) pageSize := rfl
  have hPage : (pageSize - 1#64).toNat = 4095 := by decide
  rw [hUp, alignDown_toNat, BitVec.toNat_add, hPage]
  omega

/-- With its pages rounded out, a claim still ends in the address space. -/
theorem aligned_wrap {ro size : BitVec 64} (hWrap : ro.toNat + size.toNat ≤ 2 ^ 64) :
    (alignDown ro pageSize).toNat + (alignUp size pageSize).toNat ≤ 2 ^ 64 := by
  have hDown := alignDown_toNat ro
  obtain ⟨hUp, hUpLe⟩ := alignUp_bounds size
  omega

/-! ## The pieces of the aligned range -/

/-- The pieces cover the range of `length` bytes from `start` on, each at the offset it names. -/
structure Splits (start length : BitVec 64) (ps : List Piece) : Prop where
  address : ∀ p ∈ ps, p.address = start + p.offset
  bound : ∀ p ∈ ps, p.offset.toNat + p.size.toNat ≤ length.toNat
  cover : ∀ j < length.toNat, ∃ p ∈ ps, p.offset.toNat ≤ j ∧ j < p.offset.toNat + p.size.toNat

section

variable {K : KernelMap} {start length : BitVec 64}

/-- Pieces that tile what is left of a range behind its byte `a`. -/
theorem Tiles.splits_from {first a stop : Nat} {ps : List Piece} (h : Tiles K first a stop ps)
    (hFirst : first ≤ a) :
    (∀ p ∈ ps, p.offset.toNat = p.address.toNat - first ∧ first ≤ p.address.toNat ∧
      p.address.toNat + p.size.toNat ≤ stop) ∧
    ∀ b, a ≤ b → b < stop → ∃ p ∈ ps, p.address.toNat ≤ b ∧ b < p.address.toNat + p.size.toNat := by
  induction ps generalizing a with
  | nil =>
    have hEnd : a = stop := h
    exact ⟨by simp, by omega⟩
  | cons p ps ih =>
    obtain ⟨hAddr, hSize, hFit, hOff, -, hRest⟩ := h
    obtain ⟨hPieces, hCover⟩ := ih hRest (by omega)
    refine ⟨fun q hq => ?_, fun b hLow hHigh => ?_⟩
    · rcases List.mem_cons.mp hq with rfl | hq
      · exact ⟨by omega, by omega, by omega⟩
      · exact hPieces q hq
    · by_cases hb : b < a + p.size.toNat
      · exact ⟨p, List.mem_cons_self, by omega, by omega⟩
      · obtain ⟨q, hq, hIn⟩ := hCover b (by omega) hHigh
        exact ⟨q, List.mem_cons_of_mem _ hq, hIn⟩

theorem Tiles.splits {ps : List Piece}
    (h : Tiles K start.toNat start.toNat (start.toNat + length.toNat) ps) :
    Splits start length ps := by
  obtain ⟨hPieces, hCover⟩ := h.splits_from (Nat.le_refl _)
  refine ⟨fun p hp => ?_, fun p hp => ?_, fun j hj => ?_⟩
  · obtain ⟨hOffset, hLow, -⟩ := hPieces p hp
    apply BitVec.eq_of_toNat_eq
    rw [BitVec.toNat_add, hOffset]
    have := p.address.isLt
    omega
  · obtain ⟨hOffset, hLow, hHigh⟩ := hPieces p hp
    omega
  · obtain ⟨p, hp, hLow, hHigh⟩ := hCover (start.toNat + j) (by omega) (by omega)
    obtain ⟨hOffset, hFirst, -⟩ := hPieces p hp
    exact ⟨p, hp, by omega, by omega⟩

/-- The first piece starts where the range does. -/
theorem first_offset : bvMax (K.query start).addr start - start = 0#64 := by
  have hStart := K.start_le start
  have hMax : bvMax (K.query start).addr start = start := by
    apply BitVec.eq_of_toNat_eq
    rw [bvMax_toNat, Nat.max_eq_right hStart]
  rw [hMax, BitVec.sub_self]

/-- `ForEachMemRange` for pages up to the top of the address space, as numbers or with an end that
has wrapped around to zero. In that case it passes all of them on as one piece. -/
theorem forEachMemRange_splits (hPos : 0 < length.toNat)
    (hWrap : start.toNat + length.toNat ≤ 2 ^ 64)
    (hTop : (start + length).toNat ≤ K.top.addr.toNat) :
    ∃ ps, forEachMemRange K.query start length = some ps ∧ Splits start length ps := by
  have hSum : (start + length).toNat = (start.toNat + length.toNat) % 2 ^ 64 :=
    BitVec.toNat_add start length
  rcases Nat.lt_or_eq_of_le hWrap with hLt | hEnd
  · have hTopLt := K.top.addr.isLt
    rw [hSum, Nat.mod_eq_of_lt hLt] at hTop
    obtain ⟨ps, hRun, hTiles⟩ := forEachMemRange_tiles K hPos hLt fun a ha =>
      Nat.lt_of_le_of_lt (KernelMap.stop_le_top (by omega)) hTopLt
    exact ⟨ps, hRun, hTiles.splits⟩
  · have hZero : start + length = 0#64 := by
      apply BitVec.eq_of_toNat_eq
      rw [hSum, hEnd]
      rfl
    have hMin : bvMin 0#64 ((K.query start).addr + (K.query start).size) = 0#64 := by
      apply BitVec.eq_of_toNat_eq
      rw [bvMin_toNat, BitVec.toNat_zero, Nat.zero_min]
    have hLength : 0#64 - start = length := by grind
    refine ⟨[⟨start, length, 0#64⟩], ?_, ⟨?_, ?_, fun j hj => ?_⟩⟩
    · rw [forEachMemRange, hZero, forEachLoop]
      simp only [BitVec.add_zero, first_offset, hMin, hLength, BitVec.not_lt_zero, if_false]
    · simp
    · simp
    · exact ⟨_, List.mem_singleton_self _, by simp, by simpa using hj⟩

/-- The loop does not end for a range that ends behind the start of the last region. -/
theorem forEachMemRange_none (hTop : ¬ (start + length).toNat ≤ K.top.addr.toNat) :
    forEachMemRange K.query start length = none := by
  refine forEachLoop_never (fun a => ?_) _ _
  have hEnd := K.end_le_top a
  rw [BitVec.lt_def]
  omega

/-- Whatever `ForEachMemRange` has passed on covers the range, also if nothing was asked for. -/
theorem splits_of_forEachMemRange {ps : List Piece} (hWrap : start.toNat + length.toNat ≤ 2 ^ 64)
    (hRun : forEachMemRange K.query start length = some ps) : Splits start length ps := by
  have hTop : (start + length).toNat ≤ K.top.addr.toNat := by
    by_contra hOver
    rw [forEachMemRange_none hOver] at hRun
    cases hRun
  by_cases hPos : 0 < length.toNat
  · obtain ⟨qs, hSome, hSplits⟩ := forEachMemRange_splits hPos hWrap hTop
    obtain rfl := Option.some.inj (hRun.symm.trans hSome)
    exact hSplits
  · obtain rfl : length = 0#64 := BitVec.eq_of_toNat_eq (by simpa using hPos)
    rw [forEachMemRange, BitVec.add_zero, forEachLoop] at hRun
    simp only [BitVec.add_zero, first_offset] at hRun
    split at hRun
    · cases hRun
    · rename_i hLast
      have hMin : bvMin start ((K.query start).addr + (K.query start).size) = start := if_neg hLast
      rw [hMin, BitVec.sub_self] at hRun
      obtain rfl := Option.some.inj hRun
      exact ⟨by simp, by simp, fun j hj => absurd hj (by simp)⟩

end

/-! ## Access through the mappings -/

section

variable {alignedRw : Addr} {reserve : Option Nat} {query : Addr → Region} {ro size : BitVec 64}
  {c : Constructed} {ps : List Piece}

/-- What the constructor leaves behind for the pieces of its loop. -/
def mapped (alignedRw : Addr) (reserve : Option Nat) (ro size : BitVec 64) (ps : List Piece) :
    Constructed where
  claim := ⟨ro, alignedRw + (ro - alignDown ro pageSize), size, reserve⟩
  mappings := ps.map (Piece.mapping alignedRw)
  reservedStart := alignedRw
  reservedSize := alignUp size pageSize

theorem mapClaim_eq_some_iff : mapClaim query alignedRw reserve ro size = some c ↔
    alignedRw ≠ 0#64 ∧ reserve ≠ none ∧
      ∃ ps, forEachMemRange query (alignDown ro pageSize) (alignUp size pageSize) = some ps ∧
        c = mapped alignedRw reserve ro size ps := by
  simp only [mapClaim, Claim.getAlignedRo, Claim.getAlignedSize]
  split
  · simp [*]
  · split
    · simp [*]
    · simp only [Option.map_eq_some_iff, ne_eq, *, not_false_eq_true, true_and]
      exact exists_congr fun ps => and_congr_right fun _ => eq_comm

variable (hSplits : Splits (alignDown ro pageSize) (alignUp size pageSize) ps)
include hSplits

/-- The reservation covers every mapped page. -/
theorem reservationCovers (hFree : FreeRange alignedRw (alignUp size pageSize)) :
    (mapped alignedRw reserve ro size ps).ReservationCovers := by
  intro m hm j hj
  obtain ⟨p, hp, rfl⟩ := List.mem_map.mp hm
  have hBound := hSplits.bound p hp
  have hFits := hFree.fits
  have hLt := (alignUp size pageSize).isLt
  simp only [Piece.mapping, BitVec.lt_def] at hj
  have hOffset : alignedRw + p.offset + j - alignedRw = p.offset + j := by grind
  simp only [mapped, Piece.mapping, Covers, hOffset, BitVec.toNat_add]
  rw [Nat.mod_eq_of_lt] <;> omega

/-- Every mapping leads to the byte at the same offset in the claim. -/
theorem mapping_translates {m : Mapping} (hm : m ∈ (mapped alignedRw reserve ro size ps).mappings)
    (a : Addr) : m.ro + (a - m.rw) =
      ro + (a - (mapped alignedRw reserve ro size ps).claim.rw) := by
  obtain ⟨p, hp, rfl⟩ := List.mem_map.mp hm
  simp only [Piece.mapping, mapped, hSplits.address p hp]
  grind

/-- The mappings reach the whole claim exactly when the rounded size leaves room for the offset in
the first page. -/
theorem givesAccess_iff_fits (hPos : 0 < size.toNat) (hWrap : ro.toNat + size.toNat ≤ 2 ^ 64) :
    (mapped alignedRw reserve ro size ps).GivesAccess ↔
      ro.toNat % 4096 + size.toNat ≤ (alignUp size pageSize).toNat := by
  have hDown := alignDown_toNat ro
  have hOffset : (ro - alignDown ro pageSize).toNat = ro.toNat % 4096 := by
    rw [BitVec.toNat_sub_of_le (by rw [BitVec.le_def]; omega)]
    omega
  constructor
  · intro hAccess
    have hOne : (1#64).toNat = 1 := rfl
    have hLast : (size - 1#64).toNat = size.toNat - 1 :=
      BitVec.toNat_sub_of_le (by rw [BitVec.le_def]; omega)
    obtain ⟨m, hm, j, hj, -, hRw⟩ := hAccess (size - 1#64) (by
      simp only [mapped, BitVec.lt_def]; omega)
    obtain ⟨p, hp, rfl⟩ := List.mem_map.mp hm
    have hBound := hSplits.bound p hp
    have hLt := (alignUp size pageSize).isLt
    simp only [Piece.mapping, mapped, BitVec.lt_def] at hj hRw
    -- the offset of the last byte, in the claim and in the piece
    have hByte : (ro - alignDown ro pageSize + (size - 1#64)).toNat = (p.offset + j).toNat := by
      congr 1
      grind
    rw [BitVec.toNat_add, BitVec.toNat_add, hOffset, hLast] at hByte
    omega
  · intro hFits k hk
    simp only [mapped, BitVec.lt_def] at hk
    obtain ⟨p, hp, hLow, hHigh⟩ := hSplits.cover (ro.toNat % 4096 + k.toNat) (by omega)
    have hLt := (alignUp size pageSize).isLt
    have hIndex : (ro - alignDown ro pageSize + k - p.offset).toNat =
        ro.toNat % 4096 + k.toNat - p.offset.toNat := by
      have hSum : (ro - alignDown ro pageSize + k).toNat = ro.toNat % 4096 + k.toNat := by
        rw [BitVec.toNat_add, hOffset]
        exact Nat.mod_eq_of_lt (by omega)
      rw [BitVec.toNat_sub_of_le (by rw [BitVec.le_def]; omega), hSum]
    refine ⟨_, List.mem_map_of_mem hp, ro - alignDown ro pageSize + k - p.offset, ?_, ?_, ?_⟩
    · simp only [Piece.mapping, BitVec.lt_def, hIndex]
      omega
    · simp only [Piece.mapping, mapped, hSplits.address p hp]
      grind
    · simp only [Piece.mapping, mapped]
      grind

/-- An address of the claim resolves exactly when a mapping gives access to it. -/
theorem resolve_eq (k : BitVec 64) :
    let c := mapped alignedRw reserve ro size ps
    resolve c.mappings (c.claim.rw + k) =
      if ∃ m ∈ c.mappings, c.claim.rw + k - m.rw < m.size then some (ro + k) else none := by
  intro c
  unfold resolve
  cases hFind : c.mappings.find? fun m => c.claim.rw + k - m.rw < m.size with
  | none =>
    rw [if_neg, Option.map_none]
    rintro ⟨m, hm, hIn⟩
    exact absurd hIn (by simpa using List.find?_eq_none.mp hFind m hm)
  | some m =>
    have hIn : c.claim.rw + k - m.rw < m.size := by simpa using List.find?_some hFind
    have hMem := List.mem_of_find?_eq_some hFind
    have hSame : c.claim.rw + k - c.claim.rw = k := by grind
    rw [if_pos ⟨m, hMem, hIn⟩, Option.map_some, mapping_translates hSplits hMem, hSame]

theorem givesAccess_iff_resolve :
    let c := mapped alignedRw reserve ro size ps
    c.GivesAccess ↔ ∀ k : BitVec 64, k < size → resolve c.mappings (c.claim.rw + k) = some (ro + k) := by
  intro c
  refine forall₂_congr fun k _ => ?_
  rw [resolve_eq hSplits]
  constructor
  · rintro ⟨m, hm, j, hj, -, hRw⟩
    have hIn : c.claim.rw + k - m.rw = j := by
      rw [← hRw]
      grind
    rw [if_pos ⟨m, hm, hIn ▸ hj⟩]
  · intro h
    split at h
    · rename_i hMapped
      obtain ⟨m, hm, hIn⟩ := hMapped
      have hSame : c.claim.rw + k - c.claim.rw = k := by grind
      have hBack : m.rw + (c.claim.rw + k - m.rw) = c.claim.rw + k := by grind
      refine ⟨m, hm, c.claim.rw + k - m.rw, hIn, ?_, hBack⟩
      rw [mapping_translates hSplits hm, hSame]
      rfl
    · cases h

/-- Otherwise there is a byte of the claim that no mapping reaches. -/
theorem exists_unresolved (h : ¬ (mapped alignedRw reserve ro size ps).GivesAccess) :
    ∃ k : BitVec 64, k < size ∧ resolve (mapped alignedRw reserve ro size ps).mappings
      ((mapped alignedRw reserve ro size ps).claim.rw + k) = none := by
  simp only [givesAccess_iff_resolve hSplits, not_forall] at h
  obtain ⟨k, hk, hOut⟩ := h
  refine ⟨k, hk, ?_⟩
  rw [resolve_eq hSplits] at hOut ⊢
  exact if_neg fun hMapped => hOut (if_pos hMapped)

end

/-! ## The comparison -/

theorem memcmp_eq_true_iff {left right : Addr → Option (BitVec 8)} {a b : Addr} {n : Nat} :
    memcmp left right a b n = some true ↔
      ∀ k < n, left (a + BitVec.ofNat 64 k) ≠ none ∧
        right (b + BitVec.ofNat 64 k) = left (a + BitVec.ofNat 64 k) := by
  induction n generalizing a b with
  | zero => simp [memcmp]
  | succ n ih =>
    have hShift : ∀ (p : Addr) (k : Nat),
        p + 1#64 + BitVec.ofNat 64 k = p + BitVec.ofNat 64 (k + 1) := by
      intro p k
      rw [BitVec.ofNat_add]
      grind
    rw [Nat.forall_lt_succ_left]
    simp only [memcmp, BitVec.add_zero]
    cases hl : left a with
    | none => simp
    | some l =>
      cases hr : right b with
      | none => simp
      | some r =>
        simp only [Option.bind_eq_bind, Option.bind_some, ne_eq, reduceCtorEq, not_false_eq_true,
          true_and, Option.some.injEq]
        by_cases hEq : l = r
        · rw [if_pos hEq, ih]
          simp only [hShift, hEq, ne_eq, true_and]
        · simp [hEq, eq_comm]

variable {K : KernelMap} {read : Addr → Option (BitVec 8)} {ro size alignedRw : BitVec 64}
  {reserve : Option Nat} {c : Constructed}

theorem construct_eq_some_iff {query : Addr → Region} :
    construct query read alignedRw reserve ro size = some c ↔
      mapClaim query alignedRw reserve ro size = some c ∧
        memcmp read (readThrough c.mappings read) c.claim.ro c.claim.rw c.claim.size.toNat =
          some true := by
  simp only [construct, Option.bind_eq_bind, Option.bind_eq_some_iff, Option.ite_none_right_eq_some,
    Option.some.injEq]
  constructor
  · rintro ⟨c, hMap, hSame, rfl⟩
    exact ⟨hMap, hSame⟩
  · rintro ⟨hMap, hSame⟩
    exact ⟨c, hMap, hSame, rfl⟩

/-- The comparison passes for a claim that is readable and reached by the mappings, and reads every
byte of the claim at its own address. -/
theorem compare_iff {ps : List Piece}
    (hSplits : Splits (alignDown ro pageSize) (alignUp size pageSize) ps)
    (hAccess : (mapped alignedRw reserve ro size ps).GivesAccess) :
    let c := mapped alignedRw reserve ro size ps
    memcmp read (readThrough c.mappings read) ro c.claim.rw size.toNat = some true ↔
      ∀ k : BitVec 64, k < size → read (ro + k) ≠ none := by
  intro c
  have hResolve := (givesAccess_iff_resolve hSplits).mp hAccess
  rw [memcmp_eq_true_iff]
  constructor
  · intro h k hk
    have hByte := (h k.toNat (by rwa [BitVec.lt_def] at hk)).1
    rwa [BitVec.ofNat_toNat, BitVec.setWidth_eq] at hByte
  · intro h k hk
    have hLt : BitVec.ofNat 64 k < size := by
      rw [BitVec.lt_def, BitVec.toNat_ofNat]
      exact Nat.lt_of_le_of_lt (Nat.mod_le _ _) hk
    refine ⟨h _ hLt, ?_⟩
    rw [readThrough, hResolve _ hLt]

/-! ## The object -/

variable (read) in
/-- The constructor returns for a claim that fits, and gives access to all of it. -/
theorem construct_of_fits (hPos : 0 < size.toNat) (hWrap : ro.toNat + size.toNat ≤ 2 ^ 64)
    (hFree : FreeRange alignedRw (alignUp size pageSize)) (hReserve : reserve ≠ none)
    (hFits : ro.toNat % 4096 + size.toNat ≤ (alignUp size pageSize).toNat)
    (hTop : (alignDown ro pageSize + alignUp size pageSize).toNat ≤ K.top.addr.toNat)
    (hRead : ∀ k : BitVec 64, k < size → read (ro + k) ≠ none) :
    ∃ ps, Splits (alignDown ro pageSize) (alignUp size pageSize) ps ∧
      construct K.query read alignedRw reserve ro size = some (mapped alignedRw reserve ro size ps) ∧
      (mapped alignedRw reserve ro size ps).GivesAccess := by
  obtain ⟨ps, hRun, hSplits⟩ :=
    forEachMemRange_splits (K := K) (by omega) (aligned_wrap hWrap) hTop
  have hAccess : (mapped alignedRw reserve ro size ps).GivesAccess :=
    (givesAccess_iff_fits hSplits hPos hWrap).mpr hFits
  have hMap : mapClaim K.query alignedRw reserve ro size =
      some (mapped alignedRw reserve ro size ps) :=
    mapClaim_eq_some_iff.mpr ⟨hFree.nonzero, hReserve, ps, hRun, rfl⟩
  refine ⟨ps, hSplits, ?_, hAccess⟩
  exact construct_eq_some_iff.mpr ⟨hMap, (compare_iff hSplits hAccess).mpr hRead⟩

/-- **Access to the claim.** The constructor returns an object that gives access to its whole
claim, with a reservation that covers what it mapped, exactly when there is a reservation, the
offset of the claim in its first page plus its size does not exceed the size rounded up to pages,
the aligned range does not end behind the start of the last region, and the claim is readable. -/
theorem construct_access_iff (hPos : 0 < size.toNat) (hWrap : ro.toNat + size.toNat ≤ 2 ^ 64)
    (hFree : FreeRange alignedRw (alignUp size pageSize)) :
    (∃ c, construct K.query read alignedRw reserve ro size = some c ∧
      c.GivesAccess ∧ c.ReservationCovers) ↔
    reserve ≠ none ∧
      ro.toNat % 4096 + size.toNat ≤ (alignUp size pageSize).toNat ∧
      (alignDown ro pageSize + alignUp size pageSize).toNat ≤ K.top.addr.toNat ∧
      ∀ k : BitVec 64, k < size → read (ro + k) ≠ none := by
  constructor
  · rintro ⟨c, hRun, hAccess, -⟩
    obtain ⟨hMap, hSame⟩ := construct_eq_some_iff.mp hRun
    obtain ⟨-, hReserve, ps, hPieces, rfl⟩ := mapClaim_eq_some_iff.mp hMap
    have hTop : (alignDown ro pageSize + alignUp size pageSize).toNat ≤ K.top.addr.toNat := by
      by_contra hOver
      rw [forEachMemRange_none hOver] at hPieces
      cases hPieces
    have hSplits := splits_of_forEachMemRange (aligned_wrap hWrap) hPieces
    exact ⟨hReserve, (givesAccess_iff_fits hSplits hPos hWrap).mp hAccess, hTop,
      (compare_iff hSplits hAccess).mp hSame⟩
  · rintro ⟨hReserve, hFits, hTop, hRead⟩
    obtain ⟨ps, hSplits, hRun, hAccess⟩ :=
      construct_of_fits read hPos hWrap hFree hReserve hFits hTop hRead
    exact ⟨_, hRun, hAccess, reservationCovers hSplits hFree⟩

/-- A hook's claim of 20 bytes inside one page, in a memory of zeros. -/
theorem construct_access_iff_hook :
    ∃ c, construct KernelMap.halves.query (fun _ => some 0#8) 0x71000#64 (some 0) 0x5815c#64
        0x14#64 = some c ∧ c.GivesAccess ∧ c.ReservationCovers :=
  (construct_access_iff (by decide) (by decide) ⟨by decide, by decide, by decide⟩).mpr
    ⟨by decide, by decide, by decide, fun _ _ => by decide⟩

/-- Code that is mapped up to the address `stop`. -/
def codeUpTo (stop : Addr) (a : Addr) : Option (BitVec 8) := if a < stop then some 0#8 else none

/-- A claim of eight bytes, four on each side of a page boundary, is only half mapped. Where nothing
is mapped behind the range of the alias, the last assertion already faults. -/
theorem construct_straddling_page : (¬ ∀ (K : KernelMap) (read : Addr → Option (BitVec 8))
    (alignedRw ro size : BitVec 64), UserRange K ro size →
      FreeRange alignedRw (alignUp size pageSize) →
      (∀ k : BitVec 64, k < size → read (ro + k) ≠ none) →
      ∃ c, construct K.query read alignedRw (some 0) ro size = some c ∧
        c.GivesAccess ∧ c.ReservationCovers) ∧
    construct KernelMap.halves.query (codeUpTo 0x3000#64) 0x71000#64 (some 0) 0x1ffc#64 0x8#64 =
      none := by
  refine ⟨fun h => ?_, by decide⟩
  have hUser : UserRange KernelMap.halves 0x1ffc#64 0x8#64 := halves_user (by decide) (by decide)
  have hFree : FreeRange 0x71000#64 (alignUp 0x8#64 pageSize) := ⟨by decide, by decide, by decide⟩
  obtain ⟨-, hFits, -⟩ := (construct_access_iff (by decide) (by decide) hFree).mp
    (h KernelMap.halves (fun _ => some 0#8) 0x71000#64 0x1ffc#64 0x8#64 hUser hFree (by simp))
  revert hFits
  decide

end Wondar.Sys
