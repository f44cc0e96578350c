import Wondar.Armv8
import Wondar.Coherence
import Wondar.Runs
import Wondar.Sys.RwPages

/-!
# Patchers

A patcher writes through the RW alias of the main module's code and read-only data, at
offsets from the start of the module. `StreamPatcher` writes at a moving position and
flushes lazily, `CodePatcher` adds instructions to it, `RandomAccessPatcher` writes
anywhere and keeps the bounds of what it wrote.

Both have the same invariant: a byte that is not published lies in the range that the next
flush covers (`Dirty`). The range is `[m_Start, m_Current)` for a stream and
`[m_Lowest, m_Highest)` for random access, and every operation inside the patchable region
keeps it. `codePatcher_clean` and `randomAccessPatcher_clean` conclude for the whole life of
a patcher, and `patched_bytes_flushed` for both kinds.
-/

namespace Wondar.Patch

open A64 Coherence Sys

/-! ## The patchable region -/

/-- `PatcherImpl` keeps the pages of the module; the patcher only reads the claim. -/
abbrev Pages := Claim

section Impl

variable (pages : Pages)

/-- Addresses are relative to the module, and have a place in each of its two mappings. -/
def addrFromRo (ro : Addr) : BitVec 64 := ro - pages.ro
def addrFromRw (rw : Addr) : BitVec 64 := rw - pages.rw
def roFromAddr (addr : BitVec 64) : Addr := pages.ro + addr
def rwFromAddr (addr : BitVec 64) : Addr := pages.rw + addr

end Impl

/-- The region from the start of a module to the end of its read-only data: it starts at a
page other than the first and does not wrap around. -/
structure Patchable (pages : Pages) : Prop where
  aligned : pages.ro.toNat % 4096 = 0
  nonNull : pages.ro ≠ 0#64
  noWrap : pages.ro.toNat + pages.size.toNat ≤ 2 ^ 64

theorem Patchable.size_lt {pages : Pages} (h : Patchable pages) : pages.size.toNat + 4096 ≤ 2 ^ 64 := by
  have hNonNull : pages.ro.toNat ≠ 0 := fun h0 => h.nonNull (BitVec.eq_of_toNat_eq h0)
  have hAligned := h.aligned
  have hWrap := h.noWrap
  omega

/-- An object of some type: its bytes, in memory order. No type has size zero. -/
structure Value where
  bytes : List (BitVec 8)
  nonempty : bytes ≠ []

/-- `sizeof` of the type. -/
def Value.size (v : Value) : Nat := v.bytes.length

theorem Value.size_pos (v : Value) : 0 < v.size := List.length_pos_iff.mpr v.nonempty

/-- An instruction word, little-endian. -/
def Value.ofWord (w : Word) : Value where
  bytes := [w.setWidth 8, w.extractLsb' 8 8, w.extractLsb' 16 8, w.extractLsb' 24 8]
  nonempty := by simp

/-- The bytes are stored one behind the other. -/
def storeBytes (mem : Addr → BitVec 8) (a : Addr) : List (BitVec 8) → Addr → BitVec 8
  | [] => mem
  | b :: bs => storeBytes (Function.update mem a b) (a + 1#64) bs

/-- Memory behind the RW alias, and what has been done to it and to the caches. -/
structure Target where
  mem : Addr → BitVec 8
  log : List (Event Empty)

namespace Target

/-- `At<T>(offset) = v`. -/
def assign (t : Target) (pages : Pages) (offset : BitVec 64) (v : Value) : Target where
  mem := storeBytes t.mem (rwFromAddr pages offset) v.bytes
  log := t.log ++ [.store (rwFromAddr pages offset) v.size]

/-- `armDCacheFlush(rw, size); armICacheInvalidate(ro, size)`, from `offset` on. -/
def flush (t : Target) (pages : Pages) (offset size : BitVec 64) : Target :=
  { t with log := t.log ++ [.dcacheFlush (rwFromAddr pages offset) size.toNat,
      .icacheInvalidate (roFromAddr pages offset) size.toNat] }

/-- The byte at an offset is published. -/
def Published (t : Target) (pages : Pages) (k : BitVec 64) : Prop :=
  PublishedAt t.log (rwFromAddr pages k) (roFromAddr pages k)

/-- What is not published lies in the `n` bytes from `offset` on. -/
def Dirty (t : Target) (pages : Pages) (offset : BitVec 64) (n : Nat) : Prop :=
  ∀ k, t.Published pages k ∨ Covers offset n k

/-- Nothing is waiting for a flush. -/
def Clean (t : Target) (pages : Pages) : Prop := ∀ k, t.Published pages k

variable {t : Target} {pages : Pages} {offset size : BitVec 64} {n : Nat}

theorem Dirty.flush (h : t.Dirty pages offset size.toNat) :
    (t.flush pages offset size).Clean pages := by
  intro k
  refine PublishedAt.flush ((h k).imp_right fun hk => ⟨?_, ?_⟩)
  · exact (covers_add_left ..).mpr hk
  · exact (covers_add_left ..).mpr hk

/-- A write leaves a byte dirty only if it is dirty already or written. -/
theorem Dirty.assign (h : t.Dirty pages offset n) (addr : BitVec 64) (v : Value) (k : BitVec 64) :
    (t.assign pages addr v).Published pages k ∨ Covers offset n k ∨ Covers addr v.size k := by
  by_cases hk : Covers addr v.size k
  · exact .inr (.inr hk)
  · rcases h k with hPublished | hOld
    · exact .inl (hPublished.store fun hStore => hk ((covers_add_left ..).mp hStore))
    · exact .inr (.inl hOld)

theorem Dirty.clean (h : t.Dirty pages offset 0) : t.Clean pages := by
  intro k
  rcases h k with hPublished | hNone
  · exact hPublished
  · exact absurd hNone (Nat.not_lt_zero _)

end Target

/-! ## StreamPatcher -/

/-- The part from `start` to `current` has been written and not been flushed. -/
structure StreamPatcher where
  start : BitVec 64
  current : BitVec 64
  target : Target

namespace StreamPatcher

/-- Nothing has been written. -/
def construct (start : BitVec 64) (mem : Addr → BitVec 8) : StreamPatcher := ⟨start, start, ⟨mem, []⟩⟩

section

variable (pages : Pages) (p : StreamPatcher)

/-- `DoneNothing`. -/
def doneNothing : Bool := p.start == p.current

/-- Flushes what has been written since the last flush. -/
def flush : StreamPatcher :=
  if p.doneNothing then p
  else
    let size := p.current - p.start
    { p with target := p.target.flush pages p.start size, start := p.start + size }

/-- `RelativeAddressFromBase`. -/
def relativeAddressFromBase (address : BitVec 64) : BitVec 64 := address - p.current

/-- `RelativeAddressFromPointer`, of an address in the read-only mapping. -/
def relativeAddressFromPointer (ptr : Addr) : BitVec 64 := addrFromRo pages ptr - p.current

/-- Writes at the current address, which then lies behind the value. -/
def write (v : Value) : StreamPatcher :=
  { p with
    target := p.target.assign pages p.current v
    current := p.current + BitVec.ofNat 64 v.size }

/-- A seek to another place flushes first, since the part that is written must stay in one piece.
-/
def seekRel (address : BitVec 64) : StreamPatcher :=
  if address = 0#64 then p
  else { p.flush pages with start := address + p.current, current := address + p.current }

/-- `Seek`. -/
def seek (address : BitVec 64) : StreamPatcher := p.seekRel pages (p.relativeAddressFromBase address)

/-- `Seek` to a pointer. -/
def seekPtr (ptr : Addr) : StreamPatcher := p.seekRel pages (p.relativeAddressFromPointer pages ptr)

/-- `StreamPatcher::~StreamPatcher`. -/
def destroy : Target := (p.flush pages).target

end

/-- The unpublished bytes are those between the start and the current position. -/
structure Inv (pages : Pages) (p : StreamPatcher) : Prop where
  ordered : p.start.toNat ≤ p.current.toNat
  dirty : p.target.Dirty pages p.start (p.current - p.start).toNat

variable {pages : Pages} {p : StreamPatcher}

theorem Inv.flush (h : p.Inv pages) : (p.flush pages).target.Clean pages := by
  unfold StreamPatcher.flush doneNothing
  split
  · rename_i hNothing
    have hDirty := h.dirty
    rw [← eq_of_beq hNothing, BitVec.sub_self] at hDirty
    exact hDirty.clean
  · exact h.dirty.flush

theorem inv_of_clean {address : BitVec 64} {t : Target} (h : t.Clean pages) :
    (StreamPatcher.mk address address t).Inv pages :=
  ⟨Nat.le_refl _, fun k => .inl (h k)⟩

theorem Inv.seekRel (h : p.Inv pages) (address : BitVec 64) : (p.seekRel pages address).Inv pages := by
  unfold StreamPatcher.seekRel
  split
  · exact h
  · exact inv_of_clean h.flush

/-- Writing inside the region extends the range by what is written. -/
theorem Inv.write (h : p.Inv pages) {v : Value} (hFits : p.current.toNat + v.size < 2 ^ 64) :
    (p.write pages v).Inv pages := by
  have hOrdered := h.ordered
  have hCurrent : (p.current + BitVec.ofNat 64 v.size).toNat = p.current.toNat + v.size := by
    rw [BitVec.toNat_add, BitVec.toNat_ofNat]
    omega
  have hOld : (p.current - p.start).toNat = p.current.toNat - p.start.toNat :=
    BitVec.toNat_sub_of_le hOrdered
  have hNew : (p.current + BitVec.ofNat 64 v.size - p.start).toNat =
      p.current.toNat + v.size - p.start.toNat := by
    rw [BitVec.toNat_sub_of_le (by rw [BitVec.le_def]; omega), hCurrent]
  refine ⟨?_, fun k => ?_⟩
  · simp only [StreamPatcher.write, hCurrent]
    omega
  · simp only [StreamPatcher.write, hNew]
    refine (h.dirty.assign p.current v k).imp_right fun hk => ?_
    rw [hOld, covers_iff (by omega), covers_iff (by omega)] at hk
    rw [covers_iff (by omega)]
    omega

end StreamPatcher

/-! ## CodePatcher -/

/-- What a user of a `CodePatcher` calls. -/
inductive StreamOp
  | write (v : Value)
  | seekRel (address : BitVec 64)
  | seek (address : BitVec 64)
  | seekPtr (ptr : Addr)
  | writeInst (inst : Word)
  | branchInstRel (address : BitVec 64)
  | branchLinkInstRel (address : BitVec 64)
  | branchInst (address : BitVec 64)
  | branchLinkInst (address : BitVec 64)
  | branchInstPtr (ptr : Addr)
  | branchLinkInstPtr (ptr : Addr)

namespace CodePatcher

variable (pages : Pages) (p : StreamPatcher)

/-- `WriteInst`. -/
def writeInst (inst : Word) : StreamPatcher := p.write pages (.ofWord inst)

/-- A branch to an address relative to the current one, whose upper half is lost. -/
def branchInstRel (address : BitVec 64) : StreamPatcher :=
  writeInst pages p (Armv8.branch (address.setWidth 32))

/-- As `branchInstRel`, with a link. -/
def branchLinkInstRel (address : BitVec 64) : StreamPatcher :=
  writeInst pages p (Armv8.branchLink (address.setWidth 32))

/-- A branch to an address of the module. -/
def branchInst (address : BitVec 64) : StreamPatcher :=
  branchInstRel pages p (p.relativeAddressFromBase address)

/-- As `branchInst`, with a link. -/
def branchLinkInst (address : BitVec 64) : StreamPatcher :=
  branchLinkInstRel pages p (p.relativeAddressFromBase address)

/-- A branch to a pointer. -/
def branchInstPtr (ptr : Addr) : StreamPatcher :=
  branchInstRel pages p (p.relativeAddressFromPointer pages ptr)

/-- As `branchInstPtr`, with a link. -/
def branchLinkInstPtr (ptr : Addr) : StreamPatcher :=
  branchLinkInstRel pages p (p.relativeAddressFromPointer pages ptr)

/-- The member function of an operation. -/
def apply : StreamOp → StreamPatcher → StreamPatcher
  | .write v, p => p.write pages v
  | .seekRel address, p => p.seekRel pages address
  | .seek address, p => p.seek pages address
  | .seekPtr ptr, p => p.seekPtr pages ptr
  | .writeInst inst, p => writeInst pages p inst
  | .branchInstRel address, p => branchInstRel pages p address
  | .branchLinkInstRel address, p => branchLinkInstRel pages p address
  | .branchInst address, p => branchInst pages p address
  | .branchLinkInst address, p => branchLinkInst pages p address
  | .branchInstPtr ptr, p => branchInstPtr pages p ptr
  | .branchLinkInstPtr ptr, p => branchLinkInstPtr pages p ptr

/-- How many bytes an operation writes at the current position. -/
def written : StreamOp → Nat
  | .write v => v.size
  | .seekRel _ | .seek _ | .seekPtr _ => 0
  | _ => 4

/-- The operation writes inside the region. -/
def InRegion (p : StreamPatcher) (o : StreamOp) : Prop :=
  0 < written o → p.current.toNat + written o ≤ pages.size.toNat

variable {pages} {p}

theorem inv_apply (hPages : Patchable pages) {o : StreamOp} (h : p.Inv pages)
    (hIn : InRegion pages p o) : (apply pages o p).Inv pages := by
  have hSize := hPages.size_lt
  have hWord : ∀ inst, 0 < 4 → p.current.toNat + 4 ≤ pages.size.toNat →
      (writeInst pages p inst).Inv pages := by
    intro inst _ hFits
    exact h.write (v := .ofWord inst) (by change _ + 4 < _; omega)
  cases o with
  | write v =>
    have hFits := hIn v.size_pos
    rw [written] at hFits
    exact h.write (by omega)
  | seekRel address => exact h.seekRel address
  | seek address => exact h.seekRel _
  | seekPtr ptr => exact h.seekRel _
  | _ => exact hWord _ (by omega) (hIn (Nat.succ_pos 3))

end CodePatcher

/-- Whatever operations a stream or code patcher performs inside the patchable region, every
byte is published once it has been destroyed. -/
theorem codePatcher_clean {pages : Pages} (hPages : Patchable pages) (start : BitVec 64)
    (mem : Addr → BitVec 8) {ops : List StreamOp}
    (hIn : Runs.Along (fun o p => some (CodePatcher.apply pages o p)) (CodePatcher.InRegion pages) ops
      (StreamPatcher.construct start mem)) :
    ((ops.foldl (fun p o => CodePatcher.apply pages o p)
      (StreamPatcher.construct start mem)).destroy pages).Clean pages := by
  have hInit : (StreamPatcher.construct start mem).Inv pages := StreamPatcher.inv_of_clean fun k => trivial
  refine (Runs.throughout_of_along (I := StreamPatcher.Inv pages)
    (Q := fun p => (p.destroy pages).Clean pages) (fun p h => h.flush) ?_ hInit hIn).final
    (Runs.run_total ..)
  rintro p o p' h hIn ⟨rfl⟩
  exact CodePatcher.inv_apply hPages h hIn

/-! ## RandomAccessPatcher -/

/-- `UINTPTR_MAX`, which stands for no address. -/
def uintptrMax : BitVec 64 := BitVec.allOnes 64

/-- `std::min`. -/
def stdMin (a b : BitVec 64) : BitVec 64 := if b < a then b else a

/-- `std::max`. -/
def stdMax (a b : BitVec 64) : BitVec 64 := if a < b then b else a

theorem stdMin_toNat (a b : BitVec 64) : (stdMin a b).toNat = min a.toNat b.toNat := by
  unfold stdMin
  split <;> rename_i h <;> rw [BitVec.lt_def] at h <;> omega

theorem stdMax_toNat (a b : BitVec 64) : (stdMax a b).toNat = max a.toNat b.toNat := by
  unfold stdMax
  split <;> rename_i h <;> rw [BitVec.lt_def] at h <;> omega

/-- The part from `lowest` to `highest` holds everything that has been written. -/
structure RandomAccessPatcher where
  lowest : BitVec 64
  highest : BitVec 64
  target : Target

/-- What a user of a `RandomAccessPatcher` calls. -/
inductive RandomOp
  | write (addr : BitVec 64) (v : Value)
  | flush

namespace RandomAccessPatcher

/-- Nothing has been written. -/
def construct (mem : Addr → BitVec 8) : RandomAccessPatcher := ⟨uintptrMax, uintptrMax, ⟨mem, []⟩⟩

section

variable (pages : Pages) (p : RandomAccessPatcher)

/-- Nothing has been written, or something that ends at the last address. -/
def isUnset : Bool := p.lowest == uintptrMax || p.highest == uintptrMax

/-- The part begins at the address, if not before it. -/
def setLowest (addr : BitVec 64) : RandomAccessPatcher :=
  if p.isUnset then { p with lowest := addr } else { p with lowest := stdMin p.lowest addr }

/-- The part ends at the address, if not behind it. -/
def setHighest (addr : BitVec 64) : RandomAccessPatcher :=
  if p.isUnset then { p with highest := addr } else { p with highest := stdMax p.highest addr }

/-- Writes at any address, and takes it into the part. -/
def write (addr : BitVec 64) (v : Value) : RandomAccessPatcher :=
  let p := (p.setLowest addr).setHighest (addr + BitVec.ofNat 64 v.size)
  { p with target := p.target.assign pages addr v }

/-- Flushes the whole part, and keeps it. -/
def flush : RandomAccessPatcher :=
  if p.isUnset then p
  else { p with target := p.target.flush pages p.lowest (p.highest - p.lowest) }

/-- `RandomAccessPatcher::~RandomAccessPatcher`. -/
def destroy : Target := (p.flush pages).target

end

/-- The member function of an operation. -/
def apply (pages : Pages) : RandomOp → RandomAccessPatcher → RandomAccessPatcher
  | .write addr v, p => p.write pages addr v
  | .flush, p => p.flush pages

/-- The operation writes inside the region. -/
def InRegion (pages : Pages) : RandomOp → Prop
  | .write addr v => addr.toNat + v.size ≤ pages.size.toNat
  | .flush => True

/-- Both bounds are unset and nothing is dirty, or both are offsets in the region and the dirty
bytes lie between them. -/
inductive Inv (pages : Pages) (p : RandomAccessPatcher) : Prop
  | unset (hLowest : p.lowest = uintptrMax) (hHighest : p.highest = uintptrMax)
      (hClean : p.target.Clean pages)
  | between (hOrdered : p.lowest.toNat < p.highest.toNat)
      (hBound : p.highest.toNat ≤ pages.size.toNat)
      (hDirty : p.target.Dirty pages p.lowest (p.highest.toNat - p.lowest.toNat))

variable {pages : Pages} {p : RandomAccessPatcher}

/-- The first write sets both bounds: setting the lowest leaves the highest unset. -/
theorem write_of_unset (hLowest : p.lowest = uintptrMax) (hHighest : p.highest = uintptrMax)
    (addr : BitVec 64) (v : Value) : p.write pages addr v =
      ⟨addr, addr + BitVec.ofNat 64 v.size, p.target.assign pages addr v⟩ := by
  have hLow : p.setLowest addr = { p with lowest := addr } := by simp [setLowest, isUnset, hLowest]
  have hHigh : isUnset { p with lowest := addr } = true := by simp [isUnset, hHighest]
  rw [RandomAccessPatcher.write, hLow, setHighest, if_pos hHigh]

/-- A later write moves both bounds. -/
theorem write_of_set {addr : BitVec 64} {v : Value} (hSet : p.isUnset = false)
    (hAddr : addr ≠ uintptrMax) : p.write pages addr v =
      ⟨stdMin p.lowest addr, stdMax p.highest (addr + BitVec.ofNat 64 v.size),
        p.target.assign pages addr v⟩ := by
  have hLow : p.setLowest addr = { p with lowest := stdMin p.lowest addr } := by
    rw [setLowest, if_neg (by simp [hSet])]
  have hHigh : ¬ isUnset { p with lowest := stdMin p.lowest addr } = true := by
    simp only [isUnset, Bool.or_eq_false_iff, beq_eq_false_iff_ne] at hSet
    simp only [isUnset, stdMin, Bool.or_eq_true, beq_iff_eq, hSet.2, or_false]
    split
    · exact hAddr
    · exact hSet.1
  rw [RandomAccessPatcher.write, hLow, setHighest, if_neg hHigh]

/-- No offset in the region is the sentinel. -/
theorem ne_uintptrMax (hPages : Patchable pages) {k : BitVec 64} (hk : k.toNat ≤ pages.size.toNat) :
    k ≠ uintptrMax := by
  rintro rfl
  have hSize := hPages.size_lt
  have hMax : uintptrMax.toNat = 2 ^ 64 - 1 := by decide
  omega

theorem isUnset_of_between (hPages : Patchable pages) (hOrdered : p.lowest.toNat < p.highest.toNat)
    (hBound : p.highest.toNat ≤ pages.size.toNat) : p.isUnset = false := by
  simp [isUnset, ne_uintptrMax hPages hBound, ne_uintptrMax hPages (k := p.lowest) (by omega)]

theorem Inv.flush (hPages : Patchable pages) (h : p.Inv pages) :
    (p.flush pages).Inv pages ∧ (p.flush pages).target.Clean pages := by
  cases h with
  | unset hLowest hHighest hClean =>
    have hUnset : p.isUnset = true := by simp [isUnset, hLowest]
    rw [RandomAccessPatcher.flush, if_pos hUnset]
    exact ⟨.unset hLowest hHighest hClean, hClean⟩
  | between hOrdered hBound hDirty =>
    have hSet := isUnset_of_between hPages hOrdered hBound
    have hSize : (p.highest - p.lowest).toNat = p.highest.toNat - p.lowest.toNat :=
      BitVec.toNat_sub_of_le (by rw [BitVec.le_def]; omega)
    rw [← hSize] at hDirty
    rw [RandomAccessPatcher.flush, if_neg (by simp [hSet])]
    exact ⟨.between hOrdered hBound fun k => .inl (hDirty.flush k), hDirty.flush⟩

theorem Inv.write (hPages : Patchable pages) (h : p.Inv pages) {addr : BitVec 64} {v : Value}
    (hIn : addr.toNat + v.size ≤ pages.size.toNat) : (p.write pages addr v).Inv pages := by
  have hPos := v.size_pos
  have hRegion := hPages.size_lt
  have hEnd : (addr + BitVec.ofNat 64 v.size).toNat = addr.toNat + v.size := by
    rw [BitVec.toNat_add, BitVec.toNat_ofNat]
    omega
  cases h with
  | unset hLowest hHighest hClean =>
    rw [write_of_unset hLowest hHighest]
    refine .between (by dsimp only; omega) (by dsimp only; omega) fun k => ?_
    have hSize : (addr + BitVec.ofNat 64 v.size).toNat - addr.toNat = v.size := by omega
    have hDirty : p.target.Dirty pages addr 0 := fun k => .inl (hClean k)
    dsimp only
    rw [hSize]
    refine (hDirty.assign addr v k).imp_right fun hk => hk.resolve_left (Nat.not_lt_zero _)
  | between hOrdered hBound hDirty =>
    rw [write_of_set (isUnset_of_between hPages hOrdered hBound)
      (ne_uintptrMax hPages (k := addr) (by omega))]
    have hLow := stdMin_toNat p.lowest addr
    have hHigh := stdMax_toNat p.highest (addr + BitVec.ofNat 64 v.size)
    refine .between (by dsimp only; omega) (by dsimp only; omega) fun k => ?_
    refine (hDirty.assign addr v k).imp_right fun hk => ?_
    dsimp only
    rw [covers_iff (by omega), covers_iff (by omega)] at hk
    rw [covers_iff (by omega)]
    omega

theorem inv_apply (hPages : Patchable pages) {o : RandomOp} (h : p.Inv pages)
    (hIn : InRegion pages o) : (apply pages o p).Inv pages := by
  cases o with
  | write addr v => exact h.write hPages hIn
  | flush => exact (h.flush hPages).1

end RandomAccessPatcher

/-- Whatever writes and flushes a random-access patcher performs inside the patchable region,
every byte is published once it has been destroyed. -/
theorem randomAccessPatcher_clean {pages : Pages} (hPages : Patchable pages) (mem : Addr → BitVec 8)
    {ops : List RandomOp} (hIn : ∀ o ∈ ops, RandomAccessPatcher.InRegion pages o) :
    ((ops.foldl (fun p o => RandomAccessPatcher.apply pages o p)
      (RandomAccessPatcher.construct mem)).destroy pages).Clean pages := by
  have hInv : ∀ p : RandomAccessPatcher, p.Inv pages →
      (ops.foldl (fun p o => RandomAccessPatcher.apply pages o p) p).Inv pages := by
    induction ops with
    | nil => exact fun p h => h
    | cons o ops ih =>
      intro p h
      exact ih (fun o' ho' => hIn o' (by simp [ho'])) _
        (RandomAccessPatcher.inv_apply hPages h (hIn o (by simp)))
  have hInit : (RandomAccessPatcher.construct mem).Inv pages := .unset rfl rfl fun k => trivial
  exact ((hInv _ hInit).flush hPages).2

/-- **Every patched byte is flushed.** Whatever a code patcher or a random-access patcher does
inside the patchable region, after its destructor each byte it stored has been flushed through
the RW alias and then invalidated through the RO alias, after its last store. -/
theorem patched_bytes_flushed {pages : Pages} (hPages : Patchable pages) (mem : Addr → BitVec 8) :
    (∀ (start : BitVec 64) (ops : List StreamOp),
      Runs.Along (fun o p => some (CodePatcher.apply pages o p)) (CodePatcher.InRegion pages) ops
        (StreamPatcher.construct start mem) →
      ((ops.foldl (fun p o => CodePatcher.apply pages o p)
        (StreamPatcher.construct start mem)).destroy pages).Clean pages) ∧
    ∀ ops : List RandomOp, (∀ o ∈ ops, RandomAccessPatcher.InRegion pages o) →
      ((ops.foldl (fun p o => RandomAccessPatcher.apply pages o p)
        (RandomAccessPatcher.construct mem)).destroy pages).Clean pages :=
  ⟨fun start _ hIn => codePatcher_clean hPages start mem hIn,
    fun _ hIn => randomAccessPatcher_clean hPages mem hIn⟩

/-- A nop, overwritten after a backward seek by a branch. -/
theorem patched_bytes_flushed_rewrite :
    let pages : Pages := ⟨0x8000#64, 0x71000#64, 0x5000#64, some 0⟩
    let ops : List StreamOp := [.writeInst 0xd503201f#32, .seekRel (-4), .branchInst 0x20#64]
    ((ops.foldl (fun p o => CodePatcher.apply pages o p)
      (StreamPatcher.construct 0x10#64 fun _ => 0#8)).destroy pages).Clean pages := by
  refine (patched_bytes_flushed ⟨by decide, by decide, by decide⟩ _).1 0x10#64 _ ?_
  refine ⟨fun _ => by decide, ?_⟩
  rintro _ ⟨rfl⟩
  refine ⟨fun h => absurd h (by decide), ?_⟩
  rintro _ ⟨rfl⟩
  refine ⟨fun _ => by decide, ?_⟩
  rintro _ ⟨rfl⟩
  trivial

end Wondar.Patch
