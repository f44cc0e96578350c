import Mathlib.Data.List.Nodup
import Wondar.Runs
import Wondar.Sys.Reservations
import Wondar.Sys.RwPages

/-!
# Finding address space

`_memregionFindRandom` draws pages of a region until it has one that is in neither the alias region
nor the heap region, and takes it if nothing is mapped or reserved there; after 512 attempts it gives
up.

* `memregionFindRandom_spec`: it ends, if every number is followed by one for a page outside of the
  two regions, and a range that it returns is free: unmapped in the kernel's map, guards included.
* `virtmem_separate`: in every run of claims and releases, the ranges that are held lie in the ASLR
  region, apart from each other and from the two regions.
* `claim_mapped`: the constructor of `RwPages` puts a claim that fits where nothing was mapped.
-/

namespace Wondar

/-- `LibnxError_BadQueryMemory`. -/
def Results.badQueryMemory : Result := makeResult 345#32 6#32

end Wondar

namespace Wondar.Sys

open A64 (Addr)
open Chains

/-! ## The search -/

def memTypeUnmapped : BitVec 32 := 0#32

def randomMaxAttempts : Nat := 0x200

/-- `svcQueryMemory`. -/
abbrev QueryMemory := Addr → Result × MemoryInfo

/-- `_memregionIsMapped`: the end of what is mapped, if anything is. -/
def memregionIsMapped (query : QueryMemory) (start stop guardSize : Addr) :
    Except Result (Option Addr) :=
  let start := start - guardSize
  let stop := stop + guardSize
  let (rc, meminfo) := query start
  if rFailed rc then .error Results.badQueryMemory
  else
    let memend := meminfo.addr + meminfo.size
    if meminfo.type ≠ memTypeUnmapped ∨ memend.ult stop then .ok (some (memend + guardSize))
    else .ok none

/-- The kernel answers for a map. -/
def QueryMemory.Answers (query : QueryMemory) (map : MemoryMap) : Prop :=
  ∀ b, rFailed (query b).1 = false ∧ (query b).2 = map.query b

/-- What is between the attempts: the regions, the reservations, and the random numbers. -/
structure Search where
  regions : Virtmem
  reservations : Reservations
  query : QueryMemory
  draws : Nat → BitVec 64

namespace Search

variable (f : Search)

/-- The page that a number chooses. -/
def curAddr (r : MemRegion) (maxPageOffset x : BitVec 64) : Addr :=
  r.start + ((x % (maxPageOffset + 1#64)) <<< 12)

/-- The inner loop, where `n` numbers have been drawn. `none` where the rounds do not suffice. -/
def pickAddress (r : MemRegion) (size maxPageOffset : BitVec 64) : Nat → Nat → Option (Addr × Nat)
  | 0, _ => none
  | rounds + 1, n =>
    let curAddr := curAddr r maxPageOffset (f.draws n)
    if f.regions.gAliasRegion.overlaps curAddr (curAddr + size) then
      pickAddress r size maxPageOffset rounds (n + 1)
    else if f.regions.gHeapRegion.overlaps curAddr (curAddr + size) then
      pickAddress r size maxPageOffset rounds (n + 1)
    else some (curAddr, n + 1)

/-- The outer loop, where `attempts` are left. -/
def attemptLoop (rounds : Nat) (r : MemRegion) (size guardSize maxPageOffset : BitVec 64) :
    Nat → Nat → Option (Except Result (Addr × Nat))
  | 0, n => some (.ok (0#64, n))
  | attempts + 1, n =>
    match f.pickAddress r size maxPageOffset rounds n with
    | none => none
    | some (curAddr, n) =>
      match memregionIsMapped f.query curAddr (curAddr + size) guardSize with
      | .error rc => some (.error rc)
      | .ok (some _) => attemptLoop rounds r size guardSize maxPageOffset attempts n
      | .ok none =>
        match f.reservations.memregionIsReserved rounds curAddr (curAddr + size) guardSize with
        | none => none
        | some (some _) => attemptLoop rounds r size guardSize maxPageOffset attempts n
        | some none => some (.ok (curAddr, n))

/-- "Page align the sizes." -/
def pageAlign (size : BitVec 64) : BitVec 64 := (size + 0xfff#64) &&& ~~~0xfff#64

/-- The result is the address, which is null where there is none, and how many numbers have been
drawn. -/
def memregionFindRandom (rounds : Nat) (r : MemRegion) (size guardSize : BitVec 64) (n : Nat) :
    Option (Except Result (Addr × Nat)) :=
  let size := pageAlign size
  let guardSize := pageAlign guardSize
  let regionSize := r.stop - r.start
  if regionSize.ult size then some (.ok (0#64, n))
  else f.attemptLoop rounds r size guardSize ((regionSize - size) >>> 12) randomMaxAttempts n

def virtmemFindAslr (rounds : Nat) (size guardSize : BitVec 64) (n : Nat) :
    Option (Except Result (Addr × Nat)) :=
  f.memregionFindRandom rounds f.regions.gAslrRegion size guardSize n

def virtmemFindStack (rounds : Nat) (size guardSize : BitVec 64) (n : Nat) :
    Option (Except Result (Addr × Nat)) :=
  f.memregionFindRandom rounds f.regions.gStackRegion size guardSize n

def virtmemFindCodeMemory (rounds : Nat) (size guardSize : BitVec 64) (n : Nat) :
    Option (Except Result (Addr × Nat)) :=
  f.memregionFindRandom rounds
    (if f.regions.gIsLegacyKernel then f.regions.gStackRegion else f.regions.gAslrRegion) size
    guardSize n

/-- The range is in neither of the two regions. -/
def Allowed (size : BitVec 64) (a : Addr) : Prop :=
  f.regions.gAliasRegion.overlaps a (a + size) = false ∧
    f.regions.gHeapRegion.overlaps a (a + size) = false

/-- What an attempt succeeds with. -/
structure Suits (r : MemRegion) (size guardSize maxPageOffset : BitVec 64) (rvs : List Addr)
    (a : Addr) : Prop where
  page : ∃ x, a = curAddr r maxPageOffset x
  allowed : f.Allowed size a
  unmapped : memregionIsMapped f.query a (a + size) guardSize = .ok none
  unreserved : ∀ r ∈ f.reservations.regions rvs,
    r.overlaps (a - guardSize) (a + size + guardSize) = false

end Search

variable {f : Search} {r : MemRegion} {size guardSize maxPageOffset : BitVec 64} {rounds n n' : Nat}
  {a : Addr} {rvs : List Addr}

theorem pickAddress_some
    (h : f.pickAddress r size maxPageOffset rounds n = some (a, n')) :
    (∃ x, a = Search.curAddr r maxPageOffset x) ∧ f.Allowed size a := by
  induction rounds generalizing n with
  | zero => cases h
  | succ rounds ih =>
    rw [Search.pickAddress] at h
    split at h
    · exact ih h
    · rename_i hAlias
      split at h
      · exact ih h
      · rename_i hHeap
        obtain ⟨rfl, -⟩ := Prod.mk.inj (Option.some.inj h)
        exact ⟨⟨_, rfl⟩, Bool.eq_false_iff.mpr hAlias, Bool.eq_false_iff.mpr hHeap⟩

theorem attemptLoop_some (hListed : f.reservations.Listed rvs) {attempts : Nat}
    (h : f.attemptLoop rounds r size guardSize maxPageOffset attempts n = some (.ok (a, n'))) :
    a = 0#64 ∨ f.Suits r size guardSize maxPageOffset rvs a := by
  induction attempts generalizing n with
  | zero =>
    obtain ⟨rfl, -⟩ := Prod.mk.inj (Except.ok.inj (Option.some.inj h))
    exact Or.inl rfl
  | succ attempts ih =>
    rw [Search.attemptLoop] at h
    split at h
    · cases h
    · rename_i curAddr n₁ hPick
      obtain ⟨hPage, hAllowed⟩ := pickAddress_some hPick
      split at h
      · cases h
      · exact ih h
      · rename_i hMapped
        split at h
        · cases h
        · exact ih h
        · rename_i hReserved
          obtain ⟨rfl, -⟩ := Prod.mk.inj (Except.ok.inj (Option.some.inj h))
          exact Or.inr ⟨hPage, hAllowed, hMapped, not_reserved hListed hReserved⟩

/-! ## Termination -/

theorem pickAddress_ends {k : Nat}
    (hAllowed : f.Allowed size (Search.curAddr r maxPageOffset (f.draws (n + k)))) :
    ∃ found, ∀ rounds, k < rounds → f.pickAddress r size maxPageOffset rounds n = some found := by
  induction k generalizing n with
  | zero =>
    refine ⟨(Search.curAddr r maxPageOffset (f.draws n), n + 1), fun rounds hRounds => ?_⟩
    obtain ⟨rounds, rfl⟩ := Nat.exists_eq_succ_of_ne_zero (Nat.ne_of_gt hRounds)
    obtain ⟨hAlias, hHeap⟩ := hAllowed
    rw [Nat.add_zero] at hAlias hHeap
    rw [Search.pickAddress, hAlias, hHeap]
    rfl
  | succ k ih =>
    rw [show n + (k + 1) = n + 1 + k by omega] at hAllowed
    obtain ⟨found, hFound⟩ := ih hAllowed
    by_cases hHere : f.Allowed size (Search.curAddr r maxPageOffset (f.draws n))
    · refine ⟨(Search.curAddr r maxPageOffset (f.draws n), n + 1), fun rounds hRounds => ?_⟩
      obtain ⟨rounds, rfl⟩ := Nat.exists_eq_succ_of_ne_zero (show rounds ≠ 0 by omega)
      rw [Search.pickAddress, hHere.1, hHere.2]
      rfl
    · refine ⟨found, fun rounds hRounds => ?_⟩
      obtain ⟨rounds, rfl⟩ := Nat.exists_eq_succ_of_ne_zero (show rounds ≠ 0 by omega)
      rw [Search.pickAddress, hFound rounds (by omega)]
      split
      · rfl
      · rename_i hAlias
        split
        · rfl
        · rename_i hHeap
          exact absurd ⟨Bool.eq_false_iff.mpr hAlias, Bool.eq_false_iff.mpr hHeap⟩ hHere

/-- Whatever has been drawn, a number for an allowed page will be. -/
def Search.Productive (f : Search) (r : MemRegion) (size maxPageOffset : BitVec 64) : Prop :=
  ∀ n, ∃ k, f.Allowed size (Search.curAddr r maxPageOffset (f.draws (n + k)))

theorem attemptLoop_ends (hListed : f.reservations.Listed rvs)
    (hProductive : f.Productive r size maxPageOffset) (attempts n : Nat) :
    ∃ bound result, ∀ rounds, bound < rounds →
      f.attemptLoop rounds r size guardSize maxPageOffset attempts n = some result := by
  induction attempts generalizing n with
  | zero => exact ⟨0, _, fun _ _ => rfl⟩
  | succ attempts ih =>
    obtain ⟨k, hAllowed⟩ := hProductive n
    obtain ⟨⟨curAddr, n₁⟩, hPick⟩ := pickAddress_ends hAllowed
    obtain ⟨bound, result, hRest⟩ := ih n₁
    -- one attempt, then the others
    refine ⟨max (max k rvs.length) bound, ?_⟩
    cases hMapped : memregionIsMapped f.query curAddr (curAddr + size) guardSize with
    | error rc =>
      refine ⟨.error rc, fun rounds hRounds => ?_⟩
      simp only [Search.attemptLoop, hPick rounds (by omega), hMapped]
    | ok mapped =>
      cases mapped with
      | some stop =>
        refine ⟨result, fun rounds hRounds => ?_⟩
        simp only [Search.attemptLoop, hPick rounds (by omega), hMapped, hRest rounds (by omega)]
      | none =>
        have hReserved : ∀ rounds, rvs.length < rounds →
            f.reservations.memregionIsReserved rounds curAddr (curAddr + size) guardSize = _ :=
          fun rounds hRounds => memregionIsReserved_eq hListed hRounds
        generalize (rvs.find? fun rv => (f.reservations.node rv).region.overlaps
          (curAddr - guardSize) (curAddr + size + guardSize)).map
            (fun rv => (f.reservations.node rv).region.stop + guardSize) = reserved at hReserved
        cases reserved with
        | some stop =>
          refine ⟨result, fun rounds hRounds => ?_⟩
          simp only [Search.attemptLoop, hPick rounds (by omega), hMapped,
            hReserved rounds (by omega), hRest rounds (by omega)]
        | none =>
          refine ⟨.ok (curAddr, n₁), fun rounds hRounds => ?_⟩
          simp only [Search.attemptLoop, hPick rounds (by omega), hMapped,
            hReserved rounds (by omega)]

theorem attemptLoop_ok (hQuery : ∀ b, rFailed (f.query b).1 = false) {rc : Result}
    {attempts : Nat} :
    f.attemptLoop rounds r size guardSize maxPageOffset attempts n ≠ some (.error rc) := by
  induction attempts generalizing n with
  | zero =>
    intro h
    cases h
  | succ attempts ih =>
    intro h
    rw [Search.attemptLoop] at h
    split at h
    · cases h
    · split at h
      · rename_i hMapped
        rw [memregionIsMapped] at hMapped
        dsimp only at hMapped
        rw [hQuery, if_neg Bool.false_ne_true] at hMapped
        split at hMapped <;> cases hMapped
      · exact ih h
      · split at h
        · cases h
        · exact ih h
        · cases h

/-! ## What is found -/

/-- A size, rounded up to pages. -/
def wholePages (n : Nat) : Nat := (n + 4095) / 4096 * 4096

theorem pageAlign_toNat (h : size.toNat + 4095 < 2 ^ 64) :
    (Search.pageAlign size).toNat = wholePages size.toNat := alignUp_toNat h

/-- The region has no address from `low` up to `high`. -/
def MemRegion.Avoids (r : MemRegion) (low high : Nat) : Prop :=
  r.stop.toNat ≤ low ∨ high ≤ r.start.toNat

/-- The place of a range: in the region, apart from the two other regions, and with the guard on
both sides apart from all reservations. -/
structure Search.Placed (f : Search) (r : MemRegion) (size guardSize : Nat) (rvs : List Addr)
    (a : Addr) : Prop where
  inside : r.start.toNat ≤ a.toNat ∧ a.toNat + size ≤ r.stop.toNat
  page : a.toNat % 4096 = r.start.toNat % 4096
  aliasRegion : f.regions.gAliasRegion.Avoids a.toNat (a.toNat + size)
  heapRegion : f.regions.gHeapRegion.Avoids a.toNat (a.toNat + size)
  reserved : ∀ r ∈ f.reservations.regions rvs,
    r.Avoids (a.toNat - guardSize) (a.toNat + size + guardSize)

/-- A free range: the kernel has mapped nothing there, nor in the guards. -/
structure Search.Free (f : Search) (map : MemoryMap) (r : MemRegion) (size guardSize : Nat)
    (rvs : List Addr) (a : Addr) : Prop extends f.Placed r size guardSize rvs a where
  unmapped : ∀ b : Addr, a.toNat - guardSize ≤ b.toNat → b.toNat < a.toNat + size + guardSize →
    (map.query b).type = memTypeUnmapped

/-- A page of the region that leaves room for the size. -/
theorem curAddr_inside {x : BitVec 64} (hRegion : r.start.toNat ≤ r.stop.toNat)
    (hSize : size.toNat ≤ r.stop.toNat - r.start.toNat)
    (ha : a = Search.curAddr r ((r.stop - r.start - size) >>> 12) x) :
    (r.start.toNat ≤ a.toNat ∧ a.toNat + size.toNat ≤ r.stop.toNat) ∧
      a.toNat % 4096 = r.start.toNat % 4096 := by
  have hStop := r.stop.isLt
  have hMax : ((r.stop - r.start - size) >>> 12).toNat =
      (r.stop.toNat - r.start.toNat - size.toNat) / 4096 := by
    rw [BitVec.toNat_ushiftRight, Nat.shiftRight_eq_div_pow, BitVec.toNat_sub, BitVec.toNat_sub]
    omega
  generalize (r.stop - r.start - size) >>> 12 = maxPageOffset at ha hMax
  have hNext : (maxPageOffset + 1#64).toNat = maxPageOffset.toNat + 1 := by
    rw [BitVec.toNat_add, BitVec.toNat_ofNat]
    omega
  have hPage : (x % (maxPageOffset + 1#64)).toNat ≤ maxPageOffset.toNat := by
    rw [BitVec.toNat_umod, hNext]
    exact Nat.le_of_lt_succ (Nat.mod_lt x.toNat (Nat.succ_pos maxPageOffset.toNat))
  rw [Search.curAddr] at ha
  generalize x % (maxPageOffset + 1#64) = pageOffset at ha hPage
  have hAddr : a.toNat = r.start.toNat + pageOffset.toNat * 4096 := by
    rw [ha, BitVec.toNat_add, BitVec.toNat_shiftLeft, Nat.shiftLeft_eq]
    omega
  omega

/-- The range and its guards end where they do as numbers. -/
theorem guard_toNat (hLow : guardSize.toNat ≤ a.toNat)
    (hHigh : a.toNat + size.toNat + guardSize.toNat < 2 ^ 64) :
    (a + size).toNat = a.toNat + size.toNat ∧ (a - guardSize).toNat = a.toNat - guardSize.toNat ∧
      (a + size + guardSize).toNat = a.toNat + size.toNat + guardSize.toNat := by
  refine ⟨?_, ?_, ?_⟩
  · rw [BitVec.toNat_add]
    omega
  · rw [BitVec.toNat_sub_of_le (by rwa [BitVec.le_def])]
  · rw [BitVec.toNat_add, BitVec.toNat_add]
    omega

theorem Search.Suits.placed (h : f.Suits r size guardSize ((r.stop - r.start - size) >>> 12) rvs a)
    (hRegion : r.start.toNat ≤ r.stop.toNat) (hSize : size.toNat ≤ r.stop.toNat - r.start.toNat)
    (hLow : guardSize.toNat ≤ r.start.toNat) (hHigh : r.stop.toNat + guardSize.toNat < 2 ^ 64) :
    f.Placed r size.toNat guardSize.toNat rvs a := by
  obtain ⟨⟨x, ha⟩, hAllowed, -, hUnreserved⟩ := h
  obtain ⟨hInside, hPage⟩ := curAddr_inside hRegion hSize ha
  obtain ⟨hEnd, hFirst, hLast⟩ :=
    @guard_toNat size guardSize a (by omega) (by omega)
  refine ⟨hInside, hPage, ?_, ?_, fun r hr => ?_⟩
  · rw [← hEnd]
    exact @MemRegion.apart_of_not_overlaps _ ⟨a, a + size⟩ hAllowed.1
  · rw [← hEnd]
    exact @MemRegion.apart_of_not_overlaps _ ⟨a, a + size⟩ hAllowed.2
  · rw [← hFirst, ← hLast]
    exact @MemRegion.apart_of_not_overlaps _ ⟨a - guardSize, a + size + guardSize⟩
      (hUnreserved r hr)

/-- The one query that is made answers for the whole range: the region it is in does not end before
the range does, and an end that has wrapped around to zero counts as too short. -/
theorem unmapped_of_query {query : QueryMemory} {map : MemoryMap} (hAnswers : query.Answers map)
    (hLow : guardSize.toNat ≤ a.toNat) (hHigh : a.toNat + size.toNat + guardSize.toNat < 2 ^ 64)
    (hRun : memregionIsMapped query a (a + size) guardSize = .ok none) (b : Addr)
    (hFrom : a.toNat - guardSize.toNat ≤ b.toNat)
    (hTo : b.toNat < a.toNat + size.toNat + guardSize.toNat) :
    (map.query b).type = memTypeUnmapped := by
  obtain ⟨-, hFirst, hLast⟩ := guard_toNat hLow hHigh
  obtain ⟨hSuccess, hInfo⟩ := hAnswers (a - guardSize)
  obtain ⟨⟨p, s, hRegions⟩, hStart, -, hStop⟩ := map.query_spec (a - guardSize)
  rw [memregionIsMapped] at hRun
  simp only [hSuccess, hInfo, Bool.false_eq_true, if_false] at hRun
  split at hRun
  · cases hRun
  · rename_i hUnmapped
    simp only [not_or, ne_eq, not_not] at hUnmapped
    obtain ⟨hType, hEnd⟩ := hUnmapped
    rw [BitVec.ult, decide_eq_true_iff, hLast, BitVec.toNat_add] at hEnd
    rw [MemoryMap.query_eq hRegions (by omega) (by unfold MemoryInfo.stop at hStop ⊢; omega)]
    exact hType

section

variable (hListed : f.reservations.Listed rvs) (hRegion : r.start.toNat ≤ r.stop.toNat)
  (hLow : (Search.pageAlign guardSize).toNat ≤ r.start.toNat)
  (hHigh : r.stop.toNat + (Search.pageAlign guardSize).toNat < 2 ^ 64)
  (hRun : f.memregionFindRandom rounds r size guardSize n = some (.ok (a, n')))

include hListed hRegion hLow hHigh hRun

theorem memregionFindRandom_suits : a = 0#64 ∨
    f.Suits r (Search.pageAlign size) (Search.pageAlign guardSize)
      ((r.stop - r.start - Search.pageAlign size) >>> 12) rvs a ∧
    f.Placed r (Search.pageAlign size).toNat (Search.pageAlign guardSize).toNat rvs a := by
  rw [Search.memregionFindRandom] at hRun
  split at hRun
  · obtain ⟨rfl, -⟩ := Prod.mk.inj (Except.ok.inj (Option.some.inj hRun))
    exact Or.inl rfl
  · rename_i hFits
    have hStop := r.stop.isLt
    rw [BitVec.ult, decide_eq_true_iff, BitVec.toNat_sub] at hFits
    refine (attemptLoop_some hListed hRun).imp_right fun hSuits => ⟨hSuits, ?_⟩
    exact hSuits.placed hRegion (by omega) hLow hHigh

theorem memregionFindRandom_free {map : MemoryMap} (hAnswers : f.query.Answers map) : a = 0#64 ∨
    f.Free map r (Search.pageAlign size).toNat (Search.pageAlign guardSize).toNat rvs a := by
  refine (memregionFindRandom_suits hListed hRegion hLow hHigh hRun).imp_right ?_
  rintro ⟨hSuits, hPlaced⟩
  obtain ⟨hStart, hStop⟩ := hPlaced.inside
  exact ⟨hPlaced, unmapped_of_query hAnswers (by omega) (by omega) hSuits.unmapped⟩

end

/-- **Finding address space.** The search ends, and what it returns is null or free, with the sizes
rounded up to pages: it is in the region and apart from the alias region, the heap region and all
reservations, and in the kernel's map nothing is mapped there. -/
theorem memregionFindRandom_spec {map : MemoryMap} (hAnswers : f.query.Answers map)
    (hListed : f.reservations.Listed rvs) (hRegion : r.start.toNat ≤ r.stop.toNat)
    (hSize : size.toNat + 4095 < 2 ^ 64) (hLow : wholePages guardSize.toNat ≤ r.start.toNat)
    (hHigh : r.stop.toNat + wholePages guardSize.toNat < 2 ^ 64)
    (hProductive : f.Productive r (Search.pageAlign size)
      ((r.stop - r.start - Search.pageAlign size) >>> 12)) (n : Nat) :
    ∃ bound a n', (∀ rounds, bound < rounds →
        f.memregionFindRandom rounds r size guardSize n = some (.ok (a, n'))) ∧
      (a = 0#64 ∨
        f.Free map r (wholePages size.toNat) (wholePages guardSize.toNat) rvs a) := by
  have hEnds : ∃ bound found, ∀ rounds, bound < rounds →
      f.memregionFindRandom rounds r size guardSize n = some (.ok found) := by
    simp only [Search.memregionFindRandom]
    split
    · exact ⟨0, _, fun _ _ => rfl⟩
    · obtain ⟨bound, result, hRun⟩ := @attemptLoop_ends _ _ _ (Search.pageAlign guardSize) _ _
        hListed hProductive randomMaxAttempts n
      cases result with
      | error rc =>
        exact absurd (hRun (bound + 1) (Nat.lt_succ_self bound))
          (attemptLoop_ok fun b => (hAnswers b).1)
      | ok found => exact ⟨bound, found, hRun⟩
  obtain ⟨bound, ⟨a, n'⟩, hRun⟩ := hEnds
  refine ⟨bound, a, n', hRun, ?_⟩
  have hGuard : guardSize.toNat + 4095 < 2 ^ 64 := by
    unfold wholePages at hHigh
    omega
  rw [← pageAlign_toNat hSize, ← pageAlign_toNat hGuard]
  rw [← pageAlign_toNat hGuard] at hLow hHigh
  exact memregionFindRandom_free hListed hRegion hLow hHigh
    (hRun (bound + 1) (Nat.lt_succ_self bound)) hAnswers

/-- Code, then nothing, and the top of the address space. -/
def sampleMap : MemoryMap where
  regions := [⟨0#64, 0x8000000#64, 3#32, 5#32⟩, ⟨0x8000000#64, 0x8000000#64, 0#32, 0#32⟩,
    ⟨0x10000000#64, 0xfffffffff0000000#64, 0x10#32, 0#32⟩]
  covers := ⟨rfl, by decide, rfl, by decide, rfl, by decide, rfl⟩

def sampleQuery : QueryMemory := fun b => (0#32, sampleMap.query b)

theorem sampleQuery_answers : sampleQuery.Answers sampleMap := fun _ => ⟨rfl, rfl⟩

/-- An ASLR region of four pages where nothing is mapped. -/
def sampleVirtmem : Virtmem :=
  ⟨⟨0x1000#64, 0x2000#64⟩, ⟨0x2000#64, 0x3000#64⟩, ⟨0x8000000#64, 0x8004000#64⟩,
    ⟨0x8000000#64, 0x8004000#64⟩, false⟩

def noReservations : Reservations := ⟨fun _ => ⟨0#64, 0#64, ⟨0#64, 0#64⟩⟩, 0#64⟩

theorem noReservations_listed : noReservations.Listed [] := linked_nil

def sampleSearch : Search := ⟨sampleVirtmem, noReservations, sampleQuery, fun _ => 2#64⟩

/-- A page with guards. -/
theorem memregionFindRandom_spec_sample :
    ∃ bound a n', (∀ rounds, bound < rounds →
        sampleSearch.memregionFindRandom rounds sampleVirtmem.gAslrRegion 0x800#64 0x1#64 0 =
          some (.ok (a, n'))) ∧
      (a = 0#64 ∨ sampleSearch.Free sampleMap sampleVirtmem.gAslrRegion
        (wholePages (0x800#64).toNat) (wholePages (0x1#64).toNat) [] a) := by
  have hAllowed : sampleSearch.Allowed (Search.pageAlign 0x800#64)
      (Search.curAddr sampleVirtmem.gAslrRegion 3#64 2#64) := ⟨by decide, by decide⟩
  have hMax : (sampleVirtmem.gAslrRegion.stop - sampleVirtmem.gAslrRegion.start -
      Search.pageAlign 0x800#64) >>> 12 = 3#64 := by decide
  have hProductive : sampleSearch.Productive sampleVirtmem.gAslrRegion (Search.pageAlign 0x800#64)
      3#64 := fun _ => ⟨0, hAllowed⟩
  rw [← hMax] at hProductive
  exact memregionFindRandom_spec sampleQuery_answers noReservations_listed (by decide) (by decide)
    (by decide) (by decide) hProductive 0

/-! ## Runs -/

structure VirtmemState where
  regions : Virtmem
  reservations : Reservations
  drawn : Nat

/-- What is done to `virtmem`. Both happen in `RwPages` only: the constructor finds a range for the
pages of its claim and reserves it, at the address that `malloc` gives; the destructor removes the
reservation. -/
inductive VirtmemOp
  | claim (query : QueryMemory) (size : BitVec 64) (rv : Addr)
  | release (rv : Addr)

/-- `none` where an assertion of the constructor fails, or the kernel does not answer. -/
def virtmemStep (draws : Nat → BitVec 64) (rounds : Nat) :
    VirtmemOp → VirtmemState → Option VirtmemState
  | .claim query size rv, s =>
    match Search.virtmemFindAslr ⟨s.regions, s.reservations, query, draws⟩ rounds size 0#64 s.drawn with
    | some (.ok (alignedRw, drawn)) =>
      if alignedRw = 0#64 then none
      else if rv = 0#64 then none
      else
        some { s with
          reservations := s.reservations.virtmemAddReservation rv alignedRw size
          drawn }
    | _ => none
  | .release rv, s =>
    some { s with reservations := s.reservations.virtmemRemoveReservation rv }

/-- The reservations that are held after the operations `done`, with the sizes that were asked for;
the last one first. -/
def held (done : List VirtmemOp) : List (Addr × BitVec 64) :=
  done.foldl (fun rvs op =>
    match op with
    | .claim _ size rv => (rv, size) :: rvs
    | .release rv => rvs.filter (·.1 ≠ rv)) []

/-- `malloc` does not give out what is not freed yet, and what is released is held. -/
def Proper (done : List VirtmemOp) : VirtmemOp → Prop
  | .claim _ size rv => size.toNat + 4095 < 2 ^ 64 ∧ rv ∉ (held done).map Prod.fst
  | .release rv => rv ∈ (held done).map Prod.fst

/-- The region `r` lies in the ASLR region, and apart from the alias and the heap region. -/
structure Virtmem.Holds (v : Virtmem) (r : MemRegion) : Prop where
  low : v.gAslrRegion.start.toNat ≤ r.start.toNat
  ordered : r.start.toNat ≤ r.stop.toNat
  high : r.stop.toNat ≤ v.gAslrRegion.stop.toNat
  aliasRegion : v.gAliasRegion.Apart r
  heapRegion : v.gHeapRegion.Apart r

/-- The list represents the reservations that are held. Each has the size that was asked for, and
they are apart from each other, and where they should be. -/
structure Separate (v : Virtmem) (done : List VirtmemOp) (s : VirtmemState) : Prop where
  regions : s.regions = v
  listed : s.reservations.Listed ((held done).map Prod.fst)
  size : ∀ c ∈ held done, (s.reservations.node c.1).region.stop.toNat =
    (s.reservations.node c.1).region.start.toNat + c.2.toNat
  apart : (s.reservations.regions ((held done).map Prod.fst)).Pairwise MemRegion.Apart
  holds : ∀ r ∈ s.reservations.regions ((held done).map Prod.fst), v.Holds r

variable {v : Virtmem} {draws : Nat → BitVec 64} {s s' : VirtmemState} {done : List VirtmemOp}

/-- The size that was asked for fits into the size that was found. -/
theorem le_pageAlign (h : size.toNat + 4095 < 2 ^ 64) :
    size.toNat ≤ (Search.pageAlign size).toNat := by
  rw [pageAlign_toNat h, wholePages]
  omega

/-- A range that was found, cut to the size that was asked for. -/
theorem Search.Placed.holds
    (h : f.Placed f.regions.gAslrRegion (pageAlign size).toNat (pageAlign 0#64).toNat rvs a)
    (hSize : size.toNat + 4095 < 2 ^ 64) :
    (a + size).toNat = a.toNat + size.toNat ∧ f.regions.Holds ⟨a, a + size⟩ ∧
      ∀ r ∈ f.reservations.regions rvs, MemRegion.Apart ⟨a, a + size⟩ r := by
  have hLe := le_pageAlign hSize
  obtain ⟨hLow, hHigh⟩ := h.inside
  have hStop := f.regions.gAslrRegion.stop.isLt
  have hEnd : (a + size).toNat = a.toNat + size.toNat := by
    rw [BitVec.toNat_add]
    omega
  have hCut : ∀ {r : MemRegion}, r.Avoids a.toNat (a.toNat + (pageAlign size).toNat) →
      r.Apart ⟨a, a + size⟩ := by
    intro r hAvoids
    unfold MemRegion.Avoids at hAvoids
    unfold MemRegion.Apart
    dsimp only
    omega
  have hGuard : (pageAlign 0#64).toNat = 0 := rfl
  refine ⟨hEnd, ⟨hLow, ?_, ?_, hCut h.aliasRegion, hCut h.heapRegion⟩, fun r hr => ?_⟩
  · dsimp only
    omega
  · dsimp only
    omega
  · have hAvoids := h.reserved r hr
    rw [hGuard, Nat.sub_zero, Nat.add_zero] at hAvoids
    exact (hCut hAvoids).symm

/-- Without guards the search needs no room around the region. -/
theorem virtmemFindAslr_placed (hListed : f.reservations.Listed rvs)
    (hRegion : f.regions.gAslrRegion.start.toNat ≤ f.regions.gAslrRegion.stop.toNat)
    (hRun : f.virtmemFindAslr rounds size 0#64 n = some (.ok (a, n'))) (hFound : a ≠ 0#64) :
    f.Placed f.regions.gAslrRegion (Search.pageAlign size).toNat (Search.pageAlign 0#64).toNat
      rvs a := by
  have hGuard : (Search.pageAlign 0#64).toNat = 0 := rfl
  have hStop := f.regions.gAslrRegion.stop.isLt
  exact ((memregionFindRandom_suits hListed hRegion (by omega) (by omega) hRun).resolve_left
    hFound).2

theorem held_claim (done : List VirtmemOp) (query : QueryMemory) (size : BitVec 64) (rv : Addr) :
    held (done ++ [.claim query size rv]) = (rv, size) :: held done := by
  rw [held, List.foldl_append]
  rfl

/-- What is held behind a release, by the place of the reservation in the list. -/
theorem held_release {rv : Addr} {c : BitVec 64} {pre post : List (Addr × BitVec 64)}
    (hNodup : ((held done).map Prod.fst).Nodup) (hHeld : held done = pre ++ (rv, c) :: post) :
    held (done ++ [.release rv]) = pre ++ post := by
  have hOther : ∀ p ∈ pre ++ post, decide (p.1 ≠ rv) = true := by
    rw [hHeld, List.map_append, List.map_cons, List.nodup_middle, List.nodup_cons,
      ← List.map_append] at hNodup
    intro p hp
    have hIn : p.1 ∈ (pre ++ post).map Prod.fst := List.mem_map_of_mem hp
    exact decide_eq_true fun hSame => hNodup.1 (hSame ▸ hIn)
  have hFilter : held (done ++ [.release rv]) = (held done).filter (·.1 ≠ rv) := by
    rw [held, List.foldl_append]
    rfl
  rw [hFilter, hHeld, List.filter_append, List.filter_cons_of_neg (by simp), ← List.filter_append]
  exact List.filter_eq_self.mpr hOther

theorem claim_separate (hRegion : v.gAslrRegion.start.toNat ≤ v.gAslrRegion.stop.toNat)
    {query : QueryMemory} {rv : Addr} (h : Separate v done s)
    (hProper : Proper done (.claim query size rv))
    (hStep : virtmemStep draws rounds (.claim query size rv) s = some s') :
    Separate v (done ++ [.claim query size rv]) s' := by
  obtain ⟨rfl, hListed, hSizes, hApart, hHolds⟩ := h
  obtain ⟨hSize, hFresh⟩ := hProper
  rw [virtmemStep] at hStep
  split at hStep
  · rename_i alignedRw drawn hFound
    split at hStep
    · cases hStep
    · rename_i hAddr
      split at hStep
      · cases hStep
      · rename_i hNull
        obtain rfl := Option.some.inj hStep
        obtain ⟨hEnd, hNew, hOthers⟩ := (virtmemFindAslr_placed
          (f := ⟨s.regions, s.reservations, query, draws⟩) hListed hRegion hFound hAddr).holds hSize
        obtain ⟨hAdded, hRegions⟩ := @listed_add _ _ _ alignedRw size hNull hListed hFresh
        refine ⟨rfl, ?_, ?_, ?_, ?_⟩ <;> rw [held_claim]
        · exact hAdded
        · refine List.forall_mem_cons.mpr ⟨?_, fun c hc => ?_⟩
          · rw [add_region hNull, if_pos rfl]
            exact hEnd
          · rw [add_region hNull, if_neg]
            · exact hSizes c hc
            · exact fun hSame => hFresh (hSame ▸ List.mem_map_of_mem hc)
        · rw [List.map_cons, hRegions]
          exact List.pairwise_cons.mpr ⟨hOthers, hApart⟩
        · rw [List.map_cons, hRegions]
          exact List.forall_mem_cons.mpr ⟨hNew, hHolds⟩
  · cases hStep

theorem release_separate {rv : Addr} (h : Separate v done s) (hProper : Proper done (.release rv))
    (hStep : virtmemStep draws rounds (.release rv) s = some s') :
    Separate v (done ++ [.release rv]) s' := by
  obtain ⟨rfl, hListed, hSizes, hApart, hHolds⟩ := h
  obtain rfl := Option.some.inj hStep
  obtain ⟨⟨rv, c⟩, hc, rfl⟩ := List.mem_map.mp hProper
  obtain ⟨pre, post, hHeld⟩ := List.append_of_mem hc
  have hNodup := hListed.forward.nodup
  have hAfter := held_release hNodup hHeld
  rw [hHeld, List.map_append, List.map_cons] at hListed hApart hHolds
  obtain ⟨hRemoved, hRegions⟩ := listed_remove hListed
  have hSub : List.Sublist (s.reservations.regions (pre.map Prod.fst ++ post.map Prod.fst))
      (s.reservations.regions (pre.map Prod.fst ++ rv :: post.map Prod.fst)) :=
    (List.Sublist.append_left (List.sublist_cons_self rv _) _).map _
  refine ⟨rfl, ?_, fun p hp => ?_, ?_, ?_⟩
  · rw [hAfter, List.map_append]
    exact hRemoved
  · rw [hAfter] at hp
    rw [remove_region]
    refine hSizes p (hHeld ▸ ?_)
    rcases List.mem_append.mp hp with hp | hp
    · exact List.mem_append_left _ hp
    · exact List.mem_append_right _ (List.mem_cons_of_mem _ hp)
  · rw [hAfter, List.map_append, hRegions]
    exact hApart.sublist hSub
  · rw [hAfter, List.map_append, hRegions]
    exact fun r hr => hHolds r (hSub.subset hr)

/-- **Reserved ranges.** In every run of claims and releases, whatever the kernel answers and the
numbers are, the list represents the reservations that are held by then; they have the sizes that
were asked for, and lie in the ASLR region, apart from each other, from the alias region and from
the heap region. -/
theorem virtmem_separate (hRegion : v.gAslrRegion.start.toNat ≤ v.gAslrRegion.stop.toNat)
    (hStart : s.regions = v) (hEmpty : s.reservations.gReservations = 0#64) {ops : List VirtmemOp}
    (hProper : Runs.Along (Runs.recorded (virtmemStep draws rounds)) (fun s op => Proper s.2 op)
      ops (s, [])) :
    Runs.Throughout (Runs.recorded (virtmemStep draws rounds)) (fun s => Separate v s.2 s.1)
      ops (s, []) := by
  have hFirst : Separate v [] s := by
    refine ⟨hStart, ?_, fun c hc => (List.not_mem_nil hc).elim, List.Pairwise.nil,
      fun r hr => (List.not_mem_nil hr).elim⟩
    rw [Reservations.Listed, hEmpty]
    exact linked_nil
  refine Runs.throughout_of_along (fun _ h => h) (fun s op s' h hOp hStep => ?_) hFirst hProper
  obtain ⟨hStep, hDone⟩ := Runs.recorded_some hStep
  rw [hDone]
  cases op with
  | claim query size rv => exact claim_separate hRegion h hOp hStep
  | release rv => exact release_separate h hOp hStep

/-- A page is claimed, and released. -/
def sampleOps : List VirtmemOp := [.claim sampleQuery 0x1000#64 0x10#64, .release 0x10#64]

theorem virtmem_separate_sample :
    Runs.Throughout (Runs.recorded (virtmemStep (fun _ => 2#64) 2))
      (fun s => Separate sampleVirtmem s.2 s.1) sampleOps (⟨sampleVirtmem, noReservations, 0⟩, []) ∧
    (Runs.run (virtmemStep (fun _ => 2#64) 2) sampleOps
      ⟨sampleVirtmem, noReservations, 0⟩).isSome := by
  refine ⟨virtmem_separate (v := sampleVirtmem) (by decide) rfl rfl ?_, rfl⟩
  refine ⟨⟨by decide, List.not_mem_nil⟩, fun s hStep => ⟨?_, fun _ _ => trivial⟩⟩
  show 0x10#64 ∈ (held s.2).map Prod.fst
  rw [(Runs.recorded_some hStep).2, held_claim]
  exact List.mem_cons_self

/-! ## `RwPages` -/

theorem pageAlign_alignUp (hSize : size.toNat + 4095 < 2 ^ 64) :
    Search.pageAlign (alignUp size pageSize) = alignUp size pageSize := by
  have hOnce := alignUp_toNat hSize
  generalize alignUp size pageSize = aligned at hOnce
  apply BitVec.eq_of_toNat_eq
  rw [pageAlign_toNat (by omega), wholePages]
  omega

/-- An address of the region. -/
def MemRegion.Contains (r : MemRegion) (b : Addr) : Prop :=
  r.start.toNat ≤ b.toNat ∧ b.toNat < r.stop.toNat

theorem MemRegion.Avoids.not_contains {r : MemRegion} {low high : Nat} {b : Addr}
    (h : r.Avoids low high) (hLow : low ≤ b.toNat) (hHigh : b.toNat < high) : ¬ r.Contains b := by
  unfold MemRegion.Avoids at h
  unfold MemRegion.Contains
  omega

/-- The kernel's map, for the query of a region. -/
def MemoryMap.kernelMap (map : MemoryMap) : KernelMap where
  query a := ⟨(map.query a).addr, (map.query a).size⟩
  start_le a := (map.query_spec a).2.1
  lt_stop a := (map.query_spec a).2.2.1
  stop_le a := (map.query_spec a).2.2.2
  consistent a b hLow hHigh := by
    obtain ⟨⟨p, s, hRegions⟩, -⟩ := map.query_spec a
    rw [MemoryMap.query_eq hRegions hLow hHigh]

/-- **A claim in its place.** On a range that `virtmemFindAslr` found, the constructor of `RwPages`
returns for a claim that fits the pages it maps, and gives access to it. All that it maps was
unmapped, and is in the ASLR region, outside of the alias and the heap region, and outside of all
ranges that were reserved before. -/
theorem claim_mapped {map : MemoryMap} {read : Addr → Option (BitVec 8)} {ro alignedRw : Addr}
    (hAnswers : f.query.Answers map) (hUser : UserRange map.kernelMap ro size)
    (hRead : ∀ k : BitVec 64, k < size → read (ro + k) ≠ none)
    (hFits : ro.toNat % 4096 + size.toNat ≤ (alignUp size pageSize).toNat)
    (hListed : f.reservations.Listed rvs)
    (hRegion : f.regions.gAslrRegion.start.toNat ≤ f.regions.gAslrRegion.stop.toNat)
    (hPage : f.regions.gAslrRegion.start.toNat % 4096 = 0) (hSize : size.toNat + 4095 < 2 ^ 64)
    (hRun : f.virtmemFindAslr rounds (alignUp size pageSize) 0#64 n = some (.ok (alignedRw, n')))
    (hFound : alignedRw ≠ 0#64) (reserve : Nat) :
    ∃ c, construct map.kernelMap.query read alignedRw (some reserve) ro size = some c ∧
      c.GivesAccess ∧ c.ReservationCovers ∧
      ∀ m ∈ c.mappings, ∀ j : BitVec 64, j < m.size →
        (map.query (m.rw + j)).type = memTypeUnmapped ∧
          f.regions.gAslrRegion.Contains (m.rw + j) ∧ ¬ f.regions.gAliasRegion.Contains (m.rw + j) ∧
          ¬ f.regions.gHeapRegion.Contains (m.rw + j) ∧
          ∀ r ∈ f.reservations.regions rvs, ¬ r.Contains (m.rw + j) := by
  have hStop := f.regions.gAslrRegion.stop.isLt
  have hGuard : (Search.pageAlign 0#64).toNat = 0 := rfl
  have hFree := (memregionFindRandom_free hListed hRegion (by omega) (by omega) hRun
    hAnswers).resolve_left hFound
  rw [pageAlign_alignUp hSize, hGuard] at hFree
  obtain ⟨hLow, hHigh⟩ := hFree.inside
  have hRange : FreeRange alignedRw (alignUp size pageSize) :=
    ⟨hFree.page.trans hPage, hFound, by omega⟩
  obtain ⟨ps, hSplits, hConstruct, hAccess⟩ := construct_of_fits read hUser.pos hUser.noWrap hRange
    (Option.some_ne_none reserve) hFits hUser.aligned_top hRead
  have hReserved : (mapped alignedRw (some reserve) ro size ps).ReservationCovers :=
    reservationCovers hSplits hRange
  refine ⟨_, hConstruct, hAccess, hReserved, fun m hm j hj => ?_⟩
  have hCovers := hReserved m hm j hj
  generalize m.rw + j = b at hCovers
  have hIn : alignedRw.toNat ≤ b.toNat ∧
      b.toNat < alignedRw.toNat + (alignUp size pageSize).toNat := by
    simp only [mapped, Coherence.Covers, BitVec.toNat_sub] at hCovers
    omega
  refine ⟨hFree.unmapped b hIn.1 hIn.2, ⟨by omega, by omega⟩,
    hFree.aliasRegion.not_contains hIn.1 hIn.2, hFree.heapRegion.not_contains hIn.1 hIn.2,
    fun r hr => (hFree.reserved r hr).not_contains hIn.1 hIn.2⟩

theorem sampleMap_user : UserRange sampleMap.kernelMap 0x1000#64 0x8#64 where
  pos := by decide
  noWrap := by decide
  granular a := by
    obtain ⟨⟨p, s, hRegions⟩, -⟩ := sampleMap.query_spec a
    have hMem : sampleMap.query a ∈ sampleMap.regions := hRegions ▸ List.mem_append_right _
      List.mem_cons_self
    simp only [MemoryMap.kernelMap, Region.stop]
    revert hMem
    generalize sampleMap.query a = r
    revert r
    decide
  below k hk := by
    have hSum : (0x1000#64 + k).toNat = 0x1000 + k.toNat := by
      rw [BitVec.toNat_add, BitVec.toNat_ofNat]
      bv_omega
    have hHigh : (0x1000#64 + k).toNat < 0x8000000 := by
      rw [hSum]
      bv_omega
    have hRegion : sampleMap.query (0x1000#64 + k) = ⟨0#64, 0x8000000#64, 3#32, 5#32⟩ :=
      MemoryMap.query_eq (p := []) rfl (Nat.zero_le _) hHigh
    simp only [MemoryMap.kernelMap, hRegion, Region.stop]
    decide

/-- A range of one page that was found for eight bytes of the code. -/
theorem claim_mapped_sample :
    ∃ c, construct sampleMap.kernelMap.query (fun _ => some 0#8) 0x8002000#64 (some 0) 0x1000#64
      0x8#64 = some c ∧ c.GivesAccess := by
  obtain ⟨c, hRun, hAccess, -⟩ := @claim_mapped sampleSearch _ 2 0 1 _ sampleMap
    (fun _ => some 0#8) _ _ sampleQuery_answers sampleMap_user (fun _ _ => by decide) (by decide)
    noReservations_listed (by decide) (by decide) (by decide) rfl (by decide) 0
  exact ⟨c, hRun, hAccess⟩

end Wondar.Sys
