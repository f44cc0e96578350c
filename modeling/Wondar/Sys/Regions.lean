import Wondar.Sys.MemLayout

/-!
# The regions of the address space

`exl_init` asks the kernel for the regions of the address space twice. `FindRegions` keeps the
start and the size of each, `virtmemSetup` the start and the end. Where the kernel does not know the
ASLR region both probe it and take fixed values instead.

The fixed values are ends in both, so that `FindRegions`, which takes them for sizes, sees larger
regions than `virtmemSetup`. The two agree if and only if the kernel knows the ASLR region
(`exlInit_agree_iff`).
-/

namespace Wondar

/-- `R_VALUE`. -/
def resultValue (r : Result) : BitVec 32 := r &&& 0x3fffff#32

/-- `KERNELRESULT`. -/
def kernelResult (description : BitVec 32) : Result := makeResult 1#32 description

namespace Results

/-- The results that the two setups tell apart, and those that they abort with. -/
def invalidMemoryState : Result := kernelResult 106#32
def invalidMemoryRange : Result := kernelResult 110#32
def badGetInfoStack : Result := makeResult 345#32 4#32
def badGetInfoHeap : Result := makeResult 345#32 5#32
def weirdKernel : Result := makeResult 345#32 36#32

/-- What an assertion aborts with. -/
def assertionFailure : Result := 0#32

end Results

end Wondar

namespace Wondar.Sys

open A64

/-! ## The kernel -/

/-- The queries of `svcGetInfo` that are made. -/
inductive InfoType
  | aliasRegionAddress
  | aliasRegionSize
  | heapRegionAddress
  | heapRegionSize
  | aslrRegionAddress
  | aslrRegionSize
  | stackRegionAddress
  | stackRegionSize
deriving DecidableEq, Repr

/-- `getInfo` has the result and the value, which is stored even if the result is a failure.
`unmapMemory` is the result of the probe. -/
structure Kernel where
  map : MemoryMap
  getInfo : InfoType → Result × BitVec 64
  unmapMemory : Result

/-- The kernel knows a region. -/
def Kernel.Knows (k : Kernel) (address size : InfoType) : Prop :=
  rFailed (k.getInfo address).1 = false ∧ rFailed (k.getInfo size).1 = false

instance (k : Kernel) (address size : InfoType) : Decidable (k.Knows address size) :=
  inferInstanceAs (Decidable (_ ∧ _))

/-- `EXL_ASSERT`. -/
def exlAssert (cond : Bool) : Except Result Unit :=
  if cond then .ok () else .error Results.assertionFailure

/-! ## `FindRegions` -/

/-- The regions as `util::mem_layout` keeps them. -/
structure MemLayout where
  sAlias : Range
  sHeap : Range
  sAslr : Range
  sStack : Range
deriving DecidableEq, Repr

section

variable (k : Kernel)

/-- One `svcGetInfo` of the own process. -/
def getAddressFromInfo (type : InfoType) : Except Result Addr :=
  if rFailed (k.getInfo type).1 then .error (k.getInfo type).1 else .ok (k.getInfo type).2

/-- An old kernel does not say where the regions are. How it refuses an `svcUnmapMemory` tells which
one it is. -/
def inferAslrAndStack (l : MemLayout) : Result × MemLayout :=
  if resultValue k.unmapMemory = Results.invalidMemoryState then
    (Results.success,
      { l with sAslr := ⟨0x200000#64, 0x100000000#64⟩, sStack := ⟨0x200000#64, 0x40000000#64⟩ })
  else if resultValue k.unmapMemory = Results.invalidMemoryRange then
    (Results.success,
      { l with sAslr := ⟨0x8000000#64, 0x1000000000#64⟩, sStack := ⟨0x8000000#64, 0x80000000#64⟩ })
  else (Results.weirdKernel, l)

/-- The four queries, up to the first that fails. -/
def queryAslrAndStack (l : MemLayout) : Bool × MemLayout :=
  let l := { l with sAslr := { l.sAslr with start := (k.getInfo .aslrRegionAddress).2 } }
  if rFailed (k.getInfo .aslrRegionAddress).1 then (true, l)
  else
    let l := { l with sAslr := { l.sAslr with size := (k.getInfo .aslrRegionSize).2 } }
    if rFailed (k.getInfo .aslrRegionSize).1 then (true, l)
    else
      let l := { l with sStack := { l.sStack with start := (k.getInfo .stackRegionAddress).2 } }
      if rFailed (k.getInfo .stackRegionAddress).1 then (true, l)
      else
        let l := { l with sStack := { l.sStack with size := (k.getInfo .stackRegionSize).2 } }
        (rFailed (k.getInfo .stackRegionSize).1, l)

/-- `FindRegions`. -/
def findRegions (l : MemLayout) : Except Result MemLayout := do
  let aliasAddress ← getAddressFromInfo k .aliasRegionAddress
  let aliasSize ← getAddressFromInfo k .aliasRegionSize
  let heapAddress ← getAddressFromInfo k .heapRegionAddress
  let heapSize ← getAddressFromInfo k .heapRegionSize
  let l := { l with sAlias := ⟨aliasAddress, aliasSize⟩, sHeap := ⟨heapAddress, heapSize⟩ }
  if (queryAslrAndStack k l).1 then
    let inferred := inferAslrAndStack k (queryAslrAndStack k l).2
    exlAssert (!rFailed inferred.1)
    return inferred.2
  else return (queryAslrAndStack k l).2

/-! ## `virtmemSetup` -/

/-- A region as `virtmem.c` has it, by its end. -/
structure MemRegion where
  start : Addr
  stop : Addr
deriving DecidableEq, Repr

/-- The regions as `virtmem.c` keeps them. -/
structure Virtmem where
  gAliasRegion : MemRegion
  gHeapRegion : MemRegion
  gAslrRegion : MemRegion
  gStackRegion : MemRegion
  gIsLegacyKernel : Bool
deriving DecidableEq, Repr

/-- `_memregionInitWithInfo`, which leaves the region as it is on a failure. -/
def memregionInitWithInfo (r : MemRegion) (address size : InfoType) : Result × MemRegion :=
  let (rc, base) := k.getInfo address
  if rFailed rc then (rc, r)
  else
    let (rc, size) := k.getInfo size
    if rFailed rc then (rc, r) else (rc, ⟨base, base + size⟩)

/-- A kernel that does not know the regions. -/
def virtmemProbe (v : Virtmem) : Except Result Virtmem :=
  if resultValue k.unmapMemory = Results.invalidMemoryState then
    .ok { v with
      gIsLegacyKernel := true
      gAslrRegion := ⟨0x200000#64, 0x100000000#64⟩
      gStackRegion := ⟨0x200000#64, 0x40000000#64⟩ }
  else if resultValue k.unmapMemory = Results.invalidMemoryRange then
    .ok { v with
      gIsLegacyKernel := true
      gAslrRegion := ⟨0x8000000#64, 0x1000000000#64⟩
      gStackRegion := ⟨0x8000000#64, 0x80000000#64⟩ }
  else .error Results.weirdKernel

/-- `virtmemSetup`. The aborts are those of the function. -/
def virtmemSetup (v : Virtmem) : Except Result Virtmem :=
  let (rc, aliasRegion) :=
    memregionInitWithInfo k v.gAliasRegion .aliasRegionAddress .aliasRegionSize
  if rFailed rc then .error Results.weirdKernel
  else
    let (rc, heapRegion) := memregionInitWithInfo k v.gHeapRegion .heapRegionAddress .heapRegionSize
    if rFailed rc then .error Results.badGetInfoHeap
    else
      let v := { v with gAliasRegion := aliasRegion, gHeapRegion := heapRegion }
      let (rc, aslrRegion) :=
        memregionInitWithInfo k v.gAslrRegion .aslrRegionAddress .aslrRegionSize
      if rFailed rc then virtmemProbe k { v with gAslrRegion := aslrRegion }
      else
        let (rc, stackRegion) :=
          memregionInitWithInfo k v.gStackRegion .stackRegionAddress .stackRegionSize
        if rFailed rc then .error Results.badGetInfoStack
        else .ok { v with gAslrRegion := aslrRegion, gStackRegion := stackRegion }

/-! ## `exl_init` -/

/-- The assertions at the end of `FindModules`. -/
def checkModules (f : Finder) : Except Result Unit := do
  exlAssert (f.sSelfModuleIdx != -1)
  exlAssert (f.sSelfModuleIdx < sMaxModules)
  exlAssert (f.sModuleCount != -1)
  exlAssert (f.sModuleCount ≤ sMaxModules)

/-- The tables of modules, the layout and the regions of `virtmem`. -/
def exlInit (moduleStart : Addr) (l : MemLayout) (v : Virtmem) :
    Option (Except Result (Finder × MemLayout × Virtmem)) :=
  (findModules k.map moduleStart).map fun found => do
    let f ← found
    checkModules f
    let l ← findRegions k l
    let v ← virtmemSetup k v
    return (f, l, v)

end

/-! ## Agreement -/

/-- The same addresses, by their end. -/
def Range.region (r : Range) : MemRegion := ⟨r.start, r.getEnd⟩

/-- The regions from start to end are the same. -/
structure Agree (l : MemLayout) (v : Virtmem) : Prop where
  aliasRegion : l.sAlias.region = v.gAliasRegion
  heapRegion : l.sHeap.region = v.gHeapRegion
  aslrRegion : l.sAslr.region = v.gAslrRegion
  stackRegion : l.sStack.region = v.gStackRegion

/-- What a kernel that knows a region says of it. -/
def Kernel.range (k : Kernel) (address size : InfoType) : Range :=
  ⟨(k.getInfo address).2, (k.getInfo size).2⟩

section

variable {k : Kernel} {address size : InfoType} {l l' : MemLayout} {v v' : Virtmem}

theorem bind_eq_ok {α β ε : Type} {x : Except ε α} {f : α → Except ε β} {b : β} :
    x >>= f = .ok b ↔ ∃ a, x = .ok a ∧ f a = .ok b := by
  cases x with
  | error e => exact iff_of_false (fun h => by cases h) (fun ⟨_, h, _⟩ => by cases h)
  | ok a =>
    constructor
    · exact fun h => ⟨a, rfl, h⟩
    · rintro ⟨a', hSame, h⟩
      cases hSame
      exact h

/-! ## Queries -/

theorem getAddressFromInfo_known {type : InfoType} (h : rFailed (k.getInfo type).1 = false) :
    getAddressFromInfo k type = .ok (k.getInfo type).2 := by
  rw [getAddressFromInfo, h]
  rfl

theorem memregionInit_known (r : MemRegion) (h : k.Knows address size) :
    rFailed (memregionInitWithInfo k r address size).1 = false ∧
      (memregionInitWithInfo k r address size).2 = (k.range address size).region := by
  simp only [memregionInitWithInfo, h.1, h.2, Bool.false_eq_true, if_false, true_and]
  rfl

theorem memregionInit_unknown (r : MemRegion) (h : ¬ k.Knows address size) :
    rFailed (memregionInitWithInfo k r address size).1 = true ∧
      (memregionInitWithInfo k r address size).2 = r := by
  unfold memregionInitWithInfo
  by_cases hAddress : rFailed (k.getInfo address).1 = true
  · simp only [hAddress, if_true, and_self]
  · have hSize : rFailed (k.getInfo size).1 = true := by
      by_contra hSize
      exact h ⟨Bool.eq_false_iff.mpr hAddress, Bool.eq_false_iff.mpr hSize⟩
    simp only [hAddress, hSize, Bool.false_eq_true, if_false, if_true, and_self]

/-! ## What the two initialisers leave behind -/

/-- A kernel that knows the regions, or one that does not know the ASLR region. -/
theorem virtmemSetup_cases (h : virtmemSetup k v = .ok v') :
    k.Knows .aliasRegionAddress .aliasRegionSize ∧ k.Knows .heapRegionAddress .heapRegionSize ∧
      v'.gAliasRegion = (k.range .aliasRegionAddress .aliasRegionSize).region ∧
      v'.gHeapRegion = (k.range .heapRegionAddress .heapRegionSize).region ∧
      (k.Knows .aslrRegionAddress .aslrRegionSize ∧ k.Knows .stackRegionAddress .stackRegionSize ∧
          v'.gAslrRegion = (k.range .aslrRegionAddress .aslrRegionSize).region ∧
          v'.gStackRegion = (k.range .stackRegionAddress .stackRegionSize).region ∨
        ¬ k.Knows .aslrRegionAddress .aslrRegionSize ∧ ∃ u, virtmemProbe k u = .ok v') := by
  have hProbe : ∀ u, virtmemProbe k u = .ok v' →
      v'.gAliasRegion = u.gAliasRegion ∧ v'.gHeapRegion = u.gHeapRegion := by
    intro u hu
    unfold virtmemProbe at hu
    split at hu
    · cases hu
      exact ⟨rfl, rfl⟩
    · split at hu
      · cases hu
        exact ⟨rfl, rfl⟩
      · cases hu
  unfold virtmemSetup at h
  by_cases hAlias : k.Knows .aliasRegionAddress .aliasRegionSize
  · obtain ⟨hAliasRc, hAliasRegion⟩ := memregionInit_known v.gAliasRegion hAlias
    by_cases hHeap : k.Knows .heapRegionAddress .heapRegionSize
    · obtain ⟨hHeapRc, hHeapRegion⟩ := memregionInit_known v.gHeapRegion hHeap
      simp only [hAliasRc, hHeapRc, Bool.false_eq_true, if_false] at h
      by_cases hAslr : k.Knows .aslrRegionAddress .aslrRegionSize
      · obtain ⟨hAslrRc, hAslrRegion⟩ := memregionInit_known v.gAslrRegion hAslr
        simp only [hAslrRc, Bool.false_eq_true, if_false] at h
        by_cases hStack : k.Knows .stackRegionAddress .stackRegionSize
        · obtain ⟨hStackRc, hStackRegion⟩ := memregionInit_known v.gStackRegion hStack
          simp only [hStackRc, Bool.false_eq_true, if_false] at h
          cases h
          exact ⟨hAlias, hHeap, hAliasRegion, hHeapRegion,
            .inl ⟨hAslr, hStack, hAslrRegion, hStackRegion⟩⟩
        · simp only [(memregionInit_unknown v.gStackRegion hStack).1, if_true] at h
          cases h
      · simp only [(memregionInit_unknown v.gAslrRegion hAslr).1, if_true] at h
        obtain ⟨hAliasSame, hHeapSame⟩ := hProbe _ h
        exact ⟨hAlias, hHeap, hAliasSame.trans hAliasRegion, hHeapSame.trans hHeapRegion,
          .inr ⟨hAslr, _, h⟩⟩
    · simp only [hAliasRc, (memregionInit_unknown v.gHeapRegion hHeap).1, Bool.false_eq_true,
        if_false, if_true] at h
      cases h
  · simp only [(memregionInit_unknown v.gAliasRegion hAlias).1, if_true] at h
    cases h

theorem queryAslrAndStack_known (l : MemLayout)
    (hAslr : k.Knows .aslrRegionAddress .aslrRegionSize)
    (hStack : k.Knows .stackRegionAddress .stackRegionSize) :
    queryAslrAndStack k l = (false, { l with
      sAslr := k.range .aslrRegionAddress .aslrRegionSize
      sStack := k.range .stackRegionAddress .stackRegionSize }) := by
  simp only [queryAslrAndStack, hAslr.1, hAslr.2, hStack.1, hStack.2, Bool.false_eq_true, if_false]
  rfl

theorem queryAslrAndStack_unknown (l : MemLayout)
    (hAslr : ¬ k.Knows .aslrRegionAddress .aslrRegionSize) : (queryAslrAndStack k l).1 = true := by
  unfold queryAslrAndStack
  by_cases hAddress : rFailed (k.getInfo .aslrRegionAddress).1 = true
  · simp only [hAddress, if_true]
  · have hSize : rFailed (k.getInfo .aslrRegionSize).1 = true := by
      by_contra hSize
      exact hAslr ⟨Bool.eq_false_iff.mpr hAddress, Bool.eq_false_iff.mpr hSize⟩
    simp only [hAddress, hSize, Bool.false_eq_true, if_false, if_true]

/-- The layout where the kernel knows the alias and the heap region. -/
theorem findRegions_eq (hAlias : k.Knows .aliasRegionAddress .aliasRegionSize)
    (hHeap : k.Knows .heapRegionAddress .heapRegionSize) (l : MemLayout) :
    findRegions k l =
      let l := { l with
        sAlias := k.range .aliasRegionAddress .aliasRegionSize
        sHeap := k.range .heapRegionAddress .heapRegionSize }
      if (queryAslrAndStack k l).1 then do
        exlAssert (!rFailed (inferAslrAndStack k (queryAslrAndStack k l).2).1)
        return (inferAslrAndStack k (queryAslrAndStack k l).2).2
      else return (queryAslrAndStack k l).2 := by
  rw [findRegions, getAddressFromInfo_known hAlias.1, getAddressFromInfo_known hAlias.2,
    getAddressFromInfo_known hHeap.1, getAddressFromInfo_known hHeap.2]
  rfl

theorem findRegions_known (hAlias : k.Knows .aliasRegionAddress .aliasRegionSize)
    (hHeap : k.Knows .heapRegionAddress .heapRegionSize)
    (hAslr : k.Knows .aslrRegionAddress .aslrRegionSize)
    (hStack : k.Knows .stackRegionAddress .stackRegionSize) (l : MemLayout) :
    findRegions k l = .ok
      { sAlias := k.range .aliasRegionAddress .aliasRegionSize
        sHeap := k.range .heapRegionAddress .heapRegionSize
        sAslr := k.range .aslrRegionAddress .aslrRegionSize
        sStack := k.range .stackRegionAddress .stackRegionSize } := by
  rw [findRegions_eq hAlias hHeap]
  simp only [queryAslrAndStack_known _ hAslr hStack, Bool.false_eq_true, if_false]
  rfl

theorem findRegions_inferred (hAlias : k.Knows .aliasRegionAddress .aliasRegionSize)
    (hHeap : k.Knows .heapRegionAddress .heapRegionSize)
    (hAslr : ¬ k.Knows .aslrRegionAddress .aslrRegionSize) (h : findRegions k l = .ok l') :
    ∃ u, l' = (inferAslrAndStack k u).2 := by
  rw [findRegions_eq hAlias hHeap] at h
  simp only [queryAslrAndStack_unknown _ hAslr, if_true] at h
  obtain ⟨-, -, hSame⟩ := bind_eq_ok.mp h
  cases hSame
  exact ⟨_, rfl⟩

/-- The probe makes the ASLR regions start at one place and end at different ones. -/
theorem probe_disagrees {u : MemLayout} {w : Virtmem} (h : virtmemProbe k w = .ok v') :
    (inferAslrAndStack k u).2.sAslr.region ≠ v'.gAslrRegion := by
  unfold virtmemProbe at h
  unfold inferAslrAndStack
  split at h
  · rename_i hState
    cases h
    rw [if_pos hState]
    change (⟨0x200000#64, 0x100000000#64⟩ : Range).region ≠ ⟨0x200000#64, 0x100000000#64⟩
    decide
  · rename_i hState
    split at h
    · rename_i hRange
      cases h
      rw [if_neg hState, if_pos hRange]
      change (⟨0x8000000#64, 0x1000000000#64⟩ : Range).region ≠ ⟨0x8000000#64, 0x1000000000#64⟩
      decide
    · cases h

variable {moduleStart : Addr} {f : Finder}

theorem exlInit_ok (h : exlInit k moduleStart l v = some (.ok (f, l', v'))) :
    findRegions k l = .ok l' ∧ virtmemSetup k v = .ok v' := by
  obtain ⟨found, -, hInit⟩ := Option.map_eq_some_iff.mp h
  obtain ⟨f', -, hInit⟩ := bind_eq_ok.mp hInit
  obtain ⟨-, -, hInit⟩ := bind_eq_ok.mp hInit
  obtain ⟨l'', hRegions, hInit⟩ := bind_eq_ok.mp hInit
  obtain ⟨v'', hVirtmem, hInit⟩ := bind_eq_ok.mp hInit
  cases hInit
  exact ⟨hRegions, hVirtmem⟩

/-- Where nothing aborts, the layout and `virtmem` agree if and only if the kernel knows the ASLR
region. -/
theorem exlInit_agree_iff (h : exlInit k moduleStart l v = some (.ok (f, l', v'))) :
    Agree l' v' ↔ k.Knows .aslrRegionAddress .aslrRegionSize := by
  obtain ⟨hRegions, hVirtmem⟩ := exlInit_ok h
  obtain ⟨hAlias, hHeap, hAliasRegion, hHeapRegion, hRest⟩ := virtmemSetup_cases hVirtmem
  rcases hRest with ⟨hAslr, hStack, hAslrRegion, hStackRegion⟩ | ⟨hAslr, u, hProbe⟩
  · rw [findRegions_known hAlias hHeap hAslr hStack] at hRegions
    cases hRegions
    exact iff_of_true ⟨hAliasRegion.symm, hHeapRegion.symm, hAslrRegion.symm, hStackRegion.symm⟩
      hAslr
  · refine iff_of_false (fun hAgree => ?_) hAslr
    obtain ⟨u', rfl⟩ := findRegions_inferred hAlias hHeap hAslr hRegions
    exact probe_disagrees hProbe hAgree.aslrRegion

end

/-! ## Two kernels -/

/-- The module itself, and nothing behind it. -/
def selfMap : MemoryMap where
  regions := [⟨0#64, 0x1000#64, 3#32, 5#32⟩, ⟨0x1000#64, 0x1000#64, 3#32, 1#32⟩,
    ⟨0x2000#64, 0x1000#64, 4#32, 3#32⟩, ⟨0x3000#64, 0xffffffffffffd000#64, 0#32, 0#32⟩]
  covers := by
    simp [Consecutive, MemoryInfo.stop]

/-- A kernel that knows all regions. -/
def knowingKernel : Kernel where
  map := selfMap
  getInfo
    | .aliasRegionAddress => (0#32, 0x10000000#64)
    | .aliasRegionSize => (0#32, 0x10000000#64)
    | .heapRegionAddress => (0#32, 0x20000000#64)
    | .heapRegionSize => (0#32, 0x10000000#64)
    | .aslrRegionAddress => (0#32, 0x8000000#64)
    | .aslrRegionSize => (0#32, 0x7ff8000000#64)
    | .stackRegionAddress => (0#32, 0x40000000#64)
    | .stackRegionSize => (0#32, 0x80000000#64)
  unmapMemory := 0#32

/-- A kernel with an address space of 32 bits that knows the alias and the heap region only. -/
def legacyKernel : Kernel where
  map := selfMap
  getInfo
    | .aliasRegionAddress => (0#32, 0x10000000#64)
    | .aliasRegionSize => (0#32, 0x10000000#64)
    | .heapRegionAddress => (0#32, 0x20000000#64)
    | .heapRegionSize => (0#32, 0x10000000#64)
    | _ => (kernelResult 120#32, 0#64)
  unmapMemory := Results.invalidMemoryState

/-- The static variables before the setup. -/
def zeroLayout : MemLayout := ⟨⟨0, 0⟩, ⟨0, 0⟩, ⟨0, 0⟩, ⟨0, 0⟩⟩

def zeroVirtmem : Virtmem := ⟨⟨0, 0⟩, ⟨0, 0⟩, ⟨0, 0⟩, ⟨0, 0⟩, false⟩

theorem exlInit_agree_iff_knowing : ∃ f l v,
    exlInit knowingKernel 0#64 zeroLayout zeroVirtmem = some (.ok (f, l, v)) ∧ Agree l v := by
  obtain ⟨f, l, v, hInit⟩ : ∃ f l v,
      exlInit knowingKernel 0#64 zeroLayout zeroVirtmem = some (.ok (f, l, v)) := ⟨_, _, _, rfl⟩
  exact ⟨f, l, v, hInit, (exlInit_agree_iff hInit).mpr (by decide)⟩

/-- The ASLR region ends at 0x100200000 for the layout and at 0x100000000 for `virtmem`. -/
theorem legacy_disagrees : ∃ f l v,
    exlInit legacyKernel 0#64 zeroLayout zeroVirtmem = some (.ok (f, l, v)) ∧ ¬ Agree l v :=
  ⟨_, _, _, rfl, fun hAgree => absurd hAgree.aslrRegion (by decide)⟩

end Wondar.Sys
