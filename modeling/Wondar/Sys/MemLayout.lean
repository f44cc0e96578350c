import Wondar.Recogniser
import Wondar.Setting

/-!
# The memory layout

`FindModules` walks over the regions of the kernel's memory map and records the modules: three
consecutive regions, of code that is executable, code that is read only and code that is
writable. The walk ends when a query wraps around to the first region, and that region is read
once more.

`MemoryMap` is a list of regions that covers the address space and `modules` what is to be
found. `findLoop_eq` is the walk as a traversal of the list, and `read_spec` one round of it as a
step of a recogniser that drops what breaks a match. Together they say exactly when the recorded
table is right (`findModules_iff`).
-/

namespace Wondar.Sys

open A64

/-! ## The memory map -/

structure MemoryInfo where
  addr : Addr
  size : BitVec 64
  type : BitVec 32
  perm : BitVec 32
deriving DecidableEq, Repr

/-- The end of a region, as a number. -/
def MemoryInfo.stop (r : MemoryInfo) : Nat := r.addr.toNat + r.size.toNat

/-- Regions that follow one another from an address to the end of the address space. -/
def Consecutive : Nat → List MemoryInfo → Prop
  | a, [] => a = 2 ^ 64
  | a, r :: rs => r.addr.toNat = a ∧ 0 < r.size.toNat ∧ Consecutive r.stop rs

structure MemoryMap where
  regions : List MemoryInfo
  covers : Consecutive 0 regions

/-- `svcQueryMemory`. -/
def MemoryMap.query (map : MemoryMap) (a : Addr) : MemoryInfo :=
  (map.regions.find? fun r => r.addr.toNat ≤ a.toNat ∧ a.toNat < r.stop).getD ⟨0, 0, 0, 0⟩

/-! ## `FindModules` -/

structure Range where
  start : Addr
  size : BitVec 64
deriving DecidableEq, Repr

def Range.getEnd (r : Range) : Addr := r.start + r.size

structure ModuleInfo where
  total : Range
  text : Range
  rodata : Range
  data : Range
deriving DecidableEq, Repr

def ModuleInfo.zero : ModuleInfo := ⟨⟨0, 0⟩, ⟨0, 0⟩, ⟨0, 0⟩, ⟨0, 0⟩⟩

/-- `State`. -/
inductive Expected
  | lookingForCodeStatic
  | expectingRodata
  | expectingData
deriving DecidableEq, Repr

def sMaxModules : Nat := 13

namespace MemoryInfo

/-- `type & MemState_Type`. -/
def memtype (r : MemoryInfo) : BitVec 32 := r.type &&& 0xff#32

/-- `MemType_CodeStatic` and `Perm_Rx`. -/
def isText (r : MemoryInfo) : Bool := r.memtype == 3#32 && r.perm == 5#32

/-- `MemType_CodeStatic` and `Perm_R`. -/
def isRodata (r : MemoryInfo) : Bool := r.memtype == 3#32 && r.perm == 1#32

/-- `MemType_CodeMutable` and `Perm_Rw`. -/
def isData (r : MemoryInfo) : Bool := r.memtype == 4#32 && r.perm == 3#32

end MemoryInfo

/-- The local variables and the tables. `nextModIdx` is the length of `sModuleInfos`. -/
structure Finder where
  meminfo : MemoryInfo
  state : Expected
  curModInfo : ModuleInfo
  offset : Addr
  prevOffset : Addr
  sModuleInfos : List ModuleInfo
  sSelfModuleIdx : Int

namespace Finder

def initial : Finder where
  meminfo := ⟨0, 0, 0, 0⟩
  state := .lookingForCodeStatic
  curModInfo := .zero
  offset := 0
  prevOffset := 0
  sModuleInfos := []
  sSelfModuleIdx := -1

/-- `s_ModuleCount`, which stays at its initial value until a module is stored. -/
def sModuleCount (f : Finder) : Int :=
  if f.sModuleInfos = [] then -1 else f.sModuleInfos.length

def reset (f : Finder) : Finder :=
  { f with curModInfo := .zero, state := .lookingForCodeStatic }

/-- Store the built module. -/
def store (moduleStart : Addr) (f : Finder) (modInfo : ModuleInfo) : Finder :=
  { f with
    sSelfModuleIdx :=
      if modInfo.total.start = moduleStart then f.sModuleInfos.length else f.sSelfModuleIdx
    sModuleInfos := f.sModuleInfos ++ [modInfo] }

/-- The `switch`. -/
def advance (moduleStart : Addr) (f : Finder) : Finder :=
  match f.state with
  | .lookingForCodeStatic =>
    if f.meminfo.isText then
      { f with
        curModInfo :=
          { f.curModInfo with
            total := { f.curModInfo.total with start := f.meminfo.addr }
            text := ⟨f.meminfo.addr, f.meminfo.size⟩ }
        state := .expectingRodata }
    else f
  | .expectingRodata =>
    if f.meminfo.isRodata then
      { f with
        curModInfo := { f.curModInfo with rodata := ⟨f.meminfo.addr, f.meminfo.size⟩ }
        state := .expectingData }
    else f.reset
  | .expectingData =>
    if f.meminfo.isData then
      let data : Range := ⟨f.meminfo.addr, f.meminfo.size⟩
      let total : Range :=
        ⟨f.curModInfo.total.start, data.getEnd - f.curModInfo.total.start⟩
      (f.store moduleStart { f.curModInfo with total := total, data := data }).reset
    else f.reset

/-- A round of the loop, behind the query. -/
def read (moduleStart : Addr) (f : Finder) (meminfo : MemoryInfo) : Finder :=
  advance moduleStart { f with meminfo := meminfo, prevOffset := f.offset, offset := meminfo.addr }

/-- The address of the next query. -/
def nextAddr (f : Finder) : Addr := f.meminfo.addr + f.meminfo.size

end Finder

/-- The loop; `none` where the rounds do not suffice. -/
def findLoop (map : MemoryMap) (moduleStart : Addr) :
    Nat → Finder → Option (Except Result Finder)
  | 0, _ => none
  | rounds + 1, f =>
    if sMaxModules ≤ f.sModuleInfos.length then some (.error Results.tooManyStaticModules)
    else
      let f := f.read moduleStart (map.query f.nextAddr)
      if f.prevOffset ≤ f.offset then findLoop map moduleStart rounds f else some (.ok f)

/-- `FindModules`, up to the final assertions: the tables where the loop is left. -/
def findModules (map : MemoryMap) (moduleStart : Addr) : Option (Except Result Finder) :=
  findLoop map moduleStart (map.regions.length + 1) .initial

/-! ## What is to be found -/

/-- The recogniser of three regions. -/
def moduleRegions : Recogniser.Pattern MemoryInfo where
  first := MemoryInfo.isText
  second := MemoryInfo.isRodata
  third := MemoryInfo.isData
  disjoint r h := by
    simp only [MemoryInfo.isText, MemoryInfo.isRodata, Bool.and_eq_true, beq_iff_eq] at h ⊢
    simp [h.2]

/-- The module of three regions. -/
def moduleInfo (t : MemoryInfo × MemoryInfo × MemoryInfo) : ModuleInfo where
  total := ⟨t.1.addr, t.2.2.addr + t.2.2.size - t.1.addr⟩
  text := ⟨t.1.addr, t.1.size⟩
  rodata := ⟨t.2.1.addr, t.2.1.size⟩
  data := ⟨t.2.2.addr, t.2.2.size⟩

/-- The modules of a map. -/
def MemoryMap.modules (map : MemoryMap) : List ModuleInfo :=
  (Recogniser.allMatches moduleRegions map.regions).map moduleInfo

/-- The last two regions and the first one look like a module. -/
def MemoryMap.WrapsAround (map : MemoryMap) : Prop :=
  ∃ p text rodata, map.regions = p ++ [text, rodata] ∧
    Recogniser.IsMatch moduleRegions text rodata (map.query 0#64) ∧
    Even (Recogniser.falseStarts moduleRegions p.reverse)

/-! ## Queries -/

theorem Consecutive.le {a : Nat} {rs : List MemoryInfo} (h : Consecutive a rs) : a ≤ 2 ^ 64 := by
  induction rs generalizing a with
  | nil => exact Nat.le_of_eq h
  | cons r rs ih =>
    obtain ⟨hAddr, -, hRest⟩ := h
    have hStop := ih hRest
    unfold MemoryInfo.stop at hStop
    omega

theorem Consecutive.split {a : Nat} {p s : List MemoryInfo} {r : MemoryInfo}
    (h : Consecutive a (p ++ r :: s)) :
    (∀ q ∈ p, q.stop ≤ r.addr.toNat) ∧ a ≤ r.addr.toNat ∧ Consecutive r.addr.toNat (r :: s) := by
  induction p generalizing a with
  | nil =>
    refine ⟨fun q hq => (List.not_mem_nil hq).elim, Nat.le_of_eq h.1.symm, ?_⟩
    rw [h.1]
    exact h
  | cons q p ih =>
    obtain ⟨hAddr, hSize, hRest⟩ := h
    obtain ⟨hBelow, hLe, hFrom⟩ := ih hRest
    refine ⟨?_, ?_, hFrom⟩
    · intro q' hq'
      rcases List.mem_cons.mp hq' with rfl | hq'
      · exact hLe
      · exact hBelow q' hq'
    · unfold MemoryInfo.stop at hLe
      omega

/-- Every address behind the first one is in a region. -/
theorem Consecutive.exists_region {a x : Nat} {rs : List MemoryInfo} (h : Consecutive a rs)
    (hLow : a ≤ x) (hHigh : x < 2 ^ 64) : ∃ r ∈ rs, r.addr.toNat ≤ x ∧ x < r.stop := by
  induction rs generalizing a with
  | nil =>
    have hEnd : a = 2 ^ 64 := h
    omega
  | cons r rs ih =>
    obtain ⟨hAddr, -, hRest⟩ := h
    by_cases hx : x < r.stop
    · exact ⟨r, List.mem_cons_self, by omega, hx⟩
    · obtain ⟨q, hq, hIn⟩ := ih hRest (by omega)
      exact ⟨q, List.mem_cons_of_mem _ hq, hIn⟩

namespace MemoryMap

variable {map : MemoryMap} {p s : List MemoryInfo} {r r' : MemoryInfo}

theorem query_eq (h : map.regions = p ++ r :: s) {a : Addr} (hLow : r.addr.toNat ≤ a.toNat)
    (hHigh : a.toNat < r.stop) : map.query a = r := by
  obtain ⟨hBelow, -, -⟩ := (h ▸ map.covers).split
  have hFind : map.regions.find? (fun q => q.addr.toNat ≤ a.toNat ∧ a.toNat < q.stop) = some r := by
    rw [List.find?_eq_some_iff_append]
    refine ⟨decide_eq_true ⟨hLow, hHigh⟩, p, s, h, fun q hq => ?_⟩
    have := hBelow q hq
    simp only [Bool.not_eq_true', decide_eq_false_iff_not]
    omega
  rw [query, hFind, Option.getD_some]

theorem query_region (h : map.regions = p ++ r :: s) : map.query r.addr = r := by
  obtain ⟨-, -, -, hSize, -⟩ := (h ▸ map.covers).split
  exact query_eq h (Nat.le_refl _) (Nat.lt_add_of_pos_right hSize)

/-- The answer is the region of the map that the address is in. -/
theorem query_spec (map : MemoryMap) (a : Addr) :
    (∃ p s, map.regions = p ++ map.query a :: s) ∧ (map.query a).addr.toNat ≤ a.toNat ∧
      a.toNat < (map.query a).stop ∧ (map.query a).stop ≤ 2 ^ 64 := by
  obtain ⟨r, hr, hLow, hHigh⟩ := map.covers.exists_region (Nat.zero_le _) a.isLt
  obtain ⟨p, s, hRegions⟩ := List.append_of_mem hr
  obtain ⟨-, -, -, -, hRest⟩ := (hRegions ▸ map.covers).split
  rw [query_eq hRegions hLow hHigh]
  exact ⟨⟨p, s, hRegions⟩, hLow, hHigh, hRest.le⟩

theorem next_region (h : map.regions = p ++ r :: r' :: s) : r.addr + r.size = r'.addr := by
  obtain ⟨-, -, -, -, hNext, -⟩ := (h ▸ map.covers).split
  apply BitVec.eq_of_toNat_eq
  have hLt := r'.addr.isLt
  unfold MemoryInfo.stop at hNext
  rw [BitVec.toNat_add]
  omega

/-- The last region ends where the address space does. -/
theorem last_region (h : map.regions = p ++ [r]) : r.addr + r.size = 0#64 ∧ 0#64 < r.addr := by
  obtain ⟨-, -, -, -, hEnd⟩ := (h ▸ map.covers).split
  have hEnd : r.addr.toNat + r.size.toNat = 2 ^ 64 := hEnd
  have hLt := r.size.isLt
  constructor
  · apply BitVec.eq_of_toNat_eq
    rw [BitVec.toNat_add, hEnd]
    rfl
  · rw [BitVec.lt_def]
    simp only [BitVec.toNat_ofNat]
    omega

theorem first_region (map : MemoryMap) :
    ∃ rest, map.regions = map.query 0#64 :: rest ∧ (map.query 0#64).addr = 0#64 := by
  cases hRegions : map.regions with
  | nil =>
    have hCovers := map.covers
    rw [hRegions] at hCovers
    cases hCovers
  | cons r rest =>
    have hCovers := map.covers
    rw [hRegions] at hCovers
    have hAddr : r.addr = 0#64 := BitVec.eq_of_toNat_eq hCovers.1
    have hQuery : map.query 0#64 = r := hAddr ▸ query_region (p := []) hRegions
    rw [hQuery]
    exact ⟨rest, rfl, hAddr⟩

end MemoryMap

/-! ## Modules -/

theorem Consecutive.pairwise {a : Nat} {rs : List MemoryInfo} (h : Consecutive a rs) :
    rs.Pairwise fun r r' => r.addr < r'.addr := by
  induction rs generalizing a with
  | nil => exact .nil
  | cons r rs ih =>
    obtain ⟨-, hSize, hRest⟩ := h
    refine .cons (fun r' hr' => ?_) (ih hRest)
    obtain ⟨p, s, rfl⟩ := List.append_of_mem hr'
    have hLe := hRest.split.2.1
    unfold MemoryInfo.stop at hLe
    rw [BitVec.lt_def]
    omega

/-- The modules of a map lie in increasing order. -/
theorem MemoryMap.modules_sorted (map : MemoryMap) :
    map.modules.Pairwise fun m m' => m.text.start < m'.text.start := by
  have hFirst := map.covers.pairwise.sublist
    (Recogniser.allMatches_first_sublist (P := moduleRegions))
  rw [List.pairwise_map] at hFirst
  exact List.pairwise_map.mpr hFirst

/-- A module spans its three regions. -/
theorem MemoryMap.total_size {map : MemoryMap} {text rodata data : MemoryInfo}
    (hMem : (text, rodata, data) ∈ Recogniser.allMatches moduleRegions map.regions) :
    (moduleInfo (text, rodata, data)).total.size.toNat =
      (text.size.toNat + rodata.size.toNat + data.size.toNat) % 2 ^ 64 := by
  obtain ⟨p, s, hRegions⟩ := Recogniser.mem_allMatches hMem
  obtain ⟨-, -, -, hText, hRodata, -, hData, hSize, hRest⟩ := (hRegions ▸ map.covers).split
  have hEnd := hRest.le
  unfold MemoryInfo.stop at hRodata hData hEnd
  simp only [moduleInfo, BitVec.toNat_sub, BitVec.toNat_add, Nat.reducePow] at hEnd ⊢
  omega

/-! ## The walk -/

namespace Finder

@[simp]
theorem advance_meminfo (moduleStart : Addr) (f : Finder) :
    (f.advance moduleStart).meminfo = f.meminfo := by
  unfold advance
  repeat' split
  all_goals rfl

@[simp]
theorem advance_offset (moduleStart : Addr) (f : Finder) :
    (f.advance moduleStart).offset = f.offset := by
  unfold advance
  repeat' split
  all_goals rfl

@[simp]
theorem advance_prevOffset (moduleStart : Addr) (f : Finder) :
    (f.advance moduleStart).prevOffset = f.prevOffset := by
  unfold advance
  repeat' split
  all_goals rfl

/-- The loop over a list of regions. -/
def visit (moduleStart : Addr) : Finder → List MemoryInfo → Except Result Finder
  | f, [] => .ok f
  | f, r :: rs =>
    if sMaxModules ≤ f.sModuleInfos.length then .error Results.tooManyStaticModules
    else visit moduleStart (f.read moduleStart r) rs

/-- The regions `p` have been read. -/
def Behind (f : Finder) (p : List MemoryInfo) : Prop :=
  (p = [] ∧ f.nextAddr = 0#64 ∧ f.offset = 0#64) ∨
    ∃ p' r, p = p' ++ [r] ∧ f.meminfo = r ∧ f.offset = r.addr

theorem behind_read (moduleStart : Addr) (f : Finder) (p : List MemoryInfo) (r : MemoryInfo) :
    (f.read moduleStart r).Behind (p ++ [r]) :=
  .inr ⟨p, r, rfl, by simp [read], by simp [read]⟩

/-- The next query answers with the next region, and the address does not wrap. -/
theorem Behind.query {map : MemoryMap} {f : Finder} {p s : List MemoryInfo} {r : MemoryInfo}
    (hBehind : f.Behind p) (hRegions : map.regions = p ++ r :: s) :
    map.query f.nextAddr = r ∧ f.offset ≤ r.addr := by
  rcases hBehind with ⟨rfl, hNext, hOffset⟩ | ⟨p', r', rfl, hInfo, hOffset⟩
  · obtain ⟨rest, hFirst, -⟩ := map.first_region
    rw [hFirst] at hRegions
    rw [hNext, hOffset]
    exact ⟨(List.cons.inj hRegions).1, Nat.zero_le _⟩
  · rw [List.append_assoc, List.singleton_append] at hRegions
    have hNext : f.nextAddr = r.addr := by
      rw [nextAddr, hInfo]
      exact MemoryMap.next_region hRegions
    have hQuery : map.query r.addr = r := by
      apply MemoryMap.query_region (p := p' ++ [r']) (s := s)
      rw [hRegions, List.append_assoc, List.singleton_append]
    obtain ⟨-, -, hAddr, -, hStop, -⟩ := (hRegions ▸ map.covers).split
    refine ⟨hNext ▸ hQuery, ?_⟩
    rw [hOffset, BitVec.le_def]
    unfold MemoryInfo.stop at hStop
    omega

/-- Behind the last region the query wraps around. -/
theorem Behind.wraps {map : MemoryMap} {f : Finder} (hBehind : f.Behind map.regions) :
    f.nextAddr = 0#64 ∧ 0#64 < f.offset := by
  rcases hBehind with ⟨hNil, -, -⟩ | ⟨p', r', hRegions, hInfo, hOffset⟩
  · obtain ⟨rest, hFirst, -⟩ := map.first_region
    rw [hNil] at hFirst
    cases hFirst
  · rw [nextAddr, hInfo, hOffset]
    exact MemoryMap.last_region hRegions

/-- The round that reads the next region is not the last one. -/
theorem Behind.stays {map : MemoryMap} (moduleStart : Addr) {f : Finder} {p s : List MemoryInfo}
    {r : MemoryInfo} (hBehind : f.Behind p) (hRegions : map.regions = p ++ r :: s) :
    (f.read moduleStart r).prevOffset ≤ (f.read moduleStart r).offset := by
  obtain ⟨-, hOffset⟩ := hBehind.query hRegions
  simpa only [read, advance_prevOffset, advance_offset] using hOffset

/-- The round that reads the first region once more is the last one. -/
theorem Behind.exits {map : MemoryMap} (moduleStart : Addr) {f : Finder}
    (hBehind : f.Behind map.regions) :
    ¬ (f.read moduleStart (map.query 0#64)).prevOffset ≤
      (f.read moduleStart (map.query 0#64)).offset := by
  obtain ⟨-, hOffset⟩ := hBehind.wraps
  obtain ⟨-, -, hFirst⟩ := map.first_region
  simp only [read, advance_prevOffset, advance_offset, hFirst]
  exact BitVec.not_le.mpr hOffset

end Finder

/-- The walk reads every region once, and then the first one. -/
theorem findLoop_eq {map : MemoryMap} (moduleStart : Addr) {p s : List MemoryInfo} {f : Finder}
    (hRegions : map.regions = p ++ s) (hBehind : f.Behind p) :
    findLoop map moduleStart (s.length + 1) f =
      some (f.visit moduleStart (s ++ [map.query 0#64])) := by
  induction s generalizing p f with
  | nil =>
    rw [List.append_nil] at hRegions
    have hAll : f.Behind map.regions := hRegions ▸ hBehind
    have hExit := hAll.exits moduleStart
    obtain ⟨hNext, -⟩ := hAll.wraps
    rw [List.length_nil, findLoop, hNext, List.nil_append, Finder.visit]
    split
    · rfl
    · simp only [hExit, if_false, Finder.visit]
  | cons r s ih =>
    obtain ⟨hQuery, -⟩ := hBehind.query hRegions
    have hStay := hBehind.stays moduleStart hRegions
    rw [List.length_cons, findLoop, hQuery, List.cons_append, Finder.visit]
    split
    · rfl
    · simp only [hStay, if_true]
      refine ih ?_ (f.behind_read moduleStart p r)
      rw [hRegions, List.append_assoc, List.singleton_append]

/-! ## The tables -/

namespace Finder

open Recogniser

/-- The regions read without the check of the count. -/
def readAll (moduleStart : Addr) (f : Finder) (rs : List MemoryInfo) : Finder :=
  rs.foldl (read moduleStart) f

/-- What the local variables stand for. -/
def Represents (f : Finder) : State MemoryInfo → Prop
  | .start => f.state = .lookingForCodeStatic ∧ f.curModInfo = .zero
  | .one text =>
    f.state = .expectingRodata ∧
      f.curModInfo =
        { ModuleInfo.zero with total := ⟨text.addr, 0⟩, text := ⟨text.addr, text.size⟩ }
  | .two text rodata =>
    f.state = .expectingData ∧
      f.curModInfo =
        { ModuleInfo.zero with
          total := ⟨text.addr, 0⟩
          text := ⟨text.addr, text.size⟩
          rodata := ⟨rodata.addr, rodata.size⟩ }

/-- A round is a step of the recogniser. -/
theorem read_spec (moduleStart : Addr) {f : Finder} {q : State MemoryInfo} (r : MemoryInfo)
    (h : f.Represents q) :
    (f.read moduleStart r).Represents (next moduleRegions q r) ∧
      (f.read moduleStart r).sModuleInfos =
        f.sModuleInfos ++ ((emit moduleRegions q r).toList).map moduleInfo := by
  cases q with
  | start =>
    obtain ⟨hState, hInfo⟩ := h
    simp only [read, advance, hState, hInfo, next, emit, moduleRegions]
    by_cases hText : r.isText = true
    · simp [hText, Represents, ModuleInfo.zero]
    · simp [hText, Represents]
  | one text =>
    obtain ⟨hState, hInfo⟩ := h
    simp only [read, advance, hState, hInfo, next, emit, moduleRegions]
    by_cases hRodata : r.isRodata = true
    · simp [hRodata, Represents]
    · simp [hRodata, Represents, reset]
  | two text rodata =>
    obtain ⟨hState, hInfo⟩ := h
    simp only [read, advance, hState, hInfo, next, emit, moduleRegions]
    by_cases hData : r.isData = true
    · simp [hData, Represents, reset, store, moduleInfo, Range.getEnd]
    · simp [hData, Represents, reset]

theorem readAll_spec (moduleStart : Addr) {f : Finder} {before : List MemoryInfo}
    (rs : List MemoryInfo) (h : f.Represents (stateAfter moduleRegions before)) :
    (f.readAll moduleStart rs).Represents (stateAfter moduleRegions (rs.reverse ++ before)) ∧
      (f.readAll moduleStart rs).sModuleInfos = f.sModuleInfos ++
        (found moduleRegions (stateAfter moduleRegions before) rs).map moduleInfo := by
  induction rs generalizing f before with
  | nil => exact ⟨h, by simp [readAll, found]⟩
  | cons r rs ih =>
    obtain ⟨hRead, hInfos⟩ := read_spec moduleStart r h
    have hNext : (f.read moduleStart r).Represents (stateAfter moduleRegions (r :: before)) := hRead
    obtain ⟨hAll, hRest⟩ := ih hNext
    rw [readAll, List.foldl_cons, List.reverse_cons, List.append_assoc, List.singleton_append]
    refine ⟨hAll, ?_⟩
    rw [readAll] at hRest
    rw [hRest, hInfos, found, List.map_append, List.append_assoc]
    rfl

theorem length_read (moduleStart : Addr) (f : Finder) (r : MemoryInfo) :
    f.sModuleInfos.length ≤ (f.read moduleStart r).sModuleInfos.length := by
  unfold read advance
  repeat' split
  all_goals simp [reset, store]

theorem length_readAll (moduleStart : Addr) (f : Finder) (rs : List MemoryInfo) :
    f.sModuleInfos.length ≤ (f.readAll moduleStart rs).sModuleInfos.length := by
  induction rs generalizing f with
  | nil => exact Nat.le_refl _
  | cons r rs ih => exact Nat.le_trans (length_read moduleStart f r) (ih _)

/-- The check of the count before the last region covers those before it. -/
theorem visit_concat (moduleStart : Addr) (f : Finder) (rs : List MemoryInfo) (r : MemoryInfo) :
    f.visit moduleStart (rs ++ [r]) =
      if sMaxModules ≤ (f.readAll moduleStart rs).sModuleInfos.length then
        .error Results.tooManyStaticModules
      else .ok ((f.readAll moduleStart rs).read moduleStart r) := by
  induction rs generalizing f with
  | nil => rfl
  | cons q rs ih =>
    have hCons : f.readAll moduleStart (q :: rs) = (f.read moduleStart q).readAll moduleStart rs :=
      rfl
    rw [List.cons_append, visit, ih, hCons]
    by_cases hFull : sMaxModules ≤ f.sModuleInfos.length
    · have hAll := Nat.le_trans (length_read moduleStart f q)
        (length_readAll moduleStart (f.read moduleStart q) rs)
      rw [if_pos hFull, if_pos (Nat.le_trans hFull hAll)]
    · rw [if_neg hFull]

end Finder

/-! ## The recorded modules -/

section

open Recogniser

variable {map : MemoryMap} {moduleStart : Addr}

/-- The walk records what the recogniser finds, and what it finds when it reads the first region
once more. -/
theorem findModules_eq (map : MemoryMap) (moduleStart : Addr) :
    ∃ f, f.sModuleInfos = (found moduleRegions .start map.regions ++
        (emit moduleRegions (stateAfter moduleRegions map.regions.reverse)
          (map.query 0#64)).toList).map moduleInfo ∧
      findModules map moduleStart =
        some (if sMaxModules ≤ (found moduleRegions .start map.regions).length then
          .error Results.tooManyStaticModules else .ok f) := by
  have hInitial : Finder.initial.Represents (stateAfter moduleRegions []) := ⟨rfl, rfl⟩
  obtain ⟨hAll, hInfos⟩ := Finder.readAll_spec moduleStart map.regions hInitial
  obtain ⟨-, hLast⟩ := Finder.read_spec moduleStart (map.query 0#64) hAll
  rw [List.append_nil] at hLast
  have hInfos : (Finder.initial.readAll moduleStart map.regions).sModuleInfos =
      (found moduleRegions .start map.regions).map moduleInfo := hInfos
  refine ⟨(Finder.initial.readAll moduleStart map.regions).read moduleStart (map.query 0#64),
    ?_, ?_⟩
  · rw [hLast, hInfos, List.map_append]
  · rw [findModules, findLoop_eq moduleStart (p := []) rfl (.inl ⟨rfl, rfl, rfl⟩),
      Finder.visit_concat, hInfos, List.length_map]

theorem wrapsAround_iff : map.WrapsAround ↔
    ∃ t, emit moduleRegions (stateAfter moduleRegions map.regions.reverse) (map.query 0#64) =
      some t := by
  constructor
  · rintro ⟨p, text, rodata, hRegions, hMatch, hEven⟩
    refine ⟨_, emit_eq_some.mpr ⟨text, rodata, p.reverse, ?_, rfl, hMatch, hEven⟩⟩
    rw [hRegions]
    simp
  · rintro ⟨t, hEmit⟩
    obtain ⟨text, rodata, rest, hReverse, -, hMatch, hEven⟩ := emit_eq_some.mp hEmit
    refine ⟨rest.reverse, text, rodata, ?_, hMatch, by rwa [List.reverse_reverse]⟩
    rw [← List.reverse_reverse map.regions, hReverse]
    simp

/-- A match that wraps around is no module of the map. -/
theorem wrapped_not_mem {t : MemoryInfo × MemoryInfo × MemoryInfo}
    (hEmit : emit moduleRegions (stateAfter moduleRegions map.regions.reverse) (map.query 0#64) =
      some t) : moduleInfo t ∉ map.modules := by
  intro hMem
  obtain ⟨text, rodata, rest, hReverse, rfl, -, -⟩ := emit_eq_some.mp hEmit
  have hRegions : map.regions = rest.reverse ++ text :: [rodata] := by
    rw [← List.reverse_reverse map.regions, hReverse]
    simp
  obtain ⟨⟨text', rodata', data'⟩, hMatch, hInfo⟩ := List.mem_map.mp hMem
  obtain ⟨p, s, hSplit⟩ := mem_allMatches hMatch
  have hStart : text'.addr = text.addr := congrArg (·.text.start) hInfo
  have hBefore : text' ∈ rest.reverse := by
    have hLen : p.length < rest.reverse.length := by
      have hEq := congrArg List.length (hSplit.symm.trans hRegions)
      simp only [List.length_append, List.length_cons, List.length_nil] at hEq
      omega
    have hAt : rest.reverse[p.length]? = some text' := by
      have hFront : (rest.reverse ++ text :: [rodata])[p.length]? = rest.reverse[p.length]? :=
        List.getElem?_append_left hLen
      rw [← hFront, ← hRegions, hSplit]
      simp
    exact List.mem_of_getElem? hAt
  have hSize : 0 < text'.size.toNat := by
    obtain ⟨-, -, -, hPos, -⟩ := (hSplit ▸ map.covers).split
    exact hPos
  have hBelow := (hRegions ▸ map.covers).split.1 text' hBefore
  unfold MemoryInfo.stop at hBelow
  rw [hStart] at hBelow
  omega

/-- The walk ends with a table of exactly the modules of the map, if and only if the table does
not become full, an even number of false starts lies directly before each module, and no match
wraps around. -/
theorem findModules_iff (map : MemoryMap) (moduleStart : Addr) :
    (∃ f, findModules map moduleStart = some (.ok f) ∧ f.sModuleInfos = map.modules) ↔
      map.modules.length < sMaxModules ∧
      (∀ p text rodata data s, map.regions = p ++ text :: rodata :: data :: s →
        IsMatch moduleRegions text rodata data → Even (falseStarts moduleRegions p.reverse)) ∧
      ¬ map.WrapsAround := by
  obtain ⟨f, hInfos, hFind⟩ := findModules_eq map moduleStart
  rw [← found_eq_iff, wrapsAround_iff, hFind]
  have hSublist := found_sublist (P := moduleRegions) (w := map.regions)
  constructor
  · rintro ⟨f', hOk, hTable⟩
    split at hOk
    · cases hOk
    · rename_i hRoom
      cases hOk
      have hNone : ¬ ∃ t, emit moduleRegions (stateAfter moduleRegions map.regions.reverse)
          (map.query 0#64) = some t := by
        rintro ⟨t, hEmit⟩
        refine wrapped_not_mem hEmit ?_
        rw [← hTable, hInfos, hEmit]
        simp
      rw [Option.eq_none_iff_forall_ne_some.mpr fun t ht => hNone ⟨t, ht⟩, Option.toList_none,
        List.append_nil] at hInfos
      have hLen := congrArg List.length (hInfos.symm.trans hTable)
      rw [MemoryMap.modules, List.length_map, List.length_map] at hLen
      refine ⟨?_, hSublist.eq_of_length hLen, hNone⟩
      rw [MemoryMap.modules, List.length_map, ← hLen]
      omega
  · rintro ⟨hRoom, hFound, hNone⟩
    rw [Option.eq_none_iff_forall_ne_some.mpr fun t ht => hNone ⟨t, ht⟩, Option.toList_none,
      List.append_nil, hFound] at hInfos
    rw [MemoryMap.modules, List.length_map] at hRoom
    rw [hFound, if_neg (by omega)]
    exact ⟨f, rfl, hInfos⟩

end

/-! ## A false start -/

/-- Executable code of two regions, the second of which is the text of a module. -/
def falseStart : MemoryMap where
  regions :=
    [⟨0x0, 0x1000, 0, 0⟩, ⟨0x1000, 0x1000, 3, 5⟩, ⟨0x2000, 0x1000, 3, 5⟩, ⟨0x3000, 0x1000, 3, 1⟩,
      ⟨0x4000, 0x1000, 4, 3⟩, ⟨0x5000, 0xffffffffffffb000, 0, 0⟩]
  covers := by simp [Consecutive, MemoryInfo.stop]

/-- The module behind the false start is not recorded. -/
theorem falseStart_missed : falseStart.modules.length ≤ sMaxModules ∧
    ¬ ∃ f, findModules falseStart 0x2000#64 = some (.ok f) ∧
      f.sModuleInfos = falseStart.modules := by
  have hModules : falseStart.modules.length = 1 := by decide
  refine ⟨by rw [hModules]; decide, ?_⟩
  rintro ⟨f, hFind, hTable⟩
  have hNone : (findModules falseStart 0x2000#64).map (fun e => e.toOption.map (·.sModuleInfos)) =
      some (some []) := by decide
  rw [hFind] at hNone
  have hEmpty : f.sModuleInfos = [] := by simpa [Except.toOption] using hNone
  rw [← hTable, hEmpty] at hModules
  cases hModules

end Wondar.Sys
