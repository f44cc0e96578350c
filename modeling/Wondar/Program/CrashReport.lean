import Wondar.Program.ExceptionHandler
import Wondar.Search
import Wondar.Sys.MemLayout

/-!
# The crash report

`printCrashReport` names the module of an address and walks the chain of saved frame pointers.

* A module is taken to contain its own end. The report is right for an address unless a module
  that ends there comes before the one that contains it, or nothing contains it
  (`attribution_iff`).
* The walk stops at null and at a frame that is saved in itself. It stops if and only if the
  chain runs into no longer cycle (`stackTrace_ends_iff`).
-/

namespace Wondar.CrashReport

open Function
open A64 (Addr)
open Handler (ExceptionInfo)
open Sys (Range ModuleInfo)

/-! ## The module of an address -/

/-- An entry of `modules`. -/
structure NamedModule where
  info : ModuleInfo
  name : String

/-- The modules that the report knows, in the order in which it asks them. -/
def reportModules (rtld main self nnsdk : ModuleInfo) : List NamedModule :=
  [⟨rtld, "rtld"⟩, ⟨main, "main"⟩, ⟨self, "self"⟩, ⟨nnsdk, "nnsdk"⟩]

/-- A place in a module. -/
structure ModuleAddrOffset where
  moduleName : String
  offset : BitVec 64
deriving DecidableEq, Repr

/-- The first module that has the address, or none. -/
def getAddrOffset (modules : List NamedModule) (addr : Addr) : ModuleAddrOffset :=
  match modules.find? fun module =>
    decide (addr ≥ module.info.total.start) && decide (addr ≤ module.info.total.getEnd) with
  | some module => ⟨module.name, addr - module.info.total.start⟩
  | none => ⟨"?", 0#64⟩

/-- `nn::diag::ModuleInfo`. -/
structure DiagModuleInfo where
  mPath : String
  mBaseAddr : Addr
  mSize : BitVec 64
deriving DecidableEq, Repr

/-- `none` where the source returns `false`. -/
def findContainModule (moduleInfos : List DiagModuleInfo) (addr : Addr) : Option DiagModuleInfo :=
  moduleInfos.find? fun info =>
    let moduleStart := info.mBaseAddr
    let moduleEnd := info.mBaseAddr + info.mSize
    decide (addr ≥ moduleStart) && decide (addr ≤ moduleEnd)

/-- The module and the offset that `printTraceEntry` and `printRegister` print for an address
without a symbol. -/
def containOffset (moduleInfos : List DiagModuleInfo) (addr : Addr) :
    Option (DiagModuleInfo × BitVec 64) :=
  (findContainModule moduleInfos addr).map fun containInfo =>
    (containInfo, addr - containInfo.mBaseAddr)

/-! ## The right module -/

/-- What the report takes for the module. -/
def NamedModule.range (m : NamedModule) : Range := m.info.total

/-- What the handler takes for the module. -/
def DiagModuleInfo.range (m : DiagModuleInfo) : Range := ⟨m.mBaseAddr, m.mSize⟩

/-- The addresses from the start up to the end. -/
def Contains (r : Range) (addr : Addr) : Prop := r.start ≤ addr ∧ addr < r.getEnd

instance (r : Range) (addr : Addr) : Decidable (Contains r addr) :=
  inferInstanceAs (Decidable (_ ∧ _))

section

variable {α : Type} (range : α → Range)

/-- No address is in two of the modules. -/
def Disjoint (l : List α) : Prop :=
  l.Pairwise fun m m' => ∀ addr, ¬ (Contains (range m) addr ∧ Contains (range m') addr)

/-- A module that ends at the address stands behind one that contains it. -/
def EndsBehind (l : List α) (addr : Addr) : Prop :=
  ∀ pre m post, l = pre ++ m :: post → (range m).start ≤ addr → addr = (range m).getEnd →
    ∃ m' ∈ pre, Contains (range m') addr

end

/-- `r` names the module that contains the address, with the offset in it. -/
structure Attributes (modules : List NamedModule) (addr : Addr) (r : ModuleAddrOffset) : Prop where
  named : ∀ m ∈ modules, r.moduleName = m.name ↔ Contains m.range addr
  offset : ∀ m ∈ modules, Contains m.range addr → r.offset = addr - m.range.start
  unnamed : (∀ m ∈ modules, ¬ Contains m.range addr) → r = ⟨"?", 0#64⟩

/-- `r` is the module that contains the address, with the offset in it. -/
def FindsModule (moduleInfos : List DiagModuleInfo) (addr : Addr)
    (r : Option (DiagModuleInfo × BitVec 64)) : Prop :=
  ∀ m offset, r = some (m, offset) ↔
    m ∈ moduleInfos ∧ Contains m.range addr ∧ offset = addr - m.range.start

section

variable {α : Type} {range : α → Range} {l : List α} {addr : Addr}

/-- The module that the source takes to contain the address. -/
def firstTouched (range : α → Range) (l : List α) (addr : Addr) : Option α :=
  l.find? fun m => decide (addr ≥ (range m).start) && decide (addr ≤ (range m).getEnd)

/-- The first entry whose range has the address. -/
def firstContaining (range : α → Range) (l : List α) (addr : Addr) : Option α :=
  l.find? fun m => decide (Contains (range m) addr)

/-- Modules in the order of their addresses. -/
theorem disjoint_of_sorted
    (hSorted : l.Pairwise fun m m' => (range m).getEnd ≤ (range m').start) : Disjoint range l := by
  refine hSorted.imp ?_
  rintro m m' hLe a ⟨hm, hm'⟩
  exact BitVec.not_lt.mpr (BitVec.le_trans hLe hm'.1) hm.2

/-- An address at which no module ends. -/
theorem endsBehind_of_apart (h : ∀ m ∈ l, addr ≠ (range m).getEnd) : EndsBehind range l addr := by
  rintro pre m post rfl - hAt
  exact absurd hAt (h m (List.mem_append_right pre List.mem_cons_self))

theorem firstContaining_iff (hDisjoint : Disjoint range l) {m : α} :
    firstContaining range l addr = some m ↔ m ∈ l ∧ Contains (range m) addr := by
  rw [firstContaining, Search.find?_eq_some_iff_mem, decide_eq_true_eq]
  refine hDisjoint.imp ?_
  intro x y hApart
  rw [decide_eq_true_eq, decide_eq_true_eq]
  exact hApart addr

theorem firstTouched_eq_iff :
    firstTouched range l addr = firstContaining range l addr ↔ EndsBehind range l addr := by
  rw [firstTouched, firstContaining, Search.find?_eq_find?_iff]
  · -- touched and not contained is to be at the end
    have hEnd : ∀ m, (decide (addr ≥ (range m).start) && decide (addr ≤ (range m).getEnd)) = true ∧
        decide (Contains (range m) addr) = false ↔
        (range m).start ≤ addr ∧ addr = (range m).getEnd := by
      intro m
      rw [Bool.and_eq_true, decide_eq_true_eq, decide_eq_true_eq, decide_eq_false_iff_not, Contains,
        not_and, BitVec.not_lt]
      constructor
      · rintro ⟨⟨hStart, hLe⟩, hGe⟩
        exact ⟨hStart, BitVec.le_antisymm hLe (hGe hStart)⟩
      · rintro ⟨hStart, rfl⟩
        exact ⟨⟨hStart, BitVec.le_refl _⟩, fun _ => BitVec.le_refl _⟩
    simp only [decide_eq_true_eq]
    constructor
    · intro h pre m post hl hStart hAt
      obtain ⟨hp, hq⟩ := (hEnd m).mpr ⟨hStart, hAt⟩
      exact h pre m post hl hp hq
    · intro h pre m post hl hp hq
      obtain ⟨hStart, hAt⟩ := (hEnd m).mp ⟨hp, hq⟩
      exact h pre m post hl hStart hAt
  · intro m hm
    obtain ⟨hStart, hLt⟩ := of_decide_eq_true hm
    rw [decide_eq_true hStart, decide_eq_true (BitVec.le_of_lt hLt)]
    rfl

variable {modules : List NamedModule} {moduleInfos : List DiagModuleInfo}

theorem getAddrOffset_eq : getAddrOffset modules addr =
    match firstTouched NamedModule.range modules addr with
    | some m => ⟨m.name, addr - m.range.start⟩
    | none => ⟨"?", 0#64⟩ := rfl

theorem findContainModule_eq :
    findContainModule moduleInfos addr = firstTouched DiagModuleInfo.range moduleInfos addr := rfl

theorem containOffset_iff (hDisjoint : Disjoint DiagModuleInfo.range moduleInfos) :
    FindsModule moduleInfos addr (containOffset moduleInfos addr) ↔
      EndsBehind DiagModuleInfo.range moduleInfos addr := by
  have hMap : ∀ found : Option DiagModuleInfo, ∀ m offset,
      (found.map fun containInfo => (containInfo, addr - containInfo.mBaseAddr)) = some (m, offset) ↔
        found = some m ∧ offset = addr - m.range.start := by
    intro found m offset
    rw [Option.map_eq_some_iff]
    constructor
    · rintro ⟨m', hFound, hEq⟩
      cases hEq
      exact ⟨hFound, rfl⟩
    · rintro ⟨hFound, rfl⟩
      exact ⟨m, hFound, rfl⟩
  rw [← firstTouched_eq_iff, FindsModule, containOffset, findContainModule_eq]
  constructor
  · intro hFinds
    apply Option.ext
    intro m
    have hIff := hFinds m (addr - m.range.start)
    rw [hMap, and_iff_left rfl] at hIff
    rw [hIff, firstContaining_iff hDisjoint, and_iff_left rfl]
  · intro hEq m offset
    rw [hEq, hMap, firstContaining_iff hDisjoint, and_assoc]

/-- Names that tell the modules apart, and from the answer that there is none. -/
def Named (modules : List NamedModule) : Prop :=
  (modules.map NamedModule.name).Nodup ∧ ∀ m ∈ modules, m.name ≠ "?"

theorem reportModules_named (rtld main self nnsdk : ModuleInfo) :
    Named (reportModules rtld main self nnsdk) := by
  refine ⟨?_, ?_⟩
  · simp [reportModules]
  · simp [reportModules]

theorem Named.eq_of_name {m m' : NamedModule} (hNamed : Named modules) (hm : m ∈ modules)
    (hm' : m' ∈ modules) (hEq : m.name = m'.name) : m = m' :=
  List.inj_on_of_nodup_map hNamed.1 hm hm' hEq

/-- The module that contains the address is the right answer. -/
theorem attributes_some (hNamed : Named modules) (hDisjoint : Disjoint NamedModule.range modules)
    {m : NamedModule} (hFound : firstContaining NamedModule.range modules addr = some m) :
    Attributes modules addr ⟨m.name, addr - m.range.start⟩ := by
  obtain ⟨hm, hContains⟩ := (firstContaining_iff hDisjoint).mp hFound
  have hOnly : ∀ m' ∈ modules, Contains m'.range addr → m' = m := by
    intro m' hm' hContains'
    have := (firstContaining_iff hDisjoint).mpr ⟨hm', hContains'⟩
    rw [hFound] at this
    exact (Option.some.inj this).symm
  constructor
  · intro m' hm'
    constructor
    · intro hName
      rw [← hNamed.eq_of_name hm hm' hName]
      exact hContains
    · intro hContains'
      rw [hOnly m' hm' hContains']
  · intro m' hm' hContains'
    rw [hOnly m' hm' hContains']
  · intro hNone
    exact absurd hContains (hNone m hm)

/-- The answer that there is none is right where nothing contains the address. -/
theorem attributes_none (hNamed : Named modules)
    (hFound : firstContaining NamedModule.range modules addr = none) :
    Attributes modules addr ⟨"?", 0#64⟩ := by
  have hNone : ∀ m ∈ modules, ¬ Contains m.range addr := by
    intro m hm hContains
    exact List.find?_eq_none.mp hFound m hm (decide_eq_true hContains)
  constructor
  · intro m hm
    exact iff_of_false (hNamed.2 m hm).symm (hNone m hm)
  · intro m hm hContains
    exact absurd hContains (hNone m hm)
  · intro _
    rfl

theorem getAddrOffset_iff (hNamed : Named modules)
    (hDisjoint : Disjoint NamedModule.range modules) :
    Attributes modules addr (getAddrOffset modules addr) ↔
      EndsBehind NamedModule.range modules addr := by
  rw [← firstTouched_eq_iff, getAddrOffset_eq]
  constructor
  · intro hRight
    rcases hFound : firstTouched NamedModule.range modules addr with _ | m
    · -- nothing is named, so nothing contains the address
      rw [hFound] at hRight
      symm
      rw [firstContaining, List.find?_eq_none]
      intro m hm hContains
      have hName := (hRight.named m hm).mpr (of_decide_eq_true hContains)
      exact hNamed.2 m hm hName.symm
    · rw [hFound] at hRight
      have hm : m ∈ modules := List.mem_of_find?_eq_some hFound
      exact ((firstContaining_iff hDisjoint).mpr ⟨hm, (hRight.named m hm).mp rfl⟩).symm
  · intro hEq
    rw [hEq]
    rcases hFound : firstContaining NamedModule.range modules addr with _ | m
    · exact attributes_none hNamed hFound
    · exact attributes_some hNamed hDisjoint hFound

/-- Both searches name the right module unless the address is the end of one that comes first. -/
theorem attribution_iff (rtld main self nnsdk : ModuleInfo) (moduleInfos : List DiagModuleInfo)
    (addr : Addr) (hModules : Disjoint NamedModule.range (reportModules rtld main self nnsdk))
    (hInfos : Disjoint DiagModuleInfo.range moduleInfos) :
    (Attributes (reportModules rtld main self nnsdk) addr
        (getAddrOffset (reportModules rtld main self nnsdk) addr) ↔
      EndsBehind NamedModule.range (reportModules rtld main self nnsdk) addr) ∧
    (FindsModule moduleInfos addr (containOffset moduleInfos addr) ↔
      EndsBehind DiagModuleInfo.range moduleInfos addr) :=
  ⟨getAddrOffset_iff (reportModules_named rtld main self nnsdk) hModules,
    containOffset_iff hInfos⟩

/-! Four modules of a page each, the second of which ends where the third starts. -/

/-- A module of one page. -/
def page (start : Addr) : ModuleInfo := { ModuleInfo.zero with total := ⟨start, 0x1000#64⟩ }

/-- Two of the modules touch each other. -/
def adjacent : List NamedModule :=
  reportModules (page 0x1000#64) (page 0x3000#64) (page 0x4000#64) (page 0x8000#64)

/-- The same two as the handler has them. -/
def adjacentInfos : List DiagModuleInfo :=
  [⟨"main", 0x3000#64, 0x1000#64⟩, ⟨"self", 0x4000#64, 0x1000#64⟩]

theorem adjacent_disjoint : Disjoint NamedModule.range adjacent ∧
    Disjoint DiagModuleInfo.range adjacentInfos :=
  ⟨disjoint_of_sorted (by decide), disjoint_of_sorted (by decide)⟩

/-- An address inside a module. -/
theorem attribution_iff_inside :
    Attributes adjacent 0x4010#64 ⟨"self", 0x10#64⟩ ∧
      FindsModule adjacentInfos 0x4010#64 (some (⟨"self", 0x4000#64, 0x1000#64⟩, 0x10#64)) := by
  obtain ⟨hOffset, hContain⟩ := attribution_iff (page 0x1000#64) (page 0x3000#64) (page 0x4000#64)
    (page 0x8000#64) adjacentInfos 0x4010#64 adjacent_disjoint.1 adjacent_disjoint.2
  refine ⟨hOffset.mpr ?_, hContain.mpr ?_⟩
  · exact endsBehind_of_apart (by decide)
  · exact endsBehind_of_apart (by decide)

/-- The first address of a module that another one ends at. -/
theorem attribution_adjacent_fails :
    Disjoint NamedModule.range adjacent ∧ Disjoint DiagModuleInfo.range adjacentInfos ∧
      getAddrOffset adjacent 0x4000#64 = ⟨"main", 0x1000#64⟩ ∧
      ¬ Attributes adjacent 0x4000#64 (getAddrOffset adjacent 0x4000#64) ∧
      ¬ FindsModule adjacentInfos 0x4000#64 (containOffset adjacentInfos 0x4000#64) := by
  refine ⟨adjacent_disjoint.1, adjacent_disjoint.2, by decide, ?_, ?_⟩
  · intro hRight
    have hSelf := (hRight.named ⟨page 0x4000#64, "self"⟩ (by simp [adjacent, reportModules])).mpr
      (by decide)
    exact absurd hSelf (by decide)
  · intro hFinds
    have hSelf := (hFinds ⟨"self", 0x4000#64, 0x1000#64⟩ 0#64).mpr (by decide)
    exact absurd hSelf (by decide)

end

/-! ## The walk over the frames -/

/-- A line of the stack trace; the place is printed when its offset is not zero. -/
structure ReturnAddress where
  i : Nat
  address : BitVec 64
  place : Option ModuleAddrOffset
deriving DecidableEq, Repr

section

variable (load : Addr → BitVec 64) (modules : List NamedModule)

/-- A line of the report, with a place only if it is not the start of a module. -/
def returnAddress (i : Nat) (frame : Addr) : ReturnAddress where
  i := i
  address := load (frame + 8#64)
  place :=
    let offset := getAddrOffset modules (load (frame + 8#64))
    if offset.offset ≠ 0#64 then some offset else none

/-- The loop of `printCrashReport` over `frame` and `prevFrame`; `load` gives the eight bytes at
an address. `none` where the fuel does not suffice. -/
def stackTrace : Nat → Addr → Addr → Nat → Option (List ReturnAddress)
  | 0, _, _, _ => none
  | fuel + 1, frame, prevFrame, i =>
    if frame ≠ 0#64 ∧ prevFrame ≠ frame then
      (stackTrace fuel (load frame) frame (i + 1)).map (returnAddress load modules i frame :: ·)
    else some []

/-- The stack trace of `printCrashReport` ends. -/
def StackTraceEnds (info : ExceptionInfo) : Prop :=
  ∃ fuel lines, stackTrace load modules fuel info.fp 0#64 0 = some lines

/-- The frame that a frame is called from; null is not read. -/
def savedFrame (frame : Addr) : Addr := if frame = 0#64 then 0#64 else load frame

/-- No frame of the chain is on a cycle with others. -/
def Acyclic (frame : Addr) : Prop :=
  ∀ n, (savedFrame load)^[n] frame ∈ periodicPts (savedFrame load) →
    IsFixedPt (savedFrame load) ((savedFrame load)^[n] frame)

variable {load modules}

theorem finite_addr : Finite Addr := Finite.of_injective BitVec.toFin (fun _ _ => BitVec.eq_of_toFin_eq)

theorem savedFrame_null : IsFixedPt (savedFrame load) 0#64 := if_pos rfl

theorem savedFrame_of_ne {frame : Addr} (h : frame ≠ 0#64) : savedFrame load frame = load frame :=
  if_neg h

theorem stackTrace_stop {fuel i : Nat} {frame prevFrame : Addr}
    (h : frame = 0#64 ∨ prevFrame = frame) :
    stackTrace load modules (fuel + 1) frame prevFrame i = some [] := by
  rw [stackTrace, if_neg]
  rintro ⟨hFrame, hPrev⟩
  exact h.elim hFrame hPrev

/-- A walk that ends has come to rest. -/
theorem settles_of_stackTrace {fuel i : Nat} {frame prevFrame : Addr} {lines : List ReturnAddress}
    (hPrev : prevFrame = frame → IsFixedPt (savedFrame load) frame)
    (h : stackTrace load modules fuel frame prevFrame i = some lines) :
    ∃ n, IsFixedPt (savedFrame load) ((savedFrame load)^[n] frame) := by
  induction fuel generalizing frame prevFrame i lines with
  | zero => cases h
  | succ fuel ih =>
    by_cases hGo : frame ≠ 0#64 ∧ prevFrame ≠ frame
    · rw [stackTrace, if_pos hGo, Option.map_eq_some_iff] at h
      obtain ⟨rest, hRest, -⟩ := h
      have hSaved : savedFrame load frame = load frame := savedFrame_of_ne hGo.1
      obtain ⟨n, hn⟩ := ih (fun hSelf => by
        rw [← hSelf, IsFixedPt, hSaved]
        exact hSelf.symm) hRest
      refine ⟨n + 1, ?_⟩
      rw [iterate_succ_apply, hSaved]
      exact hn
    · refine ⟨0, ?_⟩
      by_cases hNull : frame = 0#64
      · rw [hNull]
        exact savedFrame_null
      · exact hPrev (by_contra fun hNe => hGo ⟨hNull, hNe⟩)

/-- A walk over a chain that comes to rest ends one turn later. -/
theorem stackTrace_of_settles {n i : Nat} {frame prevFrame : Addr}
    (h : IsFixedPt (savedFrame load) ((savedFrame load)^[n] frame)) :
    ∃ lines, stackTrace load modules (n + 2) frame prevFrame i = some lines := by
  induction n generalizing frame prevFrame i with
  | zero =>
    by_cases hGo : frame ≠ 0#64 ∧ prevFrame ≠ frame
    · have hSelf : load frame = frame := (savedFrame_of_ne hGo.1).symm.trans h
      rw [stackTrace, if_pos hGo, hSelf, stackTrace_stop (.inr rfl)]
      exact ⟨_, rfl⟩
    · rw [stackTrace, if_neg hGo]
      exact ⟨_, rfl⟩
  | succ n ih =>
    by_cases hGo : frame ≠ 0#64 ∧ prevFrame ≠ frame
    · rw [iterate_succ_apply, savedFrame_of_ne hGo.1] at h
      obtain ⟨rest, hRest⟩ : ∃ rest,
          stackTrace load modules (n + 2) (load frame) frame (i + 1) = some rest := ih h
      rw [stackTrace, if_pos hGo, hRest]
      exact ⟨_, rfl⟩
    · rw [stackTrace, if_neg hGo]
      exact ⟨_, rfl⟩

variable (load modules)

/-- The walk ends if and only if the chain of frames runs into no cycle of two or more. -/
theorem stackTrace_ends_iff (info : ExceptionInfo) :
    StackTraceEnds load modules info ↔ Acyclic load info.fp := by
  have := finite_addr
  rw [Acyclic, ← Search.settles_iff]
  constructor
  · rintro ⟨fuel, lines, h⟩
    refine settles_of_stackTrace ?_ h
    intro hNull
    rw [← hNull]
    exact savedFrame_null
  · rintro ⟨n, hn⟩
    exact ⟨n + 2, stackTrace_of_settles hn⟩

end

-- two frames with return addresses in a module
example : stackTrace (fun a => if a = 0x5000#64 then 0x5040#64 else if a = 0x5008#64 then 0x3010#64 else 0#64)
    adjacent 3 0x5000#64 0#64 0 =
      some [⟨0, 0x3010#64, some ⟨"main", 0x10#64⟩⟩, ⟨1, 0#64, none⟩] := by
  decide

/-- Two frames saved in each other. -/
def twoFrames (a : Addr) : BitVec 64 :=
  if a = 0x1000#64 then 0x2000#64 else if a = 0x2000#64 then 0x1000#64 else 0#64

theorem twoFrames_iterate (n : Nat) :
    (savedFrame twoFrames)^[n] 0x1000#64 = 0x1000#64 ∨
      (savedFrame twoFrames)^[n] 0x1000#64 = 0x2000#64 := by
  induction n with
  | zero => exact .inl rfl
  | succ n ih =>
    rw [iterate_succ_apply']
    obtain hAt | hAt := ih
    · rw [hAt]
      exact .inr (by decide)
    · rw [hAt]
      exact .inl (by decide)

theorem stackTrace_twoFrames_fails :
    ¬ StackTraceEnds twoFrames adjacent { Handler.sampleInfo with fp := 0x1000#64 } := by
  rintro ⟨fuel, lines, h⟩
  obtain ⟨n, hFixed⟩ := settles_of_stackTrace (fun hNull => absurd hNull (by decide)) h
  obtain hAt | hAt := twoFrames_iterate n
  · rw [hAt] at hFixed
    exact absurd hFixed (by decide)
  · rw [hAt] at hFixed
    exact absurd hFixed (by decide)

end Wondar.CrashReport
