import Wondar.Sys.MemLayout

/-!
# The table of modules

What `FindModules` does with its table of `s_MaxModules` entries. `findRounds` has the local
variables behind each round of the loop; it queries the regions in the order of their addresses
and never stores behind the table (`rounds_queried`, `rounds_bounded`).

The check of the count is at the head of the loop, which goes round once more behind the last
module. So a full table is taken for too many modules: the walk is aborted if and only if it
finds `s_MaxModules` modules or more, not more than that (`findModules_capacity_iff`).
-/

namespace Wondar.Sys

open A64
open Recogniser

/-- The local variables behind each round of the loop. -/
def findRounds (map : MemoryMap) (moduleStart : Addr) : Nat → Finder → List Finder
  | 0, _ => []
  | rounds + 1, f =>
    if sMaxModules ≤ f.sModuleInfos.length then []
    else
      let f := f.read moduleStart (map.query f.nextAddr)
      f :: if f.prevOffset ≤ f.offset then findRounds map moduleStart rounds f else []

/-- What `svcQueryMemory` answers in the course of `FindModules`. -/
def queried (map : MemoryMap) (moduleStart : Addr) : List MemoryInfo :=
  (findRounds map moduleStart (map.regions.length + 1) .initial).map Finder.meminfo

/-- The modules of a map that an even number of false starts lies directly before. -/
def MemoryMap.clearModules (map : MemoryMap) : List ModuleInfo :=
  (clearMatches moduleRegions [] map.regions).map moduleInfo

/-! ## The rounds -/

namespace Finder

variable (moduleStart : Addr)

/-- The rounds over a list of regions. -/
def rounds (f : Finder) : List MemoryInfo → List Finder
  | [] => []
  | r :: rs =>
    if sMaxModules ≤ f.sModuleInfos.length then []
    else f.read moduleStart r :: (f.read moduleStart r).rounds rs

variable {moduleStart}

@[simp]
theorem read_meminfo (f : Finder) (r : MemoryInfo) : (f.read moduleStart r).meminfo = r := by
  rw [read, advance_meminfo]

/-- A round stores one module at most. -/
theorem length_read_le (f : Finder) (r : MemoryInfo) :
    (f.read moduleStart r).sModuleInfos.length ≤ f.sModuleInfos.length + 1 := by
  unfold read advance
  repeat' split
  all_goals simp [reset, store]

theorem rounds_bounded {f f' : Finder} {rs : List MemoryInfo}
    (h : f' ∈ f.rounds moduleStart rs) : f'.sModuleInfos.length ≤ sMaxModules := by
  induction rs generalizing f with
  | nil => cases h
  | cons r rs ih =>
    rw [rounds] at h
    split at h
    · cases h
    · rename_i hRoom
      obtain rfl | h := List.mem_cons.mp h
      · have hOne : (f.read moduleStart r).sModuleInfos.length ≤ f.sModuleInfos.length + 1 :=
          length_read_le f r
        omega
      · exact ih h

theorem rounds_queried (f : Finder) (rs : List MemoryInfo) :
    (f.rounds moduleStart rs).map meminfo <+: rs := by
  induction rs generalizing f with
  | nil => exact List.prefix_refl _
  | cons r rs ih =>
    rw [rounds]
    split
    · exact List.nil_prefix
    · rw [List.map_cons, read_meminfo, List.cons_prefix_cons]
      exact ⟨rfl, ih _⟩

/-- A walk that is not aborted makes every round. -/
theorem rounds_of_ok {f f' : Finder} {rs : List MemoryInfo} (h : f.visit moduleStart rs = .ok f') :
    (f.rounds moduleStart rs).map meminfo = rs := by
  induction rs generalizing f with
  | nil => rfl
  | cons r rs ih =>
    rw [visit] at h
    rw [rounds]
    split at h
    · cases h
    · rename_i hRoom
      rw [if_neg hRoom, List.map_cons, read_meminfo, ih h]

end Finder

variable {map : MemoryMap} {moduleStart : Addr}

theorem findRounds_eq {p s : List MemoryInfo} {f : Finder} (hRegions : map.regions = p ++ s)
    (hBehind : f.Behind p) :
    findRounds map moduleStart (s.length + 1) f =
      f.rounds moduleStart (s ++ [map.query 0#64]) := by
  induction s generalizing p f with
  | nil =>
    rw [List.append_nil] at hRegions
    have hAll : f.Behind map.regions := hRegions ▸ hBehind
    have hExit := hAll.exits moduleStart
    obtain ⟨hNext, -⟩ := hAll.wraps
    rw [List.length_nil, findRounds, hNext, List.nil_append, Finder.rounds]
    simp only [hExit, if_false, Finder.rounds]
  | cons r s ih =>
    obtain ⟨hQuery, -⟩ := hBehind.query hRegions
    have hStay := hBehind.stays moduleStart hRegions
    have hNext : findRounds map moduleStart (s.length + 1) (f.read moduleStart r) =
        (f.read moduleStart r).rounds moduleStart (s ++ [map.query 0#64]) := by
      refine ih ?_ (f.behind_read moduleStart p r)
      rw [hRegions, List.append_assoc, List.singleton_append]
    rw [List.length_cons, findRounds, hQuery, List.cons_append, Finder.rounds]
    simp only [hStay, if_true, hNext]

/-- The rounds of `FindModules`. -/
theorem rounds_initial : findRounds map moduleStart (map.regions.length + 1) .initial =
    Finder.initial.rounds moduleStart (map.regions ++ [map.query 0#64]) :=
  findRounds_eq (p := []) rfl (.inl ⟨rfl, rfl, rfl⟩)

theorem findModules_visit : findModules map moduleStart =
    some (Finder.initial.visit moduleStart (map.regions ++ [map.query 0#64])) :=
  findLoop_eq moduleStart (p := []) rfl (.inl ⟨rfl, rfl, rfl⟩)

/-! ## The count -/

theorem found_length : (found moduleRegions .start map.regions).length = map.clearModules.length := by
  rw [MemoryMap.clearModules, List.length_map, found_eq_clearMatches]

theorem clearModules_length_le : map.clearModules.length ≤ map.modules.length := by
  rw [← found_length, MemoryMap.modules, List.length_map]
  exact found_sublist.length_le

/-- A table that is full is one with too many modules. -/
theorem findModules_aborts_iff :
    findModules map moduleStart = some (.error Results.tooManyStaticModules) ↔
      sMaxModules ≤ map.clearModules.length := by
  obtain ⟨f, -, hFind⟩ := findModules_eq map moduleStart
  rw [hFind, found_length]
  split
  · rename_i hFull
    exact iff_of_true rfl hFull
  · rename_i hRoom
    refine iff_of_false ?_ hRoom
    intro h
    cases h

/-- The map has fewer modules than the table has entries; or as many, one of which a false start
hides; or more, enough of which nothing hides. -/
def MemoryMap.CountedRight (map : MemoryMap) : Prop :=
  map.modules.length < sMaxModules ∨
    (map.modules.length = sMaxModules ∧ map.clearModules.length < sMaxModules) ∨
    (sMaxModules < map.modules.length ∧ sMaxModules ≤ map.clearModules.length)

theorem countedRight_iff : map.CountedRight ↔
    (sMaxModules ≤ map.clearModules.length ↔ sMaxModules < map.modules.length) := by
  have hLe : map.clearModules.length ≤ map.modules.length := clearModules_length_le
  unfold MemoryMap.CountedRight
  omega

/-- The walk ends, queries the regions in order and stays in the table. It is aborted exactly when
the map has more modules than the table has entries, if and only if the modules are counted
right. -/
theorem findModules_capacity_iff (map : MemoryMap) (moduleStart : Addr) :
    (∃ e, findModules map moduleStart = some e ∧
      ∀ f, e = .ok f → queried map moduleStart = map.regions ++ [map.query 0#64]) ∧
    queried map moduleStart <+: map.regions ++ [map.query 0#64] ∧
    (∀ f ∈ findRounds map moduleStart (map.regions.length + 1) .initial,
      f.sModuleInfos.length ≤ sMaxModules) ∧
    ((findModules map moduleStart = some (.error Results.tooManyStaticModules) ↔
      sMaxModules < map.modules.length) ↔ map.CountedRight) := by
  refine ⟨?_, ?_, ?_, ?_⟩
  · refine ⟨_, findModules_visit, ?_⟩
    intro f hOk
    rw [queried, rounds_initial]
    exact Finder.rounds_of_ok hOk
  · rw [queried, rounds_initial]
    exact Finder.rounds_queried .initial _
  · intro f hf
    rw [rounds_initial] at hf
    exact Finder.rounds_bounded hf
  · rw [findModules_aborts_iff, countedRight_iff]

/-! ## A full table -/

/-- Thirteen modules, and nothing behind them. -/
def fullMap : MemoryMap where
  regions :=
    (List.range 13).flatMap (fun i =>
      [⟨.ofNat 64 (0x3000 * i), 0x1000, 3, 5⟩, ⟨.ofNat 64 (0x3000 * i + 0x1000), 0x1000, 3, 1⟩,
        ⟨.ofNat 64 (0x3000 * i + 0x2000), 0x1000, 4, 3⟩]) ++
      [⟨0x27000, 0xfffffffffffd9000, 0, 0⟩]
  covers := by simp [Consecutive, MemoryInfo.stop, List.range, List.range.loop]

/-- The map that fills the table is not accepted. -/
theorem fullMap_aborts : fullMap.modules.length = sMaxModules ∧
    findModules fullMap 0#64 = some (.error Results.tooManyStaticModules) := by
  have hClear : fullMap.clearModules.length = 13 := by decide
  refine ⟨by decide, findModules_aborts_iff.mpr ?_⟩
  rw [hClear]
  decide

end Wondar.Sys
