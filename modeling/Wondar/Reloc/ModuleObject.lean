import Wondar.Reloc.Dynamic
import Wondar.Sys.Regions

/-!
# Module objects

The linker of the process describes each module by a `ModuleObject`. `Initialize` fills it in from
the dynamic table and `Relocate` makes the relative relocations, the work of `exl_dynamic`.

Two things set them apart. `Initialize` asserts that the size of an entry with addend is not the
right one, so that it returns for no module that names the size. And `Relocate` knows no number of
entries but the one that is named; with it, the two make the same memory
(`initializeObject_relocate`).
-/

namespace Wondar.Reloc

open A64 (Addr)
open Blocks Updates Sys

/-! ## The formats -/

/-- The tags that `Initialize` reads beside those of `exl_dynamic`. -/
def dtPltrelsz : Xword := 2#64
def dtPltgot : Xword := 3#64
def dtHash : Xword := 4#64
def dtStrtab : Xword := 5#64
def dtSymtab : Xword := 6#64
def dtStrsz : Xword := 10#64
def dtSyment : Xword := 11#64
def dtInit : Xword := 12#64
def dtFini : Xword := 13#64
def dtSoname : Xword := 14#64
def dtPltrel : Xword := 20#64
def dtJmprel : Xword := 23#64

/-- The size of a symbol. -/
def sizeofElfSym : Xword := 24#64

/-- `next` and `prev` link the objects of a list. -/
structure ModuleObject where
  next : Addr
  prev : Addr
  relaOrRelPlt : Addr
  relaOrRel : Addr
  moduleBase : Addr
  dynamic : Addr
  isRela : Bool
  relaOrRelPltSize : Xword
  dtInit : Addr
  dtFini : Addr
  hashBucket : Addr
  hashChain : Addr
  dynstr : Addr
  dynsym : Addr
  dynstrSize : Xword
  got : Addr
  relaDynSize : Xword
  relDynSize : Xword
  relCount : Xword
  relaCount : Xword
  hashNchainValue : Xword
  hashNbucketValue : Xword
  gotStubPtr : Addr
  sonameIdx : Xword
  nroSize : Xword
  cannotRevertSymbols : Bool
deriving DecidableEq, Repr

namespace ModuleObject

/-- An object in memory that has been cleared. -/
def zero : ModuleObject :=
  ⟨0#64, 0#64, 0#64, 0#64, 0#64, 0#64, false, 0#64, 0#64, 0#64, 0#64, 0#64, 0#64, 0#64, 0#64, 0#64,
    0#64, 0#64, 0#64, 0#64, 0#64, 0#64, 0#64, 0#64, 0#64, false⟩

/-! ## `Initialize` -/

/-- The object and `rel_plt`. -/
structure Scan where
  object : ModuleObject
  relPlt : Addr

/-- What is set before the loop. The links and the counts keep their values. -/
def reset (m : ModuleObject) (aslrBase dynamic : Addr) : ModuleObject :=
  { m with
    nroSize := 0#64
    sonameIdx := 0#64
    cannotRevertSymbols := false
    isRela := false
    moduleBase := aslrBase
    dynamic := dynamic
    relaOrRelPltSize := 0#64
    dtInit := 0#64
    dtFini := 0#64
    hashBucket := 0#64
    hashChain := 0#64
    dynstr := 0#64
    dynsym := 0#64
    dynstrSize := 0#64
    relaOrRel := 0#64
    got := 0#64
    relaDynSize := 0#64
    relDynSize := 0#64
    gotStubPtr := 0#64 }

/-- The assertions of the `switch`. The first one has its sign wrong. -/
def dynAsserts (d : ElfDyn) : Bool :=
  if d.dTag = dtRelaent then d.dUn != sizeofElfRela
  else if d.dTag = dtSyment then d.dUn == sizeofElfSym
  else if d.dTag = dtRelent then d.dUn == sizeofElfRel
  else if d.dTag = dtPltrel then d.dUn == dtRel || d.dUn == dtRela
  else true

/-- The assignments of the `switch`. The index of the first chain is a sum of 32 bits. -/
def dynStores (mem : Memory) (aslrBase : Addr) (s : Scan) (d : ElfDyn) : Scan :=
  let m := s.object
  let ptr := aslrBase + d.dUn
  if d.dTag = dtPltrelsz then { s with object := { m with relaOrRelPltSize := d.dUn } }
  else if d.dTag = dtPltgot then { s with object := { m with got := ptr } }
  else if d.dTag = dtHash then
    let nbucket := load32 mem ptr.toNat
    let nchain := load32 mem (ptr.toNat + 4)
    { s with
      object :=
        { m with
          hashNbucketValue := nbucket.setWidth 64
          hashNchainValue := nchain.setWidth 64
          hashBucket := ptr + 8#64
          hashChain := ptr + 4#64 * (2#32 + nbucket).setWidth 64 } }
  else if d.dTag = dtStrtab then { s with object := { m with dynstr := ptr } }
  else if d.dTag = dtSymtab then { s with object := { m with dynsym := ptr } }
  else if d.dTag = dtRel then { s with object := { m with relaOrRel := ptr } }
  else if d.dTag = dtRela then { s with object := { m with relaOrRel := ptr } }
  else if d.dTag = dtRelasz then { s with object := { m with relaDynSize := d.dUn } }
  else if d.dTag = dtStrsz then { s with object := { m with dynstrSize := d.dUn } }
  else if d.dTag = Reloc.dtInit then { s with object := { m with dtInit := ptr } }
  else if d.dTag = Reloc.dtFini then { s with object := { m with dtFini := ptr } }
  else if d.dTag = dtRelsz then { s with object := { m with relDynSize := d.dUn } }
  else if d.dTag = dtPltrel then { s with object := { m with isRela := d.dUn == dtRela } }
  else if d.dTag = dtJmprel then { s with relPlt := ptr }
  else if d.dTag = dtRelacount then { s with object := { m with relaCount := d.dUn } }
  else if d.dTag = dtRelcount then { s with object := { m with relCount := d.dUn } }
  else if d.dTag = dtSoname then { s with object := { m with sonameIdx := d.dUn } }
  else s

/-- A round of the loop. An assertion that fails does not return, so it may come first. -/
def dynRound (mem : Memory) (aslrBase : Addr) (s : Scan) (d : ElfDyn) : Except Result Scan := do
  exlAssert (dynAsserts d)
  return dynStores mem aslrBase s d

/-- The loop over the tags; `none` where the rounds do not suffice. -/
def dynLoop (mem : Memory) (aslrBase : Addr) : Nat → Addr → Scan → Option (Except Result Scan)
  | 0, _, _ => none
  | rounds + 1, dynamic, s =>
    let d := readDyn mem dynamic
    if d.dTag = dtNull then some (.ok s)
    else
      match dynRound mem aslrBase s d with
      | .error r => some (.error r)
      | .ok s => dynLoop mem aslrBase rounds (dynamic + sizeofElfDyn) s

/-- `ModuleObject::Initialize`. The two counters of relative relocations are those of the object
before the call, unless a tag sets them. -/
def initializeObject (rounds : Nat) (mem : Memory) (m : ModuleObject) (aslrBase dynamic : Addr) :
    Option (Except Result ModuleObject) :=
  (dynLoop mem aslrBase rounds dynamic ⟨m.reset aslrBase dynamic, 0#64⟩).map fun done =>
    done.map fun s => { s.object with relaOrRelPlt := s.relPlt }

/-! ## `Relocate` -/

/-- The index is an `unsigned int`: it never gets to a count of 2^32 or more. -/
def relocate (m : ModuleObject) (mem : Memory) : Option Memory :=
  if m.relCount.toNat < 2 ^ 32 ∧ m.relaCount.toNat < 2 ^ 32 then
    let mem := (entryAddrs m.relaOrRel sizeofElfRel m.relCount).foldl (relRound m.moduleBase) mem
    some ((entryAddrs m.relaOrRel sizeofElfRela m.relaCount).foldl (relaRound m.moduleBase) mem)
  else none

end ModuleObject

open ModuleObject

variable {mem : Memory} {aslrBase dynamic : Addr} {ds : List ElfDyn} {m : ModuleObject} {s : Scan}

/-! ## The loop over the tags -/

theorem dynRound_ok {d : ElfDyn} (h : dynAsserts d = true) :
    dynRound mem aslrBase s d = .ok (dynStores mem aslrBase s d) := by
  rw [dynRound, h]
  rfl

theorem dynRound_error {d : ElfDyn} (h : dynAsserts d = false) :
    dynRound mem aslrBase s d = .error Results.assertionFailure := by
  rw [dynRound, h]
  rfl

/-- Where all assertions hold, the loop makes all assignments. -/
theorem dynLoop_ok (h : DynamicTable mem dynamic ds) {rounds : Nat} (hRounds : ds.length < rounds)
    (hAsserts : ∀ d ∈ ds, dynAsserts d = true) :
    dynLoop mem aslrBase rounds dynamic s = some (.ok (ds.foldl (dynStores mem aslrBase) s)) := by
  induction ds generalizing rounds dynamic s with
  | nil =>
    cases rounds with
    | zero => omega
    | succ rounds =>
      rw [dynLoop]
      exact if_pos h
  | cons d ds ih =>
    obtain ⟨hTag, hRead, hRest⟩ := h
    obtain ⟨hHead, hTail⟩ := List.forall_mem_cons.mp hAsserts
    cases rounds with
    | zero => simp at hRounds
    | succ rounds =>
      rw [List.length_cons] at hRounds
      rw [dynLoop, hRead, List.foldl_cons]
      simp only [hTag, if_false, dynRound_ok hHead]
      exact ih hRest (by omega) hTail

theorem dynLoop_error (h : DynamicTable mem dynamic ds) {rounds : Nat} (hRounds : ds.length < rounds)
    (hFails : ∃ d ∈ ds, dynAsserts d = false) :
    dynLoop mem aslrBase rounds dynamic s = some (.error Results.assertionFailure) := by
  induction ds generalizing rounds dynamic s with
  | nil =>
    obtain ⟨d, hd, -⟩ := hFails
    cases hd
  | cons d ds ih =>
    obtain ⟨hTag, hRead, hRest⟩ := h
    cases rounds with
    | zero => simp at hRounds
    | succ rounds =>
      rw [List.length_cons] at hRounds
      rw [dynLoop, hRead]
      by_cases hHead : dynAsserts d = true
      · simp only [hTag, if_false, dynRound_ok hHead]
        obtain ⟨d', hd', hFalse⟩ := hFails
        rcases List.mem_cons.mp hd' with rfl | hMem
        · rw [hHead] at hFalse
          cases hFalse
        · exact ih hRest (by omega) ⟨d', hMem, hFalse⟩
      · simp only [hTag, if_false, dynRound_error (Bool.eq_false_iff.mpr hHead)]

/-! ## What `Relocate` uses -/

/-- The parts of an object that `Relocate` reads. -/
structure Relative where
  moduleBase : Addr
  relaOrRel : Addr
  relCount : Xword
  relaCount : Xword

/-- What `Relocate` reads. -/
def ModuleObject.relative (m : ModuleObject) : Relative :=
  ⟨m.moduleBase, m.relaOrRel, m.relCount, m.relaCount⟩

/-- No tag speaks of relocations without addends. -/
def RelaOnly (ds : List ElfDyn) : Prop :=
  ∀ d ∈ ds, d.dTag ≠ dtRel ∧ d.dTag ≠ dtRelsz ∧ d.dTag ≠ dtRelcount

instance (ds : List ElfDyn) : Decidable (RelaOnly ds) :=
  inferInstanceAs (Decidable (∀ d ∈ ds, _))

theorem relative_dynStores {d : ElfDyn} (hRel : d.dTag ≠ dtRel) (hRelcount : d.dTag ≠ dtRelcount) :
    (dynStores mem aslrBase s d).object.relative =
      { s.object.relative with
        relaOrRel := if d.dTag = dtRela then aslrBase + d.dUn else s.object.relaOrRel
        relaCount := if d.dTag = dtRelacount then d.dUn else s.object.relaCount } := by
  obtain ⟨tag, un⟩ := d
  by_cases hTag : tag ∈ [dtPltrelsz, dtPltgot, dtHash, dtStrtab, dtSymtab, dtRela, dtRelasz, dtStrsz,
      dtInit, dtFini, dtRelsz, dtPltrel, dtJmprel, dtRelacount, dtSoname]
  · -- One of the tags of the switch: all comparisons are between constants.
    simp only [List.mem_cons, List.not_mem_nil, or_false] at hTag
    rcases hTag with rfl | rfl | rfl | rfl | rfl | rfl | rfl | rfl | rfl | rfl | rfl | rfl | rfl | rfl |
      rfl <;> rfl
  · simp only [List.mem_cons, List.not_mem_nil, or_false, not_or] at hTag
    simp only [dynStores, hTag, hRel, hRelcount, if_false]
    rfl

theorem relative_foldl (hOnly : RelaOnly ds) (s : Scan) :
    (ds.foldl (dynStores mem aslrBase) s).object.relative =
      { s.object.relative with
        relaOrRel := ((value dtRela ds).map (aslrBase + ·)).getD s.object.relaOrRel
        relaCount := ((value dtRelacount ds).map id).getD s.object.relaCount } := by
  induction ds generalizing s with
  | nil => rfl
  | cons d ds ih =>
    obtain ⟨⟨hRel, -, hRelcount⟩, hTail⟩ := List.forall_mem_cons.mp hOnly
    have hHead := @relative_dynStores mem aslrBase s _ hRel hRelcount
    rw [ModuleObject.relative, Relative.mk.injEq] at hHead
    rw [List.foldl_cons, ih hTail]
    simp only [value_cons, id_eq, ModuleObject.relative, hHead]

theorem value_none {tag : Xword} (h : ∀ d ∈ ds, d.dTag ≠ tag) : value tag ds = none := by
  induction ds with
  | nil => rfl
  | cons d ds ih =>
    obtain ⟨hHead, hTail⟩ := List.forall_mem_cons.mp h
    rw [value, ih hTail, if_neg hHead]
    rfl

theorem RelaOnly.value_eq (h : RelaOnly ds) :
    value dtRel ds = none ∧ value dtRelsz ds = none ∧ value dtRelcount ds = none :=
  ⟨value_none fun d hd => (h d hd).1, value_none fun d hd => (h d hd).2.1,
    value_none fun d hd => (h d hd).2.2⟩

/-- `exl_dynamic` has no entries without addend to go through. -/
theorem exlDynamic_relaOnly (hTable : DynamicTable mem dynamic ds) {rounds : Nat}
    (hRounds : ds.length < rounds) (hOnly : RelaOnly ds) (hRelaent : value dtRelaent ds = none)
    {c : Xword} (hCount : value dtRelacount ds = some c) (hc : c ≠ 0#64) :
    exlDynamic rounds mem aslrBase dynamic = some
      ((entryAddrs (((value dtRela ds).map (aslrBase + ·)).getD 0#64) sizeofElfRela c).foldl
        (relaRound aslrBase) mem) := by
  obtain ⟨hRel, hRelsz, hRelcount⟩ := hOnly.value_eq
  have hNone : entryAddrs Tags.initial.rel (((value dtRelent ds).map id).getD Tags.initial.relEntrySize)
      (0#64 / ((value dtRelent ds).map id).getD Tags.initial.relEntrySize) = [] := by
    rw [entryAddrs, BitVec.zero_udiv]
    rfl
  rw [exlDynamic, tagLoop_eq hTable hRounds, Option.map_some, collect_eq, relocate, Tags.relCount,
    Tags.relaCount]
  simp only [hRel, hRelsz, hRelcount, hRelaent, hCount, Option.map_none, Option.map_some,
    Option.getD_none, Option.getD_some, id_eq, if_neg hc]
  rw [show Tags.initial.relEntryCount = 0#64 from rfl, show Tags.initial.relSize = 0#64 from rfl,
    if_pos rfl, hNone]
  rfl

/-! ## The two loaders -/

/-- What `Relocate` finds in an object that has been initialised. -/
theorem initializeObject_ok (hTable : DynamicTable mem dynamic ds) {rounds : Nat}
    (hRounds : ds.length < rounds) (hAsserts : ∀ d ∈ ds, dynAsserts d = true) (hOnly : RelaOnly ds) :
    ∃ m', m.initializeObject rounds mem aslrBase dynamic = some (.ok m') ∧ m'.relative =
      ⟨aslrBase, ((value dtRela ds).map (aslrBase + ·)).getD 0#64, m.relCount,
        (value dtRelacount ds).getD m.relaCount⟩ := by
  refine ⟨_, by rw [initializeObject, dynLoop_ok hTable hRounds hAsserts]; rfl, ?_⟩
  have hFold := @relative_foldl mem aslrBase _ hOnly
    ⟨m.reset aslrBase dynamic, 0#64⟩
  rw [Option.map_id] at hFold
  exact hFold

theorem relocate_relaOnly {c : Xword} {rela : Addr} (h : m.relative = ⟨aslrBase, rela, 0#64, c⟩)
    (hc : c.toNat < 2 ^ 32) :
    m.relocate mem = some ((entryAddrs rela sizeofElfRela c).foldl (relaRound aslrBase) mem) := by
  rw [ModuleObject.relative, Relative.mk.injEq] at h
  obtain ⟨hBase, hRela, hRel, hCount⟩ := h
  have hNone : entryAddrs rela sizeofElfRel 0#64 = [] := rfl
  rw [ModuleObject.relocate, hBase, hRela, hRel, hCount, if_pos ⟨by decide, hc⟩, hNone]
  rfl

/-- **The two loaders.** Of a module whose relocations all have addends: the object of a table that
names the right size of an entry is never initialised. One that does not is, if the other assertions
hold; where the relative relocations are counted, `Relocate` then makes the memory that
`exl_dynamic` makes, and where they are not, none of them. -/
theorem initializeObject_relocate (hTable : DynamicTable mem dynamic ds) {rounds : Nat}
    (hRounds : ds.length < rounds) (hOnly : RelaOnly ds) (hRel : m.relCount = 0#64)
    (hRela : m.relaCount = 0#64) :
    (⟨dtRelaent, sizeofElfRela⟩ ∈ ds →
      m.initializeObject rounds mem aslrBase dynamic = some (.error Results.assertionFailure)) ∧
    ((∀ d ∈ ds, d.dTag ≠ dtRelaent ∧ dynAsserts d = true) →
      ∃ m', m.initializeObject rounds mem aslrBase dynamic = some (.ok m') ∧
        (∀ c, value dtRelacount ds = some c → c ≠ 0#64 → c.toNat < 2 ^ 32 →
          m'.relocate mem = exlDynamic rounds mem aslrBase dynamic) ∧
        (value dtRelacount ds = none → m'.relocate mem = some mem)) := by
  refine ⟨fun hRelaent => ?_, fun hAsserts => ?_⟩
  · rw [initializeObject, dynLoop_error hTable hRounds ⟨_, hRelaent, by decide⟩]
    rfl
  · obtain ⟨m', hInit, hParts⟩ := @initializeObject_ok _ aslrBase _ _ m hTable _ hRounds
      (fun d hd => (hAsserts d hd).2) hOnly
    refine ⟨m', hInit, fun c hCount hc hLt => ?_, fun hCount => ?_⟩
    · rw [hRel, hCount, Option.getD_some] at hParts
      rw [relocate_relaOnly hParts hLt, exlDynamic_relaOnly hTable hRounds hOnly
        (value_none fun d hd => (hAsserts d hd).1) hCount hc]
    · rw [hRel, hRela, hCount, Option.getD_none] at hParts
      exact relocate_relaOnly hParts (by decide)

/-! ## A module with one relocation -/

/-- A table with one relative relocation. -/
def countedTags : List ElfDyn := [⟨dtRelacount, 1#64⟩, ⟨dtRela, 0x200#64⟩, ⟨dtPltrel, dtRela⟩]

/-- The table in memory, and the relocation. -/
def countedMemory : Memory := storeAll (fun _ => 0#8)
  [(0x10100, dtRelacount), (0x10108, 1#64), (0x10110, dtRela), (0x10118, 0x200#64),
    (0x10120, dtPltrel), (0x10128, dtRela), (0x10130, dtNull),
    (0x10200, 0x400#64), (0x10208, archRelative), (0x10210, 0x20#64)]

theorem counted_table : DynamicTable countedMemory 0x10100#64 countedTags := by
  have hWord : ∀ a v, (a, v) ∈ [(0x10100, dtRelacount), (0x10108, 1#64), (0x10110, dtRela),
      (0x10118, 0x200#64), (0x10120, dtPltrel), (0x10128, dtRela), (0x10130, dtNull),
      (0x10200, 0x400#64), (0x10208, archRelative), (0x10210, 0x20#64)] →
      load64 countedMemory a = v :=
    fun a v h => load64_storeAll_mem (by decide) h
  refine ⟨by decide, ?_, by decide, ?_, by decide, ?_, hWord 0x10130 _ (by decide)⟩
  · exact congrArg₂ ElfDyn.mk (hWord 0x10100 _ (by decide)) (hWord 0x10108 _ (by decide))
  · exact congrArg₂ ElfDyn.mk (hWord 0x10110 _ (by decide)) (hWord 0x10118 _ (by decide))
  · exact congrArg₂ ElfDyn.mk (hWord 0x10120 _ (by decide)) (hWord 0x10128 _ (by decide))

theorem initializeObject_relocate_counted :
    ∃ m', zero.initializeObject 4 countedMemory 0x10000#64 0x10100#64 = some (.ok m') ∧
      m'.relocate countedMemory = exlDynamic 4 countedMemory 0x10000#64 0x10100#64 := by
  obtain ⟨m', hInit, hCounted, -⟩ := (@initializeObject_relocate _ 0x10000#64 _ _ zero
    counted_table 4 (by decide) (by decide) rfl rfl).2 (by decide)
  exact ⟨m', hInit, hCounted 1#64 (by decide) (by decide) (by decide)⟩

end Wondar.Reloc
