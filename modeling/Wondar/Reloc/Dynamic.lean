import Wondar.A64.Bits
import Wondar.Updates

/-!
# Relocating the module itself

`exl_dynamic` reads the dynamic table, which names two tables of relocations by their addresses,
sizes and numbers of entries, and adds the load base to what the relative relocations name.

A dynamic table has its tags in any order; the number of relative relocations may be missing
(`DynamicTable`). Where the relative relocations come first, as that number promises, and their
targets lie apart from each other and from the entries, each of them is applied exactly once and
nothing else changes (`exlDynamic_relocates`).
-/

namespace Wondar.Reloc

open A64 (Addr)
open Blocks Updates

/-! ## The formats -/

/-- A doubleword of a table. -/
abbrev Xword := BitVec 64

/-- The tags. -/
def dtNull : Xword := 0#64
def dtRela : Xword := 7#64
def dtRelasz : Xword := 8#64
def dtRelaent : Xword := 9#64
def dtRel : Xword := 17#64
def dtRelsz : Xword := 18#64
def dtRelent : Xword := 19#64
def dtRelacount : Xword := 0x6ffffff9#64
def dtRelcount : Xword := 0x6ffffffa#64

/-- The sizes of the entries. -/
def sizeofElfDyn : Xword := 16#64
def sizeofElfRel : Xword := 16#64
def sizeofElfRela : Xword := 24#64

/-- `R_AARCH64_RELATIVE`. -/
def archRelative : Xword := 1027#64

/-- `ELF64_R_TYPE`. -/
def elfRType (info : Xword) : Xword := info &&& 0xffffffff#64

/-- A tag with its value. -/
structure ElfDyn where
  dTag : Xword
  dUn : Xword
deriving DecidableEq, Repr

/-- The entry of the dynamic table at an address. -/
def readDyn (mem : Memory) (dynamic : Addr) : ElfDyn :=
  ⟨load64 mem dynamic.toNat, load64 mem (dynamic.toNat + 8)⟩

/-! The fields of an entry of either table. -/

/-- The fields of a relocation. -/
def rOffset (mem : Memory) (entry : Addr) : Xword := load64 mem entry.toNat
def rInfo (mem : Memory) (entry : Addr) : Xword := load64 mem (entry.toNat + 8)
def rAddend (mem : Memory) (entry : Addr) : Xword := load64 mem (entry.toNat + 16)

/-- The loader makes this relocation, and no other. -/
def isRelative (mem : Memory) (entry : Addr) : Bool := elfRType (rInfo mem entry) == archRelative

/-- The word that a relocation is for. -/
def target (mem : Memory) (aslrBase entry : Addr) : Addr := aslrBase + rOffset mem entry

/-- The entries of a table. -/
def entryAddrs (table entrySize count : Xword) : List Addr :=
  (List.range count.toNat).map fun i => table + BitVec.ofNat 64 i * entrySize

/-! ## `exl_dynamic` -/

/-- The variables that the tags are collected in. -/
structure Tags where
  rela : Addr
  rel : Addr
  relaEntrySize : Xword
  relEntrySize : Xword
  relaEntryCount : Xword
  relEntryCount : Xword
  relaSize : Xword
  relSize : Xword
deriving DecidableEq, Repr

namespace Tags

/-- What the variables of the function start with. -/
def initial : Tags where
  rela := 0#64
  rel := 0#64
  relaEntrySize := sizeofElfRela
  relEntrySize := sizeofElfRel
  relaEntryCount := 0#64
  relEntryCount := 0#64
  relaSize := 0#64
  relSize := 0#64

/-- The `switch`. -/
def collect (aslrBase : Addr) (t : Tags) (d : ElfDyn) : Tags :=
  if d.dTag = dtRela then { t with rela := aslrBase + d.dUn }
  else if d.dTag = dtRelaent then { t with relaEntrySize := d.dUn }
  else if d.dTag = dtRelasz then { t with relaSize := d.dUn }
  else if d.dTag = dtRel then { t with rel := aslrBase + d.dUn }
  else if d.dTag = dtRelent then { t with relEntrySize := d.dUn }
  else if d.dTag = dtRelsz then { t with relSize := d.dUn }
  else if d.dTag = dtRelacount then { t with relaEntryCount := d.dUn }
  else if d.dTag = dtRelcount then { t with relEntryCount := d.dUn }
  else t

/-- Without a count there are as many entries as fit. A size of zero divides to zero, as `udiv`
has it. -/
def relaCount (t : Tags) : Xword :=
  if t.relaEntryCount = 0#64 then t.relaSize / t.relaEntrySize else t.relaEntryCount

/-- A count that no tag gives is taken from the size of the table. -/
def relCount (t : Tags) : Xword :=
  if t.relEntryCount = 0#64 then t.relSize / t.relEntrySize else t.relEntryCount

end Tags

/-- The loop over the tags; `none` where the rounds do not suffice. -/
def tagLoop (mem : Memory) (aslrBase : Addr) : Nat → Addr → Tags → Option Tags
  | 0, _, _ => none
  | rounds + 1, dynamic, t =>
    let d := readDyn mem dynamic
    if d.dTag = dtNull then some t
    else tagLoop mem aslrBase rounds (dynamic + sizeofElfDyn) (t.collect aslrBase d)

/-- A round of the loop over the entries without addend. -/
def relRound (aslrBase : Addr) (mem : Memory) (entry : Addr) : Memory :=
  if elfRType (rInfo mem entry) = archRelative then
    let ptr := aslrBase + rOffset mem entry
    store64 mem ptr.toNat (load64 mem ptr.toNat + aslrBase)
  else mem

/-- A round of the loop over the entries with addend. -/
def relaRound (aslrBase : Addr) (mem : Memory) (entry : Addr) : Memory :=
  if elfRType (rInfo mem entry) = archRelative then
    let ptr := aslrBase + rOffset mem entry
    store64 mem ptr.toNat (aslrBase + rAddend mem entry)
  else mem

/-- The two loops, the one over the entries without addend first. -/
def relocate (aslrBase : Addr) (t : Tags) (mem : Memory) : Memory :=
  let mem := (entryAddrs t.rel t.relEntrySize t.relCount).foldl (relRound aslrBase) mem
  (entryAddrs t.rela t.relaEntrySize t.relaCount).foldl (relaRound aslrBase) mem

/-- The function: the loop over the tags, and then the two loops over the relocations. -/
def exlDynamic (rounds : Nat) (mem : Memory) (aslrBase dynamic : Addr) : Option Memory :=
  (tagLoop mem aslrBase rounds dynamic .initial).map fun t => relocate aslrBase t mem

/-! ## Dynamic tables -/

/-- The tags from an address on, up to the one that ends the table. -/
def DynamicTable (mem : Memory) : Addr → List ElfDyn → Prop
  | dynamic, [] => (readDyn mem dynamic).dTag = dtNull
  | dynamic, d :: ds =>
    d.dTag ≠ dtNull ∧ readDyn mem dynamic = d ∧ DynamicTable mem (dynamic + sizeofElfDyn) ds

/-- The value of a tag, wherever it stands. If a tag is there twice the last one counts. -/
def value (tag : Xword) : List ElfDyn → Option Xword
  | [] => none
  | d :: ds => (value tag ds).or (if d.dTag = tag then some d.dUn else none)

/-- The entries of a table by the tags of its address, its size and the size of its entries. -/
def tableOf (aslrBase : Addr) (ds : List ElfDyn) (address size entrySize : Xword)
    (sizeofEntry : Xword) : List Addr :=
  let entrySize := (value entrySize ds).getD sizeofEntry
  entryAddrs (((value address ds).map (aslrBase + ·)).getD 0#64) entrySize
    ((value size ds).getD 0#64 / entrySize)

/-- The relocations without addends, by their addresses. -/
def relTable (aslrBase : Addr) (ds : List ElfDyn) : List Addr :=
  tableOf aslrBase ds dtRel dtRelsz dtRelent sizeofElfRel

/-- The relocations with addends, by their addresses. -/
def relaTable (aslrBase : Addr) (ds : List ElfDyn) : List Addr :=
  tableOf aslrBase ds dtRela dtRelasz dtRelaent sizeofElfRela

/-- The relative relocations come first, and the count, if there is one, is their number. -/
def RelativeFirst (mem : Memory) (table : List Addr) (count : Option Xword) : Prop :=
  ∃ front back, table = front ++ back ∧ (∀ e ∈ front, isRelative mem e = true) ∧
    (∀ e ∈ back, isRelative mem e = false) ∧ ∀ c, count = some c → c.toNat = front.length

/-- The targets of the relative relocations. -/
def targets (mem : Memory) (aslrBase : Addr) (table : List Addr) : List Addr :=
  (table.filter (isRelative mem)).map (target mem aslrBase)

/-- Two ranges of bytes do not overlap. -/
def ApartBytes (a : Addr) (n : Nat) (b : Addr) (k : Nat) : Prop :=
  a.toNat + n ≤ b.toNat ∨ b.toNat + k ≤ a.toNat

instance (a : Addr) (n : Nat) (b : Addr) (k : Nat) : Decidable (ApartBytes a n b k) :=
  inferInstanceAs (Decidable (_ ∨ _))

/-- A dynamic table with relocations that can be applied in any order. -/
structure WellFormed (mem : Memory) (aslrBase : Addr) (ds : List ElfDyn) : Prop where
  rel : RelativeFirst mem (relTable aslrBase ds) (value dtRelcount ds)
  rela : RelativeFirst mem (relaTable aslrBase ds) (value dtRelacount ds)
  apart : (targets mem aslrBase (relTable aslrBase ds) ++
    targets mem aslrBase (relaTable aslrBase ds)).Pairwise fun t t' => ApartBytes t 8 t' 8
  clear : ∀ t ∈ targets mem aslrBase (relTable aslrBase ds) ++
      targets mem aslrBase (relaTable aslrBase ds),
    (∀ e ∈ relTable aslrBase ds, ApartBytes t 8 e 16) ∧
      ∀ e ∈ relaTable aslrBase ds, ApartBytes t 8 e 24

/-- Each relative relocation has been applied exactly once, and nothing else has changed. -/
structure Relocated (mem mem' : Memory) (aslrBase : Addr) (ds : List ElfDyn) : Prop where
  rel : ∀ e ∈ relTable aslrBase ds, isRelative mem e = true →
    load64 mem' (target mem aslrBase e).toNat =
      load64 mem (target mem aslrBase e).toNat + aslrBase
  rela : ∀ e ∈ relaTable aslrBase ds, isRelative mem e = true →
    load64 mem' (target mem aslrBase e).toNat = aslrBase + rAddend mem e
  frame : ∀ b, (∀ t ∈ targets mem aslrBase (relTable aslrBase ds) ++
      targets mem aslrBase (relaTable aslrBase ds), ¬ (t.toNat ≤ b ∧ b < t.toNat + 8)) →
    mem' b = mem b

section

variable {mem mem' : Memory} {aslrBase dynamic : Addr} {ds : List ElfDyn} {t : Tags}

/-! ## The tags -/

theorem tagLoop_eq (h : DynamicTable mem dynamic ds) {rounds : Nat} (hRounds : ds.length < rounds) :
    tagLoop mem aslrBase rounds dynamic t = some (ds.foldl (Tags.collect aslrBase) t) := by
  induction ds generalizing rounds dynamic t with
  | nil =>
    cases rounds with
    | zero => omega
    | succ rounds =>
      rw [tagLoop]
      exact if_pos h
  | cons d ds ih =>
    obtain ⟨hTag, hRead, hRest⟩ := h
    cases rounds with
    | zero => simp at hRounds
    | succ rounds =>
      rw [List.length_cons] at hRounds
      rw [tagLoop, hRead, List.foldl_cons]
      simp only [hTag, if_false]
      exact ih hRest (by omega)

/-- Each tag sets a variable of its own. -/
theorem collect_fields (t : Tags) (d : ElfDyn) : t.collect aslrBase d =
    { rela := if d.dTag = dtRela then aslrBase + d.dUn else t.rela
      rel := if d.dTag = dtRel then aslrBase + d.dUn else t.rel
      relaEntrySize := if d.dTag = dtRelaent then d.dUn else t.relaEntrySize
      relEntrySize := if d.dTag = dtRelent then d.dUn else t.relEntrySize
      relaEntryCount := if d.dTag = dtRelacount then d.dUn else t.relaEntryCount
      relEntryCount := if d.dTag = dtRelcount then d.dUn else t.relEntryCount
      relaSize := if d.dTag = dtRelasz then d.dUn else t.relaSize
      relSize := if d.dTag = dtRelsz then d.dUn else t.relSize } := by
  obtain ⟨tag, un⟩ := d
  by_cases hTag : tag ∈ [dtRela, dtRelaent, dtRelasz, dtRel, dtRelent, dtRelsz, dtRelacount,
      dtRelcount]
  · -- One of the tags of the switch: all comparisons are between constants.
    simp only [List.mem_cons, List.not_mem_nil, or_false] at hTag
    rcases hTag with rfl | rfl | rfl | rfl | rfl | rfl | rfl | rfl <;> rfl
  · simp only [List.mem_cons, List.not_mem_nil, or_false, not_or] at hTag
    obtain ⟨hRela, hRelaent, hRelasz, hRel, hRelent, hRelsz, hRelacount, hRelcount⟩ := hTag
    simp only [Tags.collect, if_neg hRela, if_neg hRelaent, if_neg hRelasz, if_neg hRel,
      if_neg hRelent, if_neg hRelsz, if_neg hRelacount, if_neg hRelcount]

theorem value_cons {α : Type} (tag : Xword) (d : ElfDyn) (set : Xword → α) (x : α) :
    ((value tag (d :: ds)).map set).getD x =
      ((value tag ds).map set).getD (if d.dTag = tag then set d.dUn else x) := by
  rw [value]
  cases value tag ds with
  | some v => rfl
  | none =>
    rw [Option.none_or]
    split <;> rfl

variable (aslrBase ds) in
/-- What the tags are collected to. -/
theorem collect_eq (t : Tags) : ds.foldl (Tags.collect aslrBase) t =
    { rela := ((value dtRela ds).map (aslrBase + ·)).getD t.rela
      rel := ((value dtRel ds).map (aslrBase + ·)).getD t.rel
      relaEntrySize := ((value dtRelaent ds).map id).getD t.relaEntrySize
      relEntrySize := ((value dtRelent ds).map id).getD t.relEntrySize
      relaEntryCount := ((value dtRelacount ds).map id).getD t.relaEntryCount
      relEntryCount := ((value dtRelcount ds).map id).getD t.relEntryCount
      relaSize := ((value dtRelasz ds).map id).getD t.relaSize
      relSize := ((value dtRelsz ds).map id).getD t.relSize } := by
  induction ds generalizing t with
  | nil => rfl
  | cons d ds ih =>
    rw [List.foldl_cons, ih, collect_fields]
    simp only [value_cons, id_eq]

/-! ## The entries -/

theorem length_entryAddrs (table entrySize count : Xword) :
    (entryAddrs table entrySize count).length = count.toNat := by
  rw [entryAddrs, List.length_map, List.length_range]

theorem take_entryAddrs {table entrySize count count' : Xword} (h : count'.toNat ≤ count.toNat) :
    (entryAddrs table entrySize count).take count'.toNat = entryAddrs table entrySize count' := by
  rw [entryAddrs, entryAddrs, ← List.map_take, List.take_range, Nat.min_eq_left h]

/-- Whether the relative relocations are counted or not, the loops meet all of them. -/
theorem counted_entries {table entrySize n c : Xword} {count : Option Xword}
    (hFirst : RelativeFirst mem (entryAddrs table entrySize n) count) (hCount : c = count.getD 0#64) :
    entryAddrs table entrySize (if c = 0#64 then n else c) <+: entryAddrs table entrySize n ∧
      (entryAddrs table entrySize (if c = 0#64 then n else c)).filter (isRelative mem) =
        (entryAddrs table entrySize n).filter (isRelative mem) := by
  by_cases hZero : c = 0#64
  · rw [if_pos hZero]
    exact ⟨List.prefix_refl _, rfl⟩
  · rw [if_neg hZero]
    obtain ⟨front, back, hTable, hFront, hBack, hNumber⟩ := hFirst
    have hSome : count = some c := by
      cases count with
      | none => exact absurd hCount hZero
      | some c' => exact congrArg some hCount.symm
    have hLength : c.toNat = front.length := hNumber c hSome
    have hLe : c.toNat ≤ n.toNat := by
      have hAll := congrArg List.length hTable
      rw [length_entryAddrs, List.length_append] at hAll
      omega
    have hTake : entryAddrs table entrySize c = front := by
      rw [← take_entryAddrs hLe, hTable, hLength, List.take_left]
    have hNone : back.filter (isRelative mem) = [] := by
      apply List.filter_eq_nil_iff.mpr
      intro e he hRelative
      rw [hBack e he] at hRelative
      cases hRelative
    rw [hTake, hTable, List.filter_append, hNone, List.append_nil]
    exact ⟨List.prefix_append front back, rfl⟩

/-! ## The updates -/

/-- What an entry without addend changes. -/
def relUpdate (aslrBase : Addr) (mem : Memory) (entry : Addr) : Update :=
  ⟨(target mem aslrBase entry).toNat, fun word => word + aslrBase⟩

/-- What an entry with addend changes. -/
def relaUpdate (aslrBase : Addr) (mem : Memory) (entry : Addr) : Update :=
  ⟨(target mem aslrBase entry).toNat, fun _ => aslrBase + rAddend mem entry⟩

/-- The update of an entry, of the table without addends on the left and of the other one on the
right. -/
def listed (aslrBase : Addr) (mem : Memory) : Addr ⊕ Addr → Option Update
  | .inl e => if isRelative mem e then some (relUpdate aslrBase mem e) else none
  | .inr e => if isRelative mem e then some (relaUpdate aslrBase mem e) else none

variable (mem aslrBase ds) in
/-- The updates of both tables. -/
def updates : List Update :=
  ((relTable aslrBase ds).filter (isRelative mem)).map (relUpdate aslrBase mem) ++
    ((relaTable aslrBase ds).filter (isRelative mem)).map (relaUpdate aslrBase mem)

/-- A round makes the update of its entry. -/
theorem round_eq {entry : Addr ⊕ Addr} {e : Addr} {u : Update}
    (hListed : listed aslrBase mem entry = if isRelative mem e then some u else none)
    (hUpdate : mem' = update mem u) :
    (if elfRType (rInfo mem e) = archRelative then mem' else mem) =
      applyEntry (listed aslrBase) mem entry := by
  by_cases h : elfRType (rInfo mem e) = archRelative
  · rw [if_pos (show isRelative mem e = true from beq_iff_eq.mpr h)] at hListed
    rw [if_pos h, applyEntry, hListed, hUpdate]
  · rw [if_neg (show ¬ isRelative mem e = true from mt beq_iff_eq.mp h)] at hListed
    rw [if_neg h, applyEntry, hListed]

theorem relRound_eq (mem : Memory) (e : Addr) :
    relRound aslrBase mem e = applyEntry (listed aslrBase) mem (.inl e) := by
  rw [relRound]
  exact round_eq (u := relUpdate aslrBase mem e) rfl rfl

theorem relaRound_eq (mem : Memory) (e : Addr) :
    relaRound aslrBase mem e = applyEntry (listed aslrBase) mem (.inr e) := by
  rw [relaRound]
  exact round_eq (u := relaUpdate aslrBase mem e) rfl rfl

variable (aslrBase mem t) in
/-- The two loops make the updates of their entries. -/
theorem relocate_eq : relocate aslrBase t mem = applyAll (listed aslrBase) mem
    ((entryAddrs t.rel t.relEntrySize t.relCount).map .inl ++
      (entryAddrs t.rela t.relaEntrySize t.relaCount).map .inr) := by
  have hRel : relRound aslrBase = fun mem e => applyEntry (listed aslrBase) mem (.inl e) :=
    funext fun mem => funext fun e => relRound_eq mem e
  have hRela : relaRound aslrBase = fun mem e => applyEntry (listed aslrBase) mem (.inr e) :=
    funext fun mem => funext fun e => relaRound_eq mem e
  rw [relocate, applyAll, List.foldl_append, List.foldl_map, List.foldl_map, hRel, hRela]

/-- The entries that the loops meet list the updates of both tables. -/
theorem filterMap_listed {rels relas : List Addr}
    (hRels : rels.filter (isRelative mem) = (relTable aslrBase ds).filter (isRelative mem))
    (hRelas : relas.filter (isRelative mem) = (relaTable aslrBase ds).filter (isRelative mem)) :
    (rels.map Sum.inl ++ relas.map Sum.inr).filterMap (listed aslrBase mem) =
      updates mem aslrBase ds := by
  rw [List.filterMap_append, List.filterMap_map, List.filterMap_map]
  change rels.filterMap (fun e => if isRelative mem e then some (relUpdate aslrBase mem e) else none) ++
    relas.filterMap (fun e => if isRelative mem e then some (relaUpdate aslrBase mem e) else none) = _
  rw [← List.filterMap_filter, ← List.filterMap_filter, List.filterMap_eq_map',
    List.filterMap_eq_map', hRels, hRelas]
  rfl

theorem map_addr_updates : (updates mem aslrBase ds).map Update.addr =
    (targets mem aslrBase (relTable aslrBase ds) ++
      targets mem aslrBase (relaTable aslrBase ds)).map BitVec.toNat := by
  simp only [updates, targets, List.map_append, List.map_map]
  rfl

/-- An update is for a target, and a target has one. -/
theorem forall_updates (P : Nat → Prop) : (∀ u ∈ updates mem aslrBase ds, P u.addr) ↔
    ∀ t ∈ targets mem aslrBase (relTable aslrBase ds) ++
      targets mem aslrBase (relaTable aslrBase ds), P t.toNat := by
  rw [← List.forall_mem_map, map_addr_updates, List.forall_mem_map]

theorem WellFormed.updates_apart (hFormed : WellFormed mem aslrBase ds) :
    (updates mem aslrBase ds).Pairwise Update.Apart := by
  have hAddrs : ((updates mem aslrBase ds).map Update.addr).Pairwise
      fun a b => a + 8 ≤ b ∨ b + 8 ≤ a := by
    rw [map_addr_updates]
    exact List.pairwise_map.mpr hFormed.apart
  exact (List.pairwise_map (f := Update.addr)).mp hAddrs

/-- A word of an entry that no update covers. -/
theorem field_kept {e : Addr} {n : Nat} (offset : Nat)
    (hSame : ∀ b, (∀ u ∈ updates mem aslrBase ds, ¬ u.Covers b) → mem' b = mem b)
    (hClear : ∀ u ∈ updates mem aslrBase ds, u.addr + 8 ≤ e.toNat ∨ e.toNat + n ≤ u.addr)
    (hField : offset + 8 ≤ n) : load64 mem' (e.toNat + offset) = load64 mem (e.toNat + offset) := by
  apply load64_congr
  intro i hi
  apply hSame
  intro u hu hCovers
  have hApart := hClear u hu
  unfold Update.Covers at hCovers
  omega

/-- The first two words of an entry that no update covers. -/
theorem entry_kept {e : Addr} {n : Nat} (hn : 16 ≤ n)
    (hSame : ∀ b, (∀ u ∈ updates mem aslrBase ds, ¬ u.Covers b) → mem' b = mem b)
    (hClear : ∀ u ∈ updates mem aslrBase ds, u.addr + 8 ≤ e.toNat ∨ e.toNat + n ≤ u.addr) :
    target mem' aslrBase e = target mem aslrBase e ∧ isRelative mem' e = isRelative mem e := by
  have hOffset : rOffset mem' e = rOffset mem e := field_kept 0 hSame hClear (by omega)
  have hInfo : rInfo mem' e = rInfo mem e := field_kept 8 hSame hClear (by omega)
  exact ⟨by rw [target, target, hOffset], by rw [isRelative, isRelative, hInfo]⟩

/-- The updates leave the entries alone. -/
theorem WellFormed.stable (hFormed : WellFormed mem aslrBase ds) {rels relas : List Addr}
    (hRels : rels ⊆ relTable aslrBase ds) (hRelas : relas ⊆ relaTable aslrBase ds) :
    Stable (listed aslrBase) mem (updates mem aslrBase ds) (rels.map .inl ++ relas.map .inr) := by
  intro mem' hSame entry hEntry
  rcases List.mem_append.mp hEntry with hMem | hMem
  · obtain ⟨e, he, rfl⟩ := List.mem_map.mp hMem
    have hClear : ∀ u ∈ updates mem aslrBase ds, u.addr + 8 ≤ e.toNat ∨ e.toNat + 16 ≤ u.addr :=
      (forall_updates fun a => a + 8 ≤ e.toNat ∨ e.toNat + 16 ≤ a).mpr
        fun t ht => (hFormed.clear t ht).1 e (hRels he)
    obtain ⟨hTarget, hRelative⟩ := entry_kept (by decide) hSame hClear
    rw [listed, listed, hRelative, relUpdate, relUpdate, hTarget]
  · obtain ⟨e, he, rfl⟩ := List.mem_map.mp hMem
    have hClear : ∀ u ∈ updates mem aslrBase ds, u.addr + 8 ≤ e.toNat ∨ e.toNat + 24 ≤ u.addr :=
      (forall_updates fun a => a + 8 ≤ e.toNat ∨ e.toNat + 24 ≤ a).mpr
        fun t ht => (hFormed.clear t ht).2 e (hRelas he)
    obtain ⟨hTarget, hRelative⟩ := entry_kept (by decide) hSame hClear
    have hAddend : rAddend mem' e = rAddend mem e := field_kept 16 hSame hClear (by decide)
    rw [listed, listed, hRelative, relaUpdate, relaUpdate, hTarget, hAddend]

/-- The loops make the updates of both tables. -/
theorem WellFormed.relocate_eq (hFormed : WellFormed mem aslrBase ds) :
    relocate aslrBase (ds.foldl (Tags.collect aslrBase) .initial) mem =
      updateAll mem (updates mem aslrBase ds) := by
  have hRel := counted_entries hFormed.rel (c := (value dtRelcount ds).getD 0#64) rfl
  have hRela := counted_entries hFormed.rela (c := (value dtRelacount ds).getD 0#64) rfl
  have hUpdates := filterMap_listed hRel.2 hRela.2
  have hAll := applyAll_eq (fun u hu => hUpdates ▸ hu) (hFormed.stable hRel.1.subset hRela.1.subset)
  rw [hUpdates] at hAll
  rw [Reloc.relocate_eq, collect_eq]
  simp only [Option.map_id, id_eq]
  exact hAll

/-- Updates that lie apart relocate. -/
theorem WellFormed.relocated (hFormed : WellFormed mem aslrBase ds) :
    Relocated mem (updateAll mem (updates mem aslrBase ds)) aslrBase ds where
  rel e he hRelative := by
    have hMem : relUpdate aslrBase mem e ∈ updates mem aslrBase ds :=
      List.mem_append_left _ (List.mem_map_of_mem (List.mem_filter.mpr ⟨he, hRelative⟩))
    exact load64_updateAll (u := relUpdate aslrBase mem e) hFormed.updates_apart hMem
  rela e he hRelative := by
    have hMem : relaUpdate aslrBase mem e ∈ updates mem aslrBase ds :=
      List.mem_append_right _ (List.mem_map_of_mem (List.mem_filter.mpr ⟨he, hRelative⟩))
    exact load64_updateAll (u := relaUpdate aslrBase mem e) hFormed.updates_apart hMem
  frame b hb := updateAll_frame ((forall_updates fun a => ¬ (a ≤ b ∧ b < a + 8)).mpr hb)

/-- For any load base and any dynamic table whose relocations are well formed, `exl_dynamic` ends,
with each relative relocation applied exactly once. -/
theorem exlDynamic_relocates (hTable : DynamicTable mem dynamic ds)
    (hFormed : WellFormed mem aslrBase ds) :
    ∃ mem', (∀ rounds, ds.length < rounds → exlDynamic rounds mem aslrBase dynamic = some mem') ∧
      Relocated mem mem' aslrBase ds := by
  refine ⟨_, fun rounds hRounds => ?_, hFormed.relocated⟩
  rw [exlDynamic, tagLoop_eq hTable hRounds, Option.map_some, hFormed.relocate_eq]

end

/-! ## A module with both tables -/

/-- The tags of a module whose table with addends has two entries, one of which is counted. -/
def sampleTags : List ElfDyn :=
  [⟨dtRelacount, 1#64⟩, ⟨dtRel, 0x300#64⟩, ⟨dtRela, 0x200#64⟩, ⟨dtRelasz, 48#64⟩,
    ⟨dtRelsz, 16#64⟩]

/-- The module at 0x10000, with its dynamic table at 0x10100. -/
def sampleWords : List (Nat × Xword) :=
  [(0x10100, dtRelacount), (0x10108, 1#64), (0x10110, dtRel), (0x10118, 0x300#64),
    (0x10120, dtRela), (0x10128, 0x200#64), (0x10130, dtRelasz), (0x10138, 48#64),
    (0x10140, dtRelsz), (0x10148, 16#64), (0x10150, dtNull),
    (0x10200, 0x400#64), (0x10208, archRelative), (0x10210, 0x20#64),
    (0x10218, 0x500#64), (0x10220, 257#64),
    (0x10300, 0x408#64), (0x10308, archRelative),
    (0x10408, 0x30#64)]

/-- A module at 0x10000. -/
def sampleMemory : Memory := storeAll (fun _ => 0#8) sampleWords

theorem sample_word {a : Nat} {v : Xword} (h : (a, v) ∈ sampleWords) : load64 sampleMemory a = v :=
  load64_storeAll_mem (by decide) h

theorem sample_dyn {a : Addr} {d : ElfDyn} (hTag : (a.toNat, d.dTag) ∈ sampleWords)
    (hValue : (a.toNat + 8, d.dUn) ∈ sampleWords) : readDyn sampleMemory a = d := by
  rw [readDyn, sample_word hTag, sample_word hValue]

theorem sample_table : DynamicTable sampleMemory 0x10100#64 sampleTags :=
  ⟨by decide, sample_dyn (by decide) (by decide),
    by decide, sample_dyn (by decide) (by decide),
    by decide, sample_dyn (by decide) (by decide),
    by decide, sample_dyn (by decide) (by decide),
    by decide, sample_dyn (by decide) (by decide), sample_word (by decide)⟩

theorem sample_relTable : relTable 0x10000#64 sampleTags = [0x10300#64] := by decide

theorem sample_relaTable : relaTable 0x10000#64 sampleTags = [0x10200#64, 0x10218#64] := by decide

theorem sample_relative {e : Addr} (info : Xword) (h : (e.toNat + 8, info) ∈ sampleWords) :
    isRelative sampleMemory e = (elfRType info == archRelative) := by
  rw [isRelative, rInfo, sample_word h]

theorem sample_first : isRelative sampleMemory 0x10300#64 = true ∧
    isRelative sampleMemory 0x10200#64 = true ∧ isRelative sampleMemory 0x10218#64 = false :=
  ⟨(sample_relative archRelative (by decide)).trans (by decide),
    (sample_relative archRelative (by decide)).trans (by decide),
    (sample_relative 257#64 (by decide)).trans (by decide)⟩

theorem sample_targets :
    targets sampleMemory 0x10000#64 (relTable 0x10000#64 sampleTags) = [0x10408#64] ∧
      targets sampleMemory 0x10000#64 (relaTable 0x10000#64 sampleTags) = [0x10400#64] := by
  have hRel : rOffset sampleMemory 0x10300#64 = 0x408#64 := sample_word (by decide)
  have hRela : rOffset sampleMemory 0x10200#64 = 0x400#64 := sample_word (by decide)
  obtain ⟨hFirst, hSecond, hThird⟩ := sample_first
  simp [sample_relTable, sample_relaTable, targets, target, hFirst, hSecond, hThird, hRel, hRela]

theorem sample_wellFormed : WellFormed sampleMemory 0x10000#64 sampleTags where
  rel := ⟨[0x10300#64], [], sample_relTable, by simp [sample_first], by simp,
    fun _ h => by cases h⟩
  rela := ⟨[0x10200#64], [0x10218#64], sample_relaTable, by simp [sample_first],
    by simp [sample_first], fun _ h => by cases h; rfl⟩
  apart := by
    rw [sample_targets.1, sample_targets.2]
    decide
  clear := by
    rw [sample_targets.1, sample_targets.2, sample_relTable, sample_relaTable]
    simp [ApartBytes]

theorem exlDynamic_relocates_sample : ∃ mem',
    (∀ rounds, sampleTags.length < rounds →
      exlDynamic rounds sampleMemory 0x10000#64 0x10100#64 = some mem') ∧
      Relocated sampleMemory mem' 0x10000#64 sampleTags :=
  exlDynamic_relocates sample_table sample_wellFormed

end Wondar.Reloc
