import Wondar.Reloc.Symbols

/-!
# Binding symbols

`ResolveSymbols` writes the addresses of the symbols that a module uses. The slots of its PLT are
either bound then, or set to a stub that binds each one when it is first called.

What a symbol is bound to is read off the tables of the modules (`Linker.symbolValue`), which the
searches find where the tables are filed (`tryResolveSymbol_eq`).

Where the words to be written lie apart from each other and all slots name the same stub, each word
gets its value and nothing else changes (`resolveSymbols_links`). In every run of calls through the
PLT, a module that is bound lazily calls the same functions as one that is bound at once
(`lazy_eq_eager`).
-/

namespace Wondar.Reloc

open A64 (Addr)
open Blocks Chains CString Updates

/-! ## Resolving a symbol -/

/-- The types of the relocations that need a symbol. -/
def archAbs64 : Xword := 257#64
def archAbs32 : Xword := 258#64
def archGlobDat : Xword := 1025#64
def archJumpSlot : Xword := 1026#64

/-- `ELF64_R_SYM`. -/
def elfRSym (info : Xword) : BitVec 32 := (info >>> 32).setWidth 32

/-- `false` is `some none`; `none` where the rounds do not suffice. -/
def Linker.tryResolveSymbol (L : Linker) (rounds : Nat) (m : ModuleObject) (symbol : Addr) :
    Option (Option Addr) :=
  let s := L.img.sym symbol
  let name := m.nameOf L.img s
  if elfStVisibility s.stOther ≠ 0#8 then
    (m.getSymbolByName L.img rounds name).map fun found =>
      match found with
      | some target => some (m.moduleBase + (L.img.sym target).stValue)
      | none => if elfStBind s.stInfo &&& stbWeak = stbWeak then some 0#64 else none
  else
    (L.lookupGlobalAuto rounds name).map fun address =>
      let address :=
        if address = 0#64 then
          match L.lookupGlobalManual with
          | some lookup => lookup name
          | none => address
        else address
      if address ≠ 0#64 then some address else none

namespace Linker

section

variable (L : Linker) (ms : List Addr) (symbols : Addr → List (BitVec 32)) (own : List (BitVec 32))
  (m : ModuleObject) (symbol : Addr)

/-- What the symbol at `symbol` is bound to, as the tables have it: a hidden symbol to the one of
the module itself, another one to what the first of the modules `ms` exports, and failing that to
what the manual lookup gives. -/
def symbolValue : Option Addr :=
  let s := L.img.sym symbol
  let name := m.nameOf L.img s
  if elfStVisibility s.stOther ≠ 0#8 then
    match own.find? (m.isNamed L.img name) with
    | some i => some (m.moduleBase + (L.img.sym (m.symAt i)).stValue)
    | none => if elfStBind s.stInfo &&& stbWeak = stbWeak then some 0#64 else none
  else
    let exported := (ms.findSome? (L.exported symbols name)).getD 0#64
    let address :=
      if exported = 0#64 then
        match L.lookupGlobalManual with
        | some lookup => lookup name
        | none => exported
      else exported
    if address ≠ 0#64 then some address else none

/-- The tables that are searched for the symbol are filed, its hashes agree on their buckets, and
none of them has the name twice. -/
structure Sought : Prop where
  filed : elfStVisibility (L.img.sym symbol).stOther ≠ 0#8 → Filed L.img m own
  bucket : elfStVisibility (L.img.sym symbol).stOther ≠ 0#8 → m.hashNbucketValue.toNat ∣ 2 ^ 32 ∨
    (rtldElfHash (m.nameOf L.img (L.img.sym symbol))).toNat < 2 ^ 32
  unique : elfStVisibility (L.img.sym symbol).stOther ≠ 0#8 → ∀ i ∈ own, ∀ j ∈ own,
    Defines L.img m (m.nameOf L.img (L.img.sym symbol)) i →
    Defines L.img m (m.nameOf L.img (L.img.sym symbol)) j → i = j
  others : elfStVisibility (L.img.sym symbol).stOther = 0#8 →
    L.Searchable ms symbols (m.nameOf L.img (L.img.sym symbol))

end

end Linker

/-- A symbol is resolved to what the tables have for it. -/
theorem tryResolveSymbol_eq {L : Linker} {ms : List Addr} {symbols : Addr → List (BitVec 32)}
    {own : List (BitVec 32)} {m : ModuleObject} {symbol : Addr} (hLists : L.Lists ms)
    (h : L.Sought ms symbols own m symbol) {rounds : Nat} (hModules : ms.length < rounds)
    (hSymbols : ∀ a ∈ ms, (symbols a).length < rounds) (hOwn : own.length < rounds) :
    L.tryResolveSymbol rounds m symbol = some (L.symbolValue ms symbols own m symbol) := by
  rw [Linker.tryResolveSymbol, Linker.symbolValue]
  dsimp only
  split
  · rename_i hHidden
    rw [getSymbolByName_eq (h.filed hHidden) (h.bucket hHidden) (h.unique hHidden) hOwn,
      Option.map_some]
    cases own.find? (m.isNamed L.img (m.nameOf L.img (L.img.sym symbol))) <;> rfl
  · rename_i hShown
    rw [lookupGlobalAuto_eq hLists (h.others (not_not.mp hShown)) hModules hSymbols,
      Option.map_some]

/-! ## The relocations -/

/-- An entry of either table. `put` is the word that replaces the old one, for the address of the
symbol. -/
structure Entry where
  rOffset : Xword
  rInfo : Xword
  put : Xword → Addr → Xword

/-- The addend is what the target holds. -/
def ElfRel.entry (e : ElfRel) : Entry := ⟨e.rOffset, e.rInfo, fun old address => old + address⟩

/-- The addend is the one of the entry, and what the target holds is lost. -/
def ElfRela.entry (e : ElfRela) : Entry := ⟨e.rOffset, e.rInfo, fun _ address => address + e.rAddend⟩

namespace Entry

/-- `ARCH_IS_REL_ABSOLUTE(r_type) || r_type == ARCH_GLOB_DAT`. -/
def isAbsolute (e : Entry) : Bool :=
  elfRType e.rInfo == archAbs32 || elfRType e.rInfo == archAbs64 || elfRType e.rInfo == archGlobDat

/-- The entry is the slot of a function. -/
def isJumpSlot (e : Entry) : Bool := elfRType e.rInfo == archJumpSlot

/-- The symbol that the entry names. -/
def symbol (e : Entry) (m : ModuleObject) : Addr := m.symAt (elfRSym e.rInfo)

/-- The address that the entry changes. -/
def target (e : Entry) (m : ModuleObject) : Nat := (m.moduleBase + e.rOffset).toNat

end Entry

/-- The object and the memory that the relocations are for. -/
structure Binding where
  object : ModuleObject
  mem : Memory

/-- `none` where a search does not end. -/
abbrev Outcome := Option (Except Result Binding)

/-- Goes on unless an assertion has failed or a search has not ended. -/
def Outcome.andThen (o : Outcome) (f : Binding → Outcome) : Outcome :=
  match o with
  | some (.ok b) => f b
  | o => o

namespace Linker

variable (L : Linker) (rounds : Nat)

/-- An unresolved symbol is reported at most, and nothing reports it. -/
def resolveAbsolute (b : Binding) (e : Entry) : Outcome :=
  if e.isAbsolute then
    (L.tryResolveSymbol rounds b.object (e.symbol b.object)).map fun found =>
      match found with
      | some address =>
        let target := e.target b.object
        .ok { b with mem := store64 b.mem target (e.put (load64 b.mem target) address) }
      | none => .ok b
  else some (.ok b)

/-- The four functions differ in the table and in the kind of the entry. -/
def resolveSymbolRelAbsolute (b : Binding) (entry : Addr) : Outcome :=
  L.resolveAbsolute rounds b (L.img.rel entry).entry

def resolveSymbolRelaAbsolute (b : Binding) (entry : Addr) : Outcome :=
  L.resolveAbsolute rounds b (L.img.rela entry).entry

/-- What the two functions do with the slot of a function. A slot that is not bound has the offset of
its stub, which is the same for all slots. -/
def resolveJumpSlot (doLazyGotInit : Bool) (b : Binding) (e : Entry) : Outcome :=
  if e.isJumpSlot then
    let m := b.object
    let target := e.target m
    let targetAddress := m.moduleBase + load64 b.mem target
    let mem := if doLazyGotInit then store64 b.mem target targetAddress else b.mem
    -- the assertion that all slots have the same stub
    if m.gotStubPtr ≠ 0#64 ∧ m.gotStubPtr ≠ targetAddress then
      some (.error Results.assertionFailure)
    else
      let m := if m.gotStubPtr ≠ 0#64 then m else { m with gotStubPtr := targetAddress }
      if doLazyGotInit then some (.ok ⟨m, mem⟩)
      else
        (L.tryResolveSymbol rounds m (e.symbol m)).map fun found =>
          match found with
          | some address => .ok ⟨m, store64 mem target (e.put (load64 mem target) address)⟩
          | none => .ok ⟨m, store64 mem target targetAddress⟩
  else some (.ok b)

def resolveSymbolRelJumpSlot (doLazyGotInit : Bool) (b : Binding) (entry : Addr) : Outcome :=
  L.resolveJumpSlot rounds doLazyGotInit b (L.img.rel entry).entry

def resolveSymbolRelaJumpSlot (doLazyGotInit : Bool) (b : Binding) (entry : Addr) : Outcome :=
  L.resolveJumpSlot rounds doLazyGotInit b (L.img.rela entry).entry

end Linker

/-- The entries one after another. -/
def entryLoop (f : Binding → Addr → Outcome) : List Addr → Binding → Outcome
  | [], b => some (.ok b)
  | entry :: entries, b => (f b entry).andThen (entryLoop f entries)

namespace ModuleObject

variable (m : ModuleObject)

/-- The entries behind the counted ones. -/
def relEntries : List Addr :=
  (entryAddrs m.relaOrRel sizeofElfRel (m.relDynSize / sizeofElfRel)).drop m.relCount.toNat

/-- The entries behind the relative ones, which the table has first. -/
def relaEntries : List Addr :=
  (entryAddrs m.relaOrRel sizeofElfRela (m.relaDynSize / sizeofElfRela)).drop m.relaCount.toNat

/-- The entries of the PLT are all of one kind. -/
def sizeofPltEntry : Xword := if m.isRela then sizeofElfRela else sizeofElfRel

/-- How many entries the PLT has. -/
def pltCount : Xword := m.relaOrRelPltSize / m.sizeofPltEntry

/-- The entries of the PLT, by their addresses. -/
def pltEntries : List Addr := entryAddrs m.relaOrRelPlt m.sizeofPltEntry m.pltCount

end ModuleObject

namespace Linker

variable (L : Linker) (rounds : Nat)

/-- The loop over the slots. Its index is an `unsigned int`, which never gets to 2^32. -/
def resolveSlots (doLazyGotInit : Bool) (b : Binding) : Outcome :=
  if b.object.pltCount.toNat < 2 ^ 32 then
    if b.object.isRela then
      entryLoop (L.resolveSymbolRelaJumpSlot rounds doLazyGotInit) b.object.pltEntries b
    else entryLoop (L.resolveSymbolRelJumpSlot rounds doLazyGotInit) b.object.pltEntries b
  else none

/-- The two words by which the stub finds the linker. -/
def setGot (this runtimeResolve : Addr) (b : Binding) : Outcome :=
  if b.object.got ≠ 0#64 then
    let mem := store64 b.mem (b.object.got + 8#64).toNat this
    some (.ok { b with mem := store64 mem (b.object.got + 16#64).toNat runtimeResolve })
  else some (.ok b)

/-- `this` is the address of the object. -/
def resolveSymbols (this runtimeResolve : Addr) (doLazyGotInit : Bool) (b : Binding) : Outcome :=
  (((entryLoop (L.resolveSymbolRelAbsolute rounds) b.object.relEntries b).andThen
    (entryLoop (L.resolveSymbolRelaAbsolute rounds) b.object.relaEntries)).andThen
      (L.resolveSlots rounds doLazyGotInit)).andThen (setGot this runtimeResolve)

/-- `__rtld_lazy_bind_symbol`. -/
def rtldLazyBindSymbol (m : ModuleObject) (index : Xword) : Option Addr :=
  if m.isRela then
    let entry := L.img.rela (m.relaOrRelPlt + sizeofElfRela * index)
    (L.tryResolveSymbol rounds m (m.symAt (elfRSym entry.rInfo))).map fun found =>
      match found with
      | some address => if address = 0#64 then 0#64 else address + entry.rAddend
      | none => 0#64
  else
    let entry := L.img.rel (m.relaOrRelPlt + sizeofElfRel * index)
    (L.tryResolveSymbol rounds m (m.symAt (elfRSym entry.rInfo))).map fun found =>
      match found with
      | some address => address
      | none => 0#64

end Linker

/-! ## The updates -/

section

variable (L : Linker) (m : ModuleObject) (resolve : Addr → Option Addr)

/-- The entries of both tables that `ResolveSymbols` goes through. -/
def dynEntries : List Entry :=
  m.relEntries.map (fun a => (L.img.rel a).entry) ++ m.relaEntries.map (fun a => (L.img.rela a).entry)

/-- An entry of the PLT. -/
def slotEntry (a : Addr) : Entry := if m.isRela then (L.img.rela a).entry else (L.img.rel a).entry

/-- The entries of the PLT in their order. -/
def slotEntries : List Entry := m.pltEntries.map (slotEntry L m)

/-- What an entry changes, if it changes anything. -/
def absoluteUpdate (e : Entry) : Option Update :=
  if e.isAbsolute then (resolve (e.symbol m)).map fun v => ⟨e.target m, fun old => e.put old v⟩
  else none

/-- What a slot is set to. -/
def slotValue (doLazyGotInit : Bool) (e : Entry) (old : Xword) : Xword :=
  if doLazyGotInit then m.moduleBase + old
  else
    match resolve (e.symbol m) with
    | some v => e.put old v
    | none => m.moduleBase + old

/-- What binding does to memory for an entry of the PLT. -/
def slotUpdate (doLazyGotInit : Bool) (e : Entry) : Option Update :=
  if e.isJumpSlot then some ⟨e.target m, slotValue m resolve doLazyGotInit e⟩ else none

/-- The object, and the code that binds a slot at its first call, are put into the GOT. -/
def gotUpdates (this runtimeResolve : Addr) : List Update :=
  if m.got ≠ 0#64 then
    [⟨(m.got + 8#64).toNat, fun _ => this⟩, ⟨(m.got + 16#64).toNat, fun _ => runtimeResolve⟩]
  else []

/-- All that binding does to memory. -/
def linkUpdates (this runtimeResolve : Addr) (doLazyGotInit : Bool) : List Update :=
  (dynEntries L m).filterMap (absoluteUpdate m resolve) ++
    ((slotEntries L m).filterMap (slotUpdate m resolve doLazyGotInit) ++
      gotUpdates m this runtimeResolve)

/-- A module that has not been bound: all slots name the stub, and the words to be written lie
apart. -/
structure Unbound (mem : Memory) (stub this runtimeResolve : Addr) : Prop where
  count : m.pltCount.toNat < 2 ^ 32
  fresh : m.gotStubPtr = 0#64
  slots : ∀ e ∈ slotEntries L m, e.isJumpSlot = true →
    m.moduleBase + load64 mem (e.target m) = stub
  apart : (linkUpdates L m resolve this runtimeResolve true).Pairwise Update.Apart

/-- A module that can be bound: the searches end as well. -/
structure Linkable (rounds : Nat) (mem : Memory) (stub this runtimeResolve : Addr) : Prop
    extends Unbound L m resolve mem stub this runtimeResolve where
  resolves : ∀ e ∈ dynEntries L m ++ slotEntries L m,
    L.tryResolveSymbol rounds m (e.symbol m) = some (resolve (e.symbol m))

/-- The words that a module is bound by, and nothing else, have changed. -/
structure Links (mem mem' : Memory) (stub this runtimeResolve : Addr) (doLazyGotInit : Bool) :
    Prop where
  absolute : ∀ e ∈ dynEntries L m, e.isAbsolute = true → ∀ v, resolve (e.symbol m) = some v →
    load64 mem' (e.target m) = e.put (load64 mem (e.target m)) v
  slotLazy : ∀ e ∈ slotEntries L m, e.isJumpSlot = true → doLazyGotInit = true →
    load64 mem' (e.target m) = stub
  slotBound : ∀ e ∈ slotEntries L m, e.isJumpSlot = true → doLazyGotInit = false →
    ∀ v, resolve (e.symbol m) = some v →
      load64 mem' (e.target m) = e.put (load64 mem (e.target m)) v
  slotUnresolved : ∀ e ∈ slotEntries L m, e.isJumpSlot = true → doLazyGotInit = false →
    resolve (e.symbol m) = none → load64 mem' (e.target m) = stub
  got : m.got ≠ 0#64 → load64 mem' (m.got + 8#64).toNat = this ∧
    load64 mem' (m.got + 16#64).toNat = runtimeResolve
  frame : ∀ b, (∀ u ∈ linkUpdates L m resolve this runtimeResolve doLazyGotInit, ¬ u.Covers b) →
    mem' b = mem b

end

variable {L : Linker} {m : ModuleObject} {resolve : Addr → Option Addr} {rounds : Nat}
  {mem mem' : Memory} {stub this runtimeResolve : Addr} {doLazyGotInit : Bool}

/-! ## The loops -/

theorem resolveAbsolute_eq {e : Entry}
    (h : L.tryResolveSymbol rounds m (e.symbol m) = some (resolve (e.symbol m))) :
    L.resolveAbsolute rounds ⟨m, mem⟩ e =
      some (.ok ⟨m, updateAll mem (absoluteUpdate m resolve e).toList⟩) := by
  rw [Linker.resolveAbsolute, absoluteUpdate]
  split
  · dsimp only
    rw [h, Option.map_some]
    cases resolve (e.symbol m) <;> rfl
  · rfl

/-- A loop over entries, each of which makes its update. -/
theorem absoluteLoop_eq {f : Binding → Addr → Outcome} {entry : Addr → Entry} {entries : List Addr}
    (hf : ∀ b a, f b a = L.resolveAbsolute rounds b (entry a))
    (h : ∀ e ∈ entries.map entry,
      L.tryResolveSymbol rounds m (e.symbol m) = some (resolve (e.symbol m))) :
    entryLoop f entries ⟨m, mem⟩ =
      some (.ok ⟨m, updateAll mem ((entries.map entry).filterMap (absoluteUpdate m resolve))⟩) := by
  induction entries generalizing mem with
  | nil => rfl
  | cons a entries ih =>
    rw [List.map_cons] at h
    obtain ⟨hHead, hTail⟩ := List.forall_mem_cons.mp h
    rw [entryLoop, hf, resolveAbsolute_eq hHead, Outcome.andThen, ih hTail, List.map_cons]
    cases hUpdate : absoluteUpdate m resolve (entry a) with
    | none =>
      rw [List.filterMap_cons_none hUpdate]
      rfl
    | some u =>
      rw [List.filterMap_cons_some hUpdate]
      rfl

/-- The assertion on a slot that names the stub, and what it leaves in the object. -/
theorem stub_kept {g : Addr} (hg : g = 0#64 ∨ g = stub) :
    ¬ (g ≠ 0#64 ∧ g ≠ stub) ∧
      (if g ≠ 0#64 then { m with gotStubPtr := g } else { m with gotStubPtr := stub }) =
        { m with gotStubPtr := stub } := by
  rcases hg with rfl | rfl
  · exact ⟨fun h => h.1 rfl, if_neg (not_not.mpr rfl)⟩
  · exact ⟨fun h => h.2 rfl, ite_self _⟩

/-- A slot is set. -/
theorem resolveJumpSlot_eq {e : Entry} {g : Addr} (hg : g = 0#64 ∨ g = stub)
    (hStub : m.moduleBase + load64 mem (e.target m) = stub) (hSlot : e.isJumpSlot = true)
    (h : L.tryResolveSymbol rounds m (e.symbol m) = some (resolve (e.symbol m))) :
    L.resolveJumpSlot rounds doLazyGotInit ⟨{ m with gotStubPtr := g }, mem⟩ e =
      some (.ok ⟨{ m with gotStubPtr := stub },
        update mem ⟨e.target m, slotValue m resolve doLazyGotInit e⟩⟩) := by
  have hStub' : m.moduleBase + load64 mem (e.target { m with gotStubPtr := g }) = stub := hStub
  have hResolve : ∀ x : ModuleObject, x = { m with gotStubPtr := stub } →
      L.tryResolveSymbol rounds x (e.symbol x) = some (resolve (e.symbol m)) := by
    rintro x rfl
    exact h
  obtain ⟨hAssert, hObject⟩ := stub_kept (m := m) hg
  rw [Linker.resolveJumpSlot, if_pos hSlot]
  dsimp only
  rw [hStub', if_neg hAssert, hObject, update]
  dsimp only
  rw [slotValue]
  cases doLazyGotInit with
  | true =>
    rw [if_pos rfl, if_pos rfl, if_pos rfl, hStub]
    rfl
  | false =>
    rw [if_neg Bool.false_ne_true, if_neg Bool.false_ne_true, hResolve _ rfl, Option.map_some,
      if_neg Bool.false_ne_true]
    cases resolve (e.symbol m) with
    | some v => rfl
    | none =>
      dsimp only
      rw [hStub]
      rfl

theorem slotLoop_eq {f : Binding → Addr → Outcome} {entry : Addr → Entry} {entries : List Addr}
    {g : Addr} (hf : ∀ b a, f b a = L.resolveJumpSlot rounds doLazyGotInit b (entry a))
    (hg : g = 0#64 ∨ g = stub)
    (hResolves : ∀ e ∈ entries.map entry,
      L.tryResolveSymbol rounds m (e.symbol m) = some (resolve (e.symbol m)))
    (hSlots : ∀ e ∈ entries.map entry, e.isJumpSlot = true →
      m.moduleBase + load64 mem (e.target m) = stub)
    (hApart : ((entries.map entry).filterMap (slotUpdate m resolve doLazyGotInit)).Pairwise
      Update.Apart) :
    ∃ g', entryLoop f entries ⟨{ m with gotStubPtr := g }, mem⟩ = some (.ok
      ⟨{ m with gotStubPtr := g' },
        updateAll mem ((entries.map entry).filterMap (slotUpdate m resolve doLazyGotInit))⟩) := by
  induction entries generalizing mem g with
  | nil => exact ⟨g, rfl⟩
  | cons a entries ih =>
    rw [List.map_cons] at hResolves hSlots hApart ⊢
    obtain ⟨hHead, hTail⟩ := List.forall_mem_cons.mp hResolves
    obtain ⟨hStub, hRest⟩ := List.forall_mem_cons.mp hSlots
    rw [entryLoop, hf]
    by_cases hSlot : (entry a).isJumpSlot = true
    · have hUpdate : slotUpdate m resolve doLazyGotInit (entry a) =
          some ⟨(entry a).target m, slotValue m resolve doLazyGotInit (entry a)⟩ := if_pos hSlot
      rw [List.filterMap_cons_some hUpdate] at hApart ⊢
      obtain ⟨hFirst, hOthers⟩ := List.pairwise_cons.mp hApart
      rw [resolveJumpSlot_eq hg (hStub hSlot) hSlot hHead, Outcome.andThen]
      refine ih (Or.inr rfl) hTail (fun e he hJump => ?_) hOthers
      -- the slots behind this one are as they were
      have hMem : (⟨e.target m, slotValue m resolve doLazyGotInit e⟩ : Update) ∈
          (entries.map entry).filterMap (slotUpdate m resolve doLazyGotInit) :=
        List.mem_filterMap.mpr ⟨e, he, if_pos hJump⟩
      have hSame := @load64_update_of_apart mem _ _ (hFirst _ hMem).symm
      dsimp only at hSame
      rw [hSame]
      exact hRest e he hJump
    · have hUpdate : slotUpdate m resolve doLazyGotInit (entry a) = none := if_neg hSlot
      rw [List.filterMap_cons_none hUpdate] at hApart ⊢
      rw [Linker.resolveJumpSlot, if_neg hSlot, Outcome.andThen]
      exact ih hg hTail hRest hApart

/-! ## The whole of it -/

/-- Lazily or not, the same words are written. -/
theorem map_addr_linkUpdates (lazy lazy' : Bool) :
    (linkUpdates L m resolve this runtimeResolve lazy).map Update.addr =
      (linkUpdates L m resolve this runtimeResolve lazy').map Update.addr := by
  have hSlots : ((slotEntries L m).filterMap (slotUpdate m resolve lazy)).map Update.addr =
      ((slotEntries L m).filterMap (slotUpdate m resolve lazy')).map Update.addr := by
    rw [List.map_filterMap, List.map_filterMap]
    congr 1
    funext e
    unfold slotUpdate
    split <;> rfl
  rw [linkUpdates, linkUpdates]
  simp only [List.map_append, hSlots]

theorem Unbound.pairwise (h : Unbound L m resolve mem stub this runtimeResolve)
    (lazy : Bool) :
    (linkUpdates L m resolve this runtimeResolve lazy).Pairwise Update.Apart := by
  have hAddrs : ((linkUpdates L m resolve this runtimeResolve lazy).map Update.addr).Pairwise
      fun a b => a + 8 ≤ b ∨ b + 8 ≤ a := by
    rw [map_addr_linkUpdates lazy true]
    exact List.pairwise_map.mpr h.apart
  exact (List.pairwise_map (f := Update.addr)).mp hAddrs

theorem setGot_eq (b : Binding) : Linker.setGot this runtimeResolve b =
    some (.ok { b with mem := updateAll b.mem (gotUpdates b.object this runtimeResolve) }) := by
  rw [Linker.setGot, gotUpdates]
  split <;> rfl

/-- The loops over the entries that are no slots. -/
theorem Linkable.dynLoops_eq (h : Linkable L m resolve rounds mem stub this runtimeResolve) :
    (entryLoop (L.resolveSymbolRelAbsolute rounds) m.relEntries ⟨m, mem⟩).andThen
        (entryLoop (L.resolveSymbolRelaAbsolute rounds) m.relaEntries) =
      some (.ok ⟨m, updateAll mem ((dynEntries L m).filterMap (absoluteUpdate m resolve))⟩) := by
  have hDyn : ∀ e ∈ dynEntries L m,
      L.tryResolveSymbol rounds m (e.symbol m) = some (resolve (e.symbol m)) :=
    fun e he => h.resolves e (List.mem_append_left _ he)
  rw [absoluteLoop_eq (f := L.resolveSymbolRelAbsolute rounds) (fun _ _ => rfl) fun e he =>
    hDyn e (List.mem_append_left _ he), Outcome.andThen]
  rw [absoluteLoop_eq (f := L.resolveSymbolRelaAbsolute rounds) (fun _ _ => rfl) fun e he =>
    hDyn e (List.mem_append_right _ he), ← updateAll_append, dynEntries, List.filterMap_append]

theorem mem_slotUpdates {e : Entry} (he : e ∈ slotEntries L m) (hJump : e.isJumpSlot = true)
    (lazy : Bool) : (⟨e.target m, slotValue m resolve lazy e⟩ : Update) ∈
      (slotEntries L m).filterMap (slotUpdate m resolve lazy) :=
  List.mem_filterMap.mpr ⟨e, he, if_pos hJump⟩

/-- The slots still name the stub when their turn comes. -/
theorem Unbound.slots_after (h : Unbound L m resolve mem stub this runtimeResolve)
    {e : Entry} (he : e ∈ slotEntries L m) (hJump : e.isJumpSlot = true) :
    m.moduleBase + load64 (updateAll mem ((dynEntries L m).filterMap (absoluteUpdate m resolve)))
      (e.target m) = stub := by
  have hCross := (List.pairwise_append.mp h.apart).2.2
  have hSame : load64 (updateAll mem ((dynEntries L m).filterMap (absoluteUpdate m resolve)))
      (e.target m) = load64 mem (e.target m) :=
    load64_updateAll_of_apart (u := ⟨e.target m, slotValue m resolve true e⟩) fun u hu =>
      hCross u hu _ (List.mem_append_left _ (mem_slotUpdates he hJump true))
  rw [hSame]
  exact h.slots e he hJump

theorem Linkable.resolveSlots_eq {mem₁ : Memory}
    (h : Linkable L m resolve rounds mem stub this runtimeResolve) (lazy : Bool)
    (hStubs : ∀ e ∈ slotEntries L m, e.isJumpSlot = true →
      m.moduleBase + load64 mem₁ (e.target m) = stub) :
    ∃ g, L.resolveSlots rounds lazy ⟨m, mem₁⟩ = some (.ok ⟨{ m with gotStubPtr := g },
      updateAll mem₁ ((slotEntries L m).filterMap (slotUpdate m resolve lazy))⟩) := by
  have hApart := h.toUnbound.pairwise lazy
  rw [linkUpdates] at hApart
  obtain ⟨-, hSlotsGot, -⟩ := List.pairwise_append.mp hApart
  obtain ⟨hSlots, -, -⟩ := List.pairwise_append.mp hSlotsGot
  have hObject : ({ m with gotStubPtr := 0#64 } : ModuleObject) = m := by rw [← h.fresh]
  have hLoop : ∀ f : Binding → Addr → Outcome,
      (∀ b a, f b a = L.resolveJumpSlot rounds lazy b (slotEntry L m a)) →
      ∃ g, entryLoop f m.pltEntries ⟨{ m with gotStubPtr := 0#64 }, mem₁⟩ =
        some (.ok ⟨{ m with gotStubPtr := g },
          updateAll mem₁ ((slotEntries L m).filterMap (slotUpdate m resolve lazy))⟩) :=
    fun f hf => slotLoop_eq hf (Or.inl rfl)
      (fun e he => h.resolves e (List.mem_append_right _ he)) hStubs hSlots
  rw [hObject] at hLoop
  rw [Linker.resolveSlots, if_pos h.count]
  split
  · rename_i hRela
    refine hLoop _ fun b a => ?_
    rw [Linker.resolveSymbolRelaJumpSlot, slotEntry, if_pos hRela]
  · rename_i hRel
    refine hLoop _ fun b a => ?_
    rw [Linker.resolveSymbolRelJumpSlot, slotEntry, if_neg hRel]

/-- `ResolveSymbols` ends, and makes the updates. -/
theorem Linkable.resolveSymbols_eq (h : Linkable L m resolve rounds mem stub this runtimeResolve)
    (lazy : Bool) :
    ∃ g, L.resolveSymbols rounds this runtimeResolve lazy ⟨m, mem⟩ = some (.ok
      ⟨{ m with gotStubPtr := g },
        updateAll mem (linkUpdates L m resolve this runtimeResolve lazy)⟩) := by
  obtain ⟨g, hSlots⟩ := h.resolveSlots_eq lazy fun e he => h.toUnbound.slots_after he
  refine ⟨g, ?_⟩
  rw [Linker.resolveSymbols, h.dynLoops_eq, Outcome.andThen, hSlots, Outcome.andThen, setGot_eq,
    linkUpdates, updateAll_append, updateAll_append]
  rfl

/-- After the updates, each word that the relocations are for has its value. -/
theorem Unbound.links (h : Unbound L m resolve mem stub this runtimeResolve)
    (lazy : Bool) :
    Links L m resolve mem (updateAll mem (linkUpdates L m resolve this runtimeResolve lazy)) stub
      this runtimeResolve lazy := by
  have hApart := h.pairwise lazy
  have hWord : ∀ u ∈ linkUpdates L m resolve this runtimeResolve lazy,
      load64 (updateAll mem (linkUpdates L m resolve this runtimeResolve lazy)) u.addr =
        u.value (load64 mem u.addr) := fun u hu => load64_updateAll hApart hu
  have hSlot : ∀ e ∈ slotEntries L m, e.isJumpSlot = true →
      load64 (updateAll mem (linkUpdates L m resolve this runtimeResolve lazy)) (e.target m) =
        slotValue m resolve lazy e (load64 mem (e.target m)) := by
    intro e he hJump
    refine hWord ⟨e.target m, slotValue m resolve lazy e⟩ ?_
    exact List.mem_append_right _ (List.mem_append_left _ (mem_slotUpdates he hJump lazy))
  constructor
  · intro e he hAbsolute v hv
    refine hWord ⟨e.target m, fun old => e.put old v⟩ ?_
    refine List.mem_append_left _ (List.mem_filterMap.mpr ⟨e, he, ?_⟩)
    rw [absoluteUpdate, if_pos hAbsolute, hv, Option.map_some]
  · rintro e he hJump rfl
    rw [hSlot e he hJump, slotValue, if_pos rfl, h.slots e he hJump]
  · rintro e he hJump rfl v hv
    rw [hSlot e he hJump, slotValue, if_neg Bool.false_ne_true, hv]
  · rintro e he hJump rfl hNone
    rw [hSlot e he hJump, slotValue, if_neg Bool.false_ne_true, hNone]
    exact h.slots e he hJump
  · intro hGot
    have hMem : ∀ u ∈ gotUpdates m this runtimeResolve,
        u ∈ linkUpdates L m resolve this runtimeResolve lazy :=
      fun u hu => List.mem_append_right _ (List.mem_append_right _ hu)
    rw [gotUpdates, if_pos hGot] at hMem
    obtain ⟨hThis, hOther⟩ := List.forall_mem_cons.mp hMem
    obtain ⟨hResolve, -⟩ := List.forall_mem_cons.mp hOther
    have hFirst := hWord _ hThis
    have hSecond := hWord _ hResolve
    exact ⟨hFirst, hSecond⟩
  · exact fun b hb => updateAll_frame hb

/-- **Binding a module.** Where the tables are filed, `ResolveSymbols` ends; each word that the
relocations are for has its value and nothing else has changed. -/
theorem resolveSymbols_links {ms : List Addr} {symbols : Addr → List (BitVec 32)}
    {own : List (BitVec 32)} (hLists : L.Lists ms)
    (hSought : ∀ e ∈ dynEntries L m ++ slotEntries L m, L.Sought ms symbols own m (e.symbol m))
    (h : Unbound L m (L.symbolValue ms symbols own m) mem stub this runtimeResolve) (lazy : Bool) :
    ∃ mem', (∀ rounds, ms.length < rounds → (∀ a ∈ ms, (symbols a).length < rounds) →
        own.length < rounds → ∃ g, L.resolveSymbols rounds this runtimeResolve lazy ⟨m, mem⟩ =
          some (.ok ⟨{ m with gotStubPtr := g }, mem'⟩)) ∧
      Links L m (L.symbolValue ms symbols own m) mem mem' stub this runtimeResolve lazy := by
  refine ⟨_, fun rounds hModules hSymbols hOwn => ?_, h.links lazy⟩
  have hLinkable : Linkable L m (L.symbolValue ms symbols own m) rounds mem stub this
      runtimeResolve :=
    { h with resolves := fun e he =>
        tryResolveSymbol_eq hLists (hSought e he) hModules hSymbols hOwn }
  exact hLinkable.resolveSymbols_eq lazy

/-- The module that defines `f`, calling it through a PLT with one entry. -/
def pltObject : ModuleObject :=
  { oneObject with
    isRela := true
    relaOrRelPlt := 0x10080#64
    relaOrRelPltSize := 24#64
    got := 0x10100#64 }

/-- A module with one slot, for a symbol of its own. -/
def pltImage : Image :=
  { oneImage with rela := fun _ => ⟨0x118#64, 0x100000402#64, 0#64⟩ }

/-- The module is the only one. -/
def pltLinker : Linker := { oneLinker with img := pltImage, objects := fun _ => pltObject }

theorem plt_unbound :
    Unbound pltLinker pltObject (pltLinker.symbolValue [0x5000#64] (fun _ => [1#32]) [] pltObject)
      (fun _ => 0#8) 0x10000#64 0x7000#64 0x8000#64 where
  count := by decide
  fresh := rfl
  slots := by decide
  apart := by
    have hUpdates : (linkUpdates pltLinker pltObject
        (pltLinker.symbolValue [0x5000#64] (fun _ => [1#32]) [] pltObject) 0x7000#64 0x8000#64
        true).map Update.addr = [0x10118, 0x10108, 0x10110] := by decide
    refine (List.pairwise_map (R := fun a b => a + 8 ≤ b ∨ b + 8 ≤ a)).mp ?_
    rw [hUpdates]
    decide

theorem plt_lists : pltLinker.Lists [0x5000#64] where
  chain := ⟨rfl, by decide, rfl⟩
  nonnull := by decide

/-- No symbol of the module is hidden. -/
theorem plt_shown (symbol : Addr) :
    elfStVisibility (pltLinker.img.sym symbol).stOther = 0#8 := by
  change elfStVisibility (if symbol = 0x10068#64 then _ else _ : ElfSym).stOther = 0#8
  split <;> rfl

theorem plt_sought (symbol : Addr) :
    pltLinker.Sought [0x5000#64] (fun _ => [1#32]) [] pltObject symbol where
  filed hHidden := absurd (plt_shown symbol) hHidden
  bucket hHidden := absurd (plt_shown symbol) hHidden
  unique hHidden := absurd (plt_shown symbol) hHidden
  others _ :=
    { filed := fun _ _ => ⟨one_filed.pos, one_filed.chains, one_filed.filed⟩
      bucket := fun _ _ => Or.inl (Nat.one_dvd (2 ^ 32))
      unique := fun _ _ _ hi _ hj _ _ =>
        (List.mem_singleton.mp hi).trans (List.mem_singleton.mp hj).symm }

theorem resolveSymbols_links_plt :
    ∃ mem', (∃ g, pltLinker.resolveSymbols 2 0x7000#64 0x8000#64 false ⟨pltObject, fun _ => 0#8⟩ =
        some (.ok ⟨{ pltObject with gotStubPtr := g }, mem'⟩)) ∧
      Links pltLinker pltObject (pltLinker.symbolValue [0x5000#64] (fun _ => [1#32]) [] pltObject)
        (fun _ => 0#8) mem' 0x10000#64 0x7000#64 0x8000#64 false := by
  obtain ⟨mem', hRuns, hLinks⟩ :=
    resolveSymbols_links plt_lists (fun _ _ => plt_sought _) plt_unbound false
  exact ⟨mem', hRuns 2 Nat.one_lt_two (fun _ _ => Nat.one_lt_two) Nat.two_pos, hLinks⟩

/-! ## Calls through the PLT -/

namespace ModuleObject

variable (m : ModuleObject)

/-- `&this->rela_or_rel_plt.rela[i]`, or that of `rel`. -/
def pltEntryAt (i : Nat) : Addr := m.relaOrRelPlt + BitVec.ofNat 64 i * m.sizeofPltEntry

/-- The slot of a function: `&this->got[i + 3]`. -/
def slotAt (i : Nat) : Nat := (m.got + 8#64 * BitVec.ofNat 64 (i + 3)).toNat

end ModuleObject

section

variable (L : Linker) (rounds : Nat) (m : ModuleObject) (resolve : Addr → Option Addr) (stub : Addr)

/-- A function is called through its slot. The result is the address that is branched to, and the
memory then. The stub leads to `__rtld_runtime_resolve`, which stores the address that
`__rtld_lazy_bind_symbol` returns, and branches to it. -/
def callPlt (mem : Memory) (i : Nat) : Option (Addr × Memory) :=
  let slot := load64 mem (m.slotAt i)
  if slot = stub then
    (L.rtldLazyBindSymbol rounds m (BitVec.ofNat 64 i)).map fun address =>
      (address, store64 mem (m.slotAt i) address)
  else some (slot, mem)

/-- A run of the program: calls of functions, and steps that write no slot. -/
inductive Calls : Memory → List (Nat × Addr) → Memory → Prop
  | done (mem : Memory) : Calls mem [] mem
  | other {mem mem' mem'' : Memory} {t : List (Nat × Addr)}
      (kept : ∀ i < m.pltCount.toNat, load64 mem' (m.slotAt i) = load64 mem (m.slotAt i))
      (rest : Calls mem' t mem'') : Calls mem t mem''
  | call {mem mem' mem'' : Memory} {t : List (Nat × Addr)} {i : Nat} {a : Addr}
      (index : i < m.pltCount.toNat) (lands : callPlt L rounds m stub mem i = some (a, mem'))
      (rest : Calls mem' t mem'') : Calls mem ((i, a) :: t) mem''

/-- The slots follow the three words that are kept for the linker, in the order of their entries. -/
structure LaidOut : Prop where
  jumpSlot : ∀ i < m.pltCount.toNat, (slotEntry L m (m.pltEntryAt i)).isJumpSlot = true
  target : ∀ i < m.pltCount.toNat, (slotEntry L m (m.pltEntryAt i)).target m = m.slotAt i
  fits : m.got.toNat + 8 * (m.pltCount.toNat + 3) ≤ 2 ^ 64

/-- What a function is bound to when it is called. -/
def lazyAddress (i : Nat) : Addr :=
  match resolve ((slotEntry L m (m.pltEntryAt i)).symbol m) with
  | some v =>
    if m.isRela then if v = 0#64 then 0#64 else v + (L.img.rela (m.pltEntryAt i)).rAddend else v
  | none => 0#64

/-- Where a call of the function lands. -/
def landing (mem : Memory) (i : Nat) : Addr :=
  let slot := load64 mem (m.slotAt i)
  if slot = stub then lazyAddress L m resolve i else slot

end

theorem slotAt_apart (h : LaidOut L m) {i j : Nat} (hi : i < m.pltCount.toNat)
    (hj : j < m.pltCount.toNat) (hij : i ≠ j) :
    m.slotAt i + 8 ≤ m.slotAt j ∨ m.slotAt j + 8 ≤ m.slotAt i := by
  have hAt : ∀ k < m.pltCount.toNat, m.slotAt k = m.got.toNat + 8 * (k + 3) := by
    intro k hk
    have hFits := h.fits
    have hCount := m.pltCount.isLt
    rw [ModuleObject.slotAt, BitVec.toNat_add, BitVec.toNat_mul, BitVec.toNat_ofNat,
      BitVec.toNat_ofNat]
    omega
  rw [hAt i hi, hAt j hj]
  omega

theorem mem_slotEntries {i : Nat} (hi : i < m.pltCount.toNat) :
    slotEntry L m (m.pltEntryAt i) ∈ slotEntries L m := by
  refine List.mem_map.mpr ⟨_, ?_, rfl⟩
  exact List.mem_map.mpr ⟨i, List.mem_range.mpr hi, rfl⟩

theorem rtldLazyBindSymbol_eq {i : Nat}
    (h : L.tryResolveSymbol rounds m ((slotEntry L m (m.pltEntryAt i)).symbol m) =
      some (resolve ((slotEntry L m (m.pltEntryAt i)).symbol m))) :
    L.rtldLazyBindSymbol rounds m (BitVec.ofNat 64 i) = some (lazyAddress L m resolve i) := by
  rw [Linker.rtldLazyBindSymbol, lazyAddress]
  split
  · rename_i hRela
    have hAt : m.relaOrRelPlt + sizeofElfRela * BitVec.ofNat 64 i = m.pltEntryAt i := by
      rw [ModuleObject.pltEntryAt, ModuleObject.sizeofPltEntry, if_pos hRela, BitVec.mul_comm]
    have hEntry : slotEntry L m (m.pltEntryAt i) = (L.img.rela (m.pltEntryAt i)).entry :=
      if_pos hRela
    rw [hEntry] at h ⊢
    have hSymbol : L.tryResolveSymbol rounds m
        (m.symAt (elfRSym (L.img.rela (m.pltEntryAt i)).rInfo)) = _ := h
    dsimp only
    rw [hAt, hSymbol, Option.map_some]
  · rename_i hRel
    have hAt : m.relaOrRelPlt + sizeofElfRel * BitVec.ofNat 64 i = m.pltEntryAt i := by
      rw [ModuleObject.pltEntryAt, ModuleObject.sizeofPltEntry, if_neg hRel, BitVec.mul_comm]
    have hEntry : slotEntry L m (m.pltEntryAt i) = (L.img.rel (m.pltEntryAt i)).entry :=
      if_neg hRel
    rw [hEntry] at h ⊢
    have hSymbol : L.tryResolveSymbol rounds m
        (m.symAt (elfRSym (L.img.rel (m.pltEntryAt i)).rInfo)) = _ := h
    dsimp only
    rw [hAt, hSymbol, Option.map_some]

/-- A call lands where it should, and each function is still landed at where it was. -/
theorem callPlt_eq (hLaid : LaidOut L m)
    (hResolves : ∀ e ∈ slotEntries L m,
      L.tryResolveSymbol rounds m (e.symbol m) = some (resolve (e.symbol m)))
    {i : Nat} (hi : i < m.pltCount.toNat) :
    ∃ mem', callPlt L rounds m stub mem i = some (landing L m resolve stub mem i, mem') ∧
      ∀ j < m.pltCount.toNat,
        landing L m resolve stub mem' j = landing L m resolve stub mem j := by
  rw [callPlt, landing]
  split
  · rename_i hStub
    rw [rtldLazyBindSymbol_eq (hResolves _ (mem_slotEntries hi)), Option.map_some]
    refine ⟨_, rfl, fun j hj => ?_⟩
    by_cases hij : i = j
    · subst hij
      rw [landing, landing, load64_store64, if_pos hStub, ite_self]
    · rw [landing, landing, load64_of_apart (slotAt_apart hLaid hi hj hij).symm]
  · exact ⟨mem, rfl, fun _ _ => rfl⟩

/-- In a run, all calls of a function land at the same place. -/
theorem Calls.lands {t : List (Nat × Addr)} (hCalls : Calls L rounds m stub mem t mem')
    (hLaid : LaidOut L m)
    (hResolves : ∀ e ∈ slotEntries L m,
      L.tryResolveSymbol rounds m (e.symbol m) = some (resolve (e.symbol m))) :
    (∀ c ∈ t, c.1 < m.pltCount.toNat ∧ c.2 = landing L m resolve stub mem c.1) ∧
      ∀ i < m.pltCount.toNat, landing L m resolve stub mem' i = landing L m resolve stub mem i := by
  induction hCalls with
  | done mem => exact ⟨fun c hc => (List.not_mem_nil hc).elim, fun _ _ => rfl⟩
  | @other mem mem₁ mem₂ t hKept hRest ih =>
    obtain ⟨hTrace, hEnd⟩ := ih
    have hSame : ∀ i < m.pltCount.toNat,
        landing L m resolve stub mem₁ i = landing L m resolve stub mem i := by
      intro i hi
      rw [landing, landing, hKept i hi]
    refine ⟨fun c hc => ⟨(hTrace c hc).1, ?_⟩, fun i hi => (hEnd i hi).trans (hSame i hi)⟩
    exact (hTrace c hc).2.trans (hSame c.1 (hTrace c hc).1)
  | @call mem mem₁ mem₂ t i a hi hLands hRest ih =>
    obtain ⟨hTrace, hEnd⟩ := ih
    obtain ⟨mem', hCall, hSame⟩ := @callPlt_eq _ _ _ _ mem stub hLaid hResolves _ hi
    rw [hCall] at hLands
    obtain ⟨rfl, rfl⟩ := Prod.mk.inj (Option.some.inj hLands)
    refine ⟨fun c hc => ?_, fun j hj => (hEnd j hj).trans (hSame j hj)⟩
    rcases List.mem_cons.mp hc with rfl | hc
    · dsimp only
      exact ⟨hi, rfl⟩
    · exact ⟨(hTrace c hc).1, (hTrace c hc).2.trans (hSame c.1 (hTrace c hc).1)⟩

theorem Calls.lands_at {t : List (Nat × Addr)} (hCalls : Calls L rounds m stub mem t mem')
    (hLaid : LaidOut L m)
    (hResolves : ∀ e ∈ slotEntries L m,
      L.tryResolveSymbol rounds m (e.symbol m) = some (resolve (e.symbol m)))
    {address : Nat → Addr}
    (hLanding : ∀ i < m.pltCount.toNat, landing L m resolve stub mem i = address i) :
    (∀ c ∈ t, c.2 = address c.1) ∧
      ∀ i < m.pltCount.toNat,
        (callPlt L rounds m stub mem' i).map Prod.fst = some (address i) := by
  obtain ⟨hTrace, hEnd⟩ := hCalls.lands hLaid hResolves
  refine ⟨fun c hc => ?_, fun i hi => ?_⟩
  · exact (hTrace c hc).2.trans (hLanding c.1 (hTrace c hc).1)
  · obtain ⟨mem'', hCall, -⟩ := @callPlt_eq _ _ _ _ mem' stub hLaid hResolves _ hi
    rw [hCall, Option.map_some, hEnd i hi, hLanding i hi]

/-- A module with RELA entries lands at the same places, however it has been bound. -/
theorem Links.landing_eq (hLaid : LaidOut L m) (hRela : m.isRela = true)
    (hNull : ∀ i < m.pltCount.toNat,
      resolve ((slotEntry L m (m.pltEntryAt i)).symbol m) = some 0#64 →
        (L.img.rela (m.pltEntryAt i)).rAddend = 0#64)
    {lazy : Bool} (hLinks : Links L m resolve mem mem' stub this runtimeResolve lazy)
    {i : Nat} (hi : i < m.pltCount.toNat) :
    landing L m resolve stub mem' i = lazyAddress L m resolve i := by
  have hMem := mem_slotEntries (L := L) hi
  have hJump := hLaid.jumpSlot i hi
  rw [landing, ← hLaid.target i hi]
  cases lazy with
  | true => rw [if_pos (hLinks.slotLazy _ hMem hJump rfl)]
  | false =>
    cases hResolve : resolve ((slotEntry L m (m.pltEntryAt i)).symbol m) with
    | none => rw [if_pos (hLinks.slotUnresolved _ hMem hJump rfl hResolve)]
    | some v =>
      have hEntry : slotEntry L m (m.pltEntryAt i) = (L.img.rela (m.pltEntryAt i)).entry :=
        if_pos hRela
      have hSlot : load64 mem' ((slotEntry L m (m.pltEntryAt i)).target m) =
          v + (L.img.rela (m.pltEntryAt i)).rAddend := by
        rw [hLinks.slotBound _ hMem hJump rfl v hResolve, hEntry]
        rfl
      have hLazy : lazyAddress L m resolve i = v + (L.img.rela (m.pltEntryAt i)).rAddend := by
        rw [lazyAddress, hResolve]
        dsimp only
        rw [if_pos hRela]
        split
        · rename_i hZero
          rw [hZero, hNull i hi (hZero ▸ hResolve), BitVec.add_zero]
        · rfl
      rw [hSlot, hLazy, ite_self]

/-- **Lazily or at once.** A module with RELA entries, bound lazily or at once, calls the same
functions in every run: the calls through a slot land at an address that does not depend on how the
module was bound, nor on what was called before; and at the end of the run each function can be
called. -/
theorem lazy_eq_eager (h : Linkable L m resolve rounds mem stub this runtimeResolve)
    (hLaid : LaidOut L m) (hRela : m.isRela = true)
    (hNull : ∀ i < m.pltCount.toNat,
      resolve ((slotEntry L m (m.pltEntryAt i)).symbol m) = some 0#64 →
        (L.img.rela (m.pltEntryAt i)).rAddend = 0#64) :
    ∃ address : Nat → Addr, ∀ lazy, ∃ g mem',
      L.resolveSymbols rounds this runtimeResolve lazy ⟨m, mem⟩ =
        some (.ok ⟨{ m with gotStubPtr := g }, mem'⟩) ∧
      ∀ t mem'', Calls L rounds { m with gotStubPtr := g } stub mem' t mem'' →
        (∀ c ∈ t, c.2 = address c.1) ∧
        ∀ i < m.pltCount.toNat,
          (callPlt L rounds { m with gotStubPtr := g } stub mem'' i).map Prod.fst =
            some (address i) := by
  refine ⟨lazyAddress L m resolve, fun lazy => ?_⟩
  obtain ⟨g, hRun⟩ := h.resolveSymbols_eq lazy
  have hResolves : ∀ e ∈ slotEntries L m,
      L.tryResolveSymbol rounds m (e.symbol m) = some (resolve (e.symbol m)) :=
    fun e he => h.resolves e (List.mem_append_right _ he)
  have hLanding : ∀ i < m.pltCount.toNat,
      landing L m resolve stub (updateAll mem (linkUpdates L m resolve this runtimeResolve lazy)) i =
        lazyAddress L m resolve i :=
    fun i hi => (h.toUnbound.links lazy).landing_eq hLaid hRela hNull hi
  refine ⟨g, _, hRun, fun t mem'' hCalls => ?_⟩
  exact hCalls.lands_at (m := { m with gotStubPtr := g })
    ⟨hLaid.jumpSlot, hLaid.target, hLaid.fits⟩ hResolves hLanding

theorem plt_laidOut : LaidOut pltLinker pltObject where
  jumpSlot := by decide
  target := by decide
  fits := by decide

theorem plt_linkable :
    Linkable pltLinker pltObject (pltLinker.symbolValue [0x5000#64] (fun _ => [1#32]) [] pltObject)
      2 (fun _ => 0#8) 0x10000#64 0x7000#64 0x8000#64 :=
  { plt_unbound with
    resolves := fun _ _ => tryResolveSymbol_eq plt_lists (plt_sought _) Nat.one_lt_two
      (fun _ _ => Nat.one_lt_two) Nat.two_pos }

theorem lazy_eq_eager_plt :
    ∃ address : Nat → Addr, ∀ lazy, ∃ g mem',
      pltLinker.resolveSymbols 2 0x7000#64 0x8000#64 lazy ⟨pltObject, fun _ => 0#8⟩ =
        some (.ok ⟨{ pltObject with gotStubPtr := g }, mem'⟩) ∧
      ∀ t mem'', Calls pltLinker 2 { pltObject with gotStubPtr := g } 0x10000#64 mem' t mem'' →
        ∀ c ∈ t, c.2 = address c.1 := by
  obtain ⟨address, hRuns⟩ := lazy_eq_eager plt_linkable plt_laidOut rfl fun _ _ _ => rfl
  refine ⟨address, fun lazy => ?_⟩
  obtain ⟨g, mem', hRun, hCalls⟩ := hRuns lazy
  exact ⟨g, mem', hRun, fun t mem'' h => (hCalls t mem'' h).1⟩

end Wondar.Reloc
