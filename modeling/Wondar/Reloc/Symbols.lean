import Wondar.Chains
import Wondar.CString
import Wondar.Reloc.ModuleObject

/-!
# Looking a symbol up

`GetSymbolByName` hashes a name and follows the chain of its bucket; `lookup_global_auto` asks the
modules of a list one after the other, the last one of the list first.

* The hash has 64 bits, in a loop that clears the top four of 32. Its low half is the hash of 32
  bits that a table is filed by (`setWidth_elfHash`); what lies above it stays, and takes part in
  choosing the bucket.
* `getSymbolByName_spec`: in a table that is filed by the hash of 32 bits, a defined symbol is
  found by its name, where the two hashes agree on the bucket.
* `lookupGlobalAuto_spec`: of the modules that export a name, the last one of the list counts.
-/

namespace Wondar.Reloc

open A64 (Addr)
open Chains CString

/-! ## The hash of a name -/

/-- A round of the loop of `__rtld_elf_hash`, where `unsigned long` has `w` bits. -/
def hashRound (w : Nat) (h : BitVec w) (c : Byte) : BitVec w :=
  let h := (h <<< 4) + c.setWidth w
  let g := h &&& 0xf0000000#w
  let h := if g ≠ 0#w then h ^^^ (g >>> 24) else h
  h &&& ~~~g

/-- The hash of a name in `w` bits. -/
def elfHash (w : Nat) (name : Str) : BitVec w := name.bytes.foldl (hashRound w) 0#w

/-- The hash as it is written, in the 64 bits of `unsigned long`. -/
def rtldElfHash (name : Str) : BitVec 64 := elfHash 64 name

theorem hashRound_eq (w : Nat) (h : BitVec w) (c : Byte) :
    hashRound w h c =
      let h := (h <<< 4) + c.setWidth w
      let g := h &&& 0xf0000000#w
      (h ^^^ (g >>> 24)) &&& ~~~g := by
  unfold hashRound
  dsimp only
  split
  · rfl
  · rename_i hZero
    rw [not_not.mp hZero, BitVec.zero_ushiftRight, BitVec.xor_zero]

/-- The top four of 32 bits. -/
theorem getLsbD_top (i : Nat) :
    (0xf0000000#32).getLsbD i = decide (28 ≤ i ∧ i < 32) ∧
      (0xf0000000#64).getLsbD i = decide (28 ≤ i ∧ i < 32) := by
  by_cases hi : i < 64
  · revert i
    decide
  · rw [BitVec.getLsbD_of_ge _ _ (by omega), BitVec.getLsbD_of_ge _ _ (by omega)]
    simp only [Bool.false_eq, decide_eq_false_iff_not]
    omega

/-- What is above 32 bits never gets down again. -/
theorem setWidth_hashRound (h : BitVec 64) (c : Byte) :
    (hashRound 64 h c).setWidth 32 = hashRound 32 (h.setWidth 32) c := by
  have hSum : ((h <<< 4) + c.setWidth 64).setWidth 32 = (h.setWidth 32 <<< 4) + c.setWidth 32 := by
    apply BitVec.eq_of_toNat_eq
    simp only [BitVec.toNat_setWidth, BitVec.toNat_add, BitVec.toNat_shiftLeft, Nat.shiftLeft_eq]
    omega
  rw [hashRound_eq, hashRound_eq]
  dsimp only
  rw [← hSum]
  generalize (h <<< 4) + c.setWidth 64 = x
  apply BitVec.eq_of_getLsbD_eq
  intro i hi
  have hWide : i < 64 := by omega
  simp only [BitVec.getLsbD_setWidth, BitVec.getLsbD_and, BitVec.getLsbD_xor, BitVec.getLsbD_not,
    BitVec.getLsbD_ushiftRight, getLsbD_top, hi, hWide]
  by_cases hShift : 24 + i < 32 <;> simp [hShift]

theorem hashRound_lt (h : BitVec 32) (c : Byte) : (hashRound 32 h c).toNat < 2 ^ 28 := by
  rw [hashRound_eq]
  dsimp only
  generalize (h <<< 4) + c.setWidth 32 = x
  apply Nat.lt_pow_two_of_testBit
  intro i hi
  rw [BitVec.testBit_toNat]
  by_cases hTop : i < 32
  · have hShift : ¬ 24 + i < 32 := by omega
    simp [getLsbD_top, hTop, hShift, hi]
  · exact BitVec.getLsbD_of_ge _ _ (by omega)

theorem setWidth_foldl (bytes : List Byte) (h : BitVec 64) :
    (bytes.foldl (hashRound 64) h).setWidth 32 = bytes.foldl (hashRound 32) (h.setWidth 32) := by
  induction bytes generalizing h with
  | nil => rfl
  | cons c bytes ih => rw [List.foldl_cons, List.foldl_cons, ih, setWidth_hashRound]

theorem foldl_lt (bytes : List Byte) {h : BitVec 32} (hLt : h.toNat < 2 ^ 28) :
    (bytes.foldl (hashRound 32) h).toNat < 2 ^ 28 := by
  induction bytes generalizing h with
  | nil => exact hLt
  | cons c bytes ih => exact ih (hashRound_lt h c)

/-- **The hash.** The low half of the hash of 64 bits is the hash of 32 bits, which has 28. -/
theorem setWidth_elfHash (name : Str) :
    (rtldElfHash name).setWidth 32 = elfHash 32 name ∧ (elfHash 32 name).toNat < 2 ^ 28 :=
  ⟨setWidth_foldl name.bytes 0#64, foldl_lt name.bytes (by decide)⟩

/-- The two hashes choose the same of `n` buckets. -/
def SameBucket (n : Nat) (name : Str) : Prop :=
  (rtldElfHash name).toNat % n = (elfHash 32 name).toNat % n

instance (n : Nat) (name : Str) : Decidable (SameBucket n name) :=
  inferInstanceAs (Decidable (_ = _))

theorem sameBucket_of_dvd {n : Nat} (h : n ∣ 2 ^ 32) (name : Str) : SameBucket n name := by
  rw [SameBucket, ← (setWidth_elfHash name).1, BitVec.toNat_setWidth, Nat.mod_mod_of_dvd _ h]

/-- **The bucket.** What is left of the name above 32 bits must not count. -/
theorem sameBucket_iff (n : Nat) (name : Str) :
    SameBucket n name ↔ n ∣ 2 ^ 32 * ((rtldElfHash name).toNat / 2 ^ 32) := by
  have hLow : (elfHash 32 name).toNat = (rtldElfHash name).toNat % 2 ^ 32 := by
    rw [← (setWidth_elfHash name).1, BitVec.toNat_setWidth]
  have hSplit := Nat.div_add_mod (rtldElfHash name).toNat (2 ^ 32)
  rw [SameBucket, hLow]
  constructor
  · intro hSame
    have hHigh : (rtldElfHash name).toNat - (rtldElfHash name).toNat % 2 ^ 32 =
        2 ^ 32 * ((rtldElfHash name).toNat / 2 ^ 32) := by omega
    rw [← hHigh]
    exact Nat.dvd_of_mod_eq_zero (Nat.sub_mod_eq_zero_of_mod_eq hSame)
  · rintro ⟨k, hk⟩
    calc (rtldElfHash name).toNat % n
        = (n * k + (rtldElfHash name).toNat % 2 ^ 32) % n := by rw [← hk, hSplit]
      _ = (rtldElfHash name).toNat % 2 ^ 32 % n := Nat.mul_add_mod n k _

/-- The name of a symbol whose hashes differ. -/
def carryName : Str := strOf [0x59#8, 0x6b#8, 0x49#8, 0x69#8, 0x6b#8, 0x44#8, 0x6a#8, 0x61#8]

example : rtldElfHash carryName = 0x100000001#64 ∧ ¬ SameBucket 3 carryName := by decide

theorem sameBucket_of_lt {name : Str} (h : (rtldElfHash name).toNat < 2 ^ 32) (n : Nat) :
    SameBucket n name := by
  rw [SameBucket, ← (setWidth_elfHash name).1, BitVec.toNat_setWidth, Nat.mod_eq_of_lt h]

/-! ## Symbols -/

/-- A symbol, without its size. -/
structure ElfSym where
  stName : BitVec 32
  stInfo : Byte
  stOther : Byte
  stShndx : BitVec 16
  stValue : Xword
deriving DecidableEq, Repr

/-- A relocation whose addend lies where it is made. -/
structure ElfRel where
  rOffset : Xword
  rInfo : Xword

/-- A relocation with its addend. -/
structure ElfRela where
  rOffset : Xword
  rInfo : Xword
  rAddend : Xword

/-- What the linker reads of the modules: the parts that nothing writes to. -/
structure Image where
  word : Addr → BitVec 32
  sym : Addr → ElfSym
  str : Addr → Str
  rel : Addr → ElfRel
  rela : Addr → ElfRela

/-- `ELF64_ST_BIND`. -/
def elfStBind (info : Byte) : Byte := info >>> 4

/-- `ELF64_ST_VISIBILITY`. -/
def elfStVisibility (other : Byte) : Byte := other &&& 0x3#8

/-- `STB_WEAK`. -/
def stbWeak : Byte := 2#8

/-- The sections of a symbol that is not defined, and of one that has yet to be given room. -/
def shnUndef : BitVec 16 := 0#16
def shnCommon : BitVec 16 := 0xfff2#16

/-- A symbol that is no definition, which the search passes over. -/
def ElfSym.isCommon (s : ElfSym) : Bool :=
  if s.stShndx ≠ shnUndef then s.stShndx == shnCommon else true

namespace ModuleObject

variable (m : ModuleObject) (img : Image)

/-- `&this->dynsym[i]`. -/
def symAt (i : BitVec 32) : Addr := m.dynsym + sizeofElfSym * i.setWidth 64

/-- The name of a symbol. -/
def nameOf (s : ElfSym) : Str := img.str (m.dynstr + s.stName.setWidth 64)

/-- The first symbol of a bucket. -/
def bucket (b : BitVec 64) : BitVec 32 := img.word (m.hashBucket + 4#64 * b)

/-- The symbol behind one in its bucket, or zero. -/
def chain (i : BitVec 32) : BitVec 32 := img.word (m.hashChain + 4#64 * i.setWidth 64)

/-- Symbol `i` is the one that is looked for. -/
def isNamed (name : Str) (i : BitVec 32) : Bool :=
  let s := img.sym (m.symAt i)
  !s.isCommon && name == m.nameOf img s

/-- `nullptr` is `some none`; `none` where the rounds do not suffice. -/
def getSymbolByName (rounds : Nat) (name : Str) : Option (Option Addr) :=
  let nameHash := rtldElfHash name
  walk (m.chain img) 0#32 (fun i => some (if m.isNamed img name i then some (m.symAt i) else none))
    rounds (m.bucket img (nameHash % m.hashNbucketValue))

end ModuleObject

/-! ## Tables that are filed -/

/-- Each bucket has a chain that ends, and each of the symbols is in the chain of the bucket that
the hash of 32 bits chooses. -/
structure Filed (img : Image) (m : ModuleObject) (symbols : List (BitVec 32)) : Prop where
  pos : m.hashNbucketValue ≠ 0#64
  chains : ∀ b, b.toNat < m.hashNbucketValue.toNat →
    ∃ is, ChainOf (m.chain img) 0#32 (m.bucket img b) is ∧ is ⊆ symbols
  filed : ∀ i ∈ symbols, ∀ is,
    ChainOf (m.chain img) 0#32 (m.bucket img (BitVec.ofNat 64
      ((elfHash 32 (m.nameOf img (img.sym (m.symAt i)))).toNat % m.hashNbucketValue.toNat))) is →
      i ∈ is

/-- Symbol `i` is defined under the name. -/
def Defines (img : Image) (m : ModuleObject) (name : Str) (i : BitVec 32) : Prop :=
  (img.sym (m.symAt i)).isCommon = false ∧ m.nameOf img (img.sym (m.symAt i)) = name

variable {img : Image} {m : ModuleObject} {symbols : List (BitVec 32)} {name : Str}

theorem isNamed_iff {i : BitVec 32} : m.isNamed img name i = true ↔ Defines img m name i := by
  simp only [ModuleObject.isNamed, Defines, Bool.and_eq_true, Bool.not_eq_true', beq_iff_eq]
  exact and_congr_right fun _ => eq_comm

/-- The chain of a name, and the first symbol of it that is found. -/
theorem Filed.search (h : Filed img m symbols) (hBucket : SameBucket m.hashNbucketValue.toNat name) :
    ∃ is, is.length ≤ symbols.length ∧ is ⊆ symbols ∧
      (∀ i ∈ symbols, Defines img m name i → i ∈ is) ∧
      ∀ rounds, is.length < rounds →
        m.getSymbolByName img rounds name = some ((is.find? (m.isNamed img name)).map m.symAt) := by
  have hPos : 0 < m.hashNbucketValue.toNat := by
    have := h.pos
    bv_omega
  have hIndex : rtldElfHash name % m.hashNbucketValue =
      BitVec.ofNat 64 ((elfHash 32 name).toNat % m.hashNbucketValue.toNat) := by
    apply BitVec.eq_of_toNat_eq
    have hMod := Nat.mod_lt (elfHash 32 name).toNat hPos
    rw [BitVec.toNat_umod, hBucket, BitVec.toNat_ofNat]
    exact (Nat.mod_eq_of_lt (Nat.lt_trans hMod m.hashNbucketValue.isLt)).symm
  obtain ⟨is, hChain, hSub⟩ := h.chains (rtldElfHash name % m.hashNbucketValue) (by
    rw [BitVec.toNat_umod]
    exact Nat.mod_lt _ hPos)
  refine ⟨is, hChain.length_le hSub, hSub, fun i hi hDefines => ?_,
    fun rounds hRounds => ?_⟩
  · refine h.filed i hi is ?_
    rw [hDefines.2, ← hIndex]
    exact hChain
  · rw [ModuleObject.getSymbolByName, walk_eq hChain (fun _ _ => rfl) hRounds,
      List.find?_eq_findSome?_guard, List.map_findSome?]
    congr 2
    funext i
    simp only [Function.comp, Option.guard]
    split <;> rfl

/-- **Looking a name up.** Where the hashes agree on the bucket, the search ends; it finds a symbol
that is defined under the name, and none if and only if there is none. -/
theorem getSymbolByName_spec (h : Filed img m symbols)
    (hBucket : m.hashNbucketValue.toNat ∣ 2 ^ 32 ∨ (rtldElfHash name).toNat < 2 ^ 32) :
    ∃ found, (∀ rounds, symbols.length < rounds → m.getSymbolByName img rounds name = some found) ∧
      (found = none ↔ ∀ i ∈ symbols, ¬ Defines img m name i) ∧
      ∀ a, found = some a → ∃ i ∈ symbols, a = m.symAt i ∧ Defines img m name i := by
  have hSame : SameBucket m.hashNbucketValue.toNat name :=
    hBucket.elim (fun hDvd => sameBucket_of_dvd hDvd name) (fun hLt => sameBucket_of_lt hLt _)
  obtain ⟨is, hLength, hSub, hAll, hSearch⟩ := h.search hSame
  refine ⟨_, fun rounds hRounds => hSearch rounds (by omega), ?_, fun a ha => ?_⟩
  · rw [Option.map_eq_none_iff, List.find?_eq_none]
    constructor
    · exact fun hNone i hi hDefines => hNone i (hAll i hi hDefines) (isNamed_iff.mpr hDefines)
    · exact fun hNone i hi hNamed => hNone i (hSub hi) (isNamed_iff.mp hNamed)
  · obtain ⟨i, hi, rfl⟩ := Option.map_eq_some_iff.mp ha
    exact ⟨i, hSub (List.mem_of_find?_eq_some hi), rfl, isNamed_iff.mp (List.find?_some hi)⟩

/-- A module at 0x10000 that defines the function `f`. -/
def oneObject : ModuleObject :=
  { ModuleObject.zero with
    prev := 0x6000#64
    moduleBase := 0x10000#64
    hashBucket := 0x10008#64
    hashChain := 0x1000c#64
    dynstr := 0x10040#64
    dynsym := 0x10050#64
    hashNbucketValue := 1#64 }

/-- Its tables: one bucket, with the symbol 1 in its chain. -/
def oneImage : Image where
  word a := if a = 0x10008#64 then 1#32 else 0#32
  sym a := if a = 0x10068#64 then ⟨1#32, 0x12#8, 0#8, 1#16, 0x200#64⟩ else ⟨0#32, 0#8, 0#8, 0#16, 0#64⟩
  str a := if a = 0x10041#64 then strOf [0x66#8] else strOf []
  rel _ := ⟨0#64, 0#64⟩
  rela _ := ⟨0#64, 0#64, 0#64⟩

theorem one_chain : ChainOf (oneObject.chain oneImage) 0#32 1#32 [1#32] :=
  ⟨rfl, by decide, show oneObject.chain oneImage 1#32 = 0#32 by decide⟩

theorem one_filed : Filed oneImage oneObject [1#32] where
  pos := by decide
  chains b hb := by
    have hBits : oneObject.hashNbucketValue.toNat = 1 := rfl
    obtain rfl : b = 0#64 := by bv_omega
    exact ⟨[1#32], one_chain, List.Subset.refl _⟩
  filed i hi is hChain := by
    obtain rfl := List.mem_singleton.mp hi
    have hSame : is = [1#32] := hChain.unique one_chain
    rw [hSame]
    exact List.mem_singleton_self _

theorem getSymbolByName_spec_one :
    ∃ found, oneObject.getSymbolByName oneImage 2 (strOf [0x66#8]) = some found ∧
      (found = none ↔ ∀ i ∈ [1#32], ¬ Defines oneImage oneObject (strOf [0x66#8]) i) := by
  obtain ⟨found, hRun, hNone, -⟩ := @getSymbolByName_spec _ _ _ (strOf [0x66#8])
    one_filed (Or.inl (by decide))
  exact ⟨found, hRun 2 (by decide), hNone⟩

/-- Without a second symbol of the name, the search finds the one there is. -/
theorem getSymbolByName_eq (h : Filed img m symbols)
    (hBucket : m.hashNbucketValue.toNat ∣ 2 ^ 32 ∨ (rtldElfHash name).toNat < 2 ^ 32)
    (hUnique : ∀ i ∈ symbols, ∀ j ∈ symbols, Defines img m name i → Defines img m name j → i = j)
    {rounds : Nat} (hRounds : symbols.length < rounds) :
    m.getSymbolByName img rounds name =
      some ((symbols.find? (m.isNamed img name)).map m.symAt) := by
  have hSame : SameBucket m.hashNbucketValue.toNat name :=
    hBucket.elim (fun hDvd => sameBucket_of_dvd hDvd name) (fun hLt => sameBucket_of_lt hLt _)
  obtain ⟨is, hLength, hSub, hAll, hSearch⟩ := h.search hSame
  rw [hSearch rounds (by omega)]
  congr 2
  cases hFind : symbols.find? (m.isNamed img name) with
  | none =>
    rw [List.find?_eq_none] at hFind ⊢
    exact fun i hi => hFind i (hSub hi)
  | some i =>
    have hi := List.mem_of_find?_eq_some hFind
    have hDefines : Defines img m name i := isNamed_iff.mp (List.find?_some hFind)
    cases hFind' : is.find? (m.isNamed img name) with
    | none =>
      exact absurd (isNamed_iff.mpr hDefines) (List.find?_eq_none.mp hFind' i (hAll i hi hDefines))
    | some j =>
      have hj := hSub (List.mem_of_find?_eq_some hFind')
      rw [hUnique i hi j hj hDefines (isNamed_iff.mp (List.find?_some hFind'))]

/-! ## The list of modules -/

/-- The ends of a circular list. -/
structure ModuleObjectList where
  front : Addr
  back : Addr

/-- `g_pAutoLoadList` lies at `autoLoadAddr`. -/
structure Linker where
  img : Image
  objects : Addr → ModuleObject
  autoLoadAddr : Addr
  autoLoadList : ModuleObjectList
  lookupGlobalManual : Option (Str → Addr)

namespace Linker

variable (L : Linker)

/-- `Iterator::operator++`, from `begin()` on. -/
def nextModule (a : Addr) : Addr := if a = 0#64 then a else (L.objects a).prev

/-- What the loop does with a module. -/
def askModule (rounds : Nat) (name : Str) (a : Addr) : Option (Option Addr) :=
  ((L.objects a).getSymbolByName L.img rounds name).map fun found =>
    found.bind fun symbol =>
      if elfStBind (L.img.sym symbol).stInfo ≠ 0#8 then
        some ((L.objects a).moduleBase + (L.img.sym symbol).stValue)
      else none

/-- Asks the modules one after another. An empty list has no answer, nor has a list in which none
defines the name. -/
def lookupGlobalAuto (rounds : Nat) (name : Str) : Option Addr :=
  if L.autoLoadList.back = L.autoLoadAddr then some 0#64
  else
    (walk L.nextModule L.autoLoadAddr (L.askModule rounds name) rounds L.autoLoadList.back).map
      fun found => found.getD 0#64

/-- The modules of the list, the last one first. -/
structure Lists (ms : List Addr) : Prop where
  chain : ChainOf (fun a => (L.objects a).prev) L.autoLoadAddr L.autoLoadList.back ms
  nonnull : 0#64 ∉ ms

/-- The tables of the modules are filed, the hashes of the name agree on the buckets, and no module
defines it twice. -/
structure Searchable (ms : List Addr) (symbols : Addr → List (BitVec 32)) (name : Str) : Prop where
  filed : ∀ a ∈ ms, Filed L.img (L.objects a) (symbols a)
  bucket : ∀ a ∈ ms, (L.objects a).hashNbucketValue.toNat ∣ 2 ^ 32 ∨
    (rtldElfHash name).toNat < 2 ^ 32
  unique : ∀ a ∈ ms, ∀ i ∈ symbols a, ∀ j ∈ symbols a,
    Defines L.img (L.objects a) name i → Defines L.img (L.objects a) name j → i = j

/-- The module has a symbol of the name, for others to use, with this address. -/
def Exports (symbols : Addr → List (BitVec 32)) (name : Str) (a v : Addr) : Prop :=
  ∃ i ∈ symbols a, Defines L.img (L.objects a) name i ∧
    elfStBind (L.img.sym ((L.objects a).symAt i)).stInfo ≠ 0#8 ∧
    v = (L.objects a).moduleBase + (L.img.sym ((L.objects a).symAt i)).stValue

/-- The address that a module exports, if any. -/
def exported (symbols : Addr → List (BitVec 32)) (name : Str) (a : Addr) : Option Addr :=
  ((symbols a).find? ((L.objects a).isNamed L.img name)).bind fun i =>
    if elfStBind (L.img.sym ((L.objects a).symAt i)).stInfo ≠ 0#8 then
      some ((L.objects a).moduleBase + (L.img.sym ((L.objects a).symAt i)).stValue)
    else none

end Linker

variable {L : Linker} {ms : List Addr} {symbols : Addr → List (BitVec 32)} {a v : Addr}

theorem Linker.Searchable.exported_iff (h : L.Searchable ms symbols name) (ha : a ∈ ms) :
    L.exported symbols name a = some v ↔ L.Exports symbols name a v := by
  rw [Linker.exported, Option.bind_eq_some_iff]
  constructor
  · rintro ⟨i, hFind, hValue⟩
    split at hValue
    · rename_i hBind
      exact ⟨i, List.mem_of_find?_eq_some hFind, isNamed_iff.mp (List.find?_some hFind), hBind,
        (Option.some.inj hValue).symm⟩
    · cases hValue
  · rintro ⟨i, hi, hDefines, hBind, rfl⟩
    refine ⟨i, ?_, if_pos hBind⟩
    cases hFind : (symbols a).find? ((L.objects a).isNamed L.img name) with
    | none => exact absurd (isNamed_iff.mpr hDefines) (List.find?_eq_none.mp hFind i hi)
    | some j =>
      have hj : Defines L.img (L.objects a) name j := isNamed_iff.mp (List.find?_some hFind)
      rw [h.unique a ha j (List.mem_of_find?_eq_some hFind) i hi hj hDefines]

theorem Linker.Searchable.askModule_eq (h : L.Searchable ms symbols name) (ha : a ∈ ms)
    {rounds : Nat} (hRounds : (symbols a).length < rounds) :
    L.askModule rounds name a = some (L.exported symbols name a) := by
  rw [Linker.askModule, getSymbolByName_eq (h.filed a ha) (h.bucket a ha) (h.unique a ha) hRounds,
    Option.map_some, Option.bind_map]
  rfl

/-- The loop gives what the first module of the way exports. -/
theorem lookupGlobalAuto_eq (hLists : L.Lists ms) (h : L.Searchable ms symbols name) {rounds : Nat}
    (hRounds : ms.length < rounds) (hSymbols : ∀ a ∈ ms, (symbols a).length < rounds) :
    L.lookupGlobalAuto rounds name =
      some ((ms.findSome? (L.exported symbols name)).getD 0#64) := by
  rw [Linker.lookupGlobalAuto]
  split
  · rename_i hEmpty
    obtain rfl : ms = [] := hLists.chain.unique hEmpty
    rfl
  · have hChain : ChainOf L.nextModule L.autoLoadAddr L.autoLoadList.back ms :=
      hLists.chain.congr fun a ha => if_neg fun (hNull : a = 0#64) => hLists.nonnull (hNull ▸ ha)
    rw [walk_eq hChain (fun a ha => h.askModule_eq ha (hSymbols a ha)) hRounds, Option.map_some]

/-- **Looking a name up in all modules.** The search ends with the address that the last module of
the list that exports the name has for it, or with 0 where none does. -/
theorem lookupGlobalAuto_spec (hLists : L.Lists ms) (h : L.Searchable ms symbols name) :
    ∃ v, (∀ rounds, ms.length < rounds → (∀ a ∈ ms, (symbols a).length < rounds) →
        L.lookupGlobalAuto rounds name = some v) ∧
      ((∃ pre a post, ms = pre ++ a :: post ∧ L.Exports symbols name a v ∧
          ∀ b ∈ pre, ∀ w, ¬ L.Exports symbols name b w) ∨
        v = 0#64 ∧ ∀ a ∈ ms, ∀ w, ¬ L.Exports symbols name a w) := by
  refine ⟨_, fun rounds hRounds hSymbols => lookupGlobalAuto_eq hLists h hRounds hSymbols, ?_⟩
  have hNone : ∀ {b : Addr}, b ∈ ms → L.exported symbols name b = none →
      ∀ w, ¬ L.Exports symbols name b w := by
    intro b hb hNothing w hExports
    rw [(h.exported_iff hb).mpr hExports] at hNothing
    cases hNothing
  cases hFound : ms.findSome? (L.exported symbols name) with
  | none =>
    refine Or.inr ⟨rfl, fun a ha => hNone ha ?_⟩
    exact List.findSome?_eq_none_iff.mp hFound a ha
  | some v =>
    obtain ⟨pre, a, post, rfl, hValue, hPre⟩ := List.findSome?_eq_some_iff.mp hFound
    refine Or.inl ⟨pre, a, post, rfl, (h.exported_iff (by simp)).mp hValue, fun b hb => ?_⟩
    exact hNone (List.mem_append_left _ hb) (hPre b hb)

/-- The module is the only one of the list. -/
def oneLinker : Linker where
  img := oneImage
  objects _ := oneObject
  autoLoadAddr := 0x6000#64
  autoLoadList := ⟨0x5000#64, 0x5000#64⟩
  lookupGlobalManual := none

theorem one_lists : oneLinker.Lists [0x5000#64] where
  chain := ⟨rfl, by decide, rfl⟩
  nonnull := by decide

theorem one_searchable (name : Str) : oneLinker.Searchable [0x5000#64] (fun _ => [1#32]) name where
  filed _ _ := one_filed
  bucket _ _ := Or.inl (Nat.one_dvd (2 ^ 32))
  unique _ _ _ hi _ hj _ _ := (List.mem_singleton.mp hi).trans (List.mem_singleton.mp hj).symm

theorem lookupGlobalAuto_spec_one :
    ∃ v, oneLinker.lookupGlobalAuto 2 (strOf [0x66#8]) = some v := by
  obtain ⟨v, hRun, -⟩ := lookupGlobalAuto_spec one_lists (one_searchable (strOf [0x66#8]))
  exact ⟨v, hRun 2 Nat.one_lt_two fun _ _ => Nat.one_lt_two⟩

example : oneLinker.lookupGlobalAuto 2 (strOf [0x66#8]) = some 0x10200#64 := by decide

end Wondar.Reloc
