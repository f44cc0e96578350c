import Wondar.Reloc.Dynamic
import Wondar.Setting

/-!
# The entry point

`__module_start` is entered for an exception, or else to start the module. Then `crt0` finds its MOD0
header, clears the BSS, relocates the module and goes on with `exl_entrypoint_init`.

* `bssLoop_eq`: the loop counts down in a 32-bit register and tests it behind the store, so that it
  clears 4 GiB where nothing is left to clear.
* `crt0_starts`: where the BSS is not empty, the program starts with the BSS at zero, each relative
  relocation applied once and the rest of memory as it was loaded, and with its two arguments.
-/

namespace Wondar.Reloc

open A64 (Addr)
open Blocks Updates

/-! ## `crt0` -/

/-- Where it branches to, with `x0`, `x1` and the memory. -/
inductive Entered
  | exceptionEntry (x0 x1 : BitVec 64) (mem : Memory)
  | entrypointInit (x0 x1 : BitVec 64) (mem : Memory)

/-- `FUNC_RELATIVE_ASLR`: the word behind the call, relative to itself. -/
def getModuleStart (mem : Memory) (x30 : Addr) : Addr :=
  (load32 mem x30.toNat).signExtend 64 + x30

def getMod0 (mem : Memory) (x23 : Addr) : Addr :=
  (load32 mem (x23.toNat + 4)).setWidth 64 + x23

/-- `FROM_MOD0`. -/
def fromMod0 (mem : Memory) (x24 : Addr) (offset : Nat) : Addr :=
  (load32 mem (x24.toNat + offset)).signExtend 64 + x24

/-- `bss_loop`. `none` where the rounds do not suffice. -/
def bssLoop : Nat → Memory → Addr → BitVec 32 → Option Memory
  | 0, _, _, _ => none
  | rounds + 1, mem, x8, w9 =>
    let w9 := w9 - 8#32
    let mem := store64 mem x8.toNat 0#64
    let x8 := x8 + 8#64
    if w9 ≠ 0#32 then bssLoop rounds mem x8 w9 else some mem

/-- From the call of `__get_module_start_shim` on, which leaves `x30` at the word behind it. -/
def getModuleInfo (rounds : Nat) (mem : Memory) (x30 : Addr) (x0 x1 : BitVec 64) : Option Entered :=
  let x23 := getModuleStart mem x30
  let x24 := getMod0 mem x23
  let x8 := fromMod0 mem x24 0x8
  let x9 := fromMod0 mem x24 0xC
  let x9 := x9 - x8
  let x9 := x9 + 7#64
  let x9 := x9 &&& ~~~7#64
  (bssLoop rounds mem x8 (x9.setWidth 32)).bind fun mem =>
    (exlDynamic rounds mem x23 (fromMod0 mem x24 0x4)).map (.entrypointInit x0 x1)

def crt0 (rounds : Nat) (mem : Memory) (x30 : Addr) (x0 x1 : BitVec 64) : Option Entered :=
  -- `ccmn`: if `x0` is zero the flags are those of the immediate, which has Z
  let z := if x0 ≠ 0#64 then x1 + 1#64 == 0#64 else true
  if z then getModuleInfo rounds mem x30 x0 x1 else some (.exceptionEntry x0 x1 mem)

/-! ## The loop -/

variable {mem mem₁ : Memory} {x0 x1 : BitVec 64} {x8 x30 aslrBase : Addr} {ds : List ElfDyn}
  {rounds k : Nat}

/-- Eight bytes of zero. -/
theorem store64_zero (mem : Memory) (a : Nat) :
    store64 mem a 0#64 = write mem a (List.replicate 8 0#8) := rfl

theorem bssLoop_eq (hCount : 8 * (k + 1) ≤ 2 ^ 32) (hFits : x8.toNat + 8 * (k + 1) ≤ 2 ^ 64)
    (hRounds : k < rounds) :
    bssLoop rounds mem x8 (BitVec.ofNat 32 (8 * (k + 1))) =
      some (write mem x8.toNat (List.replicate (8 * (k + 1)) 0#8)) := by
  induction k generalizing mem x8 rounds with
  | zero =>
    obtain ⟨rounds, rfl⟩ := Nat.exists_eq_succ_of_ne_zero (Nat.ne_of_gt hRounds)
    rfl
  | succ k ih =>
    obtain ⟨rounds, rfl⟩ := Nat.exists_eq_succ_of_ne_zero (show rounds ≠ 0 by omega)
    have hLeft : BitVec.ofNat 32 (8 * (k + 1 + 1)) - 8#32 = BitVec.ofNat 32 (8 * (k + 1)) := by
      apply BitVec.eq_of_toNat_eq
      simp only [BitVec.toNat_sub, BitVec.toNat_ofNat]
      omega
    have hMore : BitVec.ofNat 32 (8 * (k + 1)) ≠ 0#32 := by
      intro hZero
      have hNat := congrArg BitVec.toNat hZero
      simp only [BitVec.toNat_ofNat] at hNat
      omega
    have hNext : (x8 + 8#64).toNat = x8.toNat + 8 := by
      rw [BitVec.toNat_add]
      exact Nat.mod_eq_of_lt (by simp only [BitVec.toNat_ofNat]; omega)
    rw [bssLoop, hLeft, if_pos hMore, ih (by omega) (by omega) (by omega), hNext, store64_zero]
    have hBoth := write_write mem x8.toNat (List.replicate 8 0#8)
      (List.replicate (8 * (k + 1)) 0#8)
    rw [List.length_replicate] at hBoth
    rw [hBoth, List.replicate_append_replicate, show 8 + 8 * (k + 1) = 8 * (k + 1 + 1) by omega]

/-- With nothing to clear, the counter goes around. -/
theorem bssLoop_zero (hFits : x8.toNat + 2 ^ 32 ≤ 2 ^ 64) (hRounds : 2 ^ 29 ≤ rounds) :
    bssLoop rounds mem x8 0#32 = some (write mem x8.toNat (List.replicate (2 ^ 32) 0#8)) := by
  have hAround : BitVec.ofNat 32 (8 * (2 ^ 29 - 1 + 1)) = 0#32 := by decide
  have h := @bssLoop_eq mem x8 rounds (2 ^ 29 - 1) (by decide) hFits (by omega)
  rw [hAround] at h
  exact h

/-! ## Images -/

/-- The memory is the same but for a block. -/
def SameOutside (bss : Block) (mem mem₁ : Memory) : Prop :=
  ∀ b, ¬ (bss.addr ≤ b ∧ b < bss.addr + bss.size) → mem₁ b = mem b

/-- What the BSS has to keep clear of: what is read, and the targets. -/
structure BssApart (mem : Memory) (bss : Block) (mod0 dynamic aslrBase : Addr) (ds : List ElfDyn) :
    Prop where
  mod0 : bss.Apart ⟨mod0.toNat + 4, 4⟩
  dynamic : ∀ i ≤ ds.length, bss.Apart ⟨(dynamic + BitVec.ofNat 64 (16 * i)).toNat, 16⟩
  rel : ∀ e ∈ relTable aslrBase ds, bss.Apart ⟨e.toNat, 16⟩
  rela : ∀ e ∈ relaTable aslrBase ds, bss.Apart ⟨e.toNat, 24⟩
  targets : ∀ t ∈ targets mem aslrBase (relTable aslrBase ds) ++
    targets mem aslrBase (relaTable aslrBase ds), bss.Apart ⟨t.toNat, 8⟩

/-- A module as it is loaded, with `x30` at the word that names its start. -/
structure ModuleImage (mem : Memory) (x30 aslrBase : Addr) (ds : List ElfDyn) (bss : Block) : Prop where
  start : getModuleStart mem x30 = aslrBase
  table : DynamicTable mem (fromMod0 mem (getMod0 mem aslrBase) 4) ds
  formed : WellFormed mem aslrBase ds
  bssStart : (fromMod0 mem (getMod0 mem aslrBase) 8).toNat = bss.addr
  bssSize : ∃ k, bss.size = 8 * (k + 1) ∧
    8 * k < (fromMod0 mem (getMod0 mem aslrBase) 0xC -
      fromMod0 mem (getMod0 mem aslrBase) 8).toNat ∧
    (fromMod0 mem (getMod0 mem aslrBase) 0xC -
      fromMod0 mem (getMod0 mem aslrBase) 8).toNat ≤ 8 * (k + 1)
  bssCount : bss.size ≤ 2 ^ 32
  bssFits : bss.addr + bss.size ≤ 2 ^ 64
  apart : BssApart mem bss (getMod0 mem aslrBase) (fromMod0 mem (getMod0 mem aslrBase) 4) aslrBase ds

/-- The memory that the program starts with. -/
structure Started (mem mem' : Memory) (aslrBase : Addr) (ds : List ElfDyn) (bss : Block) : Prop where
  zero : ∀ b, bss.addr ≤ b → b < bss.addr + bss.size → mem' b = 0#8
  rel : ∀ e ∈ relTable aslrBase ds, isRelative mem e = true →
    load64 mem' (target mem aslrBase e).toNat =
      load64 mem (target mem aslrBase e).toNat + aslrBase
  rela : ∀ e ∈ relaTable aslrBase ds, isRelative mem e = true →
    load64 mem' (target mem aslrBase e).toNat = aslrBase + rAddend mem e
  frame : ∀ b, ¬ (bss.addr ≤ b ∧ b < bss.addr + bss.size) →
    (∀ t ∈ targets mem aslrBase (relTable aslrBase ds) ++
      targets mem aslrBase (relaTable aslrBase ds), ¬ (t.toNat ≤ b ∧ b < t.toNat + 8)) →
    mem' b = mem b

/-! ## What the clearing keeps -/

namespace SameOutside

variable {bss : Block} {a n : Nat} {e : Addr}

theorem load64 (h : SameOutside bss mem mem₁) (hApart : bss.Apart ⟨a, 8⟩) :
    load64 mem₁ a = Blocks.load64 mem a := by
  simp only [Block.Apart] at hApart
  exact load64_congr fun i hi => h _ (by omega)

theorem load32 (h : SameOutside bss mem mem₁) (hApart : bss.Apart ⟨a, 4⟩) :
    load32 mem₁ a = Blocks.load32 mem a := by
  simp only [Block.Apart] at hApart
  exact load32_congr fun i hi => h _ (by omega)

theorem field (h : SameOutside bss mem mem₁) {offset : Nat} (hApart : bss.Apart ⟨a, n⟩)
    (hField : offset + 8 ≤ n) : Blocks.load64 mem₁ (a + offset) = Blocks.load64 mem (a + offset) := by
  apply h.load64
  simp only [Block.Apart] at hApart ⊢
  omega

theorem readDyn (h : SameOutside bss mem mem₁) (hApart : bss.Apart ⟨e.toNat, 16⟩) :
    readDyn mem₁ e = Reloc.readDyn mem e := by
  rw [Reloc.readDyn, Reloc.readDyn, h.field hApart (by decide)]
  exact congrArg (ElfDyn.mk · _) (@field _ _ _ _ _ h 0 hApart (by decide))

theorem target (h : SameOutside bss mem mem₁) (hApart : bss.Apart ⟨e.toNat, n⟩) (hn : 16 ≤ n) :
    target mem₁ aslrBase e = Reloc.target mem aslrBase e := by
  have hOffset : rOffset mem₁ e = rOffset mem e := @field _ _ _ _ _ h 0 hApart (by omega)
  rw [Reloc.target, Reloc.target, hOffset]

theorem isRelative (h : SameOutside bss mem mem₁) (hApart : bss.Apart ⟨e.toNat, n⟩) (hn : 16 ≤ n) :
    isRelative mem₁ e = Reloc.isRelative mem e := by
  have hInfo : rInfo mem₁ e = rInfo mem e := h.field hApart (by omega)
  rw [Reloc.isRelative, Reloc.isRelative, hInfo]

theorem targets (h : SameOutside bss mem mem₁) {table : List Addr}
    (hApart : ∀ e ∈ table, bss.Apart ⟨e.toNat, n⟩) (hn : 16 ≤ n) :
    targets mem₁ aslrBase table = Reloc.targets mem aslrBase table := by
  rw [Reloc.targets, Reloc.targets, List.filter_congr fun e he => h.isRelative (hApart e he) hn]
  exact List.map_congr_left fun e he => h.target (hApart e (List.mem_filter.mp he).1) hn

theorem relativeFirst (h : SameOutside bss mem mem₁) {table : List Addr} {count : Option Xword}
    (hApart : ∀ e ∈ table, bss.Apart ⟨e.toNat, n⟩) (hn : 16 ≤ n)
    (hFirst : RelativeFirst mem table count) : RelativeFirst mem₁ table count := by
  obtain ⟨front, back, rfl, hFront, hBack, hCount⟩ := hFirst
  refine ⟨front, back, rfl, fun e he => ?_, fun e he => ?_, hCount⟩
  · rw [h.isRelative (hApart e (List.mem_append_left _ he)) hn]
    exact hFront e he
  · rw [h.isRelative (hApart e (List.mem_append_right _ he)) hn]
    exact hBack e he

theorem dynamicTable (h : SameOutside bss mem mem₁) {dynamic : Addr}
    (hApart : ∀ i ≤ ds.length, bss.Apart ⟨(dynamic + BitVec.ofNat 64 (16 * i)).toNat, 16⟩)
    (hTable : DynamicTable mem dynamic ds) : DynamicTable mem₁ dynamic ds := by
  have hFirst : Reloc.readDyn mem₁ dynamic = Reloc.readDyn mem dynamic :=
    h.readDyn (by simpa using hApart 0 (Nat.zero_le _))
  induction ds generalizing dynamic with
  | nil =>
    rw [DynamicTable, hFirst]
    exact hTable
  | cons d ds ih =>
    obtain ⟨hTag, hRead, hRest⟩ := hTable
    have hApart' : ∀ i ≤ ds.length,
        bss.Apart ⟨(dynamic + sizeofElfDyn + BitVec.ofNat 64 (16 * i)).toNat, 16⟩ := by
      intro i hi
      have hShift : dynamic + sizeofElfDyn + BitVec.ofNat 64 (16 * i) =
          dynamic + BitVec.ofNat 64 (16 * (i + 1)) := by
        rw [BitVec.add_assoc, sizeofElfDyn, BitVec.ofNat_add_ofNat, Nat.mul_succ, Nat.add_comm]
      rw [hShift]
      exact hApart (i + 1) (Nat.succ_le_succ hi)
    exact ⟨hTag, hFirst.trans hRead,
      ih hApart' hRest (h.readDyn (by simpa using hApart' 0 (Nat.zero_le _)))⟩

end SameOutside

/-! ## The start -/

variable {bss : Block}

theorem sameOutside_clear (mem : Memory) (bss : Block) :
    SameOutside bss mem (write mem bss.addr (List.replicate bss.size 0#8)) := by
  intro b hb
  apply write_outside
  rw [List.length_replicate]
  exact hb

theorem cleared (mem : Memory) {b : Nat} (hLow : bss.addr ≤ b) (hHigh : b < bss.addr + bss.size) :
    write mem bss.addr (List.replicate bss.size 0#8) b = 0#8 := by
  rw [write, if_pos hLow, List.getElem?_replicate, if_pos (by omega), Option.getD_some]

namespace ModuleImage

variable (h : ModuleImage mem x30 aslrBase ds bss)

include h

theorem targets (hSame : SameOutside bss mem mem₁) :
    targets mem₁ aslrBase (relTable aslrBase ds) = Reloc.targets mem aslrBase (relTable aslrBase ds) ∧
      Reloc.targets mem₁ aslrBase (relaTable aslrBase ds) =
        Reloc.targets mem aslrBase (relaTable aslrBase ds) :=
  ⟨hSame.targets h.apart.rel (by decide), hSame.targets h.apart.rela (by decide)⟩

/-- The relocations are well formed still. -/
theorem wellFormed (hSame : SameOutside bss mem mem₁) : WellFormed mem₁ aslrBase ds where
  rel := hSame.relativeFirst h.apart.rel (by decide) h.formed.rel
  rela := hSame.relativeFirst h.apart.rela (by decide) h.formed.rela
  apart := by
    rw [(h.targets hSame).1, (h.targets hSame).2]
    exact h.formed.apart
  clear := by
    rw [(h.targets hSame).1, (h.targets hSame).2]
    exact h.formed.clear

theorem clearBss (rounds : Nat) (hRounds : 2 ^ 29 ≤ rounds) :
    let start := fromMod0 mem (getMod0 mem aslrBase) 8
    let stop := fromMod0 mem (getMod0 mem aslrBase) 0xC
    bssLoop rounds mem start (((stop - start + 7#64) &&& ~~~7#64).setWidth 32) =
      some (write mem bss.addr (List.replicate bss.size 0#8)) := by
  intro start stop
  obtain ⟨k, hSize, hLow, hHigh⟩ := h.bssSize
  change 8 * k < (stop - start).toNat at hLow
  change (stop - start).toNat ≤ 8 * (k + 1) at hHigh
  have hCount := h.bssCount
  have hFits := h.bssFits
  have hRound : ((stop - start + 7#64) &&& ~~~7#64).toNat = 8 * (k + 1) := by
    have hUp := alignUp_pow_toNat (x := stop - start) (k := 3) (by decide) (by omega)
    have hEq : alignUp (stop - start) (BitVec.ofNat 64 (2 ^ 3)) = (stop - start + 7#64) &&& ~~~7#64 := rfl
    rw [← hEq, hUp]
    omega
  have hWord : ((stop - start + 7#64) &&& ~~~7#64).setWidth 32 = BitVec.ofNat 32 (8 * (k + 1)) := by
    apply BitVec.eq_of_toNat_eq
    rw [BitVec.toNat_setWidth, hRound, BitVec.toNat_ofNat]
  rw [hWord, hSize, ← h.bssStart]
  exact bssLoop_eq (by omega) (by rw [h.bssStart]; omega) (by omega)

/-- Relocations behind the clearing are those of the module as it was loaded. -/
theorem started {mem' : Memory}
    (h' : Relocated (write mem bss.addr (List.replicate bss.size 0#8)) mem' aslrBase ds) :
    Started mem mem' aslrBase ds bss := by
  have hSame := sameOutside_clear mem bss
  obtain ⟨hRel, hRela⟩ := h.targets hSame
  have hFrame := h'.frame
  rw [hRel, hRela] at hFrame
  constructor
  · intro b hLow hHigh
    refine (hFrame b fun t ht hCovers => ?_).trans (cleared mem hLow hHigh)
    have hApart := h.apart.targets t ht
    simp only [Block.Apart] at hApart
    omega
  · intro e he hRelative
    have hTarget := @SameOutside.target _ _ aslrBase _ _ _ hSame (h.apart.rel e he) (by decide)
    have hMem : target mem aslrBase e ∈ Reloc.targets mem aslrBase (relTable aslrBase ds) :=
      List.mem_map_of_mem (List.mem_filter.mpr ⟨he, hRelative⟩)
    have hWord := h'.rel e he ((hSame.isRelative (h.apart.rel e he) (by decide)).trans hRelative)
    rw [hTarget, hSame.load64 (h.apart.targets _ (List.mem_append_left _ hMem))] at hWord
    exact hWord
  · intro e he hRelative
    have hTarget := @SameOutside.target _ _ aslrBase _ _ _ hSame (h.apart.rela e he) (by decide)
    have hAddend : rAddend (write mem bss.addr (List.replicate bss.size 0#8)) e = rAddend mem e :=
      hSame.field (h.apart.rela e he) (by decide)
    have hWord := h'.rela e he ((hSame.isRelative (h.apart.rela e he) (by decide)).trans hRelative)
    rw [hTarget, hAddend] at hWord
    exact hWord
  · intro b hOutside hNone
    exact (hFrame b hNone).trans (hSame b hOutside)

end ModuleImage

/-- An exception goes to its handler with the memory as it is. Otherwise the program is started. -/
theorem crt0_starts (h : ModuleImage mem x30 aslrBase ds bss) (x0 x1 : BitVec 64) :
    ∃ mem', (∀ rounds, 2 ^ 29 ≤ rounds → ds.length < rounds → crt0 rounds mem x30 x0 x1 =
        some (if x0 ≠ 0#64 ∧ x1 ≠ 0xffffffffffffffff#64 then .exceptionEntry x0 x1 mem
          else .entrypointInit x0 x1 mem')) ∧
      Started mem mem' aslrBase ds bss := by
  have hSame := sameOutside_clear mem bss
  have hFormed := h.wellFormed hSame
  refine ⟨_, fun rounds hRounds hTags => ?_, h.started hFormed.relocated⟩
  have hMinusOne : x1 + 1#64 = 0#64 ↔ x1 = 0xffffffffffffffff#64 := by grind
  have hDynamic : fromMod0 (write mem bss.addr (List.replicate bss.size 0#8)) (getMod0 mem aslrBase) 4 =
      fromMod0 mem (getMod0 mem aslrBase) 4 := by
    rw [fromMod0, fromMod0, hSame.load32 h.apart.mod0]
  have hRun : getModuleInfo rounds mem x30 x0 x1 = some (.entrypointInit x0 x1
      (updateAll (write mem bss.addr (List.replicate bss.size 0#8))
        (updates (write mem bss.addr (List.replicate bss.size 0#8)) aslrBase ds))) := by
    simp only [getModuleInfo, h.start]
    rw [h.clearBss rounds hRounds, Option.bind_some, hDynamic, exlDynamic,
      tagLoop_eq (hSame.dynamicTable h.apart.dynamic h.table) hTags, Option.map_some,
      Option.map_some, hFormed.relocate_eq]
  by_cases hZero : x0 = 0#64
  · rw [crt0, if_neg (not_not.mpr hZero), if_pos rfl, hRun, if_neg (fun hBoth => hBoth.1 hZero)]
  · by_cases hEnv : x1 = 0xffffffffffffffff#64
    · rw [crt0, if_pos hZero, if_pos (beq_iff_eq.mpr (hMinusOne.mpr hEnv)), hRun,
        if_neg (fun hBoth => hBoth.2 hEnv)]
    · rw [crt0, if_pos hZero, if_neg (fun hTrue => hEnv (hMinusOne.mp (beq_iff_eq.mp hTrue))),
        if_pos ⟨hZero, hEnv⟩]

theorem load32_store32_of_apart {a b : Nat} {val : BitVec 32} (h : a + 4 ≤ b ∨ b + 4 ≤ a) :
    load32 (store32 mem b val) a = load32 mem a := load32_write_of_apart h

/-- The header in front of the dynamic table, with nineteen bytes of BSS at 0x10600. -/
def headedMemory : Memory :=
  store32 (store32 (store32 (store32 (store32 sampleMemory 0x10040 0xffffffc0#32)
    0x10004 0x80#32) 0x10084 0x80#32) 0x10088 0x580#32) 0x1008c 0x593#32

theorem headed_words : load32 headedMemory 0x10040 = 0xffffffc0#32 ∧
    load32 headedMemory 0x10004 = 0x80#32 ∧ load32 headedMemory 0x10084 = 0x80#32 ∧
    load32 headedMemory 0x10088 = 0x580#32 ∧ load32 headedMemory 0x1008c = 0x593#32 := by
  refine ⟨?_, ?_, ?_, ?_, ?_⟩ <;>
    simp (disch := decide) only [headedMemory, load32_store32_of_apart, load32_store32]

theorem headed_same : SameOutside ⟨0x10000, 0x90⟩ sampleMemory headedMemory := by
  intro b hb
  simp only at hb
  have hStore : ∀ (mem : Memory) (a : Nat) (val : BitVec 32), 0x10000 ≤ a → a + 4 ≤ 0x10090 →
      store32 mem a val b = mem b := by
    intro mem a val hLow hHigh
    apply write_outside
    rw [length_bytesOf32]
    omega
  simp (disch := decide) only [headedMemory, hStore]

theorem headed_mod0 : getMod0 headedMemory 0x10000#64 = 0x10080#64 := by
  rw [getMod0, show (0x10000#64).toNat + 4 = 0x10004 from rfl, headed_words.2.1]
  decide

theorem headed_dynamic : fromMod0 headedMemory 0x10080#64 4 = 0x10100#64 := by
  rw [fromMod0, show (0x10080#64).toNat + 4 = 0x10084 from rfl, headed_words.2.2.1]
  decide

theorem headed_bssStart : fromMod0 headedMemory 0x10080#64 8 = 0x10600#64 := by
  rw [fromMod0, show (0x10080#64).toNat + 8 = 0x10088 from rfl, headed_words.2.2.2.1]
  decide

theorem headed_bssEnd : fromMod0 headedMemory 0x10080#64 0xC = 0x10613#64 := by
  rw [fromMod0, show (0x10080#64).toNat + 0xC = 0x1008c from rfl, headed_words.2.2.2.2]
  decide

theorem headed_targets :
    targets headedMemory 0x10000#64 (relTable 0x10000#64 sampleTags) = [0x10408#64] ∧
      targets headedMemory 0x10000#64 (relaTable 0x10000#64 sampleTags) = [0x10400#64] := by
  rw [headed_same.targets (n := 16) (by simp [sample_relTable, Block.Apart]) (by decide),
    headed_same.targets (n := 24) (by simp [sample_relaTable, Block.Apart]) (by decide)]
  exact sample_targets

theorem headed_wellFormed : WellFormed headedMemory 0x10000#64 sampleTags where
  rel := headed_same.relativeFirst (n := 16) (by simp [sample_relTable, Block.Apart]) (by decide)
    sample_wellFormed.rel
  rela := headed_same.relativeFirst (n := 24) (by simp [sample_relaTable, Block.Apart]) (by decide)
    sample_wellFormed.rela
  apart := by
    rw [headed_targets.1, headed_targets.2]
    decide
  clear := by
    rw [headed_targets.1, headed_targets.2, sample_relTable, sample_relaTable]
    simp [ApartBytes]

theorem headed_image :
    ModuleImage headedMemory 0x10040#64 0x10000#64 sampleTags ⟨0x10600, 24⟩ where
  start := by
    rw [getModuleStart, show (0x10040#64).toNat = 0x10040 from rfl, headed_words.1]
    decide
  table := by
    rw [headed_mod0, headed_dynamic]
    exact headed_same.dynamicTable (by decide) sample_table
  formed := headed_wellFormed
  bssStart := by
    rw [headed_mod0, headed_bssStart]
    rfl
  bssSize := by
    rw [headed_mod0, headed_bssStart, headed_bssEnd]
    exact ⟨2, by decide⟩
  bssCount := by decide
  bssFits := by decide
  apart := by
    rw [headed_mod0, headed_dynamic]
    exact
      { mod0 := by decide
        dynamic := by decide
        rel := by simp [sample_relTable, Block.Apart]
        rela := by simp [sample_relaTable, Block.Apart]
        targets := by simp [headed_targets, Block.Apart] }

theorem crt0_starts_headed : ∃ mem', (∀ rounds, 2 ^ 29 ≤ rounds → sampleTags.length < rounds →
      crt0 rounds headedMemory 0x10040#64 0#64 0x1234#64 =
        some (if 0#64 ≠ 0#64 ∧ 0x1234#64 ≠ 0xffffffffffffffff#64
          then .exceptionEntry 0#64 0x1234#64 headedMemory
          else .entrypointInit 0#64 0x1234#64 mem')) ∧
    Started headedMemory mem' 0x10000#64 sampleTags ⟨0x10600, 24⟩ :=
  crt0_starts headed_image _ _

/-! ## `exl_entrypoint_init` -/

inductive Call
  | initHeap
  | exlInit
  | function (f : Addr)
  | main (x0 x1 : BitVec 64)
deriving DecidableEq

/-- The memory, and what has been called. -/
structure Session where
  mem : Memory
  calls : List Call

/-- What the calls do to the memory. -/
abbrev Program := Call → Memory → Memory

def Session.call (run : Program) (s : Session) (c : Call) : Session := ⟨run c s.mem, s.calls ++ [c]⟩

/-- The loop over an array of functions. -/
def callArray (run : Program) (start stop : Addr) (s : Session) : Session :=
  (List.range ((stop - start).sshiftRight 3).toNat).foldl
    (fun s i => s.call run (.function (load64 s.mem (start.toNat + 8 * i)))) s

/-- The symbols of the linker. -/
structure Arrays where
  preinitArrayStart : Addr
  preinitArrayEnd : Addr
  initArrayStart : Addr
  initArrayEnd : Addr

def initArray (run : Program) (arrays : Arrays) (s : Session) : Session :=
  let s := callArray run arrays.preinitArrayStart arrays.preinitArrayEnd s
  callArray run arrays.initArrayStart arrays.initArrayEnd s

def exlEntrypointInit (run : Program) (fakeHeap : Bool) (arrays : Arrays) (mem : Memory)
    (x0 x1 : BitVec 64) : Session :=
  let s : Session := ⟨mem, []⟩
  let s := if fakeHeap then s.call run .initHeap else s
  let s := s.call run .exlInit
  let s := initArray run arrays s
  s.call run (.main x0 x1)

/-- Each word of the array is the target of a relative relocation, in their order. -/
def Relocates (mem : Memory) (aslrBase : Addr) (ds : List ElfDyn) (start stop : Addr)
    (es : List Addr) : Prop :=
  es.length = ((stop - start).sshiftRight 3).toNat ∧
    ∀ i (h : i < es.length), es[i] ∈ relaTable aslrBase ds ∧ isRelative mem es[i] = true ∧
      (target mem aslrBase es[i]).toNat = start.toNat + 8 * i

/-- The bytes of an array of `n` functions. -/
def InArray (start : Addr) (n : Nat) (b : Nat) : Prop := start.toNat ≤ b ∧ b < start.toNat + 8 * n

/-- No call changes what `P` is about. -/
def Program.Keeps (run : Program) (P : Nat → Prop) : Prop := ∀ c mem b, P b → run c mem b = mem b

section

variable {run : Program} {P : Nat → Prop} {s : Session} {start stop : Addr} {es : List Addr}

theorem callLoop_eq (hKeeps : run.Keeps P) {n : Nat} (hArray : ∀ b, InArray start n b → P b)
    {is : List Nat} (hIs : ∀ i ∈ is, i < n) (hSame : ∀ b, P b → s.mem b = mem b) :
    let s' := is.foldl (fun s i => s.call run (.function (load64 s.mem (start.toNat + 8 * i)))) s
    s'.calls = s.calls ++ is.map (fun i => .function (load64 mem (start.toNat + 8 * i))) ∧
      ∀ b, P b → s'.mem b = mem b := by
  induction is generalizing s with
  | nil => exact ⟨(List.append_nil _).symm, hSame⟩
  | cons i is ih =>
    obtain ⟨hFirst, hRest⟩ := List.forall_mem_cons.mp hIs
    have hWord : load64 s.mem (start.toNat + 8 * i) = load64 mem (start.toNat + 8 * i) :=
      load64_congr fun j hj => hSame _ (hArray _ ⟨by omega, by omega⟩)
    obtain ⟨hCalls, hMem⟩ := ih (s := s.call run (.function (load64 s.mem (start.toNat + 8 * i))))
      hRest fun b hb => (hKeeps _ _ b hb).trans (hSame b hb)
    refine ⟨?_, hMem⟩
    rw [List.foldl_cons, hCalls, Session.call, hWord, List.append_assoc, List.map_cons]
    rfl

/-- An array whose words have been relocated. -/
theorem callArray_eq (hStarted : Started mem mem₁ aslrBase ds bss) (hKeeps : run.Keeps P)
    (hArray : ∀ b, InArray start ((stop - start).sshiftRight 3).toNat b → P b)
    (hEntries : Relocates mem aslrBase ds start stop es) (hSame : ∀ b, P b → s.mem b = mem₁ b) :
    (callArray run start stop s).calls =
        s.calls ++ es.map (fun e => .function (aslrBase + rAddend mem e)) ∧
      ∀ b, P b → (callArray run start stop s).mem b = mem₁ b := by
  obtain ⟨hCalls, hMem⟩ := callLoop_eq hKeeps hArray (fun i hi => List.mem_range.mp hi) hSame
  refine ⟨hCalls.trans (congrArg (s.calls ++ ·) ?_), hMem⟩
  apply List.ext_getElem
  · rw [List.length_map, List.length_map, List.length_range, hEntries.1]
  · intro i h _
    rw [List.length_map, List.length_range, ← hEntries.1] at h
    obtain ⟨hMemTable, hRelative, hTarget⟩ := hEntries.2 i h
    rw [List.getElem_map, List.getElem_map, List.getElem_range, ← hTarget,
      hStarted.rela _ hMemTable hRelative]

/-- The functions of the two arrays are called where they have been loaded, each once and in order,
before `exl_main`. -/
theorem exlEntrypointInit_calls {arrays : Arrays} {es es' : List Addr}
    (hStarted : Started mem mem₁ aslrBase ds bss)
    (hPreinit : Relocates mem aslrBase ds arrays.preinitArrayStart arrays.preinitArrayEnd es)
    (hInit : Relocates mem aslrBase ds arrays.initArrayStart arrays.initArrayEnd es')
    (hKeeps : run.Keeps fun b => InArray arrays.preinitArrayStart es.length b ∨
      InArray arrays.initArrayStart es'.length b) (fakeHeap : Bool) (x0 x1 : BitVec 64) :
    (exlEntrypointInit run fakeHeap arrays mem₁ x0 x1).calls =
      (if fakeHeap then [.initHeap] else []) ++ .exlInit ::
        (es ++ es').map (fun e => .function (aslrBase + rAddend mem e)) ++ [.main x0 x1] := by
  have hBefore : ∀ s : Session, (∀ b, InArray arrays.preinitArrayStart es.length b ∨
        InArray arrays.initArrayStart es'.length b → s.mem b = mem₁ b) →
      (initArray run arrays s).calls =
        s.calls ++ (es ++ es').map (fun e => .function (aslrBase + rAddend mem e)) := by
    intro s hSame
    obtain ⟨hCalls, hMem⟩ := callArray_eq hStarted hKeeps
      (fun b hb => .inl (hPreinit.1 ▸ hb)) hPreinit hSame
    obtain ⟨hCalls', -⟩ := callArray_eq hStarted hKeeps
      (fun b hb => .inr (hInit.1 ▸ hb)) hInit hMem
    rw [initArray, hCalls', hCalls, List.append_assoc, List.map_append]
  have hSession := hBefore
    ((if fakeHeap then (⟨mem₁, []⟩ : Session).call run .initHeap else ⟨mem₁, []⟩).call run .exlInit)
    fun b hb => ?_
  · rw [exlEntrypointInit, Session.call, hSession]
    cases fakeHeap <;> rfl
  · refine (hKeeps _ _ b hb).trans ?_
    cases fakeHeap with
    | false => rfl
    | true => exact hKeeps _ _ b hb

end

/-- The memory that it starts with. -/
def startedMemory : Memory :=
  let mem := write headedMemory 0x10600 (List.replicate 24 0#8)
  updateAll mem (updates mem 0x10000#64 sampleTags)

theorem startedMemory_started :
    Started headedMemory startedMemory 0x10000#64 sampleTags ⟨0x10600, 24⟩ :=
  headed_image.started (headed_image.wellFormed (sameOutside_clear _ _)).relocated

/-- One constructor; each call writes to the BSS. -/
theorem exlEntrypointInit_calls_headed :
    (exlEntrypointInit (fun _ mem => store64 mem 0x10600 1#64) true
      ⟨0x10400#64, 0x10400#64, 0x10400#64, 0x10408#64⟩ startedMemory 0#64 0x1234#64).calls =
      [.initHeap, .exlInit, .function 0x10020#64, .main 0#64 0x1234#64] := by
  have hAddend : rAddend headedMemory 0x10200#64 = 0x20#64 :=
    (@SameOutside.field _ _ _ 0x10200 24 headed_same 16 (by decide) (by decide)).trans
      (sample_word (by decide))
  have hRelative : isRelative headedMemory 0x10200#64 = true :=
    (headed_same.isRelative (n := 24) (by decide) (by decide)).trans sample_first.2.1
  have hTarget : target headedMemory 0x10000#64 0x10200#64 = 0x10400#64 := by
    have hOffset : rOffset sampleMemory 0x10200#64 = 0x400#64 := sample_word (by decide)
    rw [headed_same.target (n := 24) (by decide) (by decide), target, hOffset]
    decide
  have hCalls := @exlEntrypointInit_calls _ _ _ _ _ (fun _ mem => store64 mem 0x10600 1#64)
    ⟨0x10400#64, 0x10400#64, 0x10400#64, 0x10408#64⟩ [] [0x10200#64]
    startedMemory_started ⟨rfl, fun i h => by cases h⟩
    ⟨rfl, fun i h => by
      cases Nat.lt_one_iff.mp h
      exact ⟨by rw [sample_relaTable]; exact List.mem_cons_self, hRelative, by
        rw [List.getElem_cons_zero, hTarget]
        rfl⟩⟩
    (fun c mem b hb => by
      apply write_outside
      simp only [InArray, bytesOf, List.length_nil, List.length_cons, BitVec.toNat_ofNat] at hb ⊢
      omega)
    true 0#64 0x1234#64
  rw [hCalls, List.nil_append, List.map_singleton, hAddend]
  rfl

end Wondar.Reloc
