import Wondar.Hook.Emission

/-!
# The address an instruction refers to

`__fix_loadlit` and `__fix_pcreladdr` work out which address a literal load, an ADR or an ADRP
refers to, and then emit words for that address. Here the two parts are taken apart:
`loadlitAddress`, `adrAddress` and `adrpAddress` are the addresses as the functions compute
them, and `loadlitFrom`, `adrFrom` and `adrpFrom` are the functions from there on.

The immediate is sign-extended to 32 bits and then added as an unsigned number. So the address
is that of the architecture exactly when the immediate is not negative (`absoluteAddr_iff`), and
4 GiB too high otherwise.
-/

namespace Wondar.Hook

open A64 Coherence

variable {mmu : Mmu} {s : Reloc} {w : Word}

/-! ## The functions in two parts -/

/-- `(static_cast<int32_t>(ins << msb) >> (msb + lsb - 2u)) & ~3u`. -/
def wordImmediate (w : Word) : Word := ((w <<< 8).sshiftRight 11) &&& ~~~3#32

/-- The immediate of an address instruction, with `lsb_bytes`. -/
def byteImmediate (w : Word) : Word := wordImmediate w ||| ((w <<< 1) >>> 30)

/-- `absolute_addr` of `__fix_loadlit`. -/
def loadlitAddress (e : Addr) (w : Word) : Addr := e + (wordImmediate w).setWidth 64

/-- `absolute_addr` of `__fix_pcreladdr` for ADR. -/
def adrAddress (e : Addr) (w : Word) : Addr := e + (byteImmediate w).setWidth 64

/-- `absolute_addr` of `__fix_pcreladdr` for ADRP. -/
def adrpAddress (e : Addr) (w : Word) : Addr :=
  (e &&& ~~~0xfff#64) + (byteImmediate w <<< 12).setWidth 64

section

variable (mmu : Mmu) (s : Reloc)

/-- The literal is copied behind the load. -/
def literalCopied (faligned : Nat) (absoluteAddr : Addr) : Bool :=
  s.ctx.isInFixingRange absoluteAddr ||
    0x3ffff ≤ llabs ((absoluteAddr - s.outrx).sshiftRight 2) + (faligned + 1 - 4) / 4

/-- `__fix_loadlit` once `absolute_addr` is known. -/
def loadlitFrom (mask : Word) (faligned : Nat) (absoluteAddr : Addr) : Outcome :=
  let ins := s.ins mmu
  let currentIdx := s.currentIdx
  let lmask := 0xff00001f#32
  let s := s.setCurrentIndex s.outrx
  let newPcOffset (s : Reloc) := (absoluteAddr - s.outrx).sshiftRight 2
  let emitted :=
    if literalCopied s faligned absoluteAddr then
      (padWhile mmu (fun s => wordAt s.outrx 2 &&& BitVec.ofNat 64 faligned != 0#64)
        padFuel s).bind fun s =>
          let s := s.resetCurrentIns currentIdx
          let ns := (faligned + 1) / 4
          let s := s.put mmu 0 ((0x40#32 &&& ~~~mask) ||| (ins &&& lmask))
          let s := s.put mmu 1 (0x14000001#32 + BitVec.ofNat 32 ns)
          if readable mmu absoluteAddr ns then
            some ((s.copy mmu 2 ns absoluteAddr).advance (2 + ns))
          else none
    else
      (padWhile mmu (fun s => newPcOffset s &&& BitVec.ofNat 64 (faligned >>> 2) != 0#64)
        padFuel s).map fun s =>
          let s := s.resetCurrentIns currentIdx
          (s.put mmu 0 (((newPcOffset s <<< 5).setWidth 32 &&& ~~~mask) ||| (ins &&& lmask))).advance 1
  match emitted with
  | none => .stuck
  | some s => .fixed (s.consume.processFixMap mmu currentIdx)

/-- The words for an ADR once `absolute_addr` is known. -/
def adrFrom (absoluteAddr : Addr) : Reloc :=
  let ins := s.ins mmu
  let currentIdx := s.currentIdx
  let s := s.setCurrentIndex s.outrx
  let newPcOffset := absoluteAddr - s.outrx
  let special := s.ctx.isInFixingRange absoluteAddr
  if !special && 0xfffff ≤ llabs newPcOffset then putAddress mmu s currentIdx ins absoluteAddr
  else
    let (newPcOffset, s) :=
      if special then
        windowReference s currentIdx (s.ctx.getRefInsIndex (absoluteAddr &&& ~~~3#64)) 0 5
          0x00ffffff#32
      else (newPcOffset, s)
    (s.put mmu 0 (((newPcOffset <<< 3).setWidth 32 &&& 0x00ffffff#32) |||
      (ins &&& 0xff00001f#32))).advance 1

/-- The words for an ADRP once `absolute_addr` is known. -/
def adrpFrom (absoluteAddr : Addr) : Reloc :=
  let ins := s.ins mmu
  let currentIdx := s.currentIdx
  let s := s.setCurrentIndex s.outrw
  if s.ctx.isInFixingRange absoluteAddr then (s.put mmu 0 ins).advance 1
  else putAddress mmu s currentIdx ins absoluteAddr

end

/-- How `__fix_pcreladdr` ends. -/
def closeAddress (mmu : Mmu) (s u : Reloc) : Outcome :=
  .fixed (u.processFixMap mmu s.currentIdx).consume

theorem fixLoadlit_eq {mask : Word} {faligned : Nat}
    (hPrefetch : s.ins mmu &&& 0xff000000#32 ≠ 0xd8000000#32)
    (hMask : loadlitMask (s.ins mmu) = some (mask, faligned)) :
    fixLoadlit mmu s = loadlitFrom mmu s mask faligned (loadlitAddress s.inprx (s.ins mmu)) := by
  simp only [fixLoadlit, if_neg hPrefetch, hMask]
  rfl

theorem fixPcreladdr_adr (hOp : s.ins mmu &&& 0x9f000000#32 = 0x10000000#32) :
    fixPcreladdr mmu s =
      closeAddress mmu s (adrFrom mmu s (adrAddress s.inprx (s.ins mmu))) := by
  simp only [fixPcreladdr, if_pos hOp, ← apply_ite some]
  rfl

theorem fixPcreladdr_adrp (hOp : s.ins mmu &&& 0x9f000000#32 = 0x90000000#32) :
    fixPcreladdr mmu s =
      closeAddress mmu s (adrpFrom mmu s (adrpAddress s.inprx (s.ins mmu))) := by
  have hNot : s.ins mmu &&& 0x9f000000#32 ≠ 0x10000000#32 := by
    rw [hOp]
    decide
  simp only [fixPcreladdr, if_neg hNot, if_pos hOp, ← apply_ite some]
  rfl

/-! ## The classes -/

/-- ADRP for a `page`, and otherwise ADR. -/
def adrInstr (page : Bool) (rd : Reg) (imm : BitVec 21) : PcRel :=
  if page then .adrp rd imm else .adr rd imm

def adrOpcode (page : Bool) : Word := if page then 0x90000000#32 else 0x10000000#32

theorem mask_of_decode_adr (page : Bool) {rd : Reg} {imm : BitVec 21}
    (h : decodePcRel w = some (adrInstr page rd imm)) :
    w &&& 0x9f000000#32 = adrOpcode page ∧ rd = w.setWidth 5 ∧ imm = adrImm w := by
  have hNe : ∀ test displacement, PcRel.branch test displacement ≠ adrInstr page rd imm := by
    cases page <;> nofun
  unfold decodePcRel at h
  dsimp only at h
  iterate 3 replace h := of_ite_some h (hNe _ _)
  cases page with
  | false =>
    split at h
    · cases h
      exact ⟨‹_›, rfl, rfl⟩
    · cases of_ite_some h nofun
  | true =>
    replace h := of_ite_some h nofun
    split at h
    · cases h
      exact ⟨‹_›, rfl, rfl⟩
    · cases h

theorem decodeLiteral_of_decode {kind : Literal} {imm : BitVec 19} {rt : Reg}
    (h : decode w = some (.ldrLiteral kind imm rt)) :
    decodeLiteral w = some kind ∧ imm = w.extractLsb' 5 19 ∧ rt = w.setWidth 5 := by
  unfold decode at h
  dsimp only at h
  iterate 14 replace h := of_ite_some h nofun
  obtain ⟨kind', hKind, hEq⟩ := Option.map_eq_some_iff.mp h
  cases hEq
  exact ⟨hKind, rfl, rfl⟩

/-- The masks of the function for each kind of literal. -/
def literalMask : Literal → Word
  | .w | .x => 0xbf000000#32
  | .s | .d | .q => 0x3f000000#32
  | .sw => 0xff000000#32

/-- The size that the function takes for the literal, less one. -/
def literalAligned : Literal → Nat
  | .w | .s => 3
  | .x | .sw | .d => 7
  | .q => 15

/-- The function finds each kind of literal load. -/
theorem loadlitMask_of_literal {kind : Literal} (h : decodeLiteral w = some kind) :
    w &&& 0xff000000#32 ≠ 0xd8000000#32 ∧
      loadlitMask w = some (literalMask kind, literalAligned kind) := by
  have hTop := decodeLiteral_top h
  -- every test of the function is one of the top byte
  have hMask : ∀ m : Word, m &&& 0xff000000#32 = m → w &&& m = kind.opcode &&& m := by
    intro m hSub
    rw [← hTop, BitVec.and_assoc, BitVec.and_comm 0xff000000#32 m, hSub]
  have h30 := hMask 0x40000000#32 (by decide)
  have h31 := hMask 0x80000000#32 (by decide)
  have hLdr := hMask 0xbf000000#32 (by decide)
  have hLdrv := hMask 0x3f000000#32 (by decide)
  simp only [loadlitMask, h30, h31, hLdr, hLdrv, hTop]
  cases kind <;> decide

/-! ## The immediates -/

/-- The word immediate is the field, sign-extended, in words. -/
theorem wordImmediate_eq (w : Word) :
    wordImmediate w = (w.extractLsb' 5 19).signExtend 32 <<< 2 := by
  have hMask : ∀ i < 32, (~~~3#32 : Word).getLsbD i = decide (2 ≤ i) := by decide
  unfold wordImmediate
  ext i hi
  rw [BitVec.getElem_and, ← BitVec.getLsbD_eq_getElem (x := ~~~3#32), hMask i hi,
    BitVec.getElem_shiftLeft, BitVec.getElem_sshiftRight]
  by_cases hLow : i < 2
  · have hNot : ¬ 2 ≤ i := by omega
    simp [hLow, hNot]
  · have hHigh : 2 ≤ i := by omega
    by_cases hIn : i < 21
    · have hField : 11 + i < 32 := by omega
      have hIndex : i - 2 < 19 := by omega
      have hBit : 11 + i - 8 = 5 + (i - 2) := by omega
      have hShift : ¬ 11 + i < 8 := by omega
      have hWord : 5 + (i - 2) < 32 := by omega
      simp [hLow, hHigh, hField, hIndex, hBit, hShift, BitVec.getElem_signExtend,
        BitVec.getLsbD_eq_getElem hWord]
    · have hField : ¬ 11 + i < 32 := by omega
      have hIndex : ¬ i - 2 < 19 := by omega
      simp [hLow, hHigh, hField, hIndex, BitVec.getElem_signExtend, BitVec.msb_eq_getLsbD_last]

theorem getElem_adrImm (w : Word) (i : Nat) (hi : i < 21) :
    (adrImm w)[i] = if i < 2 then w.getLsbD (29 + i) else w.getLsbD (5 + (i - 2)) := by
  rw [← BitVec.getLsbD_eq_getElem]
  refine (BitVec.getLsbD_append (x := w.extractLsb' 5 19) (y := w.extractLsb' 29 2)).trans ?_
  by_cases hLow : i < 2
  · simp [hLow]
  · have hIndex : i - 2 < 19 := by omega
    simp [hLow, hIndex]

/-- The byte immediate is both fields, sign-extended. -/
theorem byteImmediate_eq (w : Word) : byteImmediate w = (adrImm w).signExtend 32 := by
  have hLsb : ∀ i < 32, ((w <<< 1) >>> 30).getLsbD i = (decide (i < 2) && w.getLsbD (29 + i)) := by
    intro i hi
    rw [BitVec.getLsbD_ushiftRight, BitVec.getLsbD_shiftLeft]
    by_cases hLow : i < 2
    · have hBit : 30 + i - 1 = 29 + i := by omega
      simp [hLow, hBit]
      omega
    · simp [hLow]
      omega
  unfold byteImmediate
  rw [wordImmediate_eq]
  apply BitVec.eq_of_getLsbD_eq
  intro i hi
  rw [BitVec.getLsbD_or, hLsb i hi, BitVec.getLsbD_shiftLeft, BitVec.getLsbD_signExtend,
    BitVec.getLsbD_signExtend, BitVec.msb_eq_getLsbD_last, BitVec.msb_eq_getLsbD_last]
  by_cases hLow : i < 2
  · have hIn : i < 21 := by omega
    simp [hi, hLow, hIn, getElem_adrImm w i hIn]
  · by_cases hIn : i < 21
    · have hIndex : i - 2 < 19 := by omega
      have hWord : i - 2 < 32 := by omega
      simp [hi, hLow, hIn, hIndex, hWord, getElem_adrImm w i hIn]
    · have hIndex : ¬ i - 2 < 19 := by omega
      have hWord : i - 2 < 32 := by omega
      simp [hi, hLow, hIn, hIndex, hWord, getElem_adrImm w 20 (by omega)]

/-- An unsigned extension is the signed one when there is no sign. -/
theorem setWidth_eq_iff_nonneg {y : BitVec 32} {z : BitVec 64} (h : y.toInt = z.toInt) :
    y.setWidth 64 = z ↔ 0 ≤ z.toInt := by
  have hy := y.isLt
  have hz := z.isLt
  rw [← BitVec.toNat_inj, BitVec.toNat_setWidth]
  rw [BitVec.toInt_eq_toNat_cond, BitVec.toInt_eq_toNat_cond] at h
  rw [BitVec.toInt_eq_toNat_cond]
  split at h <;> split at h <;> split <;> omega

theorem loadlitAddress_iff (e : Addr) (w : Word) :
    loadlitAddress e w = e + branchOffset (w.extractLsb' 5 19) ↔ 0 ≤ (w.extractLsb' 5 19).toInt := by
  have hSame : (wordImmediate w).toInt = (branchOffset (w.extractLsb' 5 19)).toInt := by
    rw [wordImmediate_eq, toInt_signExtend_words (by omega) (by omega), branchOffset_toInt (by omega)]
  rw [loadlitAddress, BitVec.add_right_inj, setWidth_eq_iff_nonneg hSame,
    branchOffset_toInt (by omega)]
  omega

theorem adrAddress_iff (e : Addr) (w : Word) :
    adrAddress e w = e + (adrImm w).signExtend 64 ↔ 0 ≤ (adrImm w).toInt := by
  have hSame : (byteImmediate w).toInt = ((adrImm w).signExtend 64).toInt := by
    rw [byteImmediate_eq, BitVec.toInt_signExtend_of_le (by omega),
      BitVec.toInt_signExtend_of_le (by omega)]
  rw [adrAddress, BitVec.add_right_inj, setWidth_eq_iff_nonneg hSame,
    BitVec.toInt_signExtend_of_le (by omega)]

theorem adrpAddress_iff (e : Addr) (w : Word) :
    adrpAddress e w = adrpPage e + (adrImm w).signExtend 64 <<< 12 ↔ 0 ≤ (adrImm w).toInt := by
  rw [adrpAddress, adrpPage, BitVec.add_right_inj, byteImmediate_eq, ← BitVec.toNat_inj,
    BitVec.toNat_setWidth, BitVec.toNat_shiftLeft, BitVec.toNat_shiftLeft, Nat.shiftLeft_eq,
    Nat.shiftLeft_eq]
  generalize adrImm w = imm
  have hLow := imm.le_toInt
  have hHigh := imm.toInt_lt
  have hShort := BitVec.toInt_signExtend_of_le (x := imm) (v := 32) (by omega)
  have hLong := BitVec.toInt_signExtend_of_le (x := imm) (v := 64) (by omega)
  rw [BitVec.toInt_eq_toNat_cond] at hShort hLong
  split at hShort <;> split at hLong <;> omega

/-- **Decoding of data references.** The address that the two functions go on with is the one that
the instruction refers to exactly when its immediate is not negative. -/
theorem absoluteAddr_iff (mmu : Mmu) (s : Reloc) :
    (∀ kind imm rt, decode (s.ins mmu) = some (.ldrLiteral kind imm rt) →
      fixLoadlit mmu s = loadlitFrom mmu s (literalMask kind) (literalAligned kind)
        (loadlitAddress s.inprx (s.ins mmu)) ∧
      (loadlitAddress s.inprx (s.ins mmu) = s.inprx + branchOffset imm ↔ 0 ≤ imm.toInt)) ∧
    (∀ rd imm, decodePcRel (s.ins mmu) = some (.adr rd imm) →
      fixPcreladdr mmu s =
        closeAddress mmu s (adrFrom mmu s (adrAddress s.inprx (s.ins mmu))) ∧
      (adrAddress s.inprx (s.ins mmu) = s.inprx + imm.signExtend 64 ↔ 0 ≤ imm.toInt)) ∧
    (∀ rd imm, decodePcRel (s.ins mmu) = some (.adrp rd imm) →
      fixPcreladdr mmu s =
        closeAddress mmu s (adrpFrom mmu s (adrpAddress s.inprx (s.ins mmu))) ∧
      (adrpAddress s.inprx (s.ins mmu) = adrpPage s.inprx + imm.signExtend 64 <<< 12 ↔
        0 ≤ imm.toInt)) := by
  refine ⟨fun kind imm rt h => ?_, fun rd imm h => ?_, fun rd imm h => ?_⟩
  · obtain ⟨hKind, rfl, -⟩ := decodeLiteral_of_decode h
    obtain ⟨hPrefetch, hMask⟩ := loadlitMask_of_literal hKind
    exact ⟨fixLoadlit_eq hPrefetch hMask, loadlitAddress_iff ..⟩
  · obtain ⟨hOp, -, rfl⟩ := mask_of_decode_adr false h
    exact ⟨fixPcreladdr_adr hOp, adrAddress_iff ..⟩
  · obtain ⟨hOp, -, rfl⟩ := mask_of_decode_adr true h
    exact ⟨fixPcreladdr_adrp hOp, adrpAddress_iff ..⟩

/-- `LDR X0, #8`. -/
theorem absoluteAddr_iff_forward :
    let s := startReloc 0x1000#64 0x1000#64 1 0x2000#64 0x2000#64 ⟨fun _ => 0x58000040#32, []⟩
    fixLoadlit flat s = loadlitFrom flat s 0xbf000000#32 7 (loadlitAddress s.inprx (s.ins flat)) ∧
      (loadlitAddress s.inprx (s.ins flat) = s.inprx + branchOffset 2#19 ↔ 0 ≤ (2#19).toInt) :=
  (absoluteAddr_iff flat _).1 .x 2#19 0#5 (by decide)

/-- `LDR X0, #-8`, `ADR X0, #-1` and `ADRP X0, #-0x1000` are taken to refer to addresses 4 GiB
from where they do. -/
theorem absoluteAddr_negative :
    (decode 0x58ffffc0#32 = some (.ldrLiteral .x (-2#19) 0#5) ∧
      loadlitAddress 0x1000#64 0x58ffffc0#32 ≠ 0x1000#64 + branchOffset (-2#19)) ∧
    (decodePcRel 0x70ffffe0#32 = some (.adr 0#5 (-1#21)) ∧
      adrAddress 0x1000#64 0x70ffffe0#32 ≠ 0x1000#64 + (-1#21).signExtend 64) ∧
    (decodePcRel 0xf0ffffe0#32 = some (.adrp 0#5 (-1#21)) ∧
      adrpAddress 0x1000#64 0xf0ffffe0#32 ≠ adrpPage 0x1000#64 + (-1#21).signExtend 64 <<< 12) := by
  decide

end Wondar.Hook
