import Wondar.A64.Memory
import Wondar.Hook.Pool

/-!
# Relocating instructions into a trampoline

`__fix_instructions` copies the words at the start of a function into a slot and rewrites
those that depend on the program counter. It reads its input through the RW alias of the
function, computes with the RX addresses of both, writes through the RW alias of the slot,
and ends the slot with a jump back behind the copied words.

`Reloc` is the state of a run: the two input and two output cursors, the table of where each
input instruction went (`Context`), and memory. The four `fix` functions follow the source
line by line, with 64-bit values as `BitVec 64`; a comparison of `llabs` is one of absolute
values. A function that does not recognise the word is `skipped`; a call that does not
return, because it reads memory that cannot be read or keeps padding forever, is `stuck`.
-/

namespace Wondar.Hook

open A64 Coherence

/-! ## The context -/

def maxReferences : Nat := maxInstructions * 2

/-- `fix_info`: an emitted word that still has to be pointed at an instruction. -/
structure FixInfo where
  bprx : Addr
  bprw : Addr
  ls : Nat
  ad : Word

/-- `insns_info`: where an input instruction went, and the words that refer to it. The slots
of `fmap` are filled in order and emptied together, so a list holds the used ones. -/
structure InsnsInfo where
  ins : BitVec 64
  fmap : List FixInfo

structure Context where
  basep : BitVec 64
  endp : BitVec 64
  dat : Nat → InsnsInfo

/-- What the program records in the log besides stores and cache operations. -/
inductive Note
  | abort (r : Result)
deriving DecidableEq

abbrev Machine := Mach Note

namespace Context

def isInFixingRange (c : Context) (absoluteAddr : BitVec 64) : Bool :=
  c.basep.sle absoluteAddr && absoluteAddr.slt c.endp

def getRefInsIndex (c : Context) (absoluteAddr : BitVec 64) : Nat :=
  ((absoluteAddr - c.basep) / 4#64).toNat

def setDat (c : Context) (idx : Nat) (info : InsnsInfo) : Context :=
  { c with dat := Function.update c.dat idx info }

def resetCurrentIns (c : Context) (idx : Nat) (outp : Addr) : Context :=
  c.setDat idx { c.dat idx with ins := outp }

/-- The context of `get_and_set_current_index`; its result is `getRefInsIndex inp`. -/
def getAndSetCurrentIndex (c : Context) (inp outp : Addr) : Context :=
  c.resetCurrentIns (c.getRefInsIndex inp) outp

def insertFixMap (c : Context) (idx : Nat) (f : FixInfo) : Context :=
  if (c.dat idx).fmap.length < maxReferences then
    c.setDat idx { c.dat idx with fmap := (c.dat idx).fmap ++ [f] }
  else c

end Context

/-- What `process_fix_map` writes for one reference. -/
def FixInfo.value (mmu : Mmu) (m : Machine) (ins : BitVec 64) (f : FixInfo) : Word :=
  m.read mmu f.bprx ||| (((((ins - f.bprx).setWidth 32).sshiftRight 2) <<< f.ls) &&& f.ad)

def processRefs (mmu : Mmu) (ins : BitVec 64) : List FixInfo → Machine → Machine
  | [], m => m
  | f :: fs, m => processRefs mmu ins fs (m.store mmu f.bprw [f.value mmu m ins])

/-! ## The state of a relocation -/

structure Reloc where
  inprw : Addr
  inprx : Addr
  outrw : Addr
  outrx : Addr
  ctx : Context
  mach : Machine

/-- `bool`, or a call that does not return. -/
inductive Outcome
  | skipped
  | fixed (s : Reloc)
  | stuck

def aarch64Nop : Word := 0xd503201f#32
/-- `LDR X17, #0x8`. -/
def ldrX17 : Word := 0x58000051#32
/-- `BR X17`. -/
def brX17 : Word := 0xd61f0220#32

/-- `llabs`. -/
def llabs (x : BitVec 64) : Nat := x.toInt.natAbs

/-- `(reinterpret_cast<uint64_t>(p) & 7u) == 0u`. -/
def aligned8 (p : Addr) : Bool := p &&& 7#64 == 0#64

namespace Reloc

variable (mmu : Mmu) (s : Reloc)

/-- `*(*inprwp)`. -/
def ins : Word := s.mach.read mmu s.inprw

def currentIdx : Nat := s.ctx.getRefInsIndex s.inprx

/-- `get_and_set_current_index(*inprxp, outp)`. -/
def setCurrentIndex (outp : Addr) : Reloc :=
  { s with ctx := s.ctx.getAndSetCurrentIndex s.inprx outp }

/-- `reset_current_ins(current_idx, *outprx)`. -/
def resetCurrentIns (idx : Nat) : Reloc := { s with ctx := s.ctx.resetCurrentIns idx s.outrx }

/-- `insert_fix_map(ref_idx, *outprw, *outprx, ls, ad)`. -/
def insertFixMap (idx ls : Nat) (ad : Word) : Reloc :=
  { s with ctx := s.ctx.insertFixMap idx ⟨s.outrx, s.outrw, ls, ad⟩ }

/-- `(*outprw)[k] = w`. -/
def put (k : Nat) (w : Word) : Reloc := { s with mach := s.mach.store mmu (wordAt s.outrw k) [w] }

/-- `memcpy(*outprw + k, &val, 8)`. -/
def put64 (k : Nat) (val : BitVec 64) : Reloc :=
  { s with mach := s.mach.store64 mmu (wordAt s.outrw k) val }

/-- `memcpy(*outprw + k, src, 4 * n)`, of words that are aligned. -/
def copy (k n : Nat) (src : Addr) : Reloc :=
  { s with
    mach := s.mach.store mmu (wordAt s.outrw k)
      ((List.range n).map fun i => s.mach.read mmu (wordAt src i)) }

/-- `*outprw += n; *outprx += n`. -/
def advance (n : Nat) : Reloc :=
  { s with outrw := wordAt s.outrw n, outrx := wordAt s.outrx n }

/-- A NOP, and both output cursors behind it. -/
def nop : Reloc := (s.put mmu 0 aarch64Nop).advance 1

/-- `++(*inprxp); ++(*inprwp)`. -/
def consume : Reloc := { s with inprw := wordAt s.inprw 1, inprx := wordAt s.inprx 1 }

def processFixMap (idx : Nat) : Reloc :=
  { s with
    mach := processRefs mmu (s.ctx.dat idx).ins (s.ctx.dat idx).fmap s.mach
    ctx := s.ctx.setDat idx { s.ctx.dat idx with fmap := [] } }

/-- `LDR X17, #0x8; BR X17` and the address behind them. -/
def putAbsoluteJump (k : Nat) (target : BitVec 64) : Reloc :=
  ((s.put mmu k ldrX17).put mmu (k + 1) brX17).put64 mmu (k + 2) target

end Reloc

section

variable (mmu : Mmu)

/-- The offset a reference inside the window gets, and the state with the reference noted when
its target is not relocated yet. `shift` is how the offset is scaled. -/
def windowReference (s : Reloc) (currentIdx refIdx shift ls : Nat) (ad : Word) :
    BitVec 64 × Reloc :=
  if refIdx ≤ currentIdx then (((s.ctx.dat refIdx).ins - s.outrx).sshiftRight shift, s)
  else (0#64, s.insertFixMap refIdx ls ad)

/-! ## Branches -/

/-- `__fix_branch_imm`. -/
def fixBranchImm (s : Reloc) : Outcome :=
  let mask := 0xfc000000#32
  let rmask := 0x03ffffff#32
  let opB := 0x14000000#32
  let opBl := 0x94000000#32
  let ins := s.ins mmu
  let opc := ins &&& mask
  if opc = opB ∨ opc = opBl then
    let currentIdx := s.currentIdx
    let s := s.setCurrentIndex s.outrx
    -- sign-extended
    let absoluteAddr := s.inprx + ((ins <<< 6).sshiftRight 4).signExtend 64
    let newPcOffset := (absoluteAddr - s.outrx).sshiftRight 2
    let special := s.ctx.isInFixingRange absoluteAddr
    let emitted :=
      if !special && 0x1ffffff ≤ llabs newPcOffset then
        let bAligned := aligned8 (wordAt s.outrx 2)
        if opc = opB then
          let s := if bAligned then s else (s.nop mmu).resetCurrentIns currentIdx
          (s.putAbsoluteJump mmu 0 absoluteAddr).advance 4
        else
          let s := if bAligned then (s.nop mmu).resetCurrentIns currentIdx else s
          let s := s.put mmu 0 0x58000071#32
          let s := s.put mmu 1 0x1000009e#32
          let s := s.put mmu 2 brX17
          (s.put64 mmu 3 absoluteAddr).advance 5
      else
        let (newPcOffset, s) :=
          if special then
            windowReference s currentIdx (s.ctx.getRefInsIndex absoluteAddr) 2 0 rmask
          else (newPcOffset, s)
        (s.put mmu 0 (opc ||| (newPcOffset.setWidth 32 &&& ~~~mask))).advance 1
    .fixed (emitted.consume.processFixMap mmu currentIdx)
  else .skipped

/-- `lmask` of a conditional, compare or test branch; `none` for other words. -/
def condLmask (ins : Word) : Option Word :=
  if ins &&& 0xff000010#32 = 0x54000000#32 then some 0xff00001f#32
  else if ins &&& 0x7f000000#32 = 0x34000000#32 ∨ ins &&& 0x7f000000#32 = 0x35000000#32 then
    some 0xff00001f#32
  else if ins &&& 0x7f000000#32 = 0x36000000#32 ∨ ins &&& 0x7f000000#32 = 0x37000000#32 then
    some 0xfff8001f#32
  else none

/-- `__fix_cond_comp_test_branch`. -/
def fixCondCompTestBranch (s : Reloc) : Outcome :=
  let ins := s.ins mmu
  match condLmask ins with
  | none => .skipped
  | some lmask =>
    let currentIdx := s.currentIdx
    let s := s.setCurrentIndex s.outrx
    -- not sign-extended
    let absoluteAddr := s.inprx + ((ins &&& ~~~lmask) >>> 3).setWidth 64
    let newPcOffset := (absoluteAddr - s.outrx).sshiftRight 2
    let special := s.ctx.isInFixingRange absoluteAddr
    let emitted :=
      if !special && ((~~~lmask) >>> 6).toNat ≤ llabs newPcOffset then
        -- the position is recorded before the padding
        let s := if aligned8 (wordAt s.outrx 4) then s else (s.resetCurrentIns currentIdx).nop mmu
        let s := s.put mmu 0 ((0x40#32 &&& ~~~lmask) ||| (ins &&& lmask))
        let s := s.put mmu 1 0x14000005#32
        (s.putAbsoluteJump mmu 2 absoluteAddr).advance 6
      else
        let (newPcOffset, s) :=
          if special then
            windowReference s currentIdx (s.ctx.getRefInsIndex absoluteAddr) 2 5 (~~~lmask)
          else (newPcOffset, s)
        (s.put mmu 0 (((newPcOffset <<< 5).setWidth 32 &&& ~~~lmask) ||| (ins &&& lmask))).advance 1
    .fixed (emitted.consume.processFixMap mmu currentIdx)

/-! ## Literal loads -/

/-- The mask of a literal load and `faligned`, its size less one; `none` for other words. -/
def loadlitMask (ins : Word) : Option (Word × Nat) :=
  let faligned := if ins &&& 0x40000000#32 ≠ 0#32 then 7 else 3
  if ins &&& 0xbf000000#32 = 0x18000000#32 then some (0xbf000000#32, faligned)
  else
    let faligned :=
      if faligned ≠ 7 then (if ins &&& 0x80000000#32 ≠ 0#32 then 15 else 3) else faligned
    if ins &&& 0x3f000000#32 = 0x1c000000#32 then some (0x3f000000#32, faligned)
    else if ins &&& 0xff000000#32 = 0x98000000#32 then some (0xff000000#32, 7)
    else none

/-- Emit NOPs as long as `cond` holds; `none` when it holds after `fuel` of them. -/
def padWhile (cond : Reloc → Bool) : Nat → Reloc → Option Reloc
  | 0, s => if cond s then none else some s
  | fuel + 1, s => if cond s then padWhile cond fuel (s.nop mmu) else some s

/-- Padding ends after at most three words, since only the low bits of a cursor decide. -/
def padFuel : Nat := 3

/-- The words of a literal, all of them readable. -/
def readable (a : Addr) (n : Nat) : Bool := (List.range n).all fun i => mmu.readable (wordAt a i)

/-- `__fix_loadlit`. -/
def fixLoadlit (s : Reloc) : Outcome :=
  let ins := s.ins mmu
  let currentIdx := s.currentIdx
  if ins &&& 0xff000000#32 = 0xd8000000#32 then
    -- a prefetch is left out
    .fixed ((s.setCurrentIndex s.outrx).processFixMap mmu currentIdx).consume
  else
    match loadlitMask ins with
    | none => .skipped
    | some (mask, faligned) =>
      let lmask := 0xff00001f#32
      let s := s.setCurrentIndex s.outrx
      -- sign-extended to 32 bits only
      let absoluteAddr := s.inprx + (((ins <<< 8).sshiftRight 11) &&& ~~~3#32).setWidth 64
      let newPcOffset (s : Reloc) := (absoluteAddr - s.outrx).sshiftRight 2
      let special := s.ctx.isInFixingRange absoluteAddr
      let emitted :=
        if special || 0x3ffff ≤ llabs (newPcOffset s) + (faligned + 1 - 4) / 4 then
          (padWhile mmu (fun s => wordAt s.outrx 2 &&& BitVec.ofNat 64 faligned != 0#64)
            padFuel s).bind fun s =>
              let s := s.resetCurrentIns currentIdx
              let ns := (faligned + 1) / 4
              let s := s.put mmu 0 ((0x40#32 &&& ~~~mask) ||| (ins &&& lmask))
              let s := s.put mmu 1 (0x14000001#32 + BitVec.ofNat 32 ns)
              if readable mmu absoluteAddr ns then
                some ((s.copy mmu 2 ns absoluteAddr).advance (2 + ns))
              else none
        else
          (padWhile mmu (fun s => newPcOffset s &&& BitVec.ofNat 64 (faligned >>> 2) != 0#64)
            padFuel s).map fun s =>
              let s := s.resetCurrentIns currentIdx
              (s.put mmu 0 (((newPcOffset s <<< 5).setWidth 32 &&& ~~~mask) |||
                (ins &&& lmask))).advance 1
      match emitted with
      | none => .stuck
      | some s => .fixed (s.consume.processFixMap mmu currentIdx)

/-! ## Addresses -/

/-- `LDR Xd, #0x8; B #0xc` and the address, which both address instructions become. -/
def putAddress (s : Reloc) (currentIdx : Nat) (ins : Word) (absoluteAddr : BitVec 64) : Reloc :=
  let s := if aligned8 (wordAt s.outrx 2) then s else (s.nop mmu).resetCurrentIns currentIdx
  let s := s.put mmu 0 (0x58000000#32 ||| (0x40#32 &&& ~~~0x9f000000#32) ||| (ins &&& 0x1f#32))
  let s := s.put mmu 1 0x14000003#32
  (s.put64 mmu 2 absoluteAddr).advance 4

/-- `__fix_pcreladdr`. -/
def fixPcreladdr (s : Reloc) : Outcome :=
  let fmask := 0x00ffffff#32
  let lmask := 0xff00001f#32
  let ins := s.ins mmu
  let currentIdx := s.currentIdx
  let lsbBytes := (ins <<< 1) >>> 30
  -- sign-extended to 32 bits only
  let immediate := (((ins <<< 8).sshiftRight 11) &&& ~~~3#32) ||| lsbBytes
  let op := ins &&& 0x9f000000#32
  let emitted :=
    if op = 0x10000000#32 then
      let s := s.setCurrentIndex s.outrx
      let absoluteAddr := s.inprx + immediate.setWidth 64
      let newPcOffset := absoluteAddr - s.outrx
      let special := s.ctx.isInFixingRange absoluteAddr
      if !special && 0xfffff ≤ llabs newPcOffset then
        some (putAddress mmu s currentIdx ins absoluteAddr)
      else
        let (newPcOffset, s) :=
          if special then
            windowReference s currentIdx (s.ctx.getRefInsIndex (absoluteAddr &&& ~~~3#64)) 0 5 fmask
          else (newPcOffset, s)
        some ((s.put mmu 0 (((newPcOffset <<< 3).setWidth 32 &&& fmask) |||
          (ins &&& lmask))).advance 1)
    else if op = 0x90000000#32 then
      -- the RW address of the output
      let s := s.setCurrentIndex s.outrw
      let absoluteAddr := (s.inprx &&& ~~~0xfff#64) + (immediate <<< 12).setWidth 64
      if s.ctx.isInFixingRange absoluteAddr then some ((s.put mmu 0 ins).advance 1)
      else some (putAddress mmu s currentIdx ins absoluteAddr)
    else none
  match emitted with
  | none => .skipped
  | some s => .fixed (s.processFixMap mmu currentIdx).consume

/-! ## The window -/

/-- A word without PC-relative offset. -/
def copyInstruction (s : Reloc) : Reloc :=
  let currentIdx := s.currentIdx
  let s := (s.setCurrentIndex s.outrx).processFixMap mmu currentIdx
  ((s.put mmu 0 (s.ins mmu)).advance 1).consume

/-- One turn of the loop; `none` when it does not end. -/
def fixInstruction (s : Reloc) : Option Reloc :=
  match fixBranchImm mmu s with
  | .fixed s => some s
  | .stuck => none
  | .skipped =>
    match fixCondCompTestBranch mmu s with
    | .fixed s => some s
    | .stuck => none
    | .skipped =>
      match fixLoadlit mmu s with
      | .fixed s => some s
      | .stuck => none
      | .skipped =>
        match fixPcreladdr mmu s with
        | .fixed s => some s
        | .stuck => none
        | .skipped => some (copyInstruction mmu s)

def fixLoop : Nat → Reloc → Option Reloc
  | 0, s => some s
  | count + 1, s => (fixInstruction mmu s).bind (fixLoop count)

/-- The jump from behind the relocated words to behind the original ones. -/
def putJumpBack (s : Reloc) : Reloc :=
  let mask := 0x03ffffff#32
  let callback := s.inprx
  let pcOffset := (callback - s.outrx).sshiftRight 2
  if 0x1ffffff ≤ llabs pcOffset then
    let s := if aligned8 (wordAt s.outrx 2) then s else s.nop mmu
    (s.putAbsoluteJump mmu 0 callback).advance 4
  else (s.put mmu 0 (0x14000000#32 ||| (pcOffset.setWidth 32 &&& mask))).advance 1

/-- The state before the first instruction of the window. -/
def startReloc (inprw inprx : Addr) (count : Nat) (outrw outrx : Addr) (m : Machine) : Reloc where
  inprw := inprw
  inprx := inprx
  outrw := outrw
  outrx := outrx
  ctx := ⟨inprx, wordAt inprx count, fun _ => ⟨0#64, []⟩⟩
  mach := m

/-- `__fix_instructions`. -/
def fixInstructions (inprw inprx : Addr) (count : Nat) (outrw outrx : Addr) (m : Machine) :
    Option Machine :=
  (fixLoop mmu count (startReloc inprw inprx count outrw outrx m)).map fun s =>
    let s := putJumpBack mmu s
    let total := s.outrx - outrx
    s.mach.clearCache outrw total.toNat

end

end Wondar.Hook
