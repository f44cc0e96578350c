import Wondar.A64.Bits

/-!
# An A64 core

The subset of A64 that hook code consists of: branches, literal loads, the 64-bit loads
and stores of a register save area, and the few ALU instructions around them. `decode`
reads the encodings of the architecture manual; a word it does not know is executed by
an arbitrary `other`, so a result about a run holds whatever the unknown words do.

Memory is an array of 32-bit words: every access of the subset is to a word or to the
two words of a doubleword, and the addresses it uses are multiples of four. Index 31 is
the zero register or the stack pointer, as the instruction says; it has no entry in the
register file.
-/

namespace A64

/-- The number of a register. What 31 means depends on the operand. -/
abbrev Reg := BitVec 5

/-! ## State -/

/-- The registers, the condition flags and the memory, which is one of words. -/
structure State where
  pc : Addr
  x : Reg → BitVec 64
  sp : BitVec 64
  nzcv : BitVec 4
  v : Reg → BitVec 128
  mem : Addr → Word

namespace State

/-- A general register, with 31 the zero register. -/
def gpr (s : State) (r : Reg) : BitVec 64 := if r = 31#5 then 0#64 else s.x r

/-- A general register, with 31 the stack pointer. -/
def gprSp (s : State) (r : Reg) : BitVec 64 := if r = 31#5 then s.sp else s.x r

/-- A write to the zero register is lost. -/
def setGpr (s : State) (r : Reg) (val : BitVec 64) : State :=
  if r = 31#5 then s else { s with x := Function.update s.x r val }

/-- A write to a general register, with 31 the stack pointer. -/
def setGprSp (s : State) (r : Reg) (val : BitVec 64) : State :=
  if r = 31#5 then { s with sp := val } else { s with x := Function.update s.x r val }

/-- A write to a vector register. -/
def setV (s : State) (r : Reg) (val : BitVec 128) : State :=
  { s with v := Function.update s.v r val }

/-- Execution goes on at the target. -/
def jump (s : State) (target : Addr) : State := { s with pc := target }

/-- Execution goes on behind the instruction. -/
def next (s : State) : State := s.jump (s.pc + 4#64)

end State

/-- The doubleword at an address, whose low word comes first. -/
def load64 (mem : Addr → Word) (a : Addr) : BitVec 64 := ofWords (mem a) (mem (wordAt a 1))

/-- A store of both words. -/
def store64 (mem : Addr → Word) (a : Addr) (val : BitVec 64) : Addr → Word :=
  Function.update (Function.update mem a (loWord val)) (wordAt a 1) (hiWord val)

/-! ## Instructions -/

/-- What a literal load reads and where it puts it. -/
inductive Literal
  | w | x | sw | s | d | q
deriving DecidableEq, Repr

/-- The instructions of the subset, with the fields as they are encoded. Offsets are not yet
scaled. -/
inductive Instr
  | b (imm26 : BitVec 26)
  | bl (imm26 : BitVec 26)
  | br (rn : Reg)
  | blr (rn : Reg)
  | ret (rn : Reg)
  | nop
  | ldrLiteral (kind : Literal) (imm19 : BitVec 19) (rt : Reg)
  | stur (rt rn : Reg) (imm9 : BitVec 9)
  | ldur (rt rn : Reg) (imm9 : BitVec 9)
  | stp (rt rt2 rn : Reg) (imm7 : BitVec 7)
  | ldp (rt rt2 rn : Reg) (imm7 : BitVec 7)
  | ldr (rt rn : Reg) (imm12 : BitVec 12)
  | addImm (rd rn : Reg) (imm12 : BitVec 12)
  | subImm (rd rn : Reg) (imm12 : BitVec 12)
  | mov (rd rm : Reg)
deriving DecidableEq, Repr

/-- The opcode of a literal load. That of a prefetch is not among them. -/
def decodeLiteral (w : Word) : Option Literal :=
  match (w >>> 24).toNat with
  | 0x18 => some .w
  | 0x58 => some .x
  | 0x98 => some .sw
  | 0x1c => some .s
  | 0x5c => some .d
  | 0x9c => some .q
  | _ => none

/-- The instruction of a word, where the subset has one. The tests exclude each other. -/
def decode (w : Word) : Option Instr :=
  let rd : Reg := w.setWidth 5
  let rn : Reg := w.extractLsb' 5 5
  let rt2 : Reg := w.extractLsb' 10 5
  let rm : Reg := w.extractLsb' 16 5
  let imm7 := w.extractLsb' 15 7
  let imm9 := w.extractLsb' 12 9
  let imm12 := w.extractLsb' 10 12
  if w &&& 0xfc000000#32 = 0x14000000#32 then some (.b (w.setWidth 26))
  else if w &&& 0xfc000000#32 = 0x94000000#32 then some (.bl (w.setWidth 26))
  else if w &&& 0xfffffc1f#32 = 0xd61f0000#32 then some (.br rn)
  else if w &&& 0xfffffc1f#32 = 0xd63f0000#32 then some (.blr rn)
  else if w &&& 0xfffffc1f#32 = 0xd65f0000#32 then some (.ret rn)
  else if w = 0xd503201f#32 then some .nop
  else if w &&& 0xffe00c00#32 = 0xf8000000#32 then some (.stur rd rn imm9)
  else if w &&& 0xffe00c00#32 = 0xf8400000#32 then some (.ldur rd rn imm9)
  else if w &&& 0xffc00000#32 = 0xa9000000#32 then some (.stp rd rt2 rn imm7)
  else if w &&& 0xffc00000#32 = 0xa9400000#32 then some (.ldp rd rt2 rn imm7)
  else if w &&& 0xffc00000#32 = 0xf9400000#32 then some (.ldr rd rn imm12)
  else if w &&& 0xffc00000#32 = 0x91000000#32 then some (.addImm rd rn imm12)
  else if w &&& 0xffc00000#32 = 0xd1000000#32 then some (.subImm rd rn imm12)
  else if w &&& 0xffe0ffe0#32 = 0xaa0003e0#32 then some (.mov rd rm)
  else (decodeLiteral w).map (fun kind => .ldrLiteral kind (w.extractLsb' 5 19) rd)

/-! ## Execution -/

/-- The displacement of a branch field: the field counts words. -/
def branchOffset {n : Nat} (imm : BitVec n) : BitVec 64 := imm.signExtend 64 <<< 2

/-- The byte offset of a pair access: the field counts doublewords. -/
def pairOffset (imm7 : BitVec 7) : BitVec 64 := imm7.signExtend 64 <<< 3

/-- A literal load narrower than its register extends what it reads: `.sw` its sign, the others by
zeros. -/
def loadLiteral (s : State) (kind : Literal) (a : Addr) (rt : Reg) : State :=
  match kind with
  | .w => s.setGpr rt ((s.mem a).setWidth 64)
  | .x => s.setGpr rt (load64 s.mem a)
  | .sw => s.setGpr rt ((s.mem a).signExtend 64)
  | .s => s.setV rt ((s.mem a).setWidth 128)
  | .d => s.setV rt ((load64 s.mem a).setWidth 128)
  | .q => s.setV rt (load64 s.mem (wordAt a 2) ++ load64 s.mem a)

/-- What an instruction does, its own change of the program counter included. -/
def Instr.exec (s : State) : Instr → State
  | .b imm => s.jump (s.pc + branchOffset imm)
  | .bl imm => (s.setGpr 30#5 (s.pc + 4#64)).jump (s.pc + branchOffset imm)
  | .br rn => s.jump (s.gpr rn)
  | .blr rn => (s.setGpr 30#5 (s.pc + 4#64)).jump (s.gpr rn)
  | .ret rn => s.jump (s.gpr rn)
  | .nop => s.next
  | .ldrLiteral kind imm rt => (loadLiteral s kind (s.pc + branchOffset imm) rt).next
  | .stur rt rn imm =>
    { s.next with mem := store64 s.mem (s.gprSp rn + imm.signExtend 64) (s.gpr rt) }
  | .ldur rt rn imm => (s.setGpr rt (load64 s.mem (s.gprSp rn + imm.signExtend 64))).next
  | .stp rt rt2 rn imm =>
    let a := s.gprSp rn + pairOffset imm
    { s.next with mem := store64 (store64 s.mem a (s.gpr rt)) (wordAt a 2) (s.gpr rt2) }
  | .ldp rt rt2 rn imm =>
    let a := s.gprSp rn + pairOffset imm
    ((s.setGpr rt (load64 s.mem a)).setGpr rt2 (load64 s.mem (wordAt a 2))).next
  | .ldr rt rn imm => (s.setGpr rt (load64 s.mem (s.gprSp rn + imm.setWidth 64 <<< 3))).next
  | .addImm rd rn imm => (s.setGprSp rd (s.gprSp rn + imm.setWidth 64)).next
  | .subImm rd rn imm => (s.setGprSp rd (s.gprSp rn - imm.setWidth 64)).next
  | .mov rd rm => (s.setGpr rd (s.gpr rm)).next

section Run

variable (other : Word → State → State)

/-- A word outside the subset does whatever `other` does. -/
def exec (w : Word) (s : State) : State :=
  match decode w with
  | some i => i.exec s
  | none => other w s

/-- The word that is executed is the one in memory, which the run may have changed. -/
def step (s : State) : State := exec other (s.mem s.pc) s

/-- The state after a number of steps. -/
def run : Nat → State → State
  | 0, s => s
  | n + 1, s => run n (step other s)

/-- The words the first `n` steps execute. -/
def trace : Nat → State → List Word
  | 0, _ => []
  | n + 1, s => s.mem s.pc :: trace n (step other s)

theorem run_add (m n : Nat) (s : State) : run other (m + n) s = run other n (run other m s) := by
  induction m generalizing s with
  | zero => simp [run]
  | succ m ih => rw [Nat.succ_add, run, run, ih]

end Run

/-! ## Reading a state back -/

namespace State

variable (s : State) (r : Reg) (a : Addr)

@[simp] theorem jump_pc : (s.jump a).pc = a := rfl
@[simp] theorem next_pc : s.next.pc = s.pc + 4#64 := rfl
@[simp] theorem next_x : s.next.x = s.x := rfl

theorem gpr_eq (hr : r ≠ 31#5) : s.gpr r = s.x r := if_neg hr

end State

/-! ## Branch words -/

theorem decode_b_word (q : Word) :
    decode (0x14000000#32 ||| (q &&& 0x03ffffff#32)) = some (.b (q.setWidth 26)) := by
  have hOp : (0x14000000#32 ||| (q &&& 0x03ffffff#32)) &&& 0xfc000000#32 = 0x14000000#32 := by
    rw [or_and_masked _ _ _ _ (by decide)]
    rfl
  have hField : (0x14000000#32 ||| (q &&& 0x03ffffff#32)).setWidth 26 = q.setWidth 26 :=
    setWidth_or_masked _ _ _ (by decide) (by decide)
  simp only [decode, hOp, hField, if_true]

theorem decode_bl_word (q : Word) :
    decode (0x94000000#32 ||| (q &&& 0x03ffffff#32)) = some (.bl (q.setWidth 26)) := by
  have hOp : (0x94000000#32 ||| (q &&& 0x03ffffff#32)) &&& 0xfc000000#32 = 0x94000000#32 := by
    rw [or_and_masked _ _ _ _ (by decide)]
    rfl
  have hField : (0x94000000#32 ||| (q &&& 0x03ffffff#32)).setWidth 26 = q.setWidth 26 :=
    setWidth_or_masked _ _ _ (by decide) (by decide)
  have hNotB : (0x94000000#32 : Word) ≠ 0x14000000#32 := by decide
  simp only [decode, hOp, hField, if_neg hNotB, if_true]

/-- The displacement of a branch word, in arithmetic shifts. -/
theorem branchOffset_field (w : Word) :
    ((w <<< 6).sshiftRight 4).signExtend 64 = branchOffset (w.setWidth 26) := by
  apply BitVec.eq_of_toInt_eq
  have hField : ((w.setWidth 26).signExtend 64).toInt = (w.toNat : Int).bmod (2 ^ 26) := by
    rw [BitVec.toInt_signExtend_of_le (by omega), BitVec.toInt_setWidth]
  rw [BitVec.toInt_signExtend_of_le (by omega), BitVec.toInt_sshiftRight, BitVec.toInt_shiftLeft,
    branchOffset, BitVec.toInt_shiftLeft, Nat.shiftLeft_eq, Nat.shiftLeft_eq,
    Int.shiftRight_eq_div_pow]
  have hLt := ((w.setWidth 26).signExtend 64).isLt
  rw [BitVec.toInt_eq_toNat_cond] at hField
  generalize ((w.setWidth 26).signExtend 64).toNat = x at hField hLt ⊢
  simp only [Int.bmod_def] at hField ⊢
  omega

/-! ## Literal load words -/

theorem decode_ldrLiteral {w : Word} (hTop : w &&& 0xff000000#32 = 0x58000000#32) :
    decode w = some (.ldrLiteral .x (w.extractLsb' 5 19) (w.setWidth 5)) := by
  have hNot : ∀ m v : Word, 0x58000000#32 &&& m ≠ v &&& 0xff000000#32 → w &&& m ≠ v :=
    fun m v => and_ne_of_top hTop
  have hNop : w ≠ 0xd503201f#32 := by
    rintro rfl
    exact absurd hTop (by decide)
  have hByte : w >>> 24 = 0x58#32 := by
    rw [ushiftRight_top, hTop]
    rfl
  unfold decode
  dsimp only
  rw [if_neg (hNot _ _ (by decide)), if_neg (hNot _ _ (by decide)), if_neg (hNot _ _ (by decide)),
    if_neg (hNot _ _ (by decide)), if_neg (hNot _ _ (by decide)), if_neg hNop,
    if_neg (hNot _ _ (by decide)), if_neg (hNot _ _ (by decide)), if_neg (hNot _ _ (by decide)),
    if_neg (hNot _ _ (by decide)), if_neg (hNot _ _ (by decide)), if_neg (hNot _ _ (by decide)),
    if_neg (hNot _ _ (by decide)), if_neg (hNot _ _ (by decide)), decodeLiteral, hByte]
  rfl

end A64
