import Wondar.A64.Machine

/-!
# Instructions that refer to their own address

Conditional branches, compare and test branches, ADR and ADRP, which the core leaves to
`other`. `withPcRel other` executes them as the architecture says and leaves the rest to
`other`; no word of these classes is one of the core (`decode_eq_none`).

A conditional branch is a test and a displacement. The test is in the bits that a change of the
displacement leaves alone.
-/

namespace A64

/-! ## Tests -/

/-- What a conditional branch tests. -/
inductive Test
  | cond (c : BitVec 4)
  | compare (wide nonzero : Bool) (rt : Reg)
  | bit (b : BitVec 6) (set : Bool) (rt : Reg)
deriving DecidableEq, Repr

/-- `ConditionHolds`: the flags are N, Z, C, V from the top. -/
def conditionHolds (c nzcv : BitVec 4) : Bool :=
  let n := nzcv.getLsbD 3
  let z := nzcv.getLsbD 2
  let carry := nzcv.getLsbD 1
  let v := nzcv.getLsbD 0
  let result :=
    match (c >>> 1).toNat with
    | 0 => z
    | 1 => carry
    | 2 => n
    | 3 => v
    | 4 => carry && !z
    | 5 => n == v
    | 6 => n == v && !z
    | _ => true
  if c.getLsbD 0 && c != 0b1111#4 then !result else result

def Test.holds (s : State) : Test → Bool
  | .cond c => conditionHolds c s.nzcv
  | .compare wide nonzero rt =>
    (if wide then s.gpr rt == 0#64 else (s.gpr rt).setWidth 32 == 0#32) != nonzero
  | .bit b set rt => (s.gpr rt).getLsbD b.toNat == set

/-- A test that the zero register fails. -/
def Test.never : Test → Bool
  | .cond _ => false
  | .compare _ nonzero rt => nonzero && rt == 31#5
  | .bit _ set rt => set && rt == 31#5

/-- How wide the displacement of a branch with the test is, in words. -/
def Test.width : Test → Nat
  | .bit .. => 14
  | _ => 19

/-- A state for each condition. -/
theorem exists_conditionHolds : ∀ c : BitVec 4, ∃ nzcv, conditionHolds c nzcv = true := by
  decide

/-- The other tests fail in some state only. -/
theorem Test.never_iff (t : Test) (pc : Addr) (mem : Addr → Word) :
    t.never = true ↔ ∀ s : State, s.pc = pc → s.mem = mem → t.holds s = false := by
  have hZero : ∀ s : State, s.gpr 31#5 = 0#64 := fun s => if_pos rfl
  constructor
  · intro hNever s _ _
    cases t with
    | cond c => cases hNever
    | compare wide nonzero rt =>
      simp only [Test.never, Bool.and_eq_true, beq_iff_eq] at hNever
      obtain ⟨rfl, rfl⟩ := hNever
      simp [Test.holds, hZero]
    | bit b set rt =>
      simp only [Test.never, Bool.and_eq_true, beq_iff_eq] at hNever
      obtain ⟨rfl, rfl⟩ := hNever
      simp [Test.holds, hZero]
  · intro hFails
    -- all registers have one value
    have hState := fun (val : BitVec 64) (nzcv : BitVec 4) =>
      hFails ⟨pc, fun _ => val, 0#64, nzcv, fun _ => 0#128, mem⟩ rfl rfl
    cases t with
    | cond c =>
      obtain ⟨nzcv, hHolds⟩ := exists_conditionHolds c
      have hNot := hState 0#64 nzcv
      rw [Test.holds, hHolds] at hNot
      cases hNot
    | compare wide nonzero rt =>
      by_contra hNot
      cases nonzero with
      | false =>
        have := hState 0#64 0#4
        simp [Test.holds, State.gpr] at this
      | true =>
        have hr : rt ≠ 31#5 := by simpa [Test.never] using hNot
        have := hState 1#64 0#4
        simp [Test.holds, State.gpr, hr] at this
    | bit b set rt =>
      by_contra hNot
      cases set with
      | false =>
        have := hState 0#64 0#4
        simp [Test.holds, State.gpr] at this
      | true =>
        have hr : rt ≠ 31#5 := by simpa [Test.never] using hNot
        have hSet : (BitVec.allOnes 64).getLsbD b.toNat = true := by
          rw [BitVec.getLsbD_allOnes]
          exact decide_eq_true b.isLt
        have hBit := hState (BitVec.allOnes 64) 0#4
        rw [Test.holds, State.gpr, if_neg hr, hSet] at hBit
        cases hBit

/-! ## Displacements -/

/-- A field of `k` bits in words, as a number of bytes. -/
theorem toInt_signExtend_words {k v : Nat} (hv : 3 ≤ v) (hk : k + 2 ≤ v) (imm : BitVec k) :
    (imm.signExtend v <<< 2).toInt = 4 * imm.toInt := by
  have hSign := BitVec.toInt_signExtend_of_le (x := imm) (v := v) (by omega)
  have hLow := imm.le_toInt
  have hHigh := imm.toInt_lt
  have hPow : 2 ^ v = 8 * 2 ^ (v - 3) := by
    rw [show 8 = 2 ^ 3 by rfl, ← Nat.pow_add, Nat.add_sub_cancel' hv]
  have hField : (2 : Int) ^ (k - 1) ≤ 2 ^ (v - 3) := by
    exact_mod_cast Nat.pow_le_pow_right (n := 2) (by omega) (by omega)
  calc (imm.signExtend v <<< 2).toInt
      = ((imm.signExtend v).toInt * 4).bmod (2 ^ v) := by
        rw [BitVec.toInt_shiftLeft, Nat.shiftLeft_eq, BitVec.toInt_eq_toNat_bmod, Int.bmod_mul_bmod]
        rfl
    _ = (imm.signExtend v).toInt * 4 := by
        rw [hSign]
        apply Int.bmod_eq_of_le
        · rw [hPow]
          push_cast
          omega
        · rw [hPow]
          push_cast
          omega
    _ = 4 * imm.toInt := by rw [hSign, Int.mul_comm]

theorem branchOffset_toInt {k : Nat} (hk : k ≤ 62) (imm : BitVec k) :
    (branchOffset imm).toInt = 4 * imm.toInt :=
  toInt_signExtend_words (by omega) (by omega) imm

/-- The field of an aligned distance is its quarter. -/
theorem branchOffset_quarter {x : BitVec 64} (hx : x.toNat % 4 = 0) {n : Nat} (hPos : 0 < n) (hn : n ≤ 60) :
    branchOffset ((x.sshiftRight 2).setWidth n) = (x.setWidth (n + 2)).signExtend 64 := by
  ext i hi
  rw [branchOffset, BitVec.getElem_shiftLeft, ← BitVec.getLsbD_eq_getElem,
    ← BitVec.getLsbD_eq_getElem (x := (x.setWidth (n + 2)).signExtend 64),
    getLsbD_signExtend_setWidth x (by omega) hi]
  by_cases hLow : i < 2
  · rw [decide_eq_true hLow, Nat.min_eq_left (by omega), getLsbD_aligned hx hLow]
    rfl
  · rw [decide_eq_false hLow, getLsbD_signExtend_setWidth _ hPos (by omega),
      BitVec.getLsbD_sshiftRight, if_pos (by omega), decide_eq_false (by omega), Bool.not_false,
      Bool.true_and, Bool.true_and]
    congr 1
    omega

/-- A displacement in words has no low bits. -/
theorem branchOffset_low {n : Nat} (imm : BitVec n) : (branchOffset imm).setWidth 2 = 0#2 := by
  ext i hi
  simp [branchOffset]

/-! ## Instructions -/

inductive PcRel
  | branch (test : Test) (displacement : BitVec 64)
  | adr (rd : Reg) (imm21 : BitVec 21)
  | adrp (rd : Reg) (imm21 : BitVec 21)
deriving DecidableEq, Repr

/-- `immhi` and `immlo` of an address instruction. -/
def adrImm (w : Word) : BitVec 21 := w.extractLsb' 5 19 ++ w.extractLsb' 29 2

def decodePcRel (w : Word) : Option PcRel :=
  let rt : Reg := w.setWidth 5
  if w &&& 0xff000010#32 = 0x54000000#32 then
    some (.branch (.cond (w.setWidth 4)) (branchOffset (w.extractLsb' 5 19)))
  else if w &&& 0x7e000000#32 = 0x34000000#32 then
    some (.branch (.compare (w.getLsbD 31) (w.getLsbD 24) rt) (branchOffset (w.extractLsb' 5 19)))
  else if w &&& 0x7e000000#32 = 0x36000000#32 then
    some (.branch (.bit (w.extractLsb' 31 1 ++ w.extractLsb' 19 5) (w.getLsbD 24) rt)
      (branchOffset (w.extractLsb' 5 14)))
  else if w &&& 0x9f000000#32 = 0x10000000#32 then some (.adr rt (adrImm w))
  else if w &&& 0x9f000000#32 = 0x90000000#32 then some (.adrp rt (adrImm w))
  else none

def adrpPage (pc : Addr) : Addr := pc &&& ~~~0xfff#64

def PcRel.exec (s : State) : PcRel → State
  | .branch test displacement => if test.holds s then s.jump (s.pc + displacement) else s.next
  | .adr rd imm => (s.setGpr rd (s.pc + imm.signExtend 64)).next
  | .adrp rd imm => (s.setGpr rd (adrpPage s.pc + imm.signExtend 64 <<< 12)).next

/-- What executes the words that the core does not know. -/
def withPcRel (other : Word → State → State) (w : Word) (s : State) : State :=
  match decodePcRel w with
  | some i => i.exec s
  | none => other w s

/-! ## The classes are apart -/

/-- The masks of the core and what they leave of a word, but for literal loads. -/
def coreMasks : List (Word × Word) :=
  [(0xfc000000#32, 0x14000000#32), (0xfc000000#32, 0x94000000#32), (0xfffffc1f#32, 0xd61f0000#32),
    (0xfffffc1f#32, 0xd63f0000#32), (0xfffffc1f#32, 0xd65f0000#32), (0xffffffff#32, 0xd503201f#32),
    (0xffe00c00#32, 0xf8000000#32), (0xffe00c00#32, 0xf8400000#32), (0xffc00000#32, 0xa9000000#32),
    (0xffc00000#32, 0xa9400000#32), (0xffc00000#32, 0xf9400000#32), (0xffc00000#32, 0x91000000#32),
    (0xffc00000#32, 0xd1000000#32), (0xffe0ffe0#32, 0xaa0003e0#32)]

/-- The top byte of a literal load. -/
def Literal.opcode : Literal → Word
  | .w => 0x18000000#32
  | .x => 0x58000000#32
  | .sw => 0x98000000#32
  | .s => 0x1c000000#32
  | .d => 0x5c000000#32
  | .q => 0x9c000000#32

/-- No bit pattern of the core agrees with `v` under the mask `m`. -/
def apartFromCore (m v : Word) : Bool := coreMasks.all fun c => v &&& c.1 != c.2 &&& m

/-- Nor does one of a literal load. -/
def apartFromLiterals (m v : Word) : Bool :=
  [Literal.w, .x, .sw, .s, .d, .q].all fun kind => v &&& 0xff000000#32 != kind.opcode &&& m

theorem decode_of_apart {w m v : Word} (h : w &&& m = v) (hApart : apartFromCore m v = true) :
    decode w = (decodeLiteral w).map fun kind => .ldrLiteral kind (w.extractLsb' 5 19) (w.setWidth 5) := by
  have hNot : ∀ c ∈ coreMasks, w &&& c.1 ≠ c.2 := fun c hc =>
    and_ne_of_top h (by simpa using List.all_eq_true.mp hApart c hc)
  have hNop : w ≠ 0xd503201f#32 := by
    have := hNot (0xffffffff#32, 0xd503201f#32) (by simp [coreMasks])
    rwa [show (0xffffffff#32 : Word) = BitVec.allOnes 32 from rfl, BitVec.and_allOnes] at this
  simp only [coreMasks, List.forall_mem_cons] at hNot
  obtain ⟨h1, h2, h3, h4, h5, -, h7, h8, h9, h10, h11, h12, h13, h14, -⟩ := hNot
  unfold decode
  dsimp only
  rw [if_neg h1, if_neg h2, if_neg h3, if_neg h4, if_neg h5, if_neg hNop, if_neg h7, if_neg h8,
    if_neg h9, if_neg h10, if_neg h11, if_neg h12, if_neg h13, if_neg h14]

theorem decodeLiteral_top {w : Word} {kind : Literal} (h : decodeLiteral w = some kind) :
    w &&& 0xff000000#32 = kind.opcode := by
  have hByte : ∀ n : Nat, (w >>> 24).toNat = n → w &&& 0xff000000#32 = BitVec.ofNat 32 n <<< 24 := by
    rintro n rfl
    rw [and_top_eq, BitVec.ofNat_toNat, BitVec.setWidth_eq]
  unfold decodeLiteral at h
  split at h
  iterate 6
    · rename_i hEq
      cases h
      rw [hByte _ hEq]
      decide
  · cases h

theorem decodeLiteral_eq_none {w m v : Word} (h : w &&& m = v)
    (hApart : apartFromLiterals m v = true) : decodeLiteral w = none := by
  rcases hLiteral : decodeLiteral w with _ | kind
  · rfl
  · have hKind := List.all_eq_true.mp hApart kind (by cases kind <;> simp)
    exact absurd (decodeLiteral_top hLiteral) (and_ne_of_top h (by simpa using hKind))

/-- A literal load is known from its top byte. -/
theorem decode_literal {w : Word} {kind : Literal} (h : w &&& 0xff000000#32 = kind.opcode) :
    decode w = some (.ldrLiteral kind (w.extractLsb' 5 19) (w.setWidth 5)) := by
  have hKind : decodeLiteral w = some kind := by
    rw [decodeLiteral, ushiftRight_top, h]
    cases kind <;> rfl
  rw [decode_of_apart h (by cases kind <;> decide), hKind, Option.map_some]

/-- An address instruction is known from its fixed bits. -/
theorem decodePcRel_adr {w : Word} (h : w &&& 0x9f000000#32 = 0x10000000#32) :
    decodePcRel w = some (.adr (w.setWidth 5) (adrImm w)) := by
  have hNot : ∀ m v : Word, 0x10000000#32 &&& m ≠ v &&& 0x9f000000#32 → w &&& m ≠ v :=
    fun m v => and_ne_of_top h
  rw [decodePcRel, if_neg (hNot _ _ (by decide)), if_neg (hNot _ _ (by decide)),
    if_neg (hNot _ _ (by decide)), if_pos h]

theorem decodePcRel_adrp {w : Word} (h : w &&& 0x9f000000#32 = 0x90000000#32) :
    decodePcRel w = some (.adrp (w.setWidth 5) (adrImm w)) := by
  have hNot : ∀ m v : Word, 0x90000000#32 &&& m ≠ v &&& 0x9f000000#32 → w &&& m ≠ v :=
    fun m v => and_ne_of_top h
  rw [decodePcRel, if_neg (hNot _ _ (by decide)), if_neg (hNot _ _ (by decide)),
    if_neg (hNot _ _ (by decide)), if_neg (hNot _ _ (by decide)), if_pos h]

/-- The core knows none of these instructions. -/
theorem decode_eq_none {w : Word} {i : PcRel} (h : decodePcRel w = some i) : decode w = none := by
  suffices hMask : ∃ m v, w &&& m = v ∧ apartFromCore m v = true ∧ apartFromLiterals m v = true by
    obtain ⟨m, v, hMask, hCore, hLiterals⟩ := hMask
    rw [decode_of_apart hMask hCore, decodeLiteral_eq_none hMask hLiterals, Option.map_none]
  unfold decodePcRel at h
  dsimp only at h
  split at h
  · exact ⟨_, _, ‹_›, by decide, by decide⟩
  · split at h
    · exact ⟨_, _, ‹_›, by decide, by decide⟩
    · split at h
      · exact ⟨_, _, ‹_›, by decide, by decide⟩
      · split at h
        · exact ⟨_, _, ‹_›, by decide, by decide⟩
        · split at h
          · exact ⟨_, _, ‹_›, by decide, by decide⟩
          · cases h

/-- An answer that an earlier test does not give comes from the others. -/
theorem of_ite_some {α : Type} {P : Prop} [Decidable P] {a b : α} {r : Option α}
    (h : (if P then some a else r) = some b) (hNe : a ≠ b) : r = some b := by
  split at h
  · exact absurd (Option.some.inj h) hNe
  · exact h

theorem exec_pcRel (other : Word → State → State) {w : Word} {i : PcRel}
    (h : decodePcRel w = some i) (s : State) : exec (withPcRel other) w s = i.exec s := by
  simp only [exec, decode_eq_none h, withPcRel, h]

theorem exec_core (other : Word → State → State) {w : Word} {i : Instr}
    (h : decode w = some i) (s : State) : exec other w s = i.exec s := by
  simp only [exec, h]

end A64
