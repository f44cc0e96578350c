import Wondar.A64.PcRel
import Wondar.A64.Run

/-!
# Leaving a block of words

A few words that have been put somewhere are to do what one instruction did elsewhere.
`Exits other e n s s'` says that execution goes through the `n` words at `e` from front to back
and that the step which leaves them, forward, backward or to anywhere else, arrives in `s'`.
There is at most one such state (`Exits.unique`), whatever lies around the block.

The rules follow execution word by word: `Exits.fall` and `Exits.skip` stay in the block, and
`Exits.end`, `Exits.away` and `Exits.single` leave it.
-/

namespace A64

section

variable (other : Word → State → State) (e : Addr) (n : Nat)

/-- `b` is a later one of the `n` words at `e` than `a`. -/
def Later (a b : Addr) : Prop := (a - e).toNat < (b - e).toNat ∧ (b - e).toNat < 4 * n

inductive Exits : State → State → Prop
  | out {s : State} (h : ¬ Later e n s.pc (step other s).pc) : Exits s (step other s)
  | on {s s' : State} (h : Later e n s.pc (step other s).pc) (hRest : Exits (step other s) s') :
      Exits s s'

variable {other e n}

theorem Exits.unique {s t t' : State} (h : Exits other e n s t) (h' : Exits other e n s t') :
    t = t' := by
  induction h with
  | out hOut =>
    cases h' with
    | out _ => rfl
    | on hOn _ => exact absurd hOn hOut
  | on hOn _ ih =>
    cases h' with
    | out hOut => exact absurd hOn hOut
    | on _ hRest => exact ih hRest

/-! ## Places in the block -/

theorem wordAt_sub (e : Addr) {i : Nat} (hi : 4 * i < 2 ^ 64) : (wordAt e i - e).toNat = 4 * i := by
  unfold wordAt
  bv_omega

/-- The next word to be executed is word `i` of the block. -/
def State.AtWord (s : State) (e : Addr) (i : Nat) : Prop := s.pc = wordAt e i

theorem Exits.skip {s t s' : State} {i j : Nat} (hStep : step other s = t) (hs : s.AtWord e i)
    (ht : t.AtWord e j) (hij : i < j) (hj : j < n) (hn : 4 * n < 2 ^ 64)
    (hRest : Exits other e n t s') : Exits other e n s s' := by
  subst hStep
  refine .on ⟨?_, ?_⟩ hRest
  · rw [hs, ht, wordAt_sub e (by omega), wordAt_sub e (by omega)]
    omega
  · rw [ht, wordAt_sub e (by omega)]
    omega

theorem Exits.fall {s t s' : State} {i : Nat} (hStep : step other s = t) (hs : s.AtWord e i)
    (ht : t.AtWord e (i + 1)) (hi : i + 1 < n) (hn : 4 * n < 2 ^ 64)
    (hRest : Exits other e n t s') : Exits other e n s s' :=
  .skip hStep hs ht (Nat.lt_succ_self i) hi hn hRest

theorem Exits.end {s t : State} (hStep : step other s = t) (ht : t.AtWord e n)
    (hn : 4 * n < 2 ^ 64) : Exits other e n s t := by
  subst hStep
  refine .out fun h => ?_
  have hLt := h.2
  rw [ht, wordAt_sub e hn] at hLt
  omega

theorem Exits.away {s t : State} (hStep : step other s = t) (ht : 4 * n ≤ (t.pc - e).toNat) :
    Exits other e n s t := by
  subst hStep
  exact .out fun h => absurd h.2 (by omega)

/-- One word has no later one. -/
theorem Exits.single {s t : State} (hStep : step other s = t) (hs : s.AtWord e 0)
    (ht : (t.pc - e).toNat % 4 = 0) : Exits other e 1 s t := by
  subst hStep
  refine .out fun h => ?_
  obtain ⟨hLow, hHigh⟩ := h
  rw [hs, wordAt_sub e (by omega)] at hLow
  omega

/-! ## Steps -/

variable (other) in
theorem step_core {s : State} {w : Word} {i : Instr} (hWord : s.mem s.pc = w)
    (hDecode : decode w = some i) : step other s = i.exec s := by
  rw [step, hWord, exec_core other hDecode]

variable (other) in
theorem step_pcRel {s : State} {w : Word} {i : PcRel} (hWord : s.mem s.pc = w)
    (hDecode : decodePcRel w = some i) : step (withPcRel other) s = i.exec s := by
  rw [step, hWord, exec_pcRel other hDecode]

theorem State.AtWord.succ {s : State} {i : Nat} (h : s.AtWord e i) :
    s.pc + 4#64 = wordAt e (i + 1) := by
  rw [h, ← wordAt_one, wordAt_wordAt]

theorem State.AtWord.fetch {s : State} {i : Nat} {ws : List Word} (h : s.AtWord e i)
    (hCode : CodeAt s.mem (wordAt e i) ws) (hPos : 0 < ws.length) : s.mem s.pc = ws[0] := by
  have hFirst := hCode 0 hPos
  rwa [wordAt_zero, ← h] at hFirst

variable (other) in
/-- A literal load of a doubleword. -/
theorem step_ldrX {s : State} {w : Word} {imm : BitVec 19} {r : Reg} {a : Addr}
    (hWord : s.mem s.pc = w) (hDecode : decode w = some (.ldrLiteral .x imm r)) (hr : r ≠ 31#5)
    (hLit : s.pc + branchOffset imm = a) :
    step other s =
      { s with pc := s.pc + 4#64, x := Function.update s.x r (load64 s.mem a) } := by
  rw [step_core other hWord hDecode, Instr.exec, hLit, loadLiteral, State.setGpr, if_neg hr]
  rfl

variable (other) in
theorem step_br {s : State} {w : Word} {r : Reg} (hWord : s.mem s.pc = w)
    (hDecode : decode w = some (.br r)) (hr : r ≠ 31#5) : step other s = { s with pc := s.x r } := by
  rw [step_core other hWord hDecode, Instr.exec, State.gpr_eq _ _ hr]
  rfl

/-- `B` or `BL`. -/
def branchInstr (link : Bool) (imm : BitVec 26) : Instr := if link then .bl imm else .b imm

/-- The registers behind a branch, which leaves them to `after` in X30 if it is one with link. -/
def linked (link : Bool) (x : Reg → BitVec 64) (after : Addr) : Reg → BitVec 64 :=
  if link then Function.update x 30#5 after else x

variable (other) in
theorem step_branch {s : State} {link : Bool} {w : Word} {imm : BitVec 26} (hWord : s.mem s.pc = w)
    (hDecode : decode w = some (branchInstr link imm)) :
    step other s = { s with pc := s.pc + branchOffset imm, x := linked link s.x (s.pc + 4#64) } := by
  rw [step_core _ hWord hDecode]
  cases link <;> rfl

/-! ## Instructions that refer to an address -/

/-- What an instruction does with the address that it refers to. -/
inductive Referrer
  | jump (link : Bool)
  | test (t : Test)
  | address (rd : Reg)
deriving DecidableEq, Repr

def Instr.referrer : Instr → Option (Referrer × BitVec 64)
  | .b imm => some (.jump false, branchOffset imm)
  | .bl imm => some (.jump true, branchOffset imm)
  | _ => none

def PcRel.referrer : PcRel → Option (Referrer × BitVec 64)
  | .branch t d => some (.test t, d)
  | .adr rd imm => some (.address rd, imm.signExtend 64)
  | .adrp .. => none

/-- The branches and ADR, with the distance to the address. -/
def referrer (w : Word) : Option (Referrer × BitVec 64) :=
  match decode w with
  | some i => i.referrer
  | none => (decodePcRel w).bind PcRel.referrer

/-- How many bits of the distance an instruction can hold. -/
def Referrer.reach : Referrer → Nat
  | .jump _ => 28
  | .test t => t.width + 2
  | .address _ => 21

/-- A distance, as far as the instruction holds it. -/
def Referrer.held (kind : Referrer) (x : BitVec 64) : BitVec 64 :=
  (x.setWidth kind.reach).signExtend 64

theorem Referrer.reach_bounds (kind : Referrer) : 16 ≤ kind.reach ∧ kind.reach ≤ 28 := by
  cases kind with
  | jump link => simp [Referrer.reach]
  | test t => cases t <;> simp [Referrer.reach, Test.width]
  | address rd => simp [Referrer.reach]

/-- A distance that fits is held when what is added to it is out of reach. -/
theorem Referrer.held_add_iff (kind : Referrer) {y δ : BitVec 64} (hLow : -(2 ^ 15 : Int) ≤ y.toInt)
    (hHigh : y.toInt < 2 ^ 15) : kind.held (y + δ) = y ↔ δ.setWidth kind.reach = 0 := by
  obtain ⟨hMin, hMax⟩ := kind.reach_bounds
  unfold Referrer.held
  generalize kind.reach = r at hMin hMax
  constructor
  · intro hSame
    have hBack : ∀ z : BitVec r, (z.signExtend 64).setWidth r = z := fun z => by
      ext i hi
      have hWide : i < 64 := by omega
      rw [BitVec.getElem_setWidth, BitVec.getLsbD_signExtend, decide_eq_true hWide, Bool.true_and,
        if_pos hi, BitVec.getLsbD_eq_getElem hi]
    have hField := congrArg (BitVec.setWidth r) hSame
    rw [hBack, BitVec.setWidth_add _ _ (by omega)] at hField
    grind
  · intro hZero
    obtain ⟨r, rfl⟩ : ∃ r', r = r' + 1 := ⟨r - 1, by omega⟩
    have hPow : (2 : Int) ^ 15 ≤ 2 ^ r := by
      exact_mod_cast Nat.pow_le_pow_right (n := 2) (by omega) (show 15 ≤ r by omega)
    rw [BitVec.setWidth_add _ _ (by omega), hZero,
      show y.setWidth (r + 1) + 0 = y.setWidth (r + 1) from BitVec.add_zero _]
    exact signExtend_setWidth (by omega) y (by omega) (by omega)

/-- What it does when it refers to `a`. -/
def Referrer.exec (s : State) (a : Addr) : Referrer → State
  | .jump link => { s with pc := a, x := linked link s.x (s.pc + 4#64) }
  | .test t => if t.holds s then s.jump a else s.next
  | .address rd => (s.setGpr rd a).next

theorem referrer_core {w : Word} {i : Instr} (h : decode w = some i) : referrer w = i.referrer := by
  rw [referrer, h]

theorem referrer_pcRel {w : Word} {i : PcRel} (h : decodePcRel w = some i) :
    referrer w = i.referrer := by
  rw [referrer, decode_eq_none h, h]
  rfl

theorem referrer_branchInstr (link : Bool) (imm : BitVec 26) :
    (branchInstr link imm).referrer = some (.jump link, branchOffset imm) := by
  cases link <;> rfl

/-- Each kind is decoded as it should be. -/
theorem referrer_cases {w : Word} {kind : Referrer} {d : BitVec 64}
    (h : referrer w = some (kind, d)) :
    (∃ link imm, decode w = some (branchInstr link imm) ∧ kind = .jump link ∧ d = branchOffset imm) ∨
    (∃ t, decodePcRel w = some (.branch t d) ∧ kind = .test t) ∨
    (∃ rd imm, decodePcRel w = some (.adr rd imm) ∧ kind = .address rd ∧ d = imm.signExtend 64) := by
  rcases hCore : decode w with _ | i
  · rw [referrer, hCore] at h
    obtain ⟨i, hDecode, hRef⟩ := Option.bind_eq_some_iff.mp h
    cases i with
    | branch t d' =>
      cases hRef
      exact .inr (.inl ⟨t, hDecode, rfl⟩)
    | adr rd imm =>
      cases hRef
      exact .inr (.inr ⟨rd, imm, hDecode, rfl, rfl⟩)
    | adrp rd imm => cases hRef
  · rw [referrer_core hCore] at h
    cases i with
    | b imm =>
      cases h
      exact .inl ⟨false, imm, rfl, rfl, rfl⟩
    | bl imm =>
      cases h
      exact .inl ⟨true, imm, rfl, rfl, rfl⟩
    | _ => cases h

/-- Such an instruction refers to the address at its distance. -/
theorem step_referrer (other : Word → State → State) {s : State} {w : Word} {kind : Referrer}
    {d : BitVec 64} (hWord : s.mem s.pc = w) (h : referrer w = some (kind, d)) :
    step (withPcRel other) s = kind.exec s (s.pc + d) := by
  rcases referrer_cases h with ⟨link, imm, hDecode, rfl, rfl⟩ | ⟨t, hDecode, rfl⟩ |
    ⟨rd, imm, hDecode, rfl, rfl⟩
  · exact step_branch _ hWord hDecode
  · exact step_pcRel other hWord hDecode
  · exact step_pcRel other hWord hDecode

/-- Execution passes over NOPs. -/
theorem exits_nops {pad : List Word} (hNops : ∀ w ∈ pad, w = 0xd503201f#32) {s s' : State} {i : Nat}
    (hAt : s.AtWord e i) (hCode : CodeAt s.mem (wordAt e i) pad) (hi : i + pad.length < n)
    (hn : 4 * n < 2 ^ 64)
    (hRest : Exits other e n { s with pc := wordAt e (i + pad.length) } s') :
    Exits other e n s s' := by
  induction pad generalizing s i with
  | nil =>
    have hSame : { s with pc := wordAt e (i + 0) } = s := by
      rw [Nat.add_zero, ← hAt]
    rwa [List.length_nil, hSame] at hRest
  | cons w pad ih =>
    obtain ⟨hFirst, hCode⟩ := codeAt_cons.mp hCode
    have hNop : s.mem s.pc = 0xd503201f#32 := by
      rw [hAt, hFirst]
      exact hNops w (by simp)
    have hStep : step other s = { s with pc := wordAt e (i + 1) } := by
      rw [step_core _ hNop (i := .nop) (by decide), ← hAt.succ]
      rfl
    rw [List.length_cons] at hi hRest
    refine .fall hStep hAt rfl (by omega) hn (ih (fun v hv => hNops v (by simp [hv])) rfl ?_ ?_ ?_)
    · rwa [wordAt_wordAt] at hCode
    · omega
    · rwa [show i + 1 + pad.length = i + (pad.length + 1) by omega]

end

end A64
