import Mathlib.Logic.Function.Basic
import Wondar.Updates

/-!
# Registers on the stack

Code that must keep the registers of its caller pushes them in pairs, and pops the pairs in the
opposite order. A pair is two of the 64-bit registers or two of the 128-bit ones.

`popAll_pushAll`: whatever lies between the pushes and the pops, if it returns with the same stack
pointer and leaves the stack above it alone, then the registers of the pairs are back, the stack
pointer is that of the start, and nothing else has changed. `pushAll_frame` says which memory the
pushes write.
-/

namespace PushPop

open Blocks Updates

/-- The number of a register, either of the 64-bit ones or of the 128-bit ones. -/
abbrev Reg := BitVec 5

/-- What a push or a pop reads and writes. -/
structure Core where
  x : Reg → BitVec 64
  v : Reg → BitVec 128
  sp : BitVec 64
  mem : Memory

/-- The registers of one `stp` or `ldp`. -/
inductive Pair
  | x (rt rt2 : Reg)
  | q (rt rt2 : Reg)
deriving DecidableEq, Repr

/-! ## Quadwords -/

/-- Of a quadword the low half comes first. -/
def load128 (mem : Memory) (a : Nat) : BitVec 128 := load64 mem (a + 8) ++ load64 mem a

/-- A store of both halves. -/
def store128 (mem : Memory) (a : Nat) (val : BitVec 128) : Memory :=
  store64 (store64 mem a (val.setWidth 64)) (a + 8) (val.extractLsb' 64 64)

section

variable {mem mem' : Memory} {a b : Nat} {val : BitVec 128}

theorem store64_frame {word : BitVec 64} (h : b < a ∨ a + 8 ≤ b) : store64 mem a word b = mem b := by
  apply write_outside
  rw [show (bytesOf word).length = 8 from rfl]
  omega

/-- A store does the same to bytes that are the same. -/
theorem store64_congr {word : BitVec 64} (h : mem b = mem' b) :
    store64 mem a word b = store64 mem' a word b := by
  rw [store64, store64, write, write, h]

theorem store128_frame (h : b < a ∨ a + 16 ≤ b) : store128 mem a val b = mem b := by
  rw [store128, store64_frame (by omega), store64_frame (by omega)]

theorem load128_store128 : load128 (store128 mem a val) a = val := by
  rw [load128, store128, load64_store64, load64_of_apart (by omega), load64_store64]
  apply BitVec.eq_of_getLsbD_eq
  intro i hi
  rw [BitVec.getLsbD_append, BitVec.getLsbD_setWidth, BitVec.getLsbD_extractLsb']
  by_cases hLow : i < 64
  · simp [hLow]
  · simp [hLow, show 64 + (i - 64) = i by omega, show i - 64 < 64 by omega]

theorem load128_congr (h : ∀ i < 16, mem (a + i) = mem' (a + i)) :
    load128 mem a = load128 mem' a := by
  rw [load128, load128, load64_congr fun i hi => h i (by omega)]
  have hHigh : load64 mem (a + 8) = load64 mem' (a + 8) := by
    refine load64_congr fun i hi => ?_
    rw [Nat.add_assoc]
    exact h (8 + i) (by omega)
  rw [hHigh]

end

/-! ## Pairs -/

namespace Pair

/-- How many bytes a pair takes on the stack. -/
def size : Pair → Nat
  | .x _ _ => 16
  | .q _ _ => 32

/-- The pair has the 64-bit register. -/
def hasX (r : Reg) : Pair → Bool
  | .x rt rt2 => r == rt || r == rt2
  | .q _ _ => false

/-- The pair has the 128-bit register. -/
def hasV (r : Reg) : Pair → Bool
  | .x _ _ => false
  | .q rt rt2 => r == rt || r == rt2

/-- The first register lies below the second. -/
def store (s : Core) (mem : Memory) (a : Nat) : Pair → Memory
  | .x rt rt2 => store64 (store64 mem a (s.x rt)) (a + 8) (s.x rt2)
  | .q rt rt2 => store128 (store128 mem a (s.v rt)) (a + 16) (s.v rt2)

/-- Of a pair that names one register twice the second load counts. -/
def load (s : Core) (a : Nat) : Pair → Core
  | .x rt rt2 =>
    { s with
      x := Function.update (Function.update s.x rt (load64 s.mem a)) rt2 (load64 s.mem (a + 8)) }
  | .q rt rt2 =>
    { s with
      v := Function.update (Function.update s.v rt (load128 s.mem a)) rt2
        (load128 s.mem (a + 16)) }

end Pair

namespace Core

/-- `stp rt, rt2, [sp, #-size]!`. -/
def push (s : Core) (p : Pair) : Core :=
  let sp := s.sp - BitVec.ofNat 64 p.size
  { s with sp, mem := p.store s s.mem sp.toNat }

/-- `ldp rt, rt2, [sp], #size`. -/
def pop (s : Core) (p : Pair) : Core :=
  { p.load s s.sp.toNat with sp := s.sp + BitVec.ofNat 64 p.size }

/-- The pairs one after another, the first of them deepest. -/
def pushAll (s : Core) (ps : List Pair) : Core := ps.foldl push s

/-- The pair that was pushed last comes first. -/
def popAll (s : Core) (ps : List Pair) : Core := ps.foldr (fun p s => s.pop p) s

/-- The registers of the pairs are those of `s'`. -/
def restore (s s' : Core) (ps : List Pair) : Core :=
  { s with
    x := fun r => if ps.any (Pair.hasX r) then s'.x r else s.x r
    v := fun r => if ps.any (Pair.hasV r) then s'.v r else s.v r }

end Core

/-- How many bytes the pairs take. -/
def sizeAll (ps : List Pair) : Nat := (ps.map Pair.size).sum

variable {s s' : Core} {p : Pair} {ps : List Pair} {b : Nat}

@[simp] theorem push_x : (s.push p).x = s.x := rfl
@[simp] theorem push_v : (s.push p).v = s.v := rfl

@[simp] theorem pushAll_x : (s.pushAll ps).x = s.x := by
  induction ps generalizing s with
  | nil => rfl
  | cons p ps ih => exact ih (s := s.push p)

@[simp] theorem pushAll_v : (s.pushAll ps).v = s.v := by
  induction ps generalizing s with
  | nil => rfl
  | cons p ps ih => exact ih (s := s.push p)

theorem restore_x {r : Reg} (h : ps.any (Pair.hasX r) = true) : (s.restore s' ps).x r = s'.x r :=
  if_pos h

theorem restore_x_other {r : Reg} (h : ps.any (Pair.hasX r) = false) :
    (s.restore s' ps).x r = s.x r := if_neg (Bool.eq_false_iff.mp h)

theorem restore_v {r : Reg} (h : ps.any (Pair.hasV r) = true) : (s.restore s' ps).v r = s'.v r :=
  if_pos h

theorem sizeAll_cons : sizeAll (p :: ps) = p.size + sizeAll ps := List.sum_cons

theorem size_lt (p : Pair) : p.size < 64 := by
  cases p <;> simp only [Pair.size] <;> omega

theorem push_sp (h : p.size ≤ s.sp.toNat) : (s.push p).sp.toNat = s.sp.toNat - p.size := by
  have hSize := size_lt p
  rw [Core.push]
  bv_omega

theorem pushAll_sp (h : sizeAll ps ≤ s.sp.toNat) :
    (s.pushAll ps).sp.toNat = s.sp.toNat - sizeAll ps := by
  induction ps generalizing s with
  | nil => rfl
  | cons p ps ih =>
    rw [sizeAll_cons] at h ⊢
    have hSp := push_sp (s := s) (p := p) (by omega)
    have hRest : ((s.push p).pushAll ps).sp.toNat = (s.push p).sp.toNat - sizeAll ps :=
      ih (by omega)
    exact hRest.trans (by omega)

/-! ## Memory -/

theorem store_frame {mem : Memory} {a : Nat} (h : b < a ∨ a + p.size ≤ b) :
    p.store s mem a b = mem b := by
  cases p with
  | x rt rt2 =>
    rw [Pair.size] at h
    rw [Pair.store, store64_frame (by omega), store64_frame (by omega)]
  | q rt rt2 =>
    rw [Pair.size] at h
    rw [Pair.store, store128_frame (by omega), store128_frame (by omega)]

theorem push_frame (hRoom : p.size ≤ s.sp.toNat)
    (h : b < s.sp.toNat - p.size ∨ s.sp.toNat ≤ b) : (s.push p).mem b = s.mem b := by
  have hSp := push_sp hRoom
  refine store_frame ?_
  rw [Core.push] at hSp
  dsimp only at hSp
  omega

/-- The pushes write what is between the two stack pointers. -/
theorem pushAll_frame (hRoom : sizeAll ps ≤ s.sp.toNat)
    (h : b < s.sp.toNat - sizeAll ps ∨ s.sp.toNat ≤ b) : (s.pushAll ps).mem b = s.mem b := by
  induction ps generalizing s with
  | nil => rfl
  | cons p ps ih =>
    rw [sizeAll_cons] at hRoom h
    have hSp := push_sp (s := s) (p := p) (by omega)
    have hRest : ((s.push p).pushAll ps).mem b = (s.push p).mem b := ih (by omega) (by omega)
    exact hRest.trans (push_frame (by omega) (by omega))

/-! ## Popping what was pushed -/

theorem update_pair {α : Type} (f g : Reg → α) (a b : Reg) :
    Function.update (Function.update f a (g a)) b (g b) =
      fun r => if r == a || r == b then g r else f r := by
  funext r
  simp only [Bool.or_eq_true, beq_iff_eq]
  by_cases hb : r = b
  · subst hb
    rw [Function.update_self, if_pos (Or.inr rfl)]
  · rw [Function.update_of_ne hb]
    by_cases ha : r = a
    · subst ha
      rw [Function.update_self, if_pos (Or.inl rfl)]
    · rw [Function.update_of_ne ha, if_neg (not_or.mpr ⟨ha, hb⟩)]

/-- A pair is loaded from where it was stored. -/
theorem load_store {mem : Memory} {a : Nat}
    (h : ∀ i < p.size, s'.mem (a + i) = p.store s mem a (a + i)) :
    p.load s' a = s'.restore s [p] := by
  cases p with
  | x rt rt2 =>
    have hFirst : load64 s'.mem a = s.x rt := by
      rw [load64_congr fun i hi => h i (by rw [Pair.size]; omega), Pair.store,
        load64_of_apart (by omega), load64_store64]
    have hSecond : load64 s'.mem (a + 8) = s.x rt2 := by
      have hSame : ∀ i < 8, s'.mem (a + 8 + i) = (Pair.x rt rt2).store s mem a (a + 8 + i) := by
        intro i hi
        rw [Nat.add_assoc]
        exact h (8 + i) (by rw [Pair.size]; omega)
      rw [load64_congr hSame, Pair.store, load64_store64]
    rw [Pair.load, hFirst, hSecond, update_pair]
    simp only [Core.restore, List.any_cons, List.any_nil, Pair.hasX, Pair.hasV, Bool.or_false,
      Bool.false_eq_true, if_false]
  | q rt rt2 =>
    have hFirst : load128 s'.mem a = s.v rt := by
      have hSame : ∀ i < 16, store128 (store128 mem a (s.v rt)) (a + 16) (s.v rt2) (a + i) =
          store128 mem a (s.v rt) (a + i) := fun i hi => store128_frame (by omega)
      rw [load128_congr fun i hi => h i (by rw [Pair.size]; omega), Pair.store,
        load128_congr hSame, load128_store128]
    have hSecond : load128 s'.mem (a + 16) = s.v rt2 := by
      have hSame : ∀ i < 16, s'.mem (a + 16 + i) = (Pair.q rt rt2).store s mem a (a + 16 + i) := by
        intro i hi
        rw [Nat.add_assoc]
        exact h (16 + i) (by rw [Pair.size]; omega)
      rw [load128_congr hSame, Pair.store, load128_store128]
    rw [Pair.load, hFirst, hSecond, update_pair]
    simp only [Core.restore, List.any_cons, List.any_nil, Pair.hasX, Pair.hasV, Bool.or_false,
      Bool.false_eq_true, if_false]

theorem pop_eq {mem : Memory}
    (h : ∀ i < p.size, s'.mem (s'.sp.toNat + i) = p.store s mem s'.sp.toNat (s'.sp.toNat + i)) :
    s'.pop p = { s'.restore s [p] with sp := s'.sp + BitVec.ofNat 64 p.size } := by
  rw [Core.pop, load_store h]

/-- **Popping what was pushed.** -/
theorem popAll_pushAll (hRoom : sizeAll ps ≤ s.sp.toNat) (hSp : s'.sp = (s.pushAll ps).sp)
    (hMem : ∀ b, s.sp.toNat - sizeAll ps ≤ b → b < s.sp.toNat →
      s'.mem b = (s.pushAll ps).mem b) :
    s'.popAll ps = { s'.restore s ps with sp := s.sp } := by
  induction ps generalizing s with
  | nil =>
    have hSame : s'.sp = s.sp := hSp
    rw [← hSame]
    rfl
  | cons p ps ih =>
    rw [sizeAll_cons] at hRoom hMem
    have hPush := push_sp (s := s) (p := p) (by omega)
    have hRest : s'.popAll ps = { s'.restore (s.push p) ps with sp := (s.push p).sp } :=
      ih (by omega) hSp fun b hLow hHigh => hMem b (by omega) (by omega)
    have hPop : s'.popAll (p :: ps) = (s'.popAll ps).pop p := rfl
    -- the later pushes are below
    have hKept : ∀ i < p.size, s'.mem ((s.push p).sp.toNat + i) =
        p.store s s.mem (s.push p).sp.toNat ((s.push p).sp.toNat + i) := by
      intro i hi
      rw [hMem _ (by omega) (by omega)]
      exact pushAll_frame (s := s.push p) (by omega) (by omega)
    have hSp' : (s.push p).sp + BitVec.ofNat 64 p.size = s.sp := BitVec.sub_add_cancel ..
    rw [hPop, hRest]
    refine (pop_eq hKept).trans ?_
    simp only [Core.restore, List.any_cons, List.any_nil, Bool.or_false, Core.mk.injEq, and_true,
      push_x, push_v, hSp']
    constructor
    · funext r
      by_cases hr : Pair.hasX r p = true <;> simp [hr]
    · funext r
      by_cases hr : Pair.hasV r p = true <;> simp [hr]

end PushPop
