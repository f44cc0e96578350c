import Wondar.A64.Run

/-!
# A register save area

Code that has to keep every register of its caller stores them in pairs to consecutive
doublewords from the stack pointer on, and loads them back in the same way. Register `r` then
lies in doubleword `r` of the area.

* `storeRegs` and `loadRegs` are the memory and the register file after the first `n`
  registers; `load64_storeRegs` reads a register back and `storeRegs_frame` says what a save
  leaves alone.
* `straight_save` and `straight_restore` execute a block of pair stores and a block of pair
  loads.
-/

namespace A64

/-! ## Doublewords -/

theorem load64_store64 (mem : Addr → Word) (a : Addr) (val : BitVec 64) :
    load64 (store64 mem a val) a = val := by
  have hNe : a ≠ wordAt a 1 := fun h => by
    have := wordAt_inj (p := a) (i := 0) (j := 1) (by omega) (by omega) (by rwa [wordAt_zero])
    omega
  simp [load64, store64, Function.update_of_ne hNe]

theorem store64_frame {mem : Addr → Word} {a b : Addr} {val : BitVec 64} (h : b ≠ a)
    (h' : b ≠ wordAt a 1) : store64 mem a val b = mem b := by
  rw [store64, Function.update_of_ne h', Function.update_of_ne h]

theorem load64_congr {mem mem' : Addr → Word} {a : Addr} (h : mem a = mem' a)
    (h' : mem (wordAt a 1) = mem' (wordAt a 1)) : load64 mem a = load64 mem' a := by
  rw [load64, load64, h, h']

/-! ## The area -/

/-- The first `n` registers, stored from `base` on. -/
def storeRegs (base : Addr) (x : Reg → BitVec 64) (mem : Addr → Word) : Nat → Addr → Word
  | 0 => mem
  | n + 1 => store64 (storeRegs base x mem n) (wordAt base (2 * n)) (x (BitVec.ofNat 5 n))

/-- The register file with the first `n` registers loaded from `base` on. -/
def loadRegs (base : Addr) (mem : Addr → Word) (x : Reg → BitVec 64) (n : Nat) (r : Reg) :
    BitVec 64 :=
  if r.toNat < n then load64 mem (wordAt base (2 * r.toNat)) else x r

section

variable {base : Addr} {x : Reg → BitVec 64} {mem : Addr → Word} {n : Nat}

theorem storeRegs_frame {a : Addr} (h : ∀ k < 2 * n, a ≠ wordAt base k) :
    storeRegs base x mem n a = mem a := by
  induction n with
  | zero => rfl
  | succ n ih =>
    rw [storeRegs, store64_frame (h _ (by omega)) (by rw [wordAt_wordAt]; exact h _ (by omega)),
      ih fun k hk => h k (by omega)]

theorem load64_storeRegs {r : Reg} (hr : r.toNat < n) (hn : n ≤ 32) :
    load64 (storeRegs base x mem n) (wordAt base (2 * r.toNat)) = x r := by
  induction n with
  | zero => omega
  | succ n ih =>
    rw [storeRegs]
    by_cases hLast : r.toNat = n
    · rw [hLast, load64_store64, ← hLast, BitVec.ofNat_toNat, BitVec.setWidth_eq]
    · -- the last doubleword is another one
      have hApart : ∀ i j, i < 64 → j < 64 → i ≠ j → wordAt base i ≠ wordAt base j :=
        fun i j hi hj hij h => hij (wordAt_inj (by omega) (by omega) h)
      have hFrame : ∀ i < 2 * n, store64 (storeRegs base x mem n) (wordAt base (2 * n))
          (x (BitVec.ofNat 5 n)) (wordAt base i) = storeRegs base x mem n (wordAt base i) :=
        fun i hi => store64_frame (hApart _ _ (by omega) (by omega) (by omega))
          (by rw [wordAt_wordAt]; exact hApart _ _ (by omega) (by omega) (by omega))
      have hLoad := load64_congr (hFrame (2 * r.toNat) (by omega))
        (by rw [wordAt_wordAt]; exact hFrame _ (by omega))
      rw [hLoad, ih (by omega) (by omega)]

/-- The doublewords behind the area. -/
theorem load64_storeRegs_behind {j : Nat} (hj : n ≤ j) (hSize : j < 2 ^ 60) :
    load64 (storeRegs base x mem n) (wordAt base (2 * j)) = load64 mem (wordAt base (2 * j)) := by
  have hFrame : ∀ i, 2 * n ≤ i → i < 2 ^ 62 →
      storeRegs base x mem n (wordAt base i) = mem (wordAt base i) := fun i hi hSize =>
    storeRegs_frame fun k hk hSame => by
      have := wordAt_inj hSize (by omega) hSame
      omega
  refine load64_congr (hFrame _ (by omega) (by omega)) ?_
  rw [wordAt_wordAt]
  exact hFrame _ (by omega) (by omega)

theorem loadRegs_zero : loadRegs base mem x 0 = x := rfl

theorem loadRegs_succ (hn : n < 32) : loadRegs base mem x (n + 1) =
    Function.update (loadRegs base mem x n) (BitVec.ofNat 5 n)
      (load64 mem (wordAt base (2 * n))) := by
  have hIndex : (BitVec.ofNat 5 n).toNat = n := by
    rw [BitVec.toNat_ofNat]
    omega
  funext r
  by_cases hr : r = BitVec.ofNat 5 n
  · subst hr
    rw [Function.update_self, loadRegs, hIndex, if_pos (by omega)]
  · have hNe : r.toNat ≠ n := fun h => hr (by
      apply BitVec.eq_of_toNat_eq
      rw [hIndex, h])
    rw [Function.update_of_ne hr, loadRegs, loadRegs]
    simp only [show r.toNat < n + 1 ↔ r.toNat < n by omega]

end

/-! ## Blocks of pairs -/

/-- `stp x(2k), x(2k+1), [sp, #16k]`. -/
def storePair (k : Nat) : Instr :=
  .stp (BitVec.ofNat 5 (2 * k)) (BitVec.ofNat 5 (2 * k + 1)) 31#5 (BitVec.ofNat 7 (2 * k))

/-- `ldp x(2k), x(2k+1), [sp, #16k]`. -/
def loadPair (k : Nat) : Instr :=
  .ldp (BitVec.ofNat 5 (2 * k)) (BitVec.ofNat 5 (2 * k + 1)) 31#5 (BitVec.ofNat 7 (2 * k))

theorem pairOffset_eq : ∀ k < 15, pairOffset (BitVec.ofNat 7 (2 * k)) = BitVec.ofNat 64 (16 * k) := by
  decide

theorem pair_ne : ∀ k < 15, BitVec.ofNat 5 (2 * k) ≠ 31#5 ∧ BitVec.ofNat 5 (2 * k + 1) ≠ 31#5 := by
  decide

/-- The state behind `k` pair stores. -/
def State.saved (s : State) (k : Nat) : State :=
  { s with pc := wordAt s.pc k, mem := storeRegs s.sp s.x s.mem (2 * k) }

/-- The state behind `k` pair loads. -/
def State.restored (s : State) (k : Nat) : State :=
  { s with pc := wordAt s.pc k, x := loadRegs s.sp s.mem s.x (2 * k) }

section

variable {other : Word → State → State} {C : Addr → Prop} {ws : List Word} {s : State}

theorem pairAddress {base : Addr} {k : Nat} (hk : k < 15) :
    base + pairOffset (BitVec.ofNat 7 (2 * k)) = wordAt base (2 * (2 * k)) := by
  rw [pairOffset_eq k hk, wordAt]
  congr 2
  omega

theorem exec_storePair {k : Nat} (hk : k < 15) :
    (storePair k).exec (s.saved k) = s.saved (k + 1) := by
  obtain ⟨hFirst, hSecond⟩ := pair_ne k hk
  simp only [storePair, Instr.exec, State.gprSp, if_true, State.saved, pairAddress hk,
    State.gpr_eq _ _ hFirst, State.gpr_eq _ _ hSecond, State.next, State.jump]
  rw [show 2 * (k + 1) = 2 * k + 1 + 1 by omega, storeRegs, storeRegs, wordAt_wordAt,
    ← wordAt_one, wordAt_wordAt, show 2 * (2 * k) + 2 = 2 * (2 * k + 1) by omega]

theorem exec_loadPair {k : Nat} (hk : k < 15) :
    (loadPair k).exec (s.restored k) = s.restored (k + 1) := by
  obtain ⟨hFirst, hSecond⟩ := pair_ne k hk
  simp only [loadPair, Instr.exec, State.gprSp, if_true, State.restored, pairAddress hk,
    State.setGpr, if_neg hFirst, if_neg hSecond, State.next, State.jump]
  rw [show 2 * (k + 1) = 2 * k + 1 + 1 by omega, loadRegs_succ (by omega), loadRegs_succ (by omega),
    wordAt_wordAt, ← wordAt_one, wordAt_wordAt, show 2 * (2 * k) + 2 = 2 * (2 * k + 1) by omega]

theorem straight_save (hLength : ws.length ≤ 15)
    (hDecode : ∀ k (h : k < ws.length), decode ws[k] = some (storePair k))
    (hArea : ∀ k < 4 * ws.length, ¬ C (wordAt s.sp k)) :
    Straight other C ws s (s.saved ws.length) := by
  have hStart : s.saved 0 = s := by simp [State.saved, storeRegs]
  have hBlock : Straight other C ws (s.saved 0) (s.saved ws.length) := straight_of_states s.saved
    (fun k hk => by
      rw [exec, hDecode k hk]
      exact exec_storePair (by omega))
    (fun k _ => by simp [State.saved])
    (fun k hk a ha => by
      have hFrame : ∀ n ≤ 2 * ws.length, storeRegs s.sp s.x s.mem n a = s.mem a := fun n hn =>
        storeRegs_frame fun j hj hSame => hArea j (by omega) (hSame ▸ ha)
      exact (hFrame _ (by omega)).trans (hFrame _ (by omega)).symm)
  rwa [hStart] at hBlock

theorem straight_restore (hLength : ws.length ≤ 15)
    (hDecode : ∀ k (h : k < ws.length), decode ws[k] = some (loadPair k)) :
    Straight other C ws s (s.restored ws.length) := by
  have hStart : s.restored 0 = s := by simp [State.restored, loadRegs_zero]
  have hBlock : Straight other C ws (s.restored 0) (s.restored ws.length) :=
    straight_of_states s.restored
    (fun k hk => by
      rw [exec, hDecode k hk]
      exact exec_loadPair (by omega))
    (fun k _ => by simp [State.restored])
    (fun k _ _ _ => rfl)
  rwa [hStart] at hBlock

end

end A64
