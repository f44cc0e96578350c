import Wondar.Coherence
import Wondar.Setting
import Wondar.Sys.RwPages

/-!
# The trampoline pool

`AllocForTrampoline` hands out the slots of `s_HookJit` one after the other: the counter
starts at -1, is incremented before it is used, and a slot is refused when the counter
exceeds `HookMax`. Every `Hook` with `do_trampoline` calls it once, and nothing else touches
the counter.

`HookMax` slots fit the pool, so the last one that does has the number `HookMax - 1`.
`PoolOk` says what the pool promises about the results of a sequence of calls, and
`allocs_ok_iff` that the promise is kept by up to `HookMax` calls and by no longer sequence:
the call after those returns the slot behind the last one (`alloc_hookMax`).
-/

namespace Wondar.Hook

open A64 Coherence Sys

/-! ## Hooking constants -/

def maxInstructions : Nat := 5
/-- In words. -/
def trampolineSize : Nat := maxInstructions * 10
def hookMax : Nat := Setting.jitSize / (trampolineSize * 4)

theorem hookMax_eq : hookMax = 61 := rfl

/-! ## AllocForTrampoline -/

/-- A trampoline under its two addresses. -/
structure Slot where
  rx : Addr
  rw : Addr
deriving DecidableEq

namespace Slot

/-- `(*rxptr)[i]` and `(*rwptr)[i]`. -/
def ofIndex (jit : Claim) (i : BitVec 32) : Slot where
  rx := wordAt jit.ro (trampolineSize * i.toNat)
  rw := wordAt jit.rw (trampolineSize * i.toNat)

/-- The whole slot lies in the pool, at the same offset in both aliases. -/
def InPool (jit : Claim) (s : Slot) : Prop :=
  ∃ off : BitVec 64, s.rx = jit.ro + off ∧ s.rw = jit.rw + off ∧
    off.toNat + 4 * trampolineSize ≤ Setting.jitSize

/-- No byte belongs to both slots, in either alias. -/
def Disjoint (s t : Slot) : Prop :=
  ∀ a, ¬ (Covers s.rx (4 * trampolineSize) a ∧ Covers t.rx (4 * trampolineSize) a) ∧
    ¬ (Covers s.rw (4 * trampolineSize) a ∧ Covers t.rw (4 * trampolineSize) a)

end Slot

/-- `AllocForTrampoline`, with the counter before and after the call. -/
def allocForTrampoline (jit : Claim) (index : BitVec 32) : BitVec 32 × Except Result Slot :=
  let i := index + 1#32
  if i.toNat > hookMax then (i, .error Results.hookTrampolineAllocFail)
  else (i, .ok (.ofIndex jit i))

/-- The counter before the first call. -/
def initialIndex : BitVec 32 := -1#32

theorem alloc_index (jit : Claim) (index : BitVec 32) :
    (allocForTrampoline jit index).1 = index + 1#32 := by
  unfold allocForTrampoline
  dsimp only
  split <;> rfl

theorem alloc_of_le {jit : Claim} {index : BitVec 32} (h : (index + 1#32).toNat ≤ hookMax) :
    (allocForTrampoline jit index).2 = .ok (.ofIndex jit (index + 1#32)) := by
  unfold allocForTrampoline
  dsimp only
  rw [if_neg (by omega)]

theorem alloc_of_gt {jit : Claim} {index : BitVec 32} (h : hookMax < (index + 1#32).toNat) :
    (allocForTrampoline jit index).2 = .error Results.hookTrampolineAllocFail := by
  unfold allocForTrampoline
  dsimp only
  rw [if_pos h]

/-! ## Sequences of calls -/

/-- The results of `n` calls. -/
def allocs (jit : Claim) : Nat → BitVec 32 → List (Except Result Slot)
  | 0, _ => []
  | n + 1, index =>
    let r := allocForTrampoline jit index
    r.2 :: allocs jit n r.1

variable {jit : Claim}

@[simp] theorem length_allocs (n : Nat) (index : BitVec 32) : (allocs jit n index).length = n := by
  induction n generalizing index with
  | zero => rfl
  | succ n ih => simp only [allocs, List.length_cons, ih]

/-- Call `k` finds the counter advanced by `k`. -/
theorem getElem?_allocs {n k : Nat} (index : BitVec 32) (hk : k < n) :
    (allocs jit n index)[k]? = some (allocForTrampoline jit (index + BitVec.ofNat 32 k)).2 := by
  induction n generalizing index k with
  | zero => omega
  | succ n ih =>
    cases k with
    | zero => simp [allocs]
    | succ k =>
      rw [allocs]
      simp only [List.getElem?_cons_succ, alloc_index]
      rw [ih _ (by omega), BitVec.add_assoc, ← BitVec.ofNat_add, Nat.add_comm 1 k]

/-- The number that call `k` takes from the counter. -/
theorem index_of_call (k : Nat) :
    initialIndex + BitVec.ofNat 32 k + 1#32 = BitVec.ofNat 32 k := by
  unfold initialIndex
  grind

theorem alloc_call {n k : Nat} (hk : k < n) (hMax : k ≤ hookMax) :
    (allocs jit n initialIndex)[k]? = some (.ok (.ofIndex jit (BitVec.ofNat 32 k))) := by
  have hNat : (BitVec.ofNat 32 k).toNat = k := by
    rw [hookMax_eq] at hMax
    rw [BitVec.toNat_ofNat]
    omega
  rw [getElem?_allocs _ hk, alloc_of_le (by rw [index_of_call, hNat]; exact hMax), index_of_call]

/-! ## The promise of the pool -/

/-- How many of the results are slots. -/
def successes (rs : List (Except Result Slot)) : Nat := rs.countP Except.isOk

structure PoolOk (jit : Claim) (rs : List (Except Result Slot)) : Prop where
  inside : ∀ (k : Nat) (s : Slot), rs[k]? = some (.ok s) → s.InPool jit
  disjoint : ∀ (j k : Nat) (s t : Slot), j ≠ k → rs[j]? = some (.ok s) → rs[k]? = some (.ok t) →
    s.Disjoint t
  /-- A call fails exactly when no whole slot is left. -/
  exhausted : ∀ (k : Nat) (r : Except Result Slot), rs[k]? = some r →
    (r = .error Results.hookTrampolineAllocFail ↔
      Setting.jitSize < 4 * trampolineSize * (successes (rs.take k) + 1))

theorem ofIndex_offset (i : BitVec 32) :
    (BitVec.ofNat 64 (4 * (trampolineSize * i.toNat))).toNat = 200 * i.toNat := by
  have hSize : trampolineSize = 50 := rfl
  rw [BitVec.toNat_ofNat, hSize]
  omega

/-- A slot lies in the pool exactly when its number is below `HookMax`. -/
theorem ofIndex_inPool_iff {i : BitVec 32} : (Slot.ofIndex jit i).InPool jit ↔ i.toNat < hookMax := by
  have hOffset := ofIndex_offset i
  have hSize : trampolineSize = 50 := rfl
  have hJit : Setting.jitSize = 12288 := rfl
  rw [hookMax_eq]
  constructor
  · rintro ⟨off, hRx, -, hFits⟩
    have hOff : off = BitVec.ofNat 64 (4 * (trampolineSize * i.toNat)) :=
      (BitVec.add_right_inj _).mp hRx.symm
    rw [hOff, hOffset, hSize] at hFits
    omega
  · intro hi
    exact ⟨_, rfl, rfl, by rw [hOffset, hSize]; omega⟩

theorem ofIndex_disjoint {i j : BitVec 32} (h : i ≠ j) :
    (Slot.ofIndex jit i).Disjoint (Slot.ofIndex jit j) := by
  have hNe : i.toNat ≠ j.toNat := fun hij => h (BitVec.eq_of_toNat_eq hij)
  have hSize : trampolineSize = 50 := rfl
  have hI := ofIndex_offset i
  have hJ := ofIndex_offset j
  rw [hSize] at hI hJ
  have hApart : ∀ p a, ¬ (Covers (wordAt p (trampolineSize * i.toNat)) (4 * trampolineSize) a ∧
      Covers (wordAt p (trampolineSize * j.toNat)) (4 * trampolineSize) a) := by
    rintro p a ⟨hi, hj⟩
    have hByte : a = p + (a - p) := by grind
    rw [hByte, hSize] at hi hj
    rw [wordAt, covers_add_left, covers_iff (by omega)] at hi hj
    omega
  exact fun a => ⟨hApart _ a, hApart _ a⟩

/-- Up to `HookMax` calls get a slot each. -/
theorem allocs_of_le {n : Nat} (hn : n ≤ hookMax) {k : Nat} {r : Except Result Slot}
    (h : (allocs jit n initialIndex)[k]? = some r) :
    k < n ∧ r = .ok (.ofIndex jit (BitVec.ofNat 32 k)) := by
  have hk : k < n := by
    have := (List.getElem?_eq_some_iff.mp h).1
    simpa using this
  rw [alloc_call hk (by omega)] at h
  exact ⟨hk, (Option.some.inj h).symm⟩

theorem successes_take {n k : Nat} (hn : n ≤ hookMax) (hk : k ≤ n) :
    successes ((allocs jit n initialIndex).take k) = k := by
  have hAll : ∀ r ∈ (allocs jit n initialIndex).take k, r.isOk = true := by
    intro r hr
    obtain ⟨j, hj⟩ := List.mem_iff_getElem?.mp (List.mem_of_mem_take hr)
    rw [(allocs_of_le hn hj).2]
    rfl
  rw [successes, List.countP_eq_length.mpr hAll]
  simp [hk]

theorem allocs_ok {n : Nat} (hn : n ≤ hookMax) : PoolOk jit (allocs jit n initialIndex) := by
  have hNat : ∀ {k}, k < n → (BitVec.ofNat 32 k).toNat = k := by
    intro k hk
    rw [hookMax_eq] at hn
    rw [BitVec.toNat_ofNat]
    omega
  refine ⟨fun k s hs => ?_, fun j k s t hjk hs ht => ?_, fun k r hr => ?_⟩
  · obtain ⟨hk, hOk⟩ := allocs_of_le hn hs
    cases hOk
    rw [ofIndex_inPool_iff, hNat hk]
    omega
  · obtain ⟨hj, hOk⟩ := allocs_of_le hn hs
    obtain ⟨hk, hOk'⟩ := allocs_of_le hn ht
    cases hOk
    cases hOk'
    refine ofIndex_disjoint fun hSame => hjk ?_
    rw [← hNat hj, ← hNat hk, hSame]
  · obtain ⟨hk, rfl⟩ := allocs_of_le hn hr
    have hSize : trampolineSize = 50 := rfl
    have hJit : Setting.jitSize = 12288 := rfl
    rw [hookMax_eq] at hn
    rw [successes_take hn (by omega), hSize, hJit]
    refine ⟨fun hError => ?_, fun hFull => by omega⟩
    cases hError

/-- The call after `HookMax` others succeeds, with a slot that reaches past the pool. -/
theorem alloc_hookMax (jit : Claim) {n : Nat} (hn : hookMax < n) : ∃ s,
    (allocs jit n initialIndex)[hookMax]? = some (.ok s) ∧ ¬ s.InPool jit := by
  refine ⟨_, alloc_call hn (Nat.le_refl _), ?_⟩
  rw [ofIndex_inPool_iff]
  decide

/-- **The trampoline pool.** A sequence of calls keeps the promise of the pool exactly when it
is no longer than `HookMax`. -/
theorem allocs_ok_iff (jit : Claim) (n : Nat) :
    PoolOk jit (allocs jit n initialIndex) ↔ n ≤ hookMax := by
  refine ⟨fun h => ?_, allocs_ok⟩
  by_contra hn
  obtain ⟨s, hs, hOut⟩ := alloc_hookMax jit (n := n) (by omega)
  exact hOut (h.inside _ s hs)

/-- The 62nd hook with a trampoline gets bytes 12200 to 12400 of the 12288 bytes of the pool. -/
theorem allocs_past_pool : ¬ ∀ (jit : Claim) (n : Nat), PoolOk jit (allocs jit n initialIndex) := by
  intro h
  obtain ⟨s, hs, hOut⟩ := alloc_hookMax .empty (n := 62) (by decide)
  exact hOut ((h .empty 62).inside _ s hs)

end Wondar.Hook
