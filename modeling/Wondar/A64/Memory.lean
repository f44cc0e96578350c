import Wondar.Coherence

/-!
# Memory behind aliases

Code that patches itself writes through one address what it executes at another. `Mmu`
translates virtual word addresses to physical ones, `Mach` is physical memory together with
the log of stores and cache operations, and `Mach.store` writes words through the address it
is given.

A store changes the physical words it names and no others (`store_frame`), and when the
translation does not fold the range onto itself, each of them reads back what was stored
(`storeWords_at`).
-/

namespace A64

open Coherence

/-- How the addresses are mapped, which may be the same word more than once. -/
structure Mmu where
  /-- The physical word behind an address. -/
  tr : Addr → BitVec 64
  readable : Addr → Bool

/-- `n` words from `a` on are different physical words. -/
def Mmu.Unfolded (mmu : Mmu) (a : Addr) (n : Nat) : Prop :=
  ∀ i j, i < n → j < n → mmu.tr (wordAt a i) = mmu.tr (wordAt a j) → i = j

/-- `n` words from `a` and from `b` on are the same physical words. -/
def Mmu.Alias (mmu : Mmu) (a b : Addr) (n : Nat) : Prop :=
  ∀ i < n, mmu.tr (wordAt a i) = mmu.tr (wordAt b i)

/-- No physical word lies behind both ranges. -/
def Mmu.Apart (mmu : Mmu) (a : Addr) (n : Nat) (b : Addr) (k : Nat) : Prop :=
  ∀ i j, i < n → j < k → mmu.tr (wordAt a i) ≠ mmu.tr (wordAt b j)

instance (mmu : Mmu) (a : Addr) (n : Nat) : Decidable (mmu.Unfolded a n) :=
  decidable_of_iff (∀ i < n, ∀ j < n, mmu.tr (wordAt a i) = mmu.tr (wordAt a j) → i = j)
    ⟨fun h i j hi hj => h i hi j hj, fun h i hi j hj => h i j hi hj⟩

instance (mmu : Mmu) (a b : Addr) (n : Nat) : Decidable (mmu.Alias a b n) :=
  inferInstanceAs (Decidable (∀ i < n, mmu.tr (wordAt a i) = mmu.tr (wordAt b i)))

instance (mmu : Mmu) (a : Addr) (n : Nat) (b : Addr) (k : Nat) : Decidable (mmu.Apart a n b k) :=
  decidable_of_iff (∀ i < n, ∀ j < k, mmu.tr (wordAt a i) ≠ mmu.tr (wordAt b j))
    ⟨fun h i j hi hj => h i hi j hj, fun h i hi j hj => h i j hi hj⟩

theorem Mmu.Unfolded.mono {mmu : Mmu} {a : Addr} {n k : Nat} (h : mmu.Unfolded a n) (hk : k ≤ n) :
    mmu.Unfolded a k := fun i j hi hj => h i j (by omega) (by omega)

theorem Mmu.Alias.mono {mmu : Mmu} {a b : Addr} {n k : Nat} (h : mmu.Alias a b n) (hk : k ≤ n) :
    mmu.Alias a b k := fun i hi => h i (by omega)

theorem Mmu.Apart.mono {mmu : Mmu} {a b : Addr} {n n' k : Nat} (h : mmu.Apart a n b k)
    (hn : n' ≤ n) : mmu.Apart a n' b k := fun i j hi hj => h i j (by omega) hj

/-- A range that is mapped to itself is not folded. -/
theorem Mmu.unfolded_of_id {mmu : Mmu} {a : Addr} {n : Nat} (hn : n ≤ 2 ^ 62)
    (h : ∀ i < n, mmu.tr (wordAt a i) = wordAt a i) : mmu.Unfolded a n := by
  intro i j hi hj hSame
  rw [h i hi, h j hj] at hSame
  exact wordAt_inj (by omega) (by omega) hSame

/-- The physical words, and what has been done to the caches. -/
structure Mach (ν : Type) where
  phys : BitVec 64 → Word
  log : List (Event ν)

/-- Write words one after the other, from `a` on. -/
def storeWords (mmu : Mmu) (phys : BitVec 64 → Word) (a : Addr) : List Word → BitVec 64 → Word
  | [] => phys
  | w :: ws => storeWords mmu (Function.update phys (mmu.tr a) w) (wordAt a 1) ws

namespace Mach

variable {ν : Type} (mmu : Mmu) (m : Mach ν)

/-- The word at an address. -/
def read (a : Addr) : Word := m.phys (mmu.tr a)

/-- What a fetch or a load sees. -/
def view : Addr → Word := fun a => m.read mmu a

/-- One store of all of `ws`. -/
def store (a : Addr) (ws : List Word) : Mach ν where
  phys := storeWords mmu m.phys a ws
  log := m.log ++ [.store a (4 * ws.length)]

/-- `memcpy` of a 64-bit value. -/
def store64 (a : Addr) (val : BitVec 64) : Mach ν := m.store mmu a [loWord val, hiWord val]

/-- The events follow those before them. -/
def record (es : List (Event ν)) : Mach ν := { m with log := m.log ++ es }

/-- `__builtin___clear_cache(a, a + n)`: both caches, by the same addresses. -/
def clearCache (a : Addr) (n : Nat) : Mach ν := m.record [.dcacheFlush a n, .icacheInvalidate a n]

end Mach

section

variable {mmu : Mmu} {phys : BitVec 64 → Word} {a : Addr} {ws : List Word}

theorem storeWords_frame {p : BitVec 64} (h : ∀ i < ws.length, p ≠ mmu.tr (wordAt a i)) :
    storeWords mmu phys a ws p = phys p := by
  induction ws generalizing phys a with
  | nil => rfl
  | cons w ws ih =>
    have hFirst := h 0 (by simp)
    rw [wordAt_zero] at hFirst
    rw [storeWords, ih, Function.update_of_ne hFirst]
    intro i hi
    rw [wordAt_wordAt, Nat.add_comm]
    exact h (i + 1) (by simpa using hi)

theorem storeWords_at (hUnfolded : mmu.Unfolded a ws.length) {i : Nat} (hi : i < ws.length) :
    storeWords mmu phys a ws (mmu.tr (wordAt a i)) = ws[i] := by
  induction ws generalizing phys a i with
  | nil => simp at hi
  | cons w ws ih =>
    have hTail : mmu.Unfolded (wordAt a 1) ws.length := by
      intro j k hj hk hSame
      rw [wordAt_wordAt, wordAt_wordAt] at hSame
      have := hUnfolded _ _ (by simp; omega) (by simp; omega) hSame
      omega
    cases i with
    | zero =>
      rw [storeWords, storeWords_frame]
      · simp
      · intro j hj hSame
        rw [wordAt_wordAt] at hSame
        have := hUnfolded 0 (1 + j) (by simp) (by simp; omega) hSame
        omega
    | succ i =>
      have hLt : i < ws.length := by simpa using hi
      have hNext : wordAt a (i + 1) = wordAt (wordAt a 1) i := by rw [wordAt_wordAt, Nat.add_comm]
      rw [storeWords, hNext, ih hTail hLt, List.getElem_cons_succ]

end

namespace Mach

variable {ν : Type} {mmu : Mmu} {m : Mach ν} {a : Addr} {ws : List Word}

theorem store_frame {p : BitVec 64} (h : ∀ i < ws.length, p ≠ mmu.tr (wordAt a i)) :
    (m.store mmu a ws).phys p = m.phys p := storeWords_frame h

@[simp] theorem record_phys (es : List (Event ν)) : (m.record es).phys = m.phys := rfl

@[simp] theorem record_log (es : List (Event ν)) : (m.record es).log = m.log ++ es := rfl

@[simp] theorem store_log : (m.store mmu a ws).log = m.log ++ [.store a (4 * ws.length)] := rfl

@[simp] theorem clearCache_phys (n : Nat) : (m.clearCache a n).phys = m.phys := rfl

theorem store_grows : Grows m.log (m.store mmu a ws).log := ⟨_, rfl, by simp⟩

theorem store64_grows (val : BitVec 64) : Grows m.log (m.store64 mmu a val).log := store_grows

theorem clearCache_grows (n : Nat) : Grows m.log (m.clearCache a n).log := ⟨_, rfl, by simp⟩

theorem record_grows {es : List (Event ν)} (h : ∀ x, .note x ∉ es) :
    Grows m.log (m.record es).log := ⟨es, rfl, h⟩

end Mach

end A64
