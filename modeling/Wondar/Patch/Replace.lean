import Wondar.Patch.Patcher

/-!
# `ReplaceData`

`replace.cpp` copies bytes over code: it maps the pages of the target as writable, copies
through the alias, and unmaps them. `memcpy` is a copy that is undefined where a store hits no
writable memory.

A target that fits the mapped pages is overwritten (`replaceData_of_fits`); any other one reaches
behind the alias, where there is nothing to write to (`replaceData_of_not_fits`).
-/

namespace Wondar.Patch

open A64 Sys

/-! ## Bytes in memory -/

def loadBytes (mem : Addr → BitVec 8) (a : Addr) (n : Nat) : List (BitVec 8) :=
  (List.range n).map fun k => mem (a + BitVec.ofNat 64 k)

/-- `memcpy` to an address; `target` is where a store at an address lands, if it may. -/
def memcpy (target : Addr → Option Addr) (mem : Addr → BitVec 8) (a : Addr) :
    List (BitVec 8) → Option (Addr → BitVec 8)
  | [] => some mem
  | b :: bs => (target a).bind fun p => memcpy target (Function.update mem p b) (a + 1#64) bs

@[simp]
theorem length_loadBytes (mem : Addr → BitVec 8) (a : Addr) (n : Nat) :
    (loadBytes mem a n).length = n := by
  rw [loadBytes, List.length_map, List.length_range]

theorem storeBytes_apply (mem : Addr → BitVec 8) (a : Addr) (bs : List (BitVec 8))
    (hLen : bs.length ≤ 2 ^ 64) (x : Addr) :
    storeBytes mem a bs x = (bs[(x - a).toNat]?).getD (mem x) := by
  induction bs generalizing mem a with
  | nil => rfl
  | cons b bs ih =>
    rw [List.length_cons] at hLen
    rw [storeBytes, ih _ _ (by omega)]
    by_cases hEq : x = a
    · subst hEq
      have hFar : bs.length ≤ (x - (x + 1#64)).toNat := by
        have hTop : x - (x + 1#64) = BitVec.allOnes 64 := by grind
        rw [hTop, BitVec.toNat_allOnes]
        omega
      rw [List.getElem?_eq_none hFar, BitVec.sub_self, BitVec.toNat_zero, List.getElem?_cons_zero,
        Option.getD_none, Option.getD_some, Function.update_self]
    · have hNext : (x - a).toNat = (x - (a + 1#64)).toNat + 1 := by
        have hNe : x - a ≠ 0#64 := fun h => hEq (by grind)
        have hPred : x - (a + 1#64) = x - a - 1#64 := by grind
        have hOne : 1#64 ≤ x - a := by
          rw [BitVec.le_def]
          have : (x - a).toNat ≠ 0 := fun h => hNe (BitVec.eq_of_toNat_eq h)
          simp only [BitVec.toNat_ofNat]
          omega
        rw [hPred, BitVec.toNat_sub_of_le hOne]
        rw [BitVec.le_def] at hOne
        simp only [BitVec.toNat_ofNat] at hOne ⊢
        omega
      rw [hNext, List.getElem?_cons_succ, Function.update_of_ne hEq]

theorem storeBytes_outside {mem : Addr → BitVec 8} {a x : Addr} {bs : List (BitVec 8)}
    (hLen : bs.length ≤ 2 ^ 64) (hOut : ¬ (x - a).toNat < bs.length) :
    storeBytes mem a bs x = mem x := by
  rw [storeBytes_apply mem a bs hLen, List.getElem?_eq_none (by omega), Option.getD_none]

theorem loadBytes_storeBytes (mem : Addr → BitVec 8) (a : Addr) (bs : List (BitVec 8))
    (hLen : bs.length ≤ 2 ^ 64) : loadBytes (storeBytes mem a bs) a bs.length = bs := by
  apply List.ext_getElem (length_loadBytes _ _ _)
  intro k h h'
  have hIndex : (a + BitVec.ofNat 64 k - a).toNat = k := by
    have hSub : a + BitVec.ofNat 64 k - a = BitVec.ofNat 64 k := by grind
    rw [hSub, BitVec.toNat_ofNat]
    omega
  simp only [loadBytes, List.getElem_map, List.getElem_range]
  rw [storeBytes_apply mem a bs hLen, hIndex, List.getElem?_eq_getElem h', Option.getD_some]

/-- Bytes that are loaded and stored back undo a store of as many. -/
theorem storeBytes_undo (mem : Addr → BitVec 8) (a : Addr) (bs : List (BitVec 8))
    (hLen : bs.length ≤ 2 ^ 64) :
    storeBytes (storeBytes mem a bs) a (loadBytes mem a bs.length) = mem := by
  funext x
  rw [storeBytes_apply _ _ _ (by rw [length_loadBytes]; exact hLen)]
  by_cases hIn : (x - a).toNat < bs.length
  · have hAt : (loadBytes mem a bs.length)[(x - a).toNat]? = some (mem x) := by
      have hBack : a + BitVec.ofNat 64 (x - a).toNat = x := by
        rw [BitVec.ofNat_toNat, BitVec.setWidth_eq]
        grind
      rw [loadBytes, List.getElem?_map, List.getElem?_range hIn, Option.map_some, hBack]
    rw [hAt, Option.getD_some]
  · rw [List.getElem?_eq_none (by rw [length_loadBytes]; omega), Option.getD_none,
      storeBytes_outside hLen hIn]

/-- A copy to an alias of the bytes from `p` on stores them there. -/
theorem memcpy_alias {target : Addr → Option Addr} {mem : Addr → BitVec 8} {a p : Addr}
    {bs : List (BitVec 8)}
    (hTarget : ∀ k < bs.length, target (a + BitVec.ofNat 64 k) = some (p + BitVec.ofNat 64 k)) :
    memcpy target mem a bs = some (storeBytes mem p bs) := by
  induction bs generalizing mem a p with
  | nil => rfl
  | cons b bs ih =>
    have hHead : target a = some p := by simpa using hTarget 0 (by simp)
    rw [memcpy, hHead, Option.bind_some, storeBytes]
    apply ih
    intro k hk
    have hNext := hTarget (k + 1) (by simpa using hk)
    have hShift : ∀ q : Addr, q + BitVec.ofNat 64 (k + 1) = q + 1#64 + BitVec.ofNat 64 k := by
      intro q
      rw [BitVec.ofNat_add]
      grind
    rwa [hShift, hShift] at hNext

/-- A copy fails at a byte that no store may reach. -/
theorem memcpy_none {target : Addr → Option Addr} {mem : Addr → BitVec 8} {a : Addr}
    {bs : List (BitVec 8)} {k : Nat} (hk : k < bs.length)
    (hTarget : target (a + BitVec.ofNat 64 k) = none) : memcpy target mem a bs = none := by
  induction bs generalizing mem a k with
  | nil => cases hk
  | cons b bs ih =>
    rw [memcpy, Option.bind_eq_none_iff]
    intro p hp
    cases k with
    | zero =>
      have hHead : target a = none := by simpa using hTarget
      rw [hHead] at hp
      cases hp
    | succ k =>
      refine ih (Nat.lt_of_succ_lt_succ hk) ?_
      rw [BitVec.ofNat_add] at hTarget
      have hShift : a + 1#64 + BitVec.ofNat 64 k = a + (BitVec.ofNat 64 k + BitVec.ofNat 64 1) := by
        grind
      rw [hShift]
      exact hTarget

/-! ## The copy -/

/-- `ReplaceData`; `none` where an assertion fails or an access hits no mapping. -/
def replaceData (query : Addr → Region) (alignedRw : Addr) (reserve : Nat)
    (mem : Addr → BitVec 8) (target : Addr) (source : List (BitVec 8)) :
    Option (Addr → BitVec 8) := do
  let control ← construct query (fun a => some (mem a)) alignedRw (some reserve) target
    (BitVec.ofNat 64 source.length)
  memcpy (resolve control.mappings) mem control.claim.rw source

/-! ## What it does -/

section

variable {K : KernelMap} {alignedRw target : Addr} {reserve : Nat} {mem : Addr → BitVec 8}
  {source : List (BitVec 8)}

/-- The constructor maps whole pages for the rounded size: the target fits if they reach from the
start of its first page to its end. -/
def Fits (target : Addr) (n : Nat) : Prop :=
  target.toNat % 4096 + n ≤ (alignUp (BitVec.ofNat 64 n) pageSize).toNat

instance (target : Addr) (n : Nat) : Decidable (Fits target n) := inferInstanceAs (Decidable (_ ≤ _))

/-- Bytes of the source, as offsets in the claim. -/
theorem ofNat_lt_size (hLen : source.length < 2 ^ 64) {k : Nat} (hk : k < source.length) :
    (BitVec.ofNat 64 k : BitVec 64) < BitVec.ofNat 64 source.length := by
  rw [BitVec.lt_def, BitVec.toNat_ofNat, BitVec.toNat_ofNat, Nat.mod_eq_of_lt hLen]
  exact Nat.lt_of_le_of_lt (Nat.mod_le _ _) hk

theorem replaceData_of_fits (hLen : source.length < 2 ^ 64)
    (hUser : UserRange K target (BitVec.ofNat 64 source.length))
    (hFree : FreeRange alignedRw (alignUp (BitVec.ofNat 64 source.length) pageSize))
    (hFits : Fits target source.length) :
    replaceData K.query alignedRw reserve mem target source =
      some (storeBytes mem target source) := by
  have hSize : (BitVec.ofNat 64 source.length).toNat = source.length := by
    rw [BitVec.toNat_ofNat]
    exact Nat.mod_eq_of_lt hLen
  obtain ⟨ps, hSplits, hRun, hAccess⟩ := construct_of_fits (fun a => some (mem a)) hUser.pos
    hUser.noWrap hFree (Option.some_ne_none reserve) (by rw [hSize]; exact hFits) hUser.aligned_top
    (fun k _ => Option.some_ne_none _)
  have hResolve := (givesAccess_iff_resolve hSplits).mp hAccess
  rw [replaceData, hRun, Option.bind_eq_bind, Option.bind_some]
  exact memcpy_alias fun k hk => hResolve _ (ofNat_lt_size hLen hk)

theorem replaceData_of_not_fits (hLen : source.length < 2 ^ 64)
    (hUser : UserRange K target (BitVec.ofNat 64 source.length))
    (hFits : ¬ Fits target source.length) :
    replaceData K.query alignedRw reserve mem target source = none := by
  have hSize : (BitVec.ofNat 64 source.length).toNat = source.length := by
    rw [BitVec.toNat_ofNat]
    exact Nat.mod_eq_of_lt hLen
  rw [replaceData, Option.bind_eq_bind, Option.bind_eq_none_iff]
  intro c hRun
  obtain ⟨-, -, ps, hPieces, rfl⟩ := mapClaim_eq_some_iff.mp (construct_eq_some_iff.mp hRun).1
  have hSplits := splits_of_forEachMemRange (aligned_wrap hUser.noWrap) hPieces
  have hAccess : ¬ (mapped alignedRw (some reserve) target (BitVec.ofNat 64 source.length)
      ps).GivesAccess := by
    rw [givesAccess_iff_fits hSplits hUser.pos hUser.noWrap, hSize]
    exact hFits
  obtain ⟨k, hk, hOut⟩ := exists_unresolved hSplits hAccess
  rw [BitVec.lt_def, hSize] at hk
  refine memcpy_none hk ?_
  rw [BitVec.ofNat_toNat, BitVec.setWidth_eq]
  exact hOut

end

end Wondar.Patch
