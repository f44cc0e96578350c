import Wondar.A64.Bits

/-!
# Pointer paths

`FollowSafe` and `Follow` of `ptr_path.hpp` follow a chain of pointers: an offset is added to
the pointer, the sum is read, the next offset is added to what was read. The first gives up at
a pointer that is null, the second only looks at the one it starts from.

Both return the addresses they read together with the result, in the order of the reads. The
safe walk is the plain one cut behind the first null pointer (`followSafe_of_null`), and the
same when there is none (`followSafe_eq_follow`).
-/

namespace Wondar.PtrPath

/-- What a walk returns and the addresses it reads. -/
structure Followed where
  result : BitVec 64
  reads : List (BitVec 64)
deriving DecidableEq, Repr

def Followed.after (a : BitVec 64) (f : Followed) : Followed := ⟨f.result, a :: f.reads⟩

section

variable (mem : BitVec 64 → BitVec 64)

/-- The loop of `FollowSafe`, from the second offset on. -/
def followSafeLoop (curOffset : BitVec 64) : List (BitVec 64) → Followed
  | [] => ⟨curOffset, []⟩
  | offset :: offsets =>
    if mem curOffset = 0#64 then ⟨0#64, [curOffset]⟩
    else (followSafeLoop (mem curOffset + offset) offsets).after curOffset

def followSafe (ptr : BitVec 64) : List (BitVec 64) → Followed
  | [] => ⟨ptr, []⟩
  | offset :: offsets =>
    if ptr = 0#64 then ⟨0#64, []⟩ else followSafeLoop mem (ptr + offset) offsets

/-- The loop of `Follow`, from the second offset on. -/
def followLoop (curOffset : BitVec 64) : List (BitVec 64) → Followed
  | [] => ⟨curOffset, []⟩
  | offset :: offsets => (followLoop (mem curOffset + offset) offsets).after curOffset

def follow (ptr : BitVec 64) : List (BitVec 64) → Followed
  | [] => ⟨ptr, []⟩
  | offset :: offsets =>
    if ptr = 0#64 then ⟨0#64, []⟩ else followLoop mem (ptr + offset) offsets

/-! ## Links -/

/-- The pointer that read `i` of a walk was reached through: the start, then what the read
before it returned. -/
def link (ptr : BitVec 64) (reads : List (BitVec 64)) : Nat → Option (BitVec 64)
  | 0 => some ptr
  | i + 1 => (reads[i]?).map mem

variable {mem}

@[simp] theorem reads_after (a : BitVec 64) (f : Followed) : (f.after a).reads = a :: f.reads :=
  rfl

@[simp] theorem result_after (a : BitVec 64) (f : Followed) : (f.after a).result = f.result :=
  rfl

@[simp] theorem link_zero (ptr : BitVec 64) (reads : List (BitVec 64)) :
    link mem ptr reads 0 = some ptr := rfl

/-- Behind the first read a walk goes on as one that starts from what was read. -/
theorem link_cons (ptr a : BitVec 64) (reads : List (BitVec 64)) (i : Nat) :
    link mem ptr (a :: reads) (i + 1) = link mem (mem a) reads i := by
  cases i with
  | zero => rfl
  | succ i => rfl

/-- Every read of the safe loop goes through a pointer that is not null. -/
theorem followSafeLoop_links {ptr first : BitVec 64} (hPtr : ptr ≠ 0#64)
    {offsets : List (BitVec 64)} {i : Nat} {a : BitVec 64}
    (h : (followSafeLoop mem (ptr + first) offsets).reads[i]? = some a) :
    ∃ p o, link mem ptr (followSafeLoop mem (ptr + first) offsets).reads i = some p ∧
      (first :: offsets)[i]? = some o ∧ p ≠ 0#64 ∧ a = p + o := by
  induction offsets generalizing ptr first i with
  | nil => exact absurd h (by simp [followSafeLoop])
  | cons offset offsets ih =>
    cases i with
    | zero =>
      refine ⟨ptr, first, rfl, rfl, hPtr, ?_⟩
      rw [followSafeLoop] at h
      split at h
      · simpa using h.symm
      · simpa using h.symm
    | succ i =>
      by_cases hNull : mem (ptr + first) = 0#64
      · simp [followSafeLoop, hNull] at h
      · rw [followSafeLoop, if_neg hNull, reads_after, List.getElem?_cons_succ] at h
        obtain ⟨p, o, hLink, hOffset, hp, hEq⟩ := ih hNull h
        refine ⟨p, o, ?_, by simpa using hOffset, hp, hEq⟩
        rw [followSafeLoop, if_neg hNull, reads_after, link_cons]
        exact hLink

theorem followSafeLoop_eq_followLoop {cur : BitVec 64} {offsets : List (BitVec 64)}
    (h : ∀ a ∈ (followLoop mem cur offsets).reads, mem a ≠ 0#64) :
    followSafeLoop mem cur offsets = followLoop mem cur offsets := by
  induction offsets generalizing cur with
  | nil => rfl
  | cons offset offsets ih =>
    have hCur : mem cur ≠ 0#64 := h cur (by simp [followLoop])
    rw [followSafeLoop, if_neg hCur, followLoop, ih]
    intro a ha
    apply h
    rw [followLoop, reads_after]
    exact List.mem_cons_of_mem cur ha

theorem followSafeLoop_of_null {cur : BitVec 64} {offsets : List (BitVec 64)}
    (h : ∃ a ∈ (followLoop mem cur offsets).reads, mem a = 0#64) :
    ∃ before a later, (followLoop mem cur offsets).reads = before ++ a :: later ∧
      (∀ b ∈ before, mem b ≠ 0#64) ∧ mem a = 0#64 ∧
      followSafeLoop mem cur offsets = ⟨0#64, before ++ [a]⟩ := by
  induction offsets generalizing cur with
  | nil =>
    obtain ⟨a, ha, -⟩ := h
    exact absurd ha (by simp [followLoop])
  | cons offset offsets ih =>
    by_cases hNull : mem cur = 0#64
    · refine ⟨[], cur, (followLoop mem (mem cur + offset) offsets).reads, rfl, ?_, hNull, ?_⟩
      · intro b hb
        exact absurd hb List.not_mem_nil
      · rw [followSafeLoop, if_pos hNull]
        rfl
    · have hRest : ∃ a ∈ (followLoop mem (mem cur + offset) offsets).reads, mem a = 0#64 := by
        obtain ⟨a, ha, hZero⟩ := h
        rw [followLoop, reads_after, List.mem_cons] at ha
        obtain rfl | ha := ha
        · exact absurd hZero hNull
        · exact ⟨a, ha, hZero⟩
      obtain ⟨before, a, later, hReads, hBefore, hZero, hSafe⟩ := ih hRest
      refine ⟨cur :: before, a, later, ?_, ?_, hZero, ?_⟩
      · rw [followLoop, reads_after, hReads, List.cons_append]
      · intro b hb
        obtain rfl | hb := List.mem_cons.mp hb
        · exact hNull
        · exact hBefore b hb
      · rw [followSafeLoop, if_neg hNull, hSafe]
        rfl

end

/-! ## The two walks -/

section

variable (mem : BitVec 64 → BitVec 64) (ptr : BitVec 64) (offsets : List (BitVec 64))

/-- Read `i` of the safe walk is at the sum of offset `i` and a pointer that is not null. -/
def ThroughLinks : Prop :=
  ∀ i a, (followSafe mem ptr offsets).reads[i]? = some a →
    ∃ p o, link mem ptr (followSafe mem ptr offsets).reads i = some p ∧
      offsets[i]? = some o ∧ p ≠ 0#64 ∧ a = p + o

theorem followSafe_links : ThroughLinks mem ptr offsets := by
  intro i a h
  cases offsets with
  | nil => exact absurd h (by simp [followSafe])
  | cons offset offsets =>
    by_cases hPtr : ptr = 0#64
    · exact absurd h (by simp [followSafe, hPtr])
    · rw [followSafe, if_neg hPtr] at h ⊢
      exact followSafeLoop_links hPtr h

variable {mem ptr offsets}

theorem followSafe_eq_follow (h : ∀ a ∈ (follow mem ptr offsets).reads, mem a ≠ 0#64) :
    followSafe mem ptr offsets = follow mem ptr offsets := by
  cases offsets with
  | nil => rfl
  | cons offset offsets =>
    rw [followSafe, follow] at *
    split
    · rfl
    · rename_i hPtr
      rw [if_neg hPtr] at h
      exact followSafeLoop_eq_followLoop h

theorem followSafe_of_null (h : ∃ a ∈ (follow mem ptr offsets).reads, mem a = 0#64) :
    ∃ before a later, (follow mem ptr offsets).reads = before ++ a :: later ∧
      (∀ b ∈ before, mem b ≠ 0#64) ∧ mem a = 0#64 ∧
      followSafe mem ptr offsets = ⟨0#64, before ++ [a]⟩ := by
  cases offsets with
  | nil =>
    obtain ⟨a, ha, -⟩ := h
    exact absurd ha List.not_mem_nil
  | cons offset offsets =>
    by_cases hPtr : ptr = 0#64
    · obtain ⟨a, ha, -⟩ := h
      exact absurd ha (by simp [follow, hPtr])
    · rw [followSafe, follow, if_neg hPtr] at *
      rw [if_neg hPtr]
      exact followSafeLoop_of_null h

-- Behind the null pointer that stops the safe walk, the plain one reads address 0.
example : followSafe (fun _ => 0#64) 0x1000#64 [8#64, 0#64, 16#64] = ⟨0#64, [0x1008#64]⟩ ∧
    follow (fun _ => 0#64) 0x1000#64 [8#64, 0#64, 16#64] = ⟨16#64, [0x1008#64, 0#64]⟩ := by
  decide

variable (mem ptr offsets)

/-- The safe walk reads through no null pointer, agrees with the plain walk when that meets
none, and ends with 0 at the first one otherwise. -/
theorem follow_agree :
    ThroughLinks mem ptr offsets ∧
      ((∀ a ∈ (follow mem ptr offsets).reads, mem a ≠ 0#64) →
        followSafe mem ptr offsets = follow mem ptr offsets) ∧
      ((∃ a ∈ (follow mem ptr offsets).reads, mem a = 0#64) →
        ∃ before a later, (follow mem ptr offsets).reads = before ++ a :: later ∧
          (∀ b ∈ before, mem b ≠ 0#64) ∧ mem a = 0#64 ∧
          followSafe mem ptr offsets = ⟨0#64, before ++ [a]⟩) :=
  ⟨followSafe_links mem ptr offsets, followSafe_eq_follow, followSafe_of_null⟩

end

end Wondar.PtrPath
