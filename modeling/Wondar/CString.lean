import Mathlib.Data.List.TakeWhile

/-!
# Strings that end at a NUL

`Str` is the text of a string, without the NUL behind it. A buffer is its bytes; `strOf` is the
text up to its first NUL. `strcat` is undefined where it would write behind the buffer.
-/

namespace CString

/-- A `char`. -/
abbrev Byte := BitVec 8

/-- The characters before the terminator, none of which is one. -/
structure Str where
  bytes : List Byte
  nonzero : 0#8 ∉ bytes
deriving DecidableEq

namespace Str

@[ext]
theorem ext {s s' : Str} (h : s.bytes = s'.bytes) : s = s' := by
  cases s
  cases s'
  cases h
  rfl

/-- The characters of both. -/
def append (s s' : Str) : Str where
  bytes := s.bytes ++ s'.bytes
  nonzero h := (List.mem_append.mp h).elim s.nonzero s'.nonzero

/-- The string behind the first `n` bytes. -/
def drop (s : Str) (n : Nat) : Str where
  bytes := s.bytes.drop n
  nonzero h := s.nonzero (List.mem_of_mem_drop h)

/-- `s` begins with the characters of `start`. -/
def StartsWith (s start : Str) : Prop := start.bytes <+: s.bytes

instance (s start : Str) : Decidable (s.StartsWith start) :=
  inferInstanceAs (Decidable (_ <+: _))

end Str

/-! ## Comparing -/

/-- `strncmp`, on the bytes before the NULs. -/
def strncmp : List Byte → List Byte → Nat → Int
  | _, _, 0 => 0
  | [], [], _ + 1 => 0
  | [], b :: _, _ + 1 => -(b.toNat : Int)
  | a :: _, [], _ + 1 => a.toNat
  | a :: as, b :: bs, n + 1 => if a = b then strncmp as bs n else (a.toNat : Int) - b.toNat

theorem strncmp_eq_zero_iff (s start : List Byte) (hStart : 0#8 ∉ start) :
    strncmp s start start.length = 0 ↔ start <+: s := by
  induction start generalizing s with
  | nil => exact iff_of_true (by rw [List.length_nil, strncmp]) List.nil_prefix
  | cons b start ih =>
    obtain ⟨hHead, hTail⟩ := not_or.mp (mt List.mem_cons.mpr hStart)
    cases s with
    | nil =>
      have hPos : b.toNat ≠ 0 := fun h => hHead (BitVec.eq_of_toNat_eq h).symm
      refine iff_of_false ?_ ?_
      · simp only [List.length_cons, strncmp]
        omega
      · intro h
        exact absurd (List.prefix_nil.mp h) (List.cons_ne_nil b start)
    | cons a s =>
      simp only [List.length_cons, strncmp, List.cons_prefix_cons]
      by_cases hEq : a = b
      · rw [if_pos hEq, ih s hTail]
        exact ⟨fun h => ⟨hEq.symm, h⟩, fun h => h.2⟩
      · have hNe : a.toNat ≠ b.toNat := fun h => hEq (BitVec.eq_of_toNat_eq h)
        rw [if_neg hEq]
        refine iff_of_false (by omega) ?_
        intro h
        exact hEq h.1.symm

/-! ## Buffers -/

/-- The text of a buffer. -/
def strOf (buf : List Byte) : Str where
  bytes := buf.takeWhile (· ≠ 0#8)
  nonzero h := by simpa using List.mem_takeWhile_imp h

/-- `strcat`. A buffer without a NUL has no room either. -/
def strcat (buf : List Byte) (src : Str) : Option (List Byte) :=
  let len := (strOf buf).bytes.length
  if len + src.bytes.length < buf.length then
    some (buf.take len ++ src.bytes ++ 0#8 :: buf.drop (len + src.bytes.length + 1))
  else none

theorem strOf_terminated (s : Str) (rest : List Byte) : strOf (s.bytes ++ 0#8 :: rest) = s := by
  ext1
  have hAll : ∀ b ∈ s.bytes, decide (b ≠ 0#8) = true := by
    intro b hb
    have hNe : b ≠ 0#8 := fun h => s.nonzero (h ▸ hb)
    exact decide_eq_true hNe
  simp only [strOf]
  rw [List.takeWhile_append_of_pos hAll, List.takeWhile_cons_of_neg (by simp), List.append_nil]

theorem take_strOf (buf : List Byte) :
    buf.take (strOf buf).bytes.length = (strOf buf).bytes :=
  (List.prefix_iff_eq_take.mp (List.takeWhile_prefix _)).symm

/-- With room for the text and its NUL, `strcat` appends. -/
theorem strcat_of_room {buf : List Byte} {src : Str}
    (hRoom : (strOf buf).bytes.length + src.bytes.length < buf.length) :
    ∃ buf', strcat buf src = some buf' ∧ strOf buf' = (strOf buf).append src ∧
      buf'.length = buf.length := by
  refine ⟨_, if_pos hRoom, ?_, ?_⟩
  · rw [take_strOf]
    exact strOf_terminated ((strOf buf).append src) _
  · simp only [List.length_append, List.length_take, List.length_cons, List.length_drop]
    omega

end CString
