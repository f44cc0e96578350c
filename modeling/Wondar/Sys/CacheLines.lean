import Mathlib.Data.List.Nodup
import Wondar.Blocks
import Wondar.Coherence
import Wondar.Setting

/-!
# Cache maintenance by line

`armDCacheFlush`, `armDCacheClean`, `armICacheInvalidate` and `armDCacheZero` are one loop: it starts
at the line of the first byte and goes on while the next line begins before the end. The sizes of the
lines are in `CTR_EL0`.

The lines are those that meet the range, or the line of the first byte where the range is empty
(`maintain_lines`). So a flush with an invalidation publishes every byte of the range
(`flush_publishes`), whatever the two sizes of lines are. What `dc zva` zeroes is a block, and the
size of the blocks is in `DCZID_EL0`: the loop, which goes by line, zeroes the range and no more only
where the range consists of both (`armDCacheZero_exact_iff`).
-/

namespace Wondar.Sys

open A64 (Addr)
open Blocks Coherence

/-! ## The loop -/

/-- The instructions of the loop, and the barrier behind it. -/
inductive CacheOp
  | dcCivac (a : Addr)
  | dcCvac (a : Addr)
  | icIvau (a : Addr)
  | dcZva (a : Addr)
  | dsbSy
deriving DecidableEq, Repr

/-- The loop from the line `x8` on. `none` where the rounds do not suffice. -/
def lineLoop (x9 x10 : BitVec 64) : Nat → BitVec 64 → Option (List Addr)
  | 0, _ => none
  | rounds + 1, x8 =>
    -- `bcc`: the difference borrows
    if (x8 + x9).ult x10 then (lineLoop x9 x10 rounds (x8 + x9)).map (x8 :: ·) else some [x8]

/-- `x8` is the field of `CTR_EL0`: the logarithm of the number of words in a line. -/
def maintain (op : Addr → CacheOp) (x8 : BitVec 64) (rounds : Nat) (x0 x1 : BitVec 64) :
    Option (List CacheOp) :=
  let x1 := x1 + x0
  let x9 := 4#64 <<< x8
  let x10 := x9 - 1#64
  let x8 := x0 &&& ~~~x10
  let x10 := x1
  (lineLoop x9 x10 rounds x8).map fun lines => lines.map op ++ [.dsbSy]

/-- `CTR_EL0.DminLine`. -/
def dminLine (ctr : BitVec 64) : BitVec 64 := (ctr >>> 16) &&& 0xf#64

/-- `CTR_EL0.IminLine`. -/
def iminLine (ctr : BitVec 64) : BitVec 64 := ctr &&& 0xf#64

section

variable (ctr : BitVec 64) (rounds : Nat) (addr size : BitVec 64)

def armDCacheFlush : Option (List CacheOp) := maintain .dcCivac (dminLine ctr) rounds addr size

def armDCacheClean : Option (List CacheOp) := maintain .dcCvac (dminLine ctr) rounds addr size

def armICacheInvalidate : Option (List CacheOp) := maintain .icIvau (iminLine ctr) rounds addr size

def armDCacheZero : Option (List CacheOp) := maintain .dcZva (dminLine ctr) rounds addr size

end

/-! ## The lines -/

/-- The size of a line, for a field of `CTR_EL0`, or of a block, for that of `DCZID_EL0`. -/
def lineSize (field : BitVec 64) : Nat := 2 ^ (field.toNat + 2)

/-- The number of lines after the first one. -/
def moreLines (addr size L : Nat) : Nat := (addr % L + size - 1) / L

/-- The lines from that of `addr` on. -/
def linesOf (addr size L : Nat) : List Addr :=
  (List.range (moreLines addr size L + 1)).map fun i => BitVec.ofNat 64 (addr - addr % L + i * L)

variable {field addr size x8 x9 x10 : BitVec 64} {op : Addr → CacheOp} {rounds n : Nat}

theorem lineLoop_eq (hFits : x8.toNat + (n + 1) * x9.toNat < 2 ^ 64)
    (hMore : ∀ i < n, x8.toNat + (i + 1) * x9.toNat < x10.toNat)
    (hEnd : x10.toNat ≤ x8.toNat + (n + 1) * x9.toNat) (hRounds : n < rounds) :
    lineLoop x9 x10 rounds x8 =
      some ((List.range (n + 1)).map fun i => BitVec.ofNat 64 (x8.toNat + i * x9.toNat)) := by
  induction n generalizing x8 rounds with
  | zero =>
    obtain ⟨rounds, rfl⟩ := Nat.exists_eq_succ_of_ne_zero (Nat.ne_of_gt hRounds)
    rw [Nat.zero_add, Nat.one_mul] at hFits hEnd
    have hNext : (x8 + x9).toNat = x8.toNat + x9.toNat := by
      rw [BitVec.toNat_add, Nat.mod_eq_of_lt hFits]
    rw [lineLoop, if_neg]
    · simp
    · rw [BitVec.ult, hNext, decide_eq_true_iff]
      omega
  | succ n ih =>
    obtain ⟨rounds, rfl⟩ := Nat.exists_eq_succ_of_ne_zero (show rounds ≠ 0 by omega)
    have hFirst := hMore 0 (Nat.succ_pos n)
    rw [Nat.zero_add, Nat.one_mul] at hFirst
    have hNext : (x8 + x9).toNat = x8.toNat + x9.toNat := by
      rw [BitVec.toNat_add, Nat.mod_eq_of_lt (Nat.lt_trans hFirst x10.isLt)]
    have hStep : ∀ i, (x8 + x9).toNat + i * x9.toNat = x8.toNat + (i + 1) * x9.toNat := by
      intro i
      rw [hNext, Nat.succ_mul]
      omega
    have hRest := @ih (x8 + x9) rounds (by rw [hStep]; exact hFits)
      (fun i hi => by rw [hStep]; exact hMore (i + 1) (by omega)) (by rw [hStep]; exact hEnd)
      (by omega)
    rw [lineLoop, if_pos, hRest, Option.map_some, List.range_succ_eq_map (n := n + 1), List.map_cons,
      List.map_map]
    · simp only [hStep, Nat.zero_mul, Nat.add_zero, BitVec.ofNat_toNat, BitVec.setWidth_eq]
      rfl
    · rw [BitVec.ult, hNext, decide_eq_true_iff]
      exact hFirst

theorem lineSize_pos (field : BitVec 64) : 0 < lineSize field := Nat.two_pow_pos _

theorem lineSize_dvd {f g : BitVec 64} (h : lineSize f ≤ lineSize g) : lineSize f ∣ lineSize g :=
  Nat.pow_dvd_pow 2 ((Nat.pow_le_pow_iff_right Nat.one_lt_two).mp h)

theorem lineSize_lt (hField : field.toNat < 16) : lineSize field < 2 ^ 64 :=
  Nat.pow_lt_pow_right (by decide) (by omega)

theorem lineSize_le {field : BitVec 64} (hField : field.toNat < 16) : lineSize field ≤ 2 ^ 17 :=
  Nat.pow_le_pow_right (by decide) (by omega)

theorem toNat_lineSize (hField : field.toNat < 16) : (4#64 <<< field).toNat = lineSize field := by
  rw [BitVec.shiftLeft_eq', BitVec.toNat_shiftLeft, Nat.shiftLeft_eq,
    show (4#64).toNat * 2 ^ field.toNat = lineSize field by
      rw [lineSize, Nat.pow_add, Nat.mul_comm]
      rfl]
  exact Nat.mod_eq_of_lt (lineSize_lt hField)

/-- The line of the first byte. -/
theorem toNat_firstLine (addr : BitVec 64) (hField : field.toNat < 16) :
    (addr &&& ~~~(4#64 <<< field - 1#64)).toNat = addr.toNat - addr.toNat % lineSize field := by
  have hSize : 4#64 <<< field = BitVec.ofNat 64 (2 ^ (field.toNat + 2)) := by
    apply BitVec.eq_of_toNat_eq
    rw [toNat_lineSize hField, BitVec.toNat_ofNat]
    exact (Nat.mod_eq_of_lt (lineSize_lt hField)).symm
  rw [hSize]
  exact alignDown_pow_toNat addr (by omega)

theorem moreLines_spec (addr size : Nat) {L : Nat} (hL : 0 < L) :
    (∀ i < moreLines addr size L, addr - addr % L + (i + 1) * L < addr + size) ∧
      addr + size ≤ addr - addr % L + (moreLines addr size L + 1) * L ∧
      moreLines addr size L * L ≤ addr % L + size - 1 := by
  have hMod := Nat.mod_le addr L
  have hLt := Nat.mod_lt addr hL
  have hLow : moreLines addr size L * L ≤ addr % L + size - 1 := Nat.div_mul_le_self ..
  have hHigh : addr % L + size - 1 < (moreLines addr size L + 1) * L :=
    (Nat.div_lt_iff_lt_mul hL).mp (Nat.lt_succ_self _)
  refine ⟨fun i hi => ?_, by omega, hLow⟩
  have hStep : (i + 1) * L ≤ moreLines addr size L * L := Nat.mul_le_mul_right L hi
  have hSome : 0 < (i + 1) * L := Nat.mul_pos (Nat.succ_pos i) hL
  omega

theorem maintain_eq (hField : field.toNat < 16)
    (hFits : addr.toNat + size.toNat + lineSize field < 2 ^ 64)
    (hRounds : moreLines addr.toNat size.toNat (lineSize field) < rounds) :
    maintain op field rounds addr size =
      some ((linesOf addr.toNat size.toNat (lineSize field)).map op ++ [.dsbSy]) := by
  obtain ⟨hMore, hEnd, hLow⟩ := moreLines_spec addr.toNat size.toNat (lineSize_pos field)
  have hPos := lineSize_pos field
  have hLine := toNat_lineSize hField
  have hFirst := toNat_firstLine addr hField
  have hMod := Nat.mod_le addr.toNat (lineSize field)
  have hStop : (size + addr).toNat = addr.toNat + size.toNat := by
    rw [BitVec.toNat_add, Nat.mod_eq_of_lt (by omega), Nat.add_comm]
  have hLoop := @lineLoop_eq (addr &&& ~~~(4#64 <<< field - 1#64)) (4#64 <<< field) (size + addr)
    rounds (moreLines addr.toNat size.toNat (lineSize field))
    (by rw [hFirst, hLine, Nat.succ_mul]; omega)
    (fun i hi => by rw [hFirst, hLine, hStop]; exact hMore i hi)
    (by rw [hFirst, hLine, hStop]; exact hEnd) hRounds
  rw [hFirst, hLine] at hLoop
  rw [maintain, hLoop, Option.map_some]
  rfl

variable {L a : Nat} {l : Addr}

theorem mem_linesOf (hL : 0 < L) (hFits : a + n + L < 2 ^ 64) :
    l ∈ linesOf a n L ↔ L ∣ l.toNat ∧ a < l.toNat + L ∧ l.toNat < max (a + n) (a + 1) := by
  obtain ⟨hMore, hEnd, hLow⟩ := moreLines_spec a n hL
  have hMod := Nat.mod_le a L
  have hLt := Nat.mod_lt a hL
  have hAligned : L ∣ a - a % L := Nat.dvd_sub_mod a
  unfold linesOf
  rw [List.mem_map]
  constructor
  · rintro ⟨i, hi, rfl⟩
    rw [List.mem_range] at hi
    have hStep : i * L ≤ moreLines a n L * L := Nat.mul_le_mul_right L (by omega)
    rw [BitVec.toNat_ofNat, Nat.mod_eq_of_lt (by omega)]
    refine ⟨Nat.dvd_add hAligned (Nat.dvd_mul_left L i), by omega, ?_⟩
    cases i with
    | zero => omega
    | succ i =>
      have hBefore := hMore i (by omega)
      omega
  · rintro ⟨hLine, hAbove, hBelow⟩
    obtain ⟨q, hq⟩ := hLine
    obtain ⟨p, hp⟩ := hAligned
    have hLe : p ≤ q := by
      have hLtMul : L * p < L * (q + 1) := by
        rw [Nat.mul_succ]
        omega
      exact Nat.le_of_lt_succ (Nat.lt_of_mul_lt_mul_left hLtMul)
    have hQ : q < p + (moreLines a n L + 1) := by
      have hLtMul : L * q < L * (p + (moreLines a n L + 1)) := by
        rw [Nat.mul_add, Nat.mul_comm L (moreLines a n L + 1)]
        have hSome : 0 < (moreLines a n L + 1) * L := Nat.mul_pos (Nat.succ_pos _) hL
        have hFar : a < a - a % L + (moreLines a n L + 1) * L := by
          rw [Nat.succ_mul]
          omega
        omega
      exact Nat.lt_of_mul_lt_mul_left hLtMul
    refine ⟨q - p, List.mem_range.mpr (by omega), BitVec.eq_of_toNat_eq ?_⟩
    have hAt : a - a % L + (q - p) * L = l.toNat := by
      rw [hp, hq, Nat.sub_mul, Nat.mul_comm q, Nat.mul_comm p]
      have := Nat.mul_le_mul_left L hLe
      omega
    rw [hAt, BitVec.toNat_ofNat, Nat.mod_eq_of_lt l.isLt]

theorem linesOf_nodup (hL : 0 < L) (hFits : a + n + L < 2 ^ 64) : (linesOf a n L).Nodup := by
  obtain ⟨-, -, hLow⟩ := moreLines_spec a n hL
  have hMod := Nat.mod_le a L
  refine List.Nodup.map_on (fun i hi j hj hEq => ?_) List.nodup_range
  rw [List.mem_range] at hi hj
  have hI : i * L ≤ moreLines a n L * L := Nat.mul_le_mul_right L (by omega)
  have hJ : j * L ≤ moreLines a n L * L := Nat.mul_le_mul_right L (by omega)
  have hNat := congrArg BitVec.toNat hEq
  simp only [BitVec.toNat_ofNat] at hNat
  have hSame : i * L = j * L := by omega
  exact Nat.eq_of_mul_eq_mul_right hL hSame

theorem moreLines_le (a n : Nat) (hL : 0 < L) : moreLines a n L ≤ n := by
  have hLt := Nat.mod_lt a hL
  apply Nat.le_of_lt_succ
  apply (Nat.div_lt_iff_lt_mul hL).mpr
  rw [Nat.succ_mul]
  have : n ≤ n * L := Nat.le_mul_of_pos_right n hL
  omega

/-- Exactly the lines that meet the range, each of them once; of an empty range, the line of its
first byte. -/
theorem maintain_lines (op : Addr → CacheOp) (hField : field.toNat < 16)
    (hFits : addr.toNat + size.toNat + lineSize field < 2 ^ 64) (hRounds : size.toNat < rounds) :
    ∃ ls : List Addr, maintain op field rounds addr size = some (ls.map op ++ [.dsbSy]) ∧ ls.Nodup ∧
      ∀ l : Addr, l ∈ ls ↔ lineSize field ∣ l.toNat ∧ addr.toNat < l.toNat + lineSize field ∧
        l.toNat < max (addr.toNat + size.toNat) (addr.toNat + 1) :=
  have hPos := lineSize_pos field
  ⟨linesOf addr.toNat size.toNat (lineSize field),
    maintain_eq hField hFits (Nat.lt_of_le_of_lt (moreLines_le _ _ hPos) hRounds),
    linesOf_nodup hPos hFits, fun _ => mem_linesOf hPos hFits⟩

/-- Eighteen bytes that reach into three lines of sixteen. -/
theorem maintain_lines_sample :
    ∃ ls : List Addr, maintain .dcCivac 2#64 32 0x7100100f#64 18#64 =
        some (ls.map .dcCivac ++ [.dsbSy]) ∧ ls.Nodup ∧
      ∀ l : Addr, l ∈ ls ↔ lineSize 2#64 ∣ l.toNat ∧
        (0x7100100f#64).toNat < l.toNat + lineSize 2#64 ∧
        l.toNat < max ((0x7100100f#64).toNat + (18#64).toNat) ((0x7100100f#64).toNat + 1) :=
  maintain_lines .dcCivac (by decide) (by decide) (by decide)

/-- The line of a byte. -/
theorem exists_line (hL : 0 < L) (hFits : a + n + L < 2 ^ 64) {b : Addr} (hLow : a ≤ b.toNat)
    (hHigh : b.toNat < a + n) : ∃ l ∈ linesOf a n L, Covers l L b := by
  have hMod := Nat.mod_le b.toNat L
  have hLt := Nat.mod_lt b.toNat hL
  have hLine : (BitVec.ofNat 64 (b.toNat - b.toNat % L)).toNat = b.toNat - b.toNat % L := by
    rw [BitVec.toNat_ofNat, Nat.mod_eq_of_lt (by omega)]
  refine ⟨BitVec.ofNat 64 (b.toNat - b.toNat % L), (mem_linesOf hL hFits).mpr ?_, ?_⟩
  · rw [hLine]
    exact ⟨Nat.dvd_sub_mod _, by omega, by omega⟩
  · apply (covers_iff (by omega)).mpr
    omega

/-- The line of an aligned address goes on for sixteen bytes, if it is as long as that. -/
theorem exists_line_behind {a : Addr} {n k : Nat} {field : BitVec 64} (hField : 2 ≤ field.toNat)
    (hFits : a.toNat + n + lineSize field < 2 ^ 64) (hn : 0 < n) (hAligned : a.toNat % 16 = 0)
    (hk : k < 16) :
    ∃ l ∈ linesOf a.toNat n (lineSize field),
      Covers l (lineSize field) (a + BitVec.ofNat 64 k) := by
  have hPos := lineSize_pos field
  have hLine : 16 ∣ lineSize field := Nat.pow_dvd_pow 2 (show 4 ≤ field.toNat + 2 by omega)
  obtain ⟨l, hMem, hCovers⟩ := exists_line hPos hFits (Nat.le_refl a.toNat) (by omega)
  have hStart : 16 ∣ l.toNat := Nat.dvd_trans hLine ((mem_linesOf hPos hFits).mp hMem).1
  have hAbove := ((mem_linesOf hPos hFits).mp hMem).2.1
  have hBelow := ((mem_linesOf hPos hFits).mp hMem).2.2
  have hHere : l.toNat ≤ a.toNat := by
    have hSelf := hCovers
    rw [Covers, BitVec.toNat_sub] at hSelf
    omega
  have hByte : (a + BitVec.ofNat 64 k).toNat = a.toNat + k := by
    rw [BitVec.toNat_add, BitVec.toNat_ofNat]
    omega
  refine ⟨l, hMem, (covers_iff (by omega)).mpr ?_⟩
  rw [hByte]
  omega

/-! ## Publication -/

section

variable {ν : Type}

/-- What an operation is in a log of flushes and invalidations. -/
def CacheOp.events (ctr : BitVec 64) : CacheOp → List (Event ν)
  | .dcCivac a => [.dcacheFlush a (lineSize (dminLine ctr))]
  | .icIvau a => [.icacheInvalidate a (lineSize (iminLine ctr))]
  | .dcCvac _ | .dcZva _ | .dsbSy => []

theorem toNat_and_lt (x : BitVec 64) : (x &&& 0xf#64).toNat < 16 := by
  rw [BitVec.toNat_and]
  exact Nat.and_lt_two_pow x.toNat (n := 4) (by decide)

theorem events_sublist {ctr : BitVec 64} {e : Event ν} {ls : List Addr} {l : Addr} (h : l ∈ ls)
    (he : (op l).events ctr = [e]) :
    [e].Sublist ((ls.map op ++ [CacheOp.dsbSy]).flatMap (CacheOp.events ctr)) := by
  rw [List.singleton_sublist, List.mem_flatMap]
  refine ⟨op l, List.mem_append_left _ (List.mem_map_of_mem h), ?_⟩
  rw [he]
  exact List.mem_singleton_self e

theorem not_stores_events {ctr : BitVec 64} {ops : List CacheOp} {e : Event ν}
    (he : e ∈ ops.flatMap (CacheOp.events ctr)) (x : Addr) : ¬ Stores e x := by
  rintro ⟨b, m, rfl, -⟩
  obtain ⟨o, -, ho⟩ := List.mem_flatMap.mp he
  cases o <;> simp [CacheOp.events] at ho

/-- Lines that are flushed and, behind that, lines that are invalidated. -/
theorem flushedIn_lines {ctr : BitVec 64} {ds is : List Addr} {d i x y : Addr} (hdMem : d ∈ ds)
    (hd : Covers d (lineSize (dminLine ctr)) x) (hiMem : i ∈ is)
    (hi : Covers i (lineSize (iminLine ctr)) y) :
    FlushedIn (((ds.map CacheOp.dcCivac ++ [CacheOp.dsbSy]).flatMap (CacheOp.events ctr) ++
      (is.map CacheOp.icIvau ++ [CacheOp.dsbSy]).flatMap (CacheOp.events ctr) : List (Event ν)))
      x y := by
  have hFlush := @events_sublist .dcCivac ν ctr _ _ _ hdMem rfl
  have hInvalidate := @events_sublist .icIvau ν ctr _ _ _ hiMem rfl
  exact ⟨d, _, i, _, hd, hi, hFlush.append hInvalidate⟩

/-- By line, a flush with an invalidation publishes what it publishes as one flush and one
invalidation of the range. -/
theorem flush_publishes (log : List (Event ν)) (ctr rw ro : BitVec 64)
    (hRw : rw.toNat + size.toNat + lineSize (dminLine ctr) < 2 ^ 64)
    (hRo : ro.toNat + size.toNat + lineSize (iminLine ctr) < 2 ^ 64) (hRounds : size.toNat < rounds) :
    ∃ flush invalidate, armDCacheFlush ctr rounds rw size = some flush ∧
      armICacheInvalidate ctr rounds ro size = some invalidate ∧
      ∀ k < size.toNat, PublishedAt (log ++ (flush ++ invalidate).flatMap (CacheOp.events ctr))
        (rw + BitVec.ofNat 64 k) (ro + BitVec.ofNat 64 k) := by
  have hD := lineSize_pos (dminLine ctr)
  have hI := lineSize_pos (iminLine ctr)
  refine ⟨_, _, maintain_eq (toNat_and_lt _) hRw (Nat.lt_of_le_of_lt (moreLines_le _ _ hD) hRounds),
    maintain_eq (toNat_and_lt _) hRo (Nat.lt_of_le_of_lt (moreLines_le _ _ hI) hRounds),
    fun k hk => ?_⟩
  have hRwByte : (rw + BitVec.ofNat 64 k).toNat = rw.toNat + k := by
    rw [BitVec.toNat_add, BitVec.toNat_ofNat]
    omega
  have hRoByte : (ro + BitVec.ofNat 64 k).toNat = ro.toNat + k := by
    rw [BitVec.toNat_add, BitVec.toNat_ofNat]
    omega
  obtain ⟨d, hdMem, hd⟩ := exists_line (b := rw + BitVec.ofNat 64 k) hD hRw (by omega) (by omega)
  obtain ⟨i, hiMem, hi⟩ := exists_line (b := ro + BitVec.ofNat 64 k) hI hRo (by omega) (by omega)
  apply publishedAt_of_flushedIn (fun e he => not_stores_events he _)
  rw [List.flatMap_append]
  exact flushedIn_lines hdMem hd hiMem hi

theorem flush_publishes_sample :
    ∃ flush invalidate, armDCacheFlush 0x84448004#64 64 0x71000fe8#64 40#64 = some flush ∧
      armICacheInvalidate 0x84448004#64 64 0x80000fe8#64 40#64 = some invalidate ∧
      ∀ k < (40#64).toNat, PublishedAt
        ([(.store 0x71000fe8#64 40 : Event Unit)] ++
          (flush ++ invalidate).flatMap (CacheOp.events 0x84448004#64))
        (0x71000fe8#64 + BitVec.ofNat 64 k) (0x80000fe8#64 + BitVec.ofNat 64 k) :=
  flush_publishes _ _ _ _ (by decide) (by decide) (by decide)

/-- What becomes of an event where the caches are maintained by line. -/
def byLine (ctr : BitVec 64) : Event ν → List (Event ν)
  | .dcacheFlush a n =>
    ((armDCacheFlush ctr (n + 1) a (BitVec.ofNat 64 n)).getD []).flatMap (CacheOp.events ctr)
  | .icacheInvalidate a n =>
    ((armICacheInvalidate ctr (n + 1) a (BitVec.ofNat 64 n)).getD []).flatMap (CacheOp.events ctr)
  | e => [e]

theorem not_stores_byLine {ctr : BitVec 64} {log : List (Event ν)} {x : Addr}
    (h : ∀ e ∈ log, ¬ Stores e x) : ∀ e ∈ log.flatMap (byLine ctr), ¬ Stores e x := by
  intro e he
  obtain ⟨e', he', hMem⟩ := List.mem_flatMap.mp he
  match e' with
  | .dcacheFlush a n => exact not_stores_events hMem x
  | .icacheInvalidate a n => exact not_stores_events hMem x
  | .store a n =>
    cases List.mem_singleton.mp hMem
    exact h _ he'
  | .note y =>
    cases List.mem_singleton.mp hMem
    exact h _ he'

/-- The bytes of the lines that meet two ranges. -/
theorem flushedIn_byLine {ctr a a' x y : BitVec 64} {n n' : Nat} {d i : Addr}
    (hRw : a.toNat + n + lineSize (dminLine ctr) < 2 ^ 64)
    (hRo : a'.toNat + n' + lineSize (iminLine ctr) < 2 ^ 64)
    (hdMem : d ∈ linesOf a.toNat n (lineSize (dminLine ctr)))
    (hd : Covers d (lineSize (dminLine ctr)) x)
    (hiMem : i ∈ linesOf a'.toNat n' (lineSize (iminLine ctr)))
    (hi : Covers i (lineSize (iminLine ctr)) y) :
    FlushedIn (([.dcacheFlush a n, .icacheInvalidate a' n'] : List (Event ν)).flatMap (byLine ctr))
      x y := by
  have hSize (n : Nat) (hn : n < 2 ^ 64) : (BitVec.ofNat 64 n).toNat = n := by
    rw [BitVec.toNat_ofNat, Nat.mod_eq_of_lt hn]
  have hMaintain (op : Addr → CacheOp) (field : BitVec 64) (hField : field.toNat < 16) (a : Addr)
      (n : Nat) (hFits : a.toNat + n + lineSize field < 2 ^ 64) :
      maintain op field (n + 1) a (BitVec.ofNat 64 n) =
        some ((linesOf a.toNat n (lineSize field)).map op ++ [.dsbSy]) := by
    have hBytes := hSize n (by omega)
    rw [maintain_eq hField (by rw [hBytes]; exact hFits)
      (by rw [hBytes]; exact Nat.lt_succ_of_le (moreLines_le _ _ (lineSize_pos _))), hBytes]
  have hFlush := hMaintain .dcCivac (dminLine ctr) (toNat_and_lt _) a n hRw
  have hInvalidate := hMaintain .icIvau (iminLine ctr) (toNat_and_lt _) a' n' hRo
  simp only [List.flatMap_cons, List.flatMap_nil, List.append_nil, byLine, armDCacheFlush, hFlush,
    armICacheInvalidate, hInvalidate, Option.getD_some]
  exact flushedIn_lines hdMem hd hiMem hi

end

/-! ## Zeroing -/

/-- `DCZID_EL0.BS`. -/
def blockField (dczid : BitVec 64) : BitVec 64 := dczid &&& 0xf#64

/-- What an operation does to memory, if `dc zva` is permitted and zeroes blocks of `Z` bytes. -/
def CacheOp.zeroes (Z : Nat) (mem : Nat → BitVec 8) : CacheOp → Nat → BitVec 8
  | .dcZva a => fun b => if a.toNat / Z = b / Z then 0#8 else mem b
  | .dcCivac _ | .dcCvac _ | .icIvau _ | .dsbSy => mem

/-- What memory is when the operations have been performed. -/
def zeroed (Z : Nat) (ops : List CacheOp) (mem : Nat → BitVec 8) : Nat → BitVec 8 :=
  ops.foldl (CacheOp.zeroes Z) mem

theorem zeroed_dcZva {Z : Nat} {ls : List Addr} {mem : Nat → BitVec 8} {b : Nat} :
    zeroed Z (ls.map .dcZva ++ [.dsbSy]) mem b =
      if ∃ l ∈ ls, l.toNat / Z = b / Z then 0#8 else mem b := by
  induction ls generalizing mem with
  | nil => simp [zeroed, CacheOp.zeroes]
  | cons l ls ih =>
    have hCons : zeroed Z ((l :: ls).map .dcZva ++ [.dsbSy]) mem =
        zeroed Z (ls.map .dcZva ++ [.dsbSy]) (CacheOp.zeroes Z mem (.dcZva l)) := rfl
    rw [hCons, ih]
    simp only [CacheOp.zeroes, List.exists_mem_cons_iff]
    by_cases hHere : l.toNat / Z = b / Z
    · simp [hHere]
    · simp [hHere]

section

variable {Z : Nat}

/-- The blocks that are zeroed where a block consists of lines: those that meet the range. -/
theorem exists_block_iff {b : Nat} (hL : 0 < L) (hZ : 0 < Z) (hDvd : L ∣ Z)
    (hFits : a + n + L < 2 ^ 64) :
    (∃ l ∈ linesOf a n L, l.toNat / Z = b / Z) ↔
      a - a % Z ≤ b ∧ b / Z * Z < max (a + n) (a + 1) := by
  have hA := Nat.div_add_mod a Z
  rw [Nat.mul_comm] at hA
  have hLine : ∀ x, x / Z = x / L / (Z / L) := by
    intro x
    rw [Nat.div_div_eq_div_mul, Nat.mul_div_cancel' hDvd]
  have hStart : a - a % Z ≤ b ↔ a / Z ≤ b / Z := by
    rw [Nat.le_div_iff_mul_le hZ]
    omega
  rw [hStart]
  constructor
  · rintro ⟨l, hMem, hSame⟩
    obtain ⟨hAligned, hAbove, hBelow⟩ := (mem_linesOf hL hFits).mp hMem
    have hLe : a / L ≤ l.toNat / L := by
      apply Nat.le_of_lt_succ
      apply (Nat.div_lt_iff_lt_mul hL).mpr
      rw [Nat.succ_mul, Nat.div_mul_cancel hAligned]
      exact hAbove
    refine ⟨?_, ?_⟩
    · rw [← hSame, hLine a, hLine l.toNat]
      exact Nat.div_le_div_right hLe
    · rw [← hSame]
      exact Nat.lt_of_le_of_lt (Nat.div_mul_le_self _ _) hBelow
  · rintro ⟨hLow, hBelow⟩
    rcases Nat.eq_or_lt_of_le hLow with hFirst | hLater
    · -- the block of the first line
      have hDown := Nat.div_mul_le_self a L
      have hNext := Nat.lt_div_mul_add hL (a := a)
      have hAt : (BitVec.ofNat 64 (a / L * L)).toNat = a / L * L := by
        rw [BitVec.toNat_ofNat]
        omega
      refine ⟨BitVec.ofNat 64 (a / L * L), (mem_linesOf hL hFits).mpr ?_, ?_⟩
      · rw [hAt]
        exact ⟨Nat.dvd_mul_left L _, hNext, by omega⟩
      · rw [hAt, hLine, Nat.mul_div_cancel _ hL, ← hLine, hFirst]
    · -- a block that begins with a line of the range
      have hAfter : (a / Z + 1) * Z ≤ b / Z * Z := Nat.mul_le_mul_right Z hLater
      have hNext := Nat.lt_div_mul_add hZ (a := a)
      rw [Nat.succ_mul] at hAfter
      have hAt : (BitVec.ofNat 64 (b / Z * Z)).toNat = b / Z * Z := by
        rw [BitVec.toNat_ofNat]
        omega
      refine ⟨BitVec.ofNat 64 (b / Z * Z), (mem_linesOf hL hFits).mpr ?_, ?_⟩
      · rw [hAt]
        exact ⟨Nat.dvd_trans hDvd (Nat.dvd_mul_left Z _), by omega, hBelow⟩
      · rw [hAt, Nat.mul_div_cancel _ hZ]

theorem whole_blocks_iff (hZ : 0 < Z) (hFits : a + n + Z < 2 ^ 64) :
    (∀ b < 2 ^ 64, a - a % Z ≤ b ∧ b / Z * Z < max (a + n) (a + 1) ↔ a ≤ b ∧ b < a + n) ↔
      Z ∣ a ∧ Z ∣ n ∧ 0 < n := by
  have hMod := Nat.mod_le a Z
  constructor
  · intro h
    have hDown : ∀ b, b / Z * Z ≤ b := fun b => Nat.div_mul_le_self b Z
    have hFirst := (h (a - a % Z) (by omega)).mp
      ⟨Nat.le_refl _, by have := hDown (a - a % Z); omega⟩
    have hAligned : a % Z = 0 := by omega
    have hSome := ((h a (by omega)).mp ⟨by omega, by have := hDown a; omega⟩).2
    have hLast : (a + n - 1) / Z * Z + (Z - 1) < a + n := by
      refine ((h _ ?_).mp ⟨?_, ?_⟩).2
      · have := hDown (a + n - 1)
        omega
      · have := Nat.lt_div_mul_add hZ (a := a + n - 1)
        omega
      · have hSame : ((a + n - 1) / Z * Z + (Z - 1)) / Z = (a + n - 1) / Z := by
          rw [Nat.mul_comm, Nat.mul_add_div hZ, Nat.div_eq_of_lt (Nat.sub_one_lt_of_lt hZ),
            Nat.add_zero]
        rw [hSame]
        have := hDown (a + n - 1)
        omega
    have hEnd : a + n = ((a + n - 1) / Z + 1) * Z := by
      have := Nat.lt_div_mul_add hZ (a := a + n - 1)
      rw [Nat.succ_mul]
      omega
    have hDvd : Z ∣ a := Nat.dvd_of_mod_eq_zero hAligned
    exact ⟨hDvd, (Nat.dvd_add_right hDvd).mp (hEnd ▸ Nat.dvd_mul_left Z _), by omega⟩
  · rintro ⟨hA, hN, hPos⟩ b -
    obtain ⟨k, hk⟩ := Nat.dvd_add hA hN
    rw [Nat.mod_eq_zero_of_dvd hA, Nat.sub_zero, Nat.max_eq_left (by omega), hk, Nat.mul_comm Z k]
    exact and_congr_right fun _ =>
      (Nat.mul_lt_mul_right hZ).trans (Nat.div_lt_iff_lt_mul hZ)

/-- All bytes of the range are in blocks that are zeroed. What keeps them from being exact is
outside. -/
theorem exists_outside (hL : 0 < L) (hZ : 0 < Z) (hDvd : L ∣ Z) (hFits : a + n + L < 2 ^ 64)
    (hNot : ¬ ∀ b < 2 ^ 64, (∃ l ∈ linesOf a n L, l.toNat / Z = b / Z) ↔ a ≤ b ∧ b < a + n) :
    ∃ b < 2 ^ 64, ¬ (a ≤ b ∧ b < a + n) ∧ ∃ l ∈ linesOf a n L, l.toNat / Z = b / Z := by
  by_contra hInside
  refine hNot fun b hb => ⟨fun hBlock => ?_, fun hRange => ?_⟩
  · by_contra hOut
    exact hInside ⟨b, hb, hOut, hBlock⟩
  · rw [exists_block_iff hL hZ hDvd hFits]
    have hDown := Nat.div_mul_le_self b Z
    omega

/-- No line begins between the one at `a` and the next one. -/
theorem eq_of_mem_linesOf (hL : 0 < L) (hFits : a + n + L < 2 ^ 64) (hAligned : L ∣ a)
    (hMem : l ∈ linesOf a n L) (hNear : l.toNat < a + L) : l.toNat = a := by
  obtain ⟨⟨i, hi⟩, hAbove, -⟩ := (mem_linesOf hL hFits).mp hMem
  obtain ⟨j, rfl⟩ := hAligned
  rw [hi, ← Nat.mul_succ] at hAbove hNear
  have hLow : j < i + 1 := Nat.lt_of_mul_lt_mul_left hAbove
  have hHigh : i < j + 1 := Nat.lt_of_mul_lt_mul_left hNear
  rw [hi, Nat.le_antisymm (Nat.le_of_lt_succ hHigh) (Nat.le_of_lt_succ hLow)]

theorem mem_linesOf_self (hL : 0 < L) (hFits : a + n + L < 2 ^ 64) :
    ∃ l ∈ linesOf a n L, l.toNat = a - a % L := by
  have hModLt := Nat.mod_lt a hL
  have hFirst : (BitVec.ofNat 64 (a - a % L)).toNat = a - a % L := by
    rw [BitVec.toNat_ofNat]
    omega
  refine ⟨BitVec.ofNat 64 (a - a % L), (mem_linesOf hL hFits).mpr ?_, hFirst⟩
  rw [hFirst]
  exact ⟨Nat.dvd_sub_mod a, by omega, by omega⟩

/-- The bytes of the block that begins at `a`. -/
theorem div_eq_div_iff_of_dvd {b : Nat} (hZ : 0 < Z) (hDvd : Z ∣ a) :
    a / Z = b / Z ↔ a ≤ b ∧ b < a + Z := by
  obtain ⟨q, rfl⟩ := hDvd
  rw [Nat.mul_div_cancel_left _ hZ, eq_comm, Nat.div_eq_iff hZ, Nat.mul_comm q Z]
  omega

/-- Where a line consists of several blocks, the rest of each line is left. -/
theorem one_block_iff (hZ : 0 < Z) (hDvd : Z ∣ L) (hLess : Z < L) (hFits : a + n + L < 2 ^ 64) :
    (∀ b < 2 ^ 64, (∃ l ∈ linesOf a n L, l.toNat / Z = b / Z) ↔ a ≤ b ∧ b < a + n) ↔
      L ∣ a ∧ n = Z := by
  have hL : 0 < L := Nat.lt_trans hZ hLess
  obtain ⟨first, hMem, hFirst⟩ := mem_linesOf_self hL hFits
  constructor
  · intro h
    have hMod := Nat.mod_le a L
    have hStart := ((h (a - a % L) (by omega)).mp ⟨first, hMem, by rw [hFirst]⟩).1
    have hAligned : L ∣ a := Nat.dvd_of_mod_eq_zero (by omega)
    rw [Nat.mod_eq_zero_of_dvd hAligned, Nat.sub_zero] at hFirst
    have hBlock : ∀ b, a / Z = b / Z ↔ a ≤ b ∧ b < a + Z :=
      fun b => div_eq_div_iff_of_dvd hZ (Nat.dvd_trans hDvd hAligned)
    have hLast := ((h (a + Z - 1) (by omega)).mp ⟨first, hMem, by
      rw [hFirst, hBlock]
      omega⟩).2
    -- the byte behind the first block is in no other one
    have hGap : ¬ a + Z < a + n := by
      intro hIn
      obtain ⟨l, hLine, hNext⟩ := (h (a + Z) (by omega)).mpr ⟨Nat.le_add_right a Z, hIn⟩
      have hDown := Nat.div_mul_le_self l.toNat Z
      have hUp := Nat.lt_div_mul_add hZ (a := l.toNat)
      have hFar := Nat.div_mul_le_self (a + Z) Z
      have hNear : l.toNat < a + L := by
        obtain ⟨k, rfl⟩ := hDvd
        have hTwo : Z * 2 ≤ Z * k := Nat.mul_le_mul_left Z
          (Nat.lt_of_mul_lt_mul_left (a := Z) (by omega))
        rw [hNext] at hUp
        omega
      rw [eq_of_mem_linesOf hL hFits hAligned hLine hNear, hBlock] at hNext
      omega
    exact ⟨hAligned, by omega⟩
  · rintro ⟨hAligned, rfl⟩ b -
    rw [← div_eq_div_iff_of_dvd hZ (Nat.dvd_trans hDvd hAligned)]
    rw [Nat.mod_eq_zero_of_dvd hAligned, Nat.sub_zero] at hFirst
    constructor
    · rintro ⟨l, hLine, hSame⟩
      have hNear := ((mem_linesOf hL hFits).mp hLine).2.2
      rw [← hSame, eq_of_mem_linesOf hL hFits hAligned hLine (by omega)]
    · exact fun hSame => ⟨first, hMem, by rw [hFirst, hSame]⟩

end

/-- The range, and no other byte, is zeroed. -/
def ZeroesExactly (dczid addr size : BitVec 64) (ops : List CacheOp) : Prop :=
  ∀ mem, ∀ b < 2 ^ 64, zeroed (lineSize (blockField dczid)) ops mem b =
    if addr.toNat ≤ b ∧ b < addr.toNat + size.toNat then 0#8 else mem b

/-- What is zeroed, by the lines that the loop goes through. -/
theorem zeroesExactly_iff {dczid : BitVec 64} {ls : List Addr} :
    ZeroesExactly dczid addr size (ls.map .dcZva ++ [.dsbSy]) ↔
      ∀ b < 2 ^ 64, (∃ l ∈ ls, l.toNat / lineSize (blockField dczid) =
          b / lineSize (blockField dczid)) ↔
        addr.toNat ≤ b ∧ b < addr.toNat + size.toNat := by
  simp only [ZeroesExactly, zeroed_dcZva]
  constructor
  · intro hExact b hb
    have hByte := hExact (fun _ => 1#8) b hb
    constructor
    · intro h
      by_contra hNot
      rw [if_pos h, if_neg hNot] at hByte
      exact absurd hByte (by decide)
    · intro h
      by_contra hNot
      rw [if_neg hNot, if_pos h] at hByte
      exact absurd hByte (by decide)
  · intro hBlocks mem b hb
    simp only [hBlocks b hb]

/-- The lines of the range are the blocks of the range and no more. -/
theorem linesOf_exact_iff {f g : BitVec 64} (hFits : a + n + max (lineSize f) (lineSize g) < 2 ^ 64) :
    (∀ b < 2 ^ 64, (∃ l ∈ linesOf a n (lineSize f), l.toNat / lineSize g = b / lineSize g) ↔
        a ≤ b ∧ b < a + n) ↔
      max (lineSize f) (lineSize g) ∣ a ∧ lineSize g ∣ n ∧ 0 < n ∧
        (lineSize g < lineSize f → n = lineSize g) := by
  have hL := lineSize_pos f
  have hZ := lineSize_pos g
  rcases Nat.lt_or_ge (lineSize g) (lineSize f) with hLess | hLe
  · rw [one_block_iff hZ (lineSize_dvd (Nat.le_of_lt hLess)) hLess (by omega),
      Nat.max_eq_left (Nat.le_of_lt hLess)]
    constructor
    · rintro ⟨hAligned, rfl⟩
      exact ⟨hAligned, Nat.dvd_refl _, hZ, fun _ => rfl⟩
    · exact fun h => ⟨h.1, h.2.2.2 hLess⟩
  · have hBlocks : ∀ b,
        (∃ l ∈ linesOf a n (lineSize f), l.toNat / lineSize g = b / lineSize g) ↔
          a - a % lineSize g ≤ b ∧ b / lineSize g * lineSize g < max (a + n) (a + 1) :=
      fun b => exists_block_iff hL hZ (lineSize_dvd hLe) (by omega)
    have hOne : lineSize g < lineSize f → n = lineSize g :=
      fun hLess => absurd hLess (Nat.not_lt.mpr hLe)
    rw [Nat.max_eq_right hLe, and_iff_left hOne, ← whole_blocks_iff hZ (by omega)]
    exact forall_congr' fun b => by rw [hBlocks b]

/-- **Zeroing.** It zeroes the range and no more exactly if the range begins with a line and a
block, and consists of whole blocks, of one at least, and of no more than one where a block is
smaller than a line. Where it is not smaller, all else zeroes bytes outside of the range. -/
theorem armDCacheZero_exact_iff (ctr dczid : BitVec 64)
    (hFits : addr.toNat + size.toNat +
      max (lineSize (dminLine ctr)) (lineSize (blockField dczid)) < 2 ^ 64)
    (hRounds : size.toNat < rounds) :
    ∃ ops, armDCacheZero ctr rounds addr size = some ops ∧
      (ZeroesExactly dczid addr size ops ↔
        max (lineSize (dminLine ctr)) (lineSize (blockField dczid)) ∣ addr.toNat ∧
          lineSize (blockField dczid) ∣ size.toNat ∧ 0 < size.toNat ∧
          (lineSize (blockField dczid) < lineSize (dminLine ctr) →
            size.toNat = lineSize (blockField dczid))) ∧
      (lineSize (dminLine ctr) ≤ lineSize (blockField dczid) →
        ¬ ZeroesExactly dczid addr size ops →
        ∃ b < 2 ^ 64, ¬ (addr.toNat ≤ b ∧ b < addr.toNat + size.toNat) ∧
          ∀ mem, zeroed (lineSize (blockField dczid)) ops mem b = 0#8) := by
  have hL := lineSize_pos (dminLine ctr)
  have hLine : addr.toNat + size.toNat + lineSize (dminLine ctr) < 2 ^ 64 := by omega
  refine ⟨_, maintain_eq (toNat_and_lt _) hLine
    (Nat.lt_of_le_of_lt (moreLines_le _ _ hL) hRounds), ?_, fun hLe hNot => ?_⟩
  · rw [zeroesExactly_iff]
    exact linesOf_exact_iff hFits
  · rw [zeroesExactly_iff] at hNot
    obtain ⟨b, hb, hOut, hBlock⟩ :=
      exists_outside hL (lineSize_pos _) (lineSize_dvd hLe) hLine hNot
    refine ⟨b, hb, hOut, fun mem => ?_⟩
    rw [zeroed_dcZva, if_pos hBlock]

/-- Two lines of 64 bytes, where a block is as long as a line. -/
theorem armDCacheZero_exact_iff_sample :
    ∃ ops, armDCacheZero 0x84448004#64 129 0x71000040#64 128#64 = some ops ∧
      (ZeroesExactly 4#64 0x71000040#64 128#64 ops ↔
        max (lineSize (dminLine 0x84448004#64)) (lineSize (blockField 4#64)) ∣
            (0x71000040#64).toNat ∧
          lineSize (blockField 4#64) ∣ (128#64).toNat ∧ 0 < (128#64).toNat ∧
          (lineSize (blockField 4#64) < lineSize (dminLine 0x84448004#64) →
            (128#64).toNat = lineSize (blockField 4#64))) := by
  obtain ⟨ops, hRun, hExact, -⟩ := @armDCacheZero_exact_iff 0x71000040#64 128#64 129 0x84448004#64
    4#64 (by decide) (by decide)
  exact ⟨ops, hRun, hExact⟩

end Wondar.Sys
