import Wondar.A64.Exit
import Wondar.Patch.Replace

/-!
# Branches written by a `CodePatcher`

A `CodePatcher` keeps its position as an offset from the base of the pages, flushes when it seeks,
and computes branches from the position. What the position is after any operations is said here
without all that (`position`, `run_current`): a write moves it by the size of what is written, a
seek sets it.

A branch is told where to go as a displacement, as an offset from the base, or as a pointer
(`destination`). `branch_lands` is that the word it writes goes there when it is executed at the
RO address of the position, for every displacement that a branch can hold; those are the
multiples of four from -128 MiB on to below 128 MiB, and not 128 MiB itself
(`branch_wraps`).
-/

namespace Wondar.Patch

open A64 Sys

/-! ## The position -/

section

variable (pages : Pages)

/-- Where an operation leaves the position. -/
def position (pos : BitVec 64) : StreamOp → BitVec 64
  | .write v => pos + BitVec.ofNat 64 v.size
  | .seekRel address => pos + address
  | .seek address => address
  | .seekPtr ptr => addrFromRo pages ptr
  | _ => pos + 4#64

/-- A patcher after some operations. -/
def run (start : BitVec 64) (mem : Addr → BitVec 8) (ops : List StreamOp) : StreamPatcher :=
  ops.foldl (fun p o => CodePatcher.apply pages o p) (.construct start mem)

variable {pages} {p : StreamPatcher}

theorem seekRel_current (address : BitVec 64) :
    (p.seekRel pages address).current = p.current + address := by
  unfold StreamPatcher.seekRel
  split
  · rename_i hZero
    rw [hZero, BitVec.add_zero]
  · exact BitVec.add_comm ..

theorem apply_current (o : StreamOp) :
    (CodePatcher.apply pages o p).current = position pages p.current o := by
  cases o with
  | seekRel address => exact seekRel_current address
  | seek address =>
    refine (seekRel_current _).trans ?_
    unfold StreamPatcher.relativeAddressFromBase position
    grind
  | seekPtr ptr =>
    refine (seekRel_current _).trans ?_
    unfold StreamPatcher.relativeAddressFromPointer position
    grind
  | _ => rfl

/-- The operations move the position one after the other. -/
theorem run_current (start : BitVec 64) (mem : Addr → BitVec 8) (ops : List StreamOp) :
    (run pages start mem ops).current = ops.foldl (position pages) start := by
  have hFrom : ∀ p : StreamPatcher,
      (ops.foldl (fun p o => CodePatcher.apply pages o p) p).current =
        ops.foldl (position pages) p.current := by
    induction ops with
    | nil => exact fun p => rfl
    | cons o ops ih =>
      intro p
      rw [List.foldl_cons, List.foldl_cons, ih, apply_current]
  exact hFrom _

end

/-! ## Branches -/

/-- Where a branch at the position `pos` is to go, and whether it is one with link. -/
def destination (pages : Pages) (pos : BitVec 64) : StreamOp → Option (Bool × Addr)
  | .branchInstRel address => some (false, roFromAddr pages pos + address)
  | .branchLinkInstRel address => some (true, roFromAddr pages pos + address)
  | .branchInst address => some (false, roFromAddr pages address)
  | .branchLinkInst address => some (true, roFromAddr pages address)
  | .branchInstPtr ptr => some (false, ptr)
  | .branchLinkInstPtr ptr => some (true, ptr)
  | _ => none

def branchWord (link : Bool) (d : BitVec 64) : Word :=
  if link then Armv8.branchLink (d.setWidth 32) else Armv8.branch (d.setWidth 32)

theorem decode_branchWord (link : Bool) (d : BitVec 64) :
    decode (branchWord link d) = some (branchInstr link (Armv8.imm26 d)) := by
  cases link with
  | false => exact Armv8.decode_branch d
  | true => exact Armv8.decode_branchLink d

variable {pages : Pages} {p : StreamPatcher} {o : StreamOp} {link : Bool} {t : Addr}

/-- All six operations write the branch from the RO address of the position to the destination. -/
theorem apply_branch (h : destination pages p.current o = some (link, t)) :
    CodePatcher.apply pages o p =
      CodePatcher.writeInst pages p (branchWord link (t - roFromAddr pages p.current)) := by
  have hRel : ∀ d, roFromAddr pages p.current + d - roFromAddr pages p.current = d := fun d => by
    grind
  have hBase : ∀ a, roFromAddr pages a - roFromAddr pages p.current =
      p.relativeAddressFromBase a := fun a => by
    unfold roFromAddr StreamPatcher.relativeAddressFromBase
    grind
  have hPointer : ∀ q, q - roFromAddr pages p.current = p.relativeAddressFromPointer pages q :=
    fun q => by
      unfold roFromAddr StreamPatcher.relativeAddressFromPointer addrFromRo
      grind
  cases o with
  | branchInstRel address =>
    cases h
    rw [hRel]
    rfl
  | branchLinkInstRel address =>
    cases h
    rw [hRel]
    rfl
  | branchInst address =>
    cases h
    rw [hBase]
    rfl
  | branchLinkInst address =>
    cases h
    rw [hBase]
    rfl
  | branchInstPtr ptr =>
    cases h
    rw [hPointer]
    rfl
  | branchLinkInstPtr ptr =>
    cases h
    rw [hPointer]
    rfl
  | _ => cases h

/-- The branch `w` at `e` goes to `t`. -/
def Lands (link : Bool) (w : Word) (e t : Addr) : Prop :=
  ∀ (other : Word → State → State) (s : State), s.pc = e → s.mem e = w →
    step other s = { s with pc := t, x := linked link s.x (e + 4#64) }

theorem lands_branchWord {e : Addr} (hAlign : (t - e).toNat % 4 = 0) (hReach : Armv8.InReach e t) :
    Lands link (branchWord link (t - e)) e t := by
  intro other s hPc hWord
  subst hPc
  have hTarget : s.pc + branchOffset (Armv8.imm26 (t - s.pc)) = t := by
    rw [Armv8.branchOffset_imm26 hAlign hReach]
    grind
  rw [step_branch other hWord (decode_branchWord link _), hTarget]

/-- **Branches of a patcher.** Whatever operations a patcher has performed, a branch with a
displacement that a branch can hold is stored at the RW alias of the position, goes to its
destination from the RO address of the position, and leaves the position behind itself. -/
theorem branch_lands (pages : Pages) (start : BitVec 64) (mem : Addr → BitVec 8)
    (ops : List StreamOp) {pos : BitVec 64} (hPos : ops.foldl (position pages) start = pos)
    (hBranch : destination pages pos o = some (link, t))
    (hAlign : (t - roFromAddr pages pos).toNat % 4 = 0)
    (hReach : Armv8.InReach (roFromAddr pages pos) t) :
    ∃ w imm, decode w = some (branchInstr link imm) ∧ Lands link w (roFromAddr pages pos) t ∧
      (run pages start mem (ops ++ [o])).target =
        (run pages start mem ops).target.assign pages pos (.ofWord w) ∧
      loadBytes (run pages start mem (ops ++ [o])).target.mem (rwFromAddr pages pos) 4 =
        (Value.ofWord w).bytes ∧
      (run pages start mem (ops ++ [o])).current = pos + 4#64 := by
  have hCurrent : (run pages start mem ops).current = _ := run_current start mem ops
  have hRun : run pages start mem (ops ++ [o]) =
      CodePatcher.apply pages o (run pages start mem ops) := by
    unfold run
    rw [List.foldl_append]
    rfl
  rw [hPos] at hCurrent
  rw [hRun]
  generalize run pages start mem ops = p at hCurrent
  subst hCurrent
  rw [apply_branch hBranch]
  exact ⟨_, _, decode_branchWord link _, lands_branchWord hAlign hReach, rfl,
    loadBytes_storeBytes _ _ _ (show 4 ≤ 2 ^ 64 by decide), rfl⟩

/-- A call back over a seek. -/
theorem branch_lands_back :
    let pages : Pages := ⟨0x8000#64, 0x71000#64, 0x5000#64, some 0⟩
    let ops : List StreamOp := [.writeInst 0xd503201f#32, .seek 0x100#64]
    ∃ w imm, decode w = some (branchInstr true imm) ∧ Lands true w 0x8100#64 0x8020#64 ∧
      (run pages 0x10#64 (fun _ => 0#8) (ops ++ [.branchLinkInst 0x20#64])).target =
        (run pages 0x10#64 (fun _ => 0#8) ops).target.assign pages 0x100#64 (.ofWord w) ∧
      loadBytes (run pages 0x10#64 (fun _ => 0#8) (ops ++ [.branchLinkInst 0x20#64])).target.mem
        0x71100#64 4 = (Value.ofWord w).bytes ∧
      (run pages 0x10#64 (fun _ => 0#8) (ops ++ [.branchLinkInst 0x20#64])).current =
        0x100#64 + 4#64 :=
  branch_lands ⟨0x8000#64, 0x71000#64, 0x5000#64, some 0⟩ 0x10#64 (fun _ => 0#8) _
    (show _ = 0x100#64 from rfl) (o := .branchLinkInst 0x20#64) rfl (by decide) (by decide)

/-- A displacement of 128 MiB turns into one of -128 MiB. -/
theorem branch_wraps :
    let pages : Pages := ⟨0x8000#64, 0x71000#64, 0x5000#64, some 0⟩
    destination pages 0#64 (.branchInstRel 0x8000000#64) = some (false, 0x8008000#64) ∧
      (run pages 0#64 (fun _ => 0#8) [.branchInstRel 0x8000000#64]).target =
        (run pages 0#64 (fun _ => 0#8) []).target.assign pages 0#64 (.ofWord 0x16000000#32) ∧
      ¬ Lands false 0x16000000#32 0x8000#64 0x8008000#64 := by
  refine ⟨by decide, rfl, fun h => ?_⟩
  have hStep := h (fun _ s => s)
    ⟨0x8000#64, fun _ => 0#64, 0#64, 0#4, fun _ => 0#128, fun _ => 0x16000000#32⟩ rfl rfl
  have hDecode : decode 0x16000000#32 = some (branchInstr false 0x2000000#26) := by decide
  rw [step_branch _ rfl hDecode] at hStep
  exact absurd (congrArg State.pc hStep) (by decide)

end Wondar.Patch
