import Wondar.Hook.FixSpec
import Wondar.Hook.Inline

/-!
# What a call leaves in the log

A relocation and a patched target store words and maintain caches, so the log grows and no
guard is noted in it (`hookFuncImpl_grows`). Whatever a call notes comes from its own guards:
the assertions on its arguments, the slot, and the result of `HookFuncImpl`.
-/

namespace Wondar.Hook

open A64 Coherence Sys

variable {mmu : Mmu} {slot : Slot} {env : Env} {s s' : HookState} {m m' : Machine}

/-! ## Without guards -/

theorem fixInstructions_grows {inprw inprx outrw outrx : Addr} {count : Nat}
    (h : fixInstructions mmu inprw inprx count outrw outrx m = some m') : Grows m.log m'.log := by
  obtain ⟨t, hLoop, rfl⟩ := Option.map_eq_some_iff.mp h
  have hStart : Cursor mmu ⟨outrx, outrw⟩ 0 (startReloc inprw inprx count outrw outrx m) 0 0
      (startReloc inprw inprx count outrw outrx m) := startReloc_cursor inprw inprx count m
  obtain ⟨k, -, -, hCursor⟩ := fixLoop_cursor hStart hLoop
  obtain ⟨k', -, -, hEnd⟩ := putJumpBack_cursor hCursor
  exact hEnd.log.trans (Mach.clearCache_grows _)

theorem Claim.destructorFlush_notes (claim : Claim) (n : Note) :
    .note n ∉ (claim.destructorFlush : List (Event Note)) := by
  simp [Claim.destructorFlush]

theorem Claim.flush_notes (claim : Claim) (n : Note) :
    .note n ∉ (claim.flush : List (Event Note)) := by
  simp [Claim.flush]

theorem patchTarget_grows (ctrlRw symbol replace : Addr) :
    Grows m.log (patchTarget mmu ctrlRw symbol replace m).log := by
  unfold patchTarget
  split
  · refine Grows.trans (Grows.trans ?_ (Mach.clearCache_grows _))
      (Mach.record_grows (Claim.destructorFlush_notes _))
    unfold writeFarJump
    dsimp only
    split
    · exact ((Mach.store_grows.trans Mach.store_grows).trans Mach.store_grows).trans
        (Mach.store64_grows _)
    · exact (Mach.store_grows.trans Mach.store_grows).trans (Mach.store64_grows _)
  · exact (Mach.store_grows.trans (Mach.clearCache_grows _)).trans
      (Mach.record_grows (Claim.destructorFlush_notes _))

theorem hookFuncImpl_grows {ctrlRw symbol replace rx rw : Addr} {ok : Bool}
    (h : hookFuncImpl mmu ctrlRw symbol replace rx rw m = some (ok, m')) : Grows m.log m'.log := by
  rcases hookFuncImpl_cases h with ⟨n, -, rfl⟩ | ⟨t, hFix, -, rfl⟩
  · exact Mach.record_grows (Claim.destructorFlush_notes _)
  · rcases hFix with rfl | ⟨count, hFix⟩
    · exact patchTarget_grows ..
    · exact (fixInstructions_grows hFix).trans (patchTarget_grows ..)

/-! ## With guards -/

theorem allocSlot_extends {doTrampoline : Bool} (h : allocSlot env doTrampoline s = some (slot, s')) :
    s.mach.log <+: s'.mach.log := by
  unfold allocSlot at h
  dsimp only at h
  split at h
  · split at h
    · cases h
      exact List.prefix_refl _
    · obtain ⟨t, hEnsure, hEnd⟩ := Option.map_eq_some_iff.mp h
      cases hEnd
      obtain ⟨notes, -, -, -, rfl⟩ := ensure_notes hEnsure
      exact List.prefix_append ..
  · cases h
    exact List.prefix_refl _

theorem hook_extends {ctrlRw target callback rx : Addr} {doTrampoline : Bool}
    (h : hook env ctrlRw target callback doTrampoline s = some (rx, s')) :
    s.mach.log <+: s'.mach.log := by
  obtain ⟨notes, notes', slot, s₁, ok, t, -, -, hAlloc, hImpl, -, -, -, rfl⟩ := hook_cases h
  have hNotes : s.mach.log <+: s.mach.log ++ notes.map .note := List.prefix_append ..
  exact ((hNotes.trans (allocSlot_extends hAlloc)).trans (hookFuncImpl_grows hImpl).isPrefix).trans
    (List.prefix_append ..)

/-- The parts of a call that returns. -/
theorem hookInline_cases {ctrlRw target callback : Addr}
    (h : hookInline env ctrlRw target callback s = some s') :
    ∃ (notes : List Note) (trampoline : Addr) (t : HookState),
      (s.entryIndex < inlinePoolCount → notes = []) ∧
      (inlinePoolCount ≤ s.entryIndex → notes = [.abort Results.hookTrampolineAllocFail]) ∧
      let entryRw := entryAt env.inlineHookJit.rw s.entryIndex
      let entryCb := entryAt env.inlineHookJit.ro s.entryIndex
      hook env ctrlRw target entryCb true
        { s with entryIndex := s.entryIndex + 1, mach := s.mach.record (notes.map .note) } =
          some (trampoline, t) ∧
      s' = { t with mach := writeEntry env entryRw entryCb trampoline callback t.mach } := by
  unfold hookInline at h
  simp only [Option.bind_eq_bind] at h
  obtain ⟨s₁, h₁, h⟩ := Option.bind_eq_some_iff.mp h
  obtain ⟨⟨trampoline, t⟩, h₂, h⟩ := Option.bind_eq_some_iff.mp h
  obtain ⟨notes, -, hPassed, hFailed, rfl⟩ := ensure_notes h₁
  cases h
  exact ⟨notes, trampoline, t, fun hLt => hPassed (by simpa using hLt),
    fun hLe => hFailed (by simpa using hLe), h₂, rfl⟩

end Wondar.Hook
