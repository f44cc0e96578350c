import Wondar.Hook.Log

/-!
# What a hook makes visible to instruction fetch

A slot and an entry are written through their RW addresses and fetched through their RX
addresses. After the last word of a slot has been stored, the caches are maintained four
times: `__fix_instructions` clears the slot by its RW address, `HookFuncImpl` clears the
target, `~RwPages` cleans the target's claim, and `Jit::Flush` works on the RW address of the
pool. No invalidation names the RX address of the slot, so its last word is not published
when `Hook` returns (`hook_log`), and neither is an entry when `HookInline` does
(`hookInline_log`). `hook_publishes_iff` states it for every call.
-/

namespace Wondar.Hook

open A64 Coherence Sys

variable {mmu : Mmu} {slot : Slot} {env : Env} {s s' : HookState} {m m' : Machine}

/-! ## The relocation -/

/-- The last store of the jump back. -/
theorem putJumpBack_log (mmu : Mmu) (t : Reloc) : ∃ j < 5, ∃ before n, 0 < n ∧
    (putJumpBack mmu t).mach.log = t.mach.log ++ before ++ [.store (wordAt t.outrw j) n] := by
  unfold putJumpBack
  dsimp only
  split
  · split
    · refine ⟨2, by omega, [.store (wordAt t.outrw 0) 4, .store (wordAt t.outrw 1) 4], 8,
        by omega, ?_⟩
      simp [Reloc.advance, Reloc.putAbsoluteJump, Reloc.put, Reloc.put64, Mach.store64]
    · refine ⟨3, by omega, [.store (wordAt t.outrw 0) 4, .store (wordAt t.outrw 1) 4,
        .store (wordAt t.outrw 2) 4], 8, by omega, ?_⟩
      simp [Reloc.advance, Reloc.putAbsoluteJump, Reloc.put, Reloc.put64, Mach.store64, Reloc.nop]
  · exact ⟨0, by omega, [], 4, by omega, by simp [Reloc.advance, Reloc.put]⟩

/-- The last store of a relocation is to a word of the slot; behind it the slot is cleared by
its RW address. -/
theorem fixInstructions_log {inprw inprx : Addr} {count : Nat} (hCount : count ≤ maxInstructions)
    (h : fixInstructions mmu inprw inprx count slot.rw slot.rx m = some m') :
    ∃ j < trampolineSize, ∃ more, m'.log = m.log ++ more ∧
      StaleOutside (Covers slot.rw (4 * trampolineSize)) more (wordAt slot.rw j) := by
  have hMax : maxInstructions = 5 := rfl
  have hSize : trampolineSize = 50 := rfl
  obtain ⟨t, hLoop, rfl⟩ := Option.map_eq_some_iff.mp h
  obtain ⟨k, -, hk, hCursor⟩ := fixLoop_cursor (startReloc_cursor inprw inprx count m) hLoop
  obtain ⟨k', -, hk', hEnd⟩ := putJumpBack_cursor hCursor
  have hTotal : ((putJumpBack mmu t).outrx - slot.rx).toNat ≤ 4 * trampolineSize := by
    have : (putJumpBack mmu t).outrx - slot.rx = BitVec.ofNat 64 (4 * k') := by
      rw [hEnd.outrx, wordAt, BitVec.add_comm, BitVec.add_sub_cancel]
    rw [this, BitVec.toNat_ofNat]
    omega
  obtain ⟨loop, hLoopLog, -⟩ := hCursor.log
  obtain ⟨j, hj, before, n, hn, hLog⟩ := putJumpBack_log mmu t
  rw [hCursor.outrw, wordAt_wordAt] at hLog
  generalize hTotalEq : ((putJumpBack mmu t).outrx - slot.rx).toNat = total at hTotal
  refine ⟨k + j, by omega, loop ++ before ++ .store (wordAt slot.rw (k + j)) n ::
    [.dcacheFlush slot.rw total, .icacheInvalidate slot.rw total], ?_, loop ++ before, _,
    [.dcacheFlush slot.rw total, .icacheInvalidate slot.rw total], rfl,
    ⟨_, _, rfl, covers_self _ hn⟩, invalidatesOnly_flush fun y hy => Nat.lt_of_lt_of_le hy hTotal⟩
  simp only [Mach.clearCache, Mach.record_log, hLog, hLoopLog, hTotalEq]
  simp [startReloc]

/-! ## The target -/

/-- Patching the target invalidates the target only. -/
theorem patchTarget_log (mmu : Mmu) (ctrlRw symbol replace : Addr) (m : Machine) : ∃ more,
    (patchTarget mmu ctrlRw symbol replace m).log = m.log ++ more ∧
      InvalidatesOnly (Covers symbol 20) more := by
  have hFlush : ∀ (n : Nat) (rw : Addr), n = 1 ∨ n = 5 → InvalidatesOnly (Covers symbol 20)
      ([.dcacheFlush symbol (4 * n), .icacheInvalidate symbol (4 * n)] ++
        (ctrlClaim symbol rw n).destructorFlush : List (Event Note)) := by
    intro n rw hn
    have hSize : (BitVec.ofNat 64 (4 * n)).toNat = 4 * n := by
      rw [BitVec.toNat_ofNat]
      omega
    refine (invalidatesOnly_flush fun y hy => ?_).append (invalidatesOnly_flush fun y hy => ?_)
    · exact Nat.lt_of_lt_of_le hy (by omega)
    · refine Nat.lt_of_lt_of_le hy ?_
      simp only [ctrlClaim, hSize]
      omega
  unfold patchTarget
  split
  · unfold writeFarJump
    dsimp only
    split
    · refine ⟨_, ?_, (((invalidatesOnly_store _ ctrlRw 4).append
        (invalidatesOnly_store _ (wordAt ctrlRw 1) 4)).append
        ((invalidatesOnly_store _ (wordAt (wordAt ctrlRw 1) 1) 4).append
        (invalidatesOnly_store _ (wordAt (wordAt ctrlRw 1) 2) 8))).append
        (hFlush 5 ctrlRw (Or.inr rfl))⟩
      simp [Mach.clearCache, Mach.store64]
    · refine ⟨_, ?_, ((invalidatesOnly_store _ ctrlRw 4).append
        ((invalidatesOnly_store _ (wordAt ctrlRw 1) 4).append
        (invalidatesOnly_store _ (wordAt ctrlRw 2) 8))).append (hFlush 5 ctrlRw (Or.inr rfl))⟩
      simp [Mach.clearCache, Mach.store64]
  · refine ⟨_, ?_, (invalidatesOnly_store _ ctrlRw 4).append (hFlush 1 ctrlRw (Or.inl rfl))⟩
    simp [Mach.clearCache]

/-! ## Hook -/

/-- What a call logs. -/
def callLog (s s' : HookState) : List (Event Note) := s'.mach.log.drop s.mach.log.length

theorem callLog_eq {more : List (Event Note)} (h : s'.mach.log = s.mach.log ++ more) :
    callLog s s' = more := by
  rw [callLog, h, List.drop_left]

/-- The call publishes the slot: each byte it stores there is flushed by its RW address and
then invalidated by its RX address. -/
def SlotPublished (slot : Slot) (log : List (Event Note)) : Prop :=
  ∀ off : BitVec 64, off.toNat < 4 * trampolineSize → PublishedAt log (slot.rw + off) (slot.rx + off)

/-- The executable addresses of a slot are its own: they are no RW addresses of the pool, and the
slot is not the function being hooked. -/
structure SlotApart (env : Env) (slot : Slot) (target : Addr) : Prop where
  rx_ne : slot.rx ≠ 0#64
  rw_ne : slot.rw ≠ 0#64
  slotRw : Separate slot.rx (4 * trampolineSize) slot.rw (4 * trampolineSize)
  poolRw : Separate slot.rx (4 * trampolineSize) env.hookJit.getAlignedRw
    env.hookJit.getAlignedSize.toNat
  target : Separate slot.rx (4 * trampolineSize) target 20

/-- What is invalidated after the last store to a slot. -/
def Maintained (env : Env) (slot : Slot) (target y : Addr) : Prop :=
  Covers slot.rw (4 * trampolineSize) y ∨ Covers target 20 y ∨
    Covers env.hookJit.getAlignedRw env.hookJit.getAlignedSize.toNat y

theorem SlotApart.not_maintained {target y : Addr} (h : SlotApart env slot target)
    (hy : Covers slot.rx (4 * trampolineSize) y) : ¬ Maintained env slot target y := by
  rintro (hRw | hTarget | hPool)
  · exact h.slotRw y ⟨hy, hRw⟩
  · exact h.target y ⟨hy, hTarget⟩
  · exact h.poolRw y ⟨hy, hPool⟩

/-- A word of the slot is stale whatever is invalidated elsewhere. -/
theorem SlotApart.not_published {target : Addr} {log : List (Event Note)} {j : Nat}
    (h : SlotApart env slot target) (hj : j < trampolineSize)
    (hStale : StaleOutside (Maintained env slot target) log (wordAt slot.rw j)) :
    ¬ SlotPublished slot log := by
  have hSize : trampolineSize = 50 := rfl
  have hOff : (BitVec.ofNat 64 (4 * j)).toNat < 4 * trampolineSize := by
    rw [BitVec.toNat_ofNat]
    omega
  intro hPublished
  refine hStale.not_publishedAt (h.not_maintained ?_) (hPublished _ hOff)
  rw [Covers, BitVec.add_comm, BitVec.add_sub_cancel]
  exact hOff

theorem hook_log {ctrlRw target callback rx : Addr} (hApart : SlotApart env slot target)
    (hSlot : (allocForTrampoline env.hookJit s.index).2 = .ok slot)
    (h : hook env ctrlRw target callback true s = some (rx, s')) :
    ∃ j < trampolineSize, ∃ more, s'.mach.log = s.mach.log ++ more ∧
      StaleOutside (Maintained env slot target) more (wordAt slot.rw j) := by
  obtain ⟨notes, t, -, hFix, -, rfl⟩ := hook_of_slot hSlot hApart.rx_ne hApart.rw_ne h
  obtain ⟨j, hj, fixed, hFixed, hStale⟩ := fixInstructions_log (patchCount_le _ _) hFix
  obtain ⟨patched, hPatched, hTarget⟩ := patchTarget_log env.mmu ctrlRw target callback t
  refine ⟨j, hj, notes.map .note ++ (fixed ++ patched ++ env.hookJit.flush), ?_,
    (((hStale.mono fun y hy => Or.inl hy).append
      fun e he y hy => Or.inr (Or.inl (hTarget e he y hy))).append
      (invalidatesOnly_flush fun y hy => Or.inr (Or.inr hy))).prepend _⟩
  simp [hPatched, hFixed]

theorem hook_not_published {ctrlRw target callback rx : Addr} (hApart : SlotApart env slot target)
    (hSlot : (allocForTrampoline env.hookJit s.index).2 = .ok slot)
    (h : hook env ctrlRw target callback true s = some (rx, s')) :
    ¬ SlotPublished slot (callLog s s') := by
  obtain ⟨j, hj, more, hMore, hStale⟩ := hook_log hApart hSlot h
  rw [callLog_eq hMore]
  exact hApart.not_published hj hStale

/-! ## HookInline -/

/-- The call publishes the entry. -/
def EntryPublished (env : Env) (i : Nat) (log : List (Event Note)) : Prop :=
  ∀ off : BitVec 64, off.toNat < 4 * entrySize →
    PublishedAt log (entryAt env.inlineHookJit.rw i + off) (entryAt env.inlineHookJit.ro i + off)

/-- The executable address of an entry is no RW address of the pool. -/
def EntryApart (env : Env) (i : Nat) : Prop :=
  Separate (entryAt env.inlineHookJit.ro i) (4 * entrySize) env.inlineHookJit.getAlignedRw
    env.inlineHookJit.getAlignedSize.toNat

/-- The last store of a call is to the callback of its entry; behind it the pool is flushed by
its RW address. -/
theorem hookInline_log {ctrlRw target callback : Addr}
    (h : hookInline env ctrlRw target callback s = some s') :
    ∃ more, s'.mach.log = s.mach.log ++ more ∧
      StaleOutside (Covers env.inlineHookJit.getAlignedRw env.inlineHookJit.getAlignedSize.toNat)
        more (wordAt (entryAt env.inlineHookJit.rw s.entryIndex) 4) := by
  obtain ⟨notes, trampoline, t, -, -, hHook, rfl⟩ := hookInline_cases h
  obtain ⟨hooked, hHooked⟩ := hook_extends hHook
  refine ⟨notes.map .note ++ hooked ++
    ([.store (entryAt env.inlineHookJit.rw s.entryIndex) 16] ++
      .store (wordAt (entryAt env.inlineHookJit.rw s.entryIndex) 4) 8 :: env.inlineHookJit.flush),
    ?_, _, _, _, (List.append_assoc ..).symm, ⟨_, _, rfl, covers_self _ (by omega)⟩,
    invalidatesOnly_flush fun y hy => hy⟩
  simp [writeEntry, Mach.store64, ← hHooked, entryWords]

theorem EntryApart.not_published {i : Nat} {log : List (Event Note)} (h : EntryApart env i)
    (hStale : StaleOutside (Covers env.inlineHookJit.getAlignedRw
      env.inlineHookJit.getAlignedSize.toNat) log (wordAt (entryAt env.inlineHookJit.rw i) 4)) :
    ¬ EntryPublished env i log := by
  intro hPublished
  refine hStale.not_publishedAt (fun hCovers => h _ ⟨?_, hCovers⟩) (hPublished 16#64 (by decide))
  rw [Covers, BitVec.add_comm, BitVec.add_sub_cancel]
  decide

/-! ## Every call -/

/-- A call of `Hook` publishes what it writes to the slot it got. -/
def HookPublishes (env : Env) (s s' : HookState) : Prop :=
  ∀ slot, (allocForTrampoline env.hookJit s.index).2 = .ok slot → SlotPublished slot (callLog s s')

/-- A call of `HookInline` publishes its entry and the slot of its trampoline. -/
def HookInlinePublishes (env : Env) (s s' : HookState) : Prop :=
  EntryPublished env s.entryIndex (callLog s s') ∧ HookPublishes env s s'

/-- **Instruction fetch.** A call of `Hook` that returns publishes its trampoline only when it
got none, and a call of `HookInline` that returns never publishes what it writes. -/
theorem hook_publishes_iff (env : Env) (ctrlRw target callback : Addr) (s s' : HookState) :
    (∀ rx, (∀ slot, (allocForTrampoline env.hookJit s.index).2 = .ok slot →
        SlotApart env slot target) →
      hook env ctrlRw target callback true s = some (rx, s') →
      (HookPublishes env s s' ↔ hookMax < (s.index + 1#32).toNat)) ∧
    (EntryApart env s.entryIndex → hookInline env ctrlRw target callback s = some s' →
      ¬ HookInlinePublishes env s s') := by
  refine ⟨fun rx hApart h => ⟨fun hPublishes => ?_, fun hFull slot hSlot => ?_⟩, fun hApart h hAll => ?_⟩
  · by_contra hLe
    have hSlot : (allocForTrampoline env.hookJit s.index).2 =
        .ok (.ofIndex env.hookJit (s.index + 1#32)) := alloc_of_le (by omega)
    exact hook_not_published (hApart _ hSlot) hSlot h (hPublishes _ hSlot)
  · rw [alloc_of_gt hFull] at hSlot
    cases hSlot
  · obtain ⟨more, hMore, hStale⟩ := hookInline_log h
    have hEntry := hAll.1
    rw [callLog_eq hMore] at hEntry
    exact hApart.not_published hStale hEntry

theorem sampleSlot_apart :
    SlotApart sampleEnv (.ofIndex sampleEnv.hookJit 0#32) 0x50100#64 where
  rx_ne := by decide
  rw_ne := by decide
  slotRw := separate_of_le (by decide) (by decide)
  poolRw := separate_of_le (by decide) (by decide)
  target := separate_of_le (by decide) (by decide)

theorem sampleEntry_apart : EntryApart sampleEnv 0 := separate_of_le (by decide) (by decide)

theorem sampleHook_returns : ∃ rx s',
    hook sampleEnv 0xb0100#64 0x50100#64 0x60000#64 true sampleState = some (rx, s') := ⟨_, _, rfl⟩

theorem sampleHookInline_returns : ∃ s',
    hookInline sampleEnv 0xb0100#64 0x50100#64 0x60000#64 sampleState = some s' := ⟨_, rfl⟩

/-- The first hook of a process, with a trampoline and as an inline hook. -/
theorem hook_publishes_iff_first :
    (∃ rx s', hook sampleEnv 0xb0100#64 0x50100#64 0x60000#64 true sampleState = some (rx, s') ∧
      (HookPublishes sampleEnv sampleState s' ↔ hookMax < (sampleState.index + 1#32).toNat)) ∧
    ∃ s', hookInline sampleEnv 0xb0100#64 0x50100#64 0x60000#64 sampleState = some s' ∧
      ¬ HookInlinePublishes sampleEnv sampleState s' := by
  obtain ⟨rx, s₁, hHook⟩ := sampleHook_returns
  obtain ⟨s₂, hInline⟩ := sampleHookInline_returns
  refine ⟨⟨rx, s₁, hHook, (hook_publishes_iff _ _ _ _ _ _).1 rx ?_ hHook⟩,
    s₂, hInline, (hook_publishes_iff _ _ _ _ _ _).2 sampleEntry_apart hInline⟩
  rintro slot ⟨rfl⟩
  exact sampleSlot_apart

/-- The first trampoline is not published. -/
theorem hook_unpublished : ¬ ∀ (env : Env) (ctrlRw target callback rx : Addr) (s s' : HookState),
    (∀ slot, (allocForTrampoline env.hookJit s.index).2 = .ok slot → SlotApart env slot target) →
    hook env ctrlRw target callback true s = some (rx, s') → HookPublishes env s s' := by
  intro h
  obtain ⟨rx, s', hHook⟩ := sampleHook_returns
  refine hook_not_published sampleSlot_apart rfl hHook (h _ _ _ _ _ _ _ ?_ hHook _ rfl)
  rintro slot ⟨rfl⟩
  exact sampleSlot_apart

end Wondar.Hook
