import Wondar.A64.SaveArea
import Wondar.Hook.Inline
import Wondar.Hook.Jump

/-!
# Running an inline hook

A hooked function jumps to an entry of the inline pool. The entry saves LR and calls
`exl_inline_hook_impl`, which saves the other registers, calls the callback of the entry on
the saved registers and loads them again; then the entry loads LR and branches on.

Each displacement of an entry is relative to the address of the instruction it is for, except
the last: `Branch(trampoline - (entryCb + 8))` is the instruction at `entryCb + 12`. So an
inline hook calls its callback once, on the right context, and loads back what the callback
left there, but it continues behind the first instruction of the trampoline
(`inlineHook_continues`), whatever the addresses are.
-/

namespace Wondar.Hook

open A64 Sys

/-! ## exl_inline_hook_impl -/

/-- `stp xt, xt2, [sp, #off]`. -/
def stpSp (rt rt2 : Reg) (off : Nat) : Instr := .stp rt rt2 31#5 (BitVec.ofNat 7 (off / 8))

/-- `ldp xt, xt2, [sp, #off]`. -/
def ldpSp (rt rt2 : Reg) (off : Nat) : Instr := .ldp rt rt2 31#5 (BitVec.ofNat 7 (off / 8))

/-- LR is not backed up: the entry does that. -/
def armBackupRegisters : List Instr :=
  [.subImm 31 31 0x100,
    stpSp 0 1 0x00, stpSp 2 3 0x10, stpSp 4 5 0x20,
    stpSp 6 7 0x30, stpSp 8 9 0x40, stpSp 10 11 0x50,
    stpSp 12 13 0x60, stpSp 14 15 0x70, stpSp 16 17 0x80,
    stpSp 18 19 0x90, stpSp 20 21 0xA0, stpSp 22 23 0xB0,
    stpSp 24 25 0xC0, stpSp 26 27 0xD0, stpSp 28 29 0xE0]

def armRecoverRegisters : List Instr :=
  [
    ldpSp 0 1 0x00, ldpSp 2 3 0x10, ldpSp 4 5 0x20,
    ldpSp 6 7 0x30, ldpSp 8 9 0x40, ldpSp 10 11 0x50,
    ldpSp 12 13 0x60, ldpSp 14 15 0x70, ldpSp 16 17 0x80,
    ldpSp 18 19 0x90, ldpSp 20 21 0xA0, ldpSp 22 23 0xB0,
    ldpSp 24 25 0xC0, ldpSp 26 27 0xD0, ldpSp 28 29 0xE0,
    .addImm 31 31 0x100]

def exlInlineHookImpl : List Instr :=
  armBackupRegisters ++
    [ -- LR contains a pointer to the called entry here.
      .mov 19 30,
      -- Load inline context for the first argument of the callback.
      .addImm 0 31 0,
      -- Load then call callback.
      .ldr 20 19 1,
      .blr 20,
      -- Keep a hold of entry pointer before restoring all the registers.
      .mov 30 19] ++
    armRecoverRegisters ++ [.ret 30]

/-- The assembled words. -/
def implWords : List Word :=
  [0xd10403ff#32, 0xa90007e0#32, 0xa9010fe2#32, 0xa90217e4#32, 0xa9031fe6#32,
    0xa90427e8#32, 0xa9052fea#32, 0xa90637ec#32, 0xa9073fee#32, 0xa90847f0#32,
    0xa9094ff2#32, 0xa90a57f4#32, 0xa90b5ff6#32, 0xa90c67f8#32, 0xa90d6ffa#32,
    0xa90e77fc#32, 0xaa1e03f3#32, 0x910003e0#32, 0xf9400674#32, 0xd63f0280#32,
    0xaa1303fe#32, 0xa94007e0#32, 0xa9410fe2#32, 0xa94217e4#32, 0xa9431fe6#32,
    0xa94427e8#32, 0xa9452fea#32, 0xa94637ec#32, 0xa9473fee#32, 0xa94847f0#32,
    0xa9494ff2#32, 0xa94a57f4#32, 0xa94b5ff6#32, 0xa94c67f8#32, 0xa94d6ffa#32,
    0xa94e77fc#32, 0x910403ff#32, 0xd65f03c0#32]

theorem decode_implWords : implWords.map decode = exlInlineHookImpl.map some := by decide

section

variable {other : Word → State → State} {C : Addr → Prop} {impl : Addr} {u : State}

/-- Where a call that was entered with the stack pointer `sp` saves the registers. -/
def saveArea (sp : Addr) : Addr := sp - 0x100#64

/-! The instructions around the two blocks of pairs. -/

theorem exec_sub (u : State) : (Instr.subImm 31 31 0x100).exec u =
    { u with pc := wordAt u.pc 1, sp := saveArea u.sp } := rfl

theorem exec_add (u : State) : (Instr.addImm 31 31 0x100).exec u =
    { u with pc := wordAt u.pc 1, sp := u.sp + 0x100#64 } := rfl

theorem exec_movEntry (u : State) : (Instr.mov 19 30).exec u =
    { u with pc := wordAt u.pc 1, x := Function.update u.x 19 (u.x 30) } := rfl

theorem exec_movLr (u : State) : (Instr.mov 30 19).exec u =
    { u with pc := wordAt u.pc 1, x := Function.update u.x 30 (u.x 19) } := rfl

theorem exec_movContext (u : State) : (Instr.addImm 0 31 0).exec u =
    { u with pc := wordAt u.pc 1, x := Function.update u.x 0 (u.sp + 0#64) } := rfl

theorem exec_ldrCallback (u : State) : (Instr.ldr 20 19 1).exec u =
    { u with
      pc := wordAt u.pc 1
      x := Function.update u.x 20 (load64 u.mem (wordAt (u.x 19) 2)) } := rfl

theorem exec_blr (u : State) : (Instr.blr 20).exec u =
    { u with pc := u.x 20, x := Function.update u.x 30 (wordAt u.pc 1) } := rfl

theorem exec_ret (u : State) : (Instr.ret 30).exec u = { u with pc := u.x 30 } := rfl

/-- The registers at the callback. -/
def callRegs (u : State) (impl : Addr) : Reg → BitVec 64 :=
  Function.update (Function.update (Function.update (Function.update u.x 19 (u.x 30)) 0 u.sp) 20
    (load64 u.mem (wordAt (u.x 30) 2))) 30 (wordAt impl 20)

variable (other) in
/-- The four instructions that call the callback. -/
theorem impl_callback (h : Loaded C impl implWords u.mem) (hPc : u.pc = wordAt impl 16) :
    Stays other C 4 u { u with pc := load64 u.mem (wordAt (u.x 30) 2), x := callRegs u impl } := by
  have hMov := h.step other (i := .mov 19 30) (by decide) (by decide) hPc
  rw [exec_movEntry, hPc, wordAt_wordAt] at hMov
  have hContext := h.step other (i := .addImm 0 31 0)
    (s := { u with pc := wordAt impl 17, x := Function.update u.x 19 (u.x 30) })
    (by decide) (by decide) rfl
  rw [exec_movContext, BitVec.add_zero, wordAt_wordAt] at hContext
  have hLdr := h.step other (i := .ldr 20 19 1)
    (s := { u with
      pc := wordAt impl 18
      x := Function.update (Function.update u.x 19 (u.x 30)) 0 u.sp })
    (by decide) (by decide) rfl
  rw [exec_ldrCallback, wordAt_wordAt] at hLdr
  have hBlr := h.step other (i := .blr 20)
    (s := { u with
      pc := wordAt impl 19
      x := Function.update (Function.update (Function.update u.x 19 (u.x 30)) 0 u.sp) 20
        (load64 u.mem (wordAt (u.x 30) 2)) })
    (by decide) (by decide) rfl
  rw [exec_blr, wordAt_wordAt] at hBlr
  exact hMov.trans (hContext.trans (hLdr.trans hBlr))

theorem decode_save : ∀ k (h : k < ((implWords.drop 1).take 15).length),
    decode ((implWords.drop 1).take 15)[k] = some (storePair k) := by decide

theorem decode_restore : ∀ k (h : k < ((implWords.drop 21).take 15).length),
    decode ((implWords.drop 21).take 15)[k] = some (loadPair k) := by decide

variable (other) in
/-- Until the callback: the registers are saved, and X0 points at them. -/
theorem impl_calls (h : Loaded C impl implWords u.mem) (hPc : u.pc = impl)
    (hArea : ∀ k < 60, ¬ C (wordAt (saveArea u.sp) k))
    (hEntry : C (wordAt (u.x 30) 2) ∧ C (wordAt (u.x 30) 3)) :
    ∃ sc, Stays other C 20 u sc ∧ sc.pc = load64 u.mem (wordAt (u.x 30) 2) ∧
      sc.sp = saveArea u.sp ∧ sc.mem = storeRegs (saveArea u.sp) u.x u.mem 30 ∧
      sc.x 0 = saveArea u.sp ∧ sc.x 19 = u.x 30 ∧ sc.x 30 = wordAt impl 20 := by
  have hKept : ∀ a, C a → storeRegs (saveArea u.sp) u.x u.mem 30 a = u.mem a :=
    fun a ha => storeRegs_frame fun k hk hSame => hArea k hk (hSame ▸ ha)
  have hSub := h.step other (k := 0) (i := .subImm 31 31 0x100) (by decide) (by decide)
    (hPc.trans (wordAt_zero _).symm)
  rw [exec_sub, hPc] at hSub
  have hSave := h.block other (k := 1) (n := 15)
    (s := { u with pc := wordAt impl 1, sp := saveArea u.sp }) (by decide) rfl
    (straight_save (by decide) decode_save fun k hk => hArea k (Nat.lt_of_lt_of_le hk (by decide)))
  have hSaved : ({ u with pc := wordAt impl 1, sp := saveArea u.sp } : State).saved 15 =
      { u with
        pc := wordAt impl 16
        sp := saveArea u.sp
        mem := storeRegs (saveArea u.sp) u.x u.mem 30 } := by
    simp [State.saved]
  change Stays other C 15 _ (State.saved _ 15) at hSave
  rw [hSaved] at hSave
  generalize storeRegs (saveArea u.sp) u.x u.mem 30 = saved at hKept hSave ⊢
  have hCall := impl_callback other (h.congr hKept)
    (u := { u with pc := wordAt impl 16, sp := saveArea u.sp, mem := saved }) rfl
  -- the save has left the callback of the entry alone
  have hLoad : load64 saved (wordAt (u.x 30) 2) = load64 u.mem (wordAt (u.x 30) 2) :=
    load64_congr (hKept _ hEntry.1) (by rw [wordAt_wordAt]; exact hKept _ hEntry.2)
  exact ⟨_, hSub.trans (hSave.trans hCall), hLoad, rfl, rfl, rfl, rfl, rfl⟩

variable (other) in
/-- Behind the callback: the registers are loaded, and control returns to the entry. -/
theorem impl_returns (h : Loaded C impl implWords u.mem) (hPc : u.pc = wordAt impl 20) :
    Stays other C 18 u { u with
      pc := u.x 19
      sp := u.sp + 0x100#64
      x := loadRegs u.sp u.mem (Function.update u.x 30 (u.x 19)) 30 } := by
  have hMov := h.step other (i := .mov 30 19) (by decide) (by decide) hPc
  rw [exec_movLr, hPc, wordAt_wordAt] at hMov
  have hRestore := h.block other (k := 21) (n := 15)
    (s := { u with pc := wordAt impl 21, x := Function.update u.x 30 (u.x 19) }) (by decide) rfl
    (straight_restore (by decide) decode_restore)
  change Stays other C 15 _ (State.restored _ 15) at hRestore
  have hAdd := h.step other (i := .addImm 31 31 0x100)
    (s := { u with
      pc := wordAt impl 36
      x := loadRegs u.sp u.mem (Function.update u.x 30 (u.x 19)) 30 })
    (by decide) (by decide) rfl
  rw [exec_add, wordAt_wordAt] at hAdd
  have hRet := h.step other (i := .ret 30)
    (s := { u with
      pc := wordAt impl 37
      sp := u.sp + 0x100#64
      x := loadRegs u.sp u.mem (Function.update u.x 30 (u.x 19)) 30 })
    (by decide) (by decide) rfl
  rw [exec_ret] at hRet
  have hRestored : ({ u with
      pc := wordAt impl 21
      x := Function.update u.x 30 (u.x 19) } : State).restored 15 =
      { u with
        pc := wordAt impl 36
        x := loadRegs u.sp u.mem (Function.update u.x 30 (u.x 19)) 30 } := by
    simp [State.restored]
  rw [hRestored] at hRestore
  exact hMov.trans (hRestore.trans (hAdd.trans hRet))

end

/-! ## The entry -/

theorem exec_sturLr (u : State) : (Instr.stur 30 31 0x1f0).exec u =
    { u with
      pc := wordAt u.pc 1
      mem := store64 u.mem (wordAt (saveArea u.sp) 60) (u.x 30) } := by
  have hAddr : u.sp + (0x1f0#9).signExtend 64 = wordAt (saveArea u.sp) 60 := by
    rw [show (0x1f0#9).signExtend 64 = -0x10#64 by decide, wordAt, saveArea]
    bv_omega
  rw [← hAddr]
  rfl

theorem exec_ldurLr (u : State) : (Instr.ldur 30 31 0x1f0).exec u =
    { u with
      pc := wordAt u.pc 1
      x := Function.update u.x 30 (load64 u.mem (wordAt (saveArea u.sp) 60)) } := by
  have hAddr : u.sp + (0x1f0#9).signExtend 64 = wordAt (saveArea u.sp) 60 := by
    rw [show (0x1f0#9).signExtend 64 = -0x10#64 by decide, wordAt, saveArea]
    bv_omega
  rw [← hAddr]
  rfl

/-- Both stores of an entry. -/
theorem writeEntry_phys (env : Env) (entryRw entryCb trampoline callback : Addr) (m : Machine) :
    (writeEntry env entryRw entryCb trampoline callback m).phys =
      storeWords env.mmu m.phys entryRw
        (entryWords entryCb env.impl trampoline ++ [loWord callback, hiWord callback]) := by
  rw [storeWords_append]
  rfl

/-- The entry in memory, under its executable address. -/
theorem writeEntry_code {env : Env} {entryRw entryCb : Addr} (trampoline callback : Addr)
    (m : Machine) (hAlias : env.mmu.Alias entryRw entryCb entrySize)
    (hUnfolded : env.mmu.Unfolded entryRw entrySize) :
    CodeAt ((writeEntry env entryRw entryCb trampoline callback m).view env.mmu) entryCb
      (entryWords entryCb env.impl trampoline ++ [loWord callback, hiWord callback]) := by
  have hView : (writeEntry env entryRw entryCb trampoline callback m).view env.mmu =
      fun a => (writeEntry env entryRw entryCb trampoline callback m).phys (env.mmu.tr a) := rfl
  rw [hView, writeEntry_phys]
  exact codeAt_store hUnfolded hAlias

/-- The callback behind the instructions. -/
theorem load64_callback {view : Addr → Word} {entryCb impl trampoline callback : Addr}
    (h : CodeAt view entryCb
      (entryWords entryCb impl trampoline ++ [loWord callback, hiWord callback])) :
    load64 view (wordAt entryCb 4) = callback := by
  have hLo := h 4 (by simp [entryWords])
  have hHi := h 5 (by simp [entryWords])
  rw [load64, wordAt_wordAt, hLo, hHi]
  exact ofWords_lo_hi callback

/-! ## The whole call -/

/-- The code of inline hook `i`: its entry and the implementation. -/
def InlineCode (env : Env) (i : Nat) (a : Addr) : Prop :=
  (∃ k < entrySize, a = wordAt (entryAt env.inlineHookJit.ro i) k) ∨
    ∃ k < implWords.length, a = wordAt env.impl k

instance (env : Env) (i : Nat) (a : Addr) : Decidable (InlineCode env i a) :=
  inferInstanceAs (Decidable (_ ∨ _))

/-- `ctx` holds the registers X0 to X30 of `s`, in the layout of `InlineCtx`. -/
def InlineCtx (mem : Addr → Word) (ctx : Addr) (s : State) : Prop :=
  ∀ r : Reg, r ≠ 31#5 → load64 mem (wordAt ctx (2 * r.toNat)) = s.x r

theorem reg_cases {r : Reg} (hr : r ≠ 31#5) : (r.toNat < 30 ∧ r ≠ 30) ∨ r = 30 := by
  bv_omega

/-- The entry backs up LR, and the implementation the other registers. -/
theorem inlineCtx_saved {mem : Addr → Word} {area : Addr} {lr : BitVec 64} {s : State}
    (hLr : load64 mem (wordAt area 60) = s.x 30) :
    InlineCtx (storeRegs area (Function.update s.x 30 lr) mem 30) area s := by
  intro r hr
  rcases reg_cases hr with ⟨hLt, hNe⟩ | rfl
  · rw [load64_storeRegs hLt (by omega), Function.update_of_ne hNe]
  · exact (load64_storeRegs_behind (j := 30) (by omega) (by omega)).trans hLr

/-- And they load them in the other order. -/
theorem inlineCtx_restored {mem : Addr → Word} {area : Addr} {x : Reg → BitVec 64} {s : State}
    (hX : s.x = Function.update (loadRegs area mem x 30) 30 (load64 mem (wordAt area 60))) :
    InlineCtx mem area s := by
  intro r hr
  rw [hX]
  rcases reg_cases hr with ⟨hLt, hNe⟩ | rfl
  · rw [Function.update_of_ne hNe, loadRegs, if_pos hLt]
  · rw [Function.update_self]
    rfl

/-- What the procedure call standard promises of a callback, as far as the implementation
relies on it; what it does to the context and to other memory is up to the callback. -/
structure Callee (C : Addr → Prop) (cb : State → State) : Prop where
  returns : ∀ s, (cb s).pc = s.x 30
  sp : ∀ s, (cb s).sp = s.sp
  saved : ∀ s r, 19 ≤ r.toNat → r.toNat ≤ 29 → (cb s).x r = s.x r
  code : ∀ s a, C a → (cb s).mem a = s.mem a

/-- Execution from `s` calls `callback` once, on a context with the registers of `s`, and
continues at `exit`, with the registers the callback left in the context and the stack pointer
of `s`. -/
def CallsThenContinues (other : Word → State → State) (C : Addr → Prop) (cb : State → State)
    (callback exit : Addr) (s : State) : Prop :=
  ∃ sc, Leaves other C s sc ∧ sc.pc = callback ∧ InlineCtx sc.mem (sc.x 0) s ∧
    ∃ s', Leaves other C (cb sc) s' ∧ s'.pc = exit ∧ s'.sp = s.sp ∧
      InlineCtx (cb sc).mem (sc.x 0) s'

/-- A call continues in one place only. -/
theorem CallsThenContinues.unique {other : Word → State → State} {C : Addr → Prop}
    {cb : State → State} {callback exit exit' : Addr} {s : State}
    (h : CallsThenContinues other C cb callback exit s)
    (h' : CallsThenContinues other C cb callback exit' s) : exit = exit' := by
  obtain ⟨sc, hLeaves, -, -, t, hEnd, rfl, -⟩ := h
  obtain ⟨sc', hLeaves', -, -, t', hEnd', rfl, -⟩ := h'
  obtain rfl := hLeaves.unique hLeaves'
  rw [hEnd.unique hEnd']

/-- Where inline hook `i` lies: its aliases, the ranges of its branches, and that neither its
callback nor its trampoline overlap its code. -/
structure InlineReady (env : Env) (i : Nat) (trampoline callback : Addr) : Prop where
  mapped : env.mmu.Alias (entryAt env.inlineHookJit.rw i) (entryAt env.inlineHookJit.ro i) entrySize
  unfolded : env.mmu.Unfolded (entryAt env.inlineHookJit.rw i) entrySize
  aligned : Aligned (entryAt env.inlineHookJit.ro i)
  alignedImpl : Aligned env.impl
  alignedTrampoline : Aligned trampoline
  implReach : Armv8.InReach (entryAt env.inlineHookJit.ro i + 4#64) env.impl
  trampolineReach : Armv8.InReach (entryAt env.inlineHookJit.ro i + 8#64) trampoline
  callback_out : ¬ InlineCode env i callback
  trampoline_out : ∀ j < trampolineSize, ¬ InlineCode env i (wordAt trampoline j)

/-- `s` is about to execute entry `i`, as `HookInline` wrote it. -/
structure AtEntry (env : Env) (i : Nat) (trampoline callback : Addr) (m : Machine) (s : State) :
    Prop where
  pc : s.pc = entryAt env.inlineHookJit.ro i
  entry : ∀ k < entrySize, s.mem (wordAt (entryAt env.inlineHookJit.ro i) k) =
    (writeEntry env (entryAt env.inlineHookJit.rw i) (entryAt env.inlineHookJit.ro i) trampoline
      callback m).view env.mmu (wordAt (entryAt env.inlineHookJit.ro i) k)
  impl : CodeAt s.mem env.impl implWords
  /-- The save area is no code. -/
  stack : ∀ k < 64, ¬ InlineCode env i (wordAt (saveArea s.sp) k)

section

variable {other : Word → State → State} {env : Env} {i : Nat} {trampoline callback : Addr}
  {m : Machine} {s : State} {cb : State → State}

/-- The words of the entry, and its callback. -/
def entryImage (env : Env) (i : Nat) (trampoline callback : Addr) : List Word :=
  entryWords (entryAt env.inlineHookJit.ro i) env.impl trampoline ++
    [loWord callback, hiWord callback]

theorem AtEntry.loaded (h : AtEntry env i trampoline callback m s)
    (hReady : InlineReady env i trampoline callback) :
    Loaded (InlineCode env i) (entryAt env.inlineHookJit.ro i)
        (entryImage env i trampoline callback) s.mem ∧
      Loaded (InlineCode env i) env.impl implWords s.mem := by
  refine ⟨⟨fun k hk => ?_, fun k hk => Or.inl ⟨k, hk, rfl⟩⟩, h.impl, fun k hk => Or.inr ⟨k, hk, rfl⟩⟩
  rw [h.entry k hk]
  exact writeEntry_code trampoline callback m hReady.mapped hReady.unfolded k hk

theorem lt_entryImage {k : Nat} (hk : k < entrySize) :
    k < (entryImage env i trampoline callback).length := hk

/-- The four instructions. Each displacement but the last is relative to the instruction it is
in. -/
theorem decode_entryImage (env : Env) (i : Nat) (trampoline callback : Addr) :
    decode ((entryImage env i trampoline callback).get ⟨0, lt_entryImage (by decide)⟩) =
        some (.stur 30 31 0x1f0) ∧
      decode ((entryImage env i trampoline callback).get ⟨1, lt_entryImage (by decide)⟩) =
        some (.bl (Armv8.imm26 (env.impl - wordAt (entryAt env.inlineHookJit.ro i) 1))) ∧
      decode ((entryImage env i trampoline callback).get ⟨2, lt_entryImage (by decide)⟩) =
        some (.ldur 30 31 0x1f0) ∧
      decode ((entryImage env i trampoline callback).get ⟨3, lt_entryImage (by decide)⟩) =
        some (.b (Armv8.imm26 (trampoline - wordAt (entryAt env.inlineHookJit.ro i) 2))) :=
  ⟨congrArg decode Armv8.stur_lr, Armv8.decode_branchLink _, congrArg decode Armv8.ldur_lr,
    Armv8.decode_branch _⟩

theorem exec_bl {e t : Addr} (u : State) (he : Aligned e) (ht : Aligned t)
    (hReach : Armv8.InReach e t) (hPc : u.pc = e) : (Instr.bl (Armv8.imm26 (t - e))).exec u =
      { u with pc := t, x := Function.update u.x 30 (wordAt e 1) } := by
  have hTarget : u.pc + branchOffset (Armv8.imm26 (t - e)) = t := by
    rw [Armv8.branchOffset_imm26 (ht.sub he) hReach, hPc]
    grind
  subst hPc
  rw [Instr.exec, State.jump, hTarget]
  rfl

variable (other) in
/-- From the entry to the implementation. -/
theorem entry_calls (hReady : InlineReady env i trampoline callback)
    (hEntry : Loaded (InlineCode env i) (entryAt env.inlineHookJit.ro i)
      (entryImage env i trampoline callback) s.mem)
    (hPc : s.pc = entryAt env.inlineHookJit.ro i)
    (hKept : ∀ a, InlineCode env i a →
      store64 s.mem (wordAt (saveArea s.sp) 60) (s.x 30) a = s.mem a) :
    Stays other (InlineCode env i) 2 s
      { s with
        pc := env.impl
        x := Function.update s.x 30 (wordAt (entryAt env.inlineHookJit.ro i) 2)
        mem := store64 s.mem (wordAt (saveArea s.sp) 60) (s.x 30) } := by
  obtain ⟨hStur, hBl, -, -⟩ := decode_entryImage env i trampoline callback
  have hBackup := hEntry.step other (lt_entryImage (by decide)) hStur
    (hPc.trans (wordAt_zero _).symm)
  rw [exec_sturLr, hPc] at hBackup
  have hBranch := (hEntry.congr hKept).step other
    (s := { s with
      pc := wordAt (entryAt env.inlineHookJit.ro i) 1
      mem := store64 s.mem (wordAt (saveArea s.sp) 60) (s.x 30) })
    (lt_entryImage (by decide)) hBl rfl
  rw [exec_bl _ (hReady.aligned.wordAt 1) hReady.alignedImpl hReady.implReach rfl,
    wordAt_wordAt] at hBranch
  exact hBackup.trans hBranch

variable (other) in
/-- From the implementation to behind the first word of the trampoline. -/
theorem entry_continues (hReady : InlineReady env i trampoline callback)
    (hEntry : Loaded (InlineCode env i) (entryAt env.inlineHookJit.ro i)
      (entryImage env i trampoline callback) s.mem)
    (hPc : s.pc = wordAt (entryAt env.inlineHookJit.ro i) 2) :
    Stays other (InlineCode env i) 2 s
      { s with
        pc := wordAt trampoline 1
        x := Function.update s.x 30 (load64 s.mem (wordAt (saveArea s.sp) 60)) } := by
  obtain ⟨-, -, hLdur, hB⟩ := decode_entryImage env i trampoline callback
  have hRestore := hEntry.step other (lt_entryImage (by decide)) hLdur hPc
  rw [exec_ldurLr, hPc, wordAt_wordAt] at hRestore
  have hBranch := hEntry.step other
    (s := { s with
      pc := wordAt (entryAt env.inlineHookJit.ro i) 3
      x := Function.update s.x 30 (load64 s.mem (wordAt (saveArea s.sp) 60)) })
    (lt_entryImage (by decide)) hB rfl
  -- the displacement is relative to the instruction before
  have hTarget : wordAt (entryAt env.inlineHookJit.ro i) 3 + branchOffset
      (Armv8.imm26 (trampoline - wordAt (entryAt env.inlineHookJit.ro i) 2)) = wordAt trampoline 1 := by
    rw [Armv8.branchOffset_imm26 (hReady.alignedTrampoline.sub (hReady.aligned.wordAt 2))
      hReady.trampolineReach]
    unfold wordAt
    grind
  rw [Instr.exec, State.jump, hTarget] at hBranch
  exact hRestore.trans hBranch

variable (other) in
/-- An inline hook calls its callback and continues behind the first word of its trampoline. -/
theorem inlineHook_calls (hReady : InlineReady env i trampoline callback)
    (h : AtEntry env i trampoline callback m s) (hCallee : Callee (InlineCode env i) cb) :
    CallsThenContinues other (InlineCode env i) cb callback (wordAt trampoline 1) s := by
  obtain ⟨hEntry, hImpl⟩ := h.loaded hReady
  -- the backup of LR is behind the registers of the save area
  have hKept : ∀ a, InlineCode env i a →
      store64 s.mem (wordAt (saveArea s.sp) 60) (s.x 30) a = s.mem a := fun a ha =>
    store64_frame (fun hSame => h.stack 60 (by omega) (hSame ▸ ha))
      (fun hSame => h.stack 61 (by omega) (by rw [← wordAt_wordAt _ 60 1, ← hSame]; exact ha))
  have hEnter := entry_calls other hReady hEntry h.pc hKept
  have hBackup : load64 (store64 s.mem (wordAt (saveArea s.sp) 60) (s.x 30))
      (wordAt (saveArea s.sp) 60) = s.x 30 := load64_store64 ..
  generalize store64 s.mem (wordAt (saveArea s.sp) 60) (s.x 30) = mem at hKept hEnter hBackup
  have hLiteral : ∀ k < 2, InlineCode env i
      (wordAt (wordAt (entryAt env.inlineHookJit.ro i) 2) (2 + k)) := fun k hk => by
    rw [wordAt_wordAt]
    exact hEntry.inside _ (lt_entryImage (by unfold entrySize; omega))
  obtain ⟨sc, hCalls, hScPc, hScSp, hScMem, hScCtx, hScEntry, hScLr⟩ := impl_calls other
    (u := { s with
      pc := env.impl
      x := Function.update s.x 30 (wordAt (entryAt env.inlineHookJit.ro i) 2)
      mem := mem }) (hImpl.congr hKept) rfl (fun k hk => h.stack k (by omega))
    ⟨hLiteral 0 (by omega), hLiteral 1 (by omega)⟩
  dsimp only at hScPc hScSp hScMem hScCtx hScEntry hScLr
  rw [Function.update_self] at hScPc hScEntry
  -- the callback of the entry
  have hCallback : load64 mem (wordAt (wordAt (entryAt env.inlineHookJit.ro i) 2) 2) = callback := by
    rw [wordAt_wordAt]
    exact load64_callback (hEntry.congr hKept).words
  rw [hCallback] at hScPc
  refine ⟨sc, ⟨_, hEnter.trans hCalls, hScPc ▸ hReady.callback_out⟩, hScPc, ?_, ?_⟩
  · rw [hScMem, hScCtx]
    exact inlineCtx_saved hBackup
  · have hCbMem : ∀ a, InlineCode env i a → (cb sc).mem a = s.mem a := fun a ha => by
      rw [hCallee.code sc a ha, hScMem, storeRegs_frame, hKept a ha]
      exact fun k hk hSame => h.stack k (by omega) (hSame ▸ ha)
    have hReturn := impl_returns other (hImpl.congr hCbMem)
      ((hCallee.returns sc).trans hScLr)
    rw [hCallee.saved sc 19 (by decide) (by decide), hScEntry, hCallee.sp, hScSp] at hReturn
    have hExit := entry_continues other hReady (hEntry.congr hCbMem)
      (s := { cb sc with
        pc := wordAt (entryAt env.inlineHookJit.ro i) 2
        sp := saveArea s.sp + 0x100#64
        x := loadRegs (saveArea s.sp) (cb sc).mem
          (Function.update (cb sc).x 30 (wordAt (entryAt env.inlineHookJit.ro i) 2)) 30 }) rfl
    have hSp : saveArea s.sp + 0x100#64 = s.sp := BitVec.sub_add_cancel ..
    rw [hSp] at hReturn hExit
    rw [hScCtx]
    exact ⟨_, ⟨_, hReturn.trans hExit, hReady.trampoline_out 1 (by decide)⟩, rfl, rfl,
      inlineCtx_restored rfl⟩

/-- **Inline hooks.** Whatever the addresses and the callback are, an inline hook calls the
callback once on the right context and continues behind the first instruction of the trampoline,
not at the trampoline. -/
theorem inlineHook_continues (hReady : InlineReady env i trampoline callback)
    (h : AtEntry env i trampoline callback m s) (hCallee : Callee (InlineCode env i) cb) :
    CallsThenContinues other (InlineCode env i) cb callback (wordAt trampoline 1) s ∧
      ¬ CallsThenContinues other (InlineCode env i) cb callback trampoline s := by
  have hBehind := inlineHook_calls other hReady h hCallee
  refine ⟨hBehind, fun hAt => ?_⟩
  have hSame := wordAt_inj (p := trampoline) (i := 1) (j := 0) (by omega) (by omega)
    (by rw [wordAt_zero]; exact hBehind.unique hAt)
  omega

end

/-! ## The first inline hook -/

/-- About to execute the first entry, with the implementation loaded. -/
def sampleAtEntry : State where
  pc := 0x30000#64
  x r := r.setWidth 64
  sp := 0x80000#64
  nzcv := 0#4
  v _ := 0#128
  mem a := (implWords[(a - 0x40000#64).toNat / 4]?).getD
    ((writeEntry sampleEnv 0xa0000#64 0x30000#64 0x20000#64 0x60000#64 sampleState.mach).view
      sampleMmu a)

theorem sample_inlineReady : InlineReady sampleEnv 0 0x20000#64 0x60000#64 where
  mapped := by decide +kernel
  unfolded := by decide +kernel
  aligned := by decide
  alignedImpl := by decide
  alignedTrampoline := by decide
  implReach := by decide
  trampolineReach := by decide
  callback_out := by decide
  trampoline_out := by decide +kernel

theorem sample_atEntry :
    AtEntry sampleEnv 0 0x20000#64 0x60000#64 sampleState.mach sampleAtEntry where
  pc := by decide
  entry := by decide +kernel
  impl := by unfold CodeAt; decide +kernel
  stack := by decide +kernel

theorem sample_callee : Callee (InlineCode sampleEnv 0) fun s => { s with pc := s.x 30 } where
  returns _ := rfl
  sp _ := rfl
  saved _ _ _ _ := rfl
  code _ _ _ := rfl

theorem inlineHook_continues_first :
    CallsThenContinues (fun _ s => s.next) (InlineCode sampleEnv 0) (fun s => { s with pc := s.x 30 })
        0x60000#64 0x20004#64 sampleAtEntry ∧
      ¬ CallsThenContinues (fun _ s => s.next) (InlineCode sampleEnv 0)
        (fun s => { s with pc := s.x 30 }) 0x60000#64 0x20000#64 sampleAtEntry :=
  inlineHook_continues sample_inlineReady sample_atEntry sample_callee

/-- The first inline hook skips the first instruction of its trampoline. -/
theorem inlineHook_skips : ¬ ∀ (other : Word → State → State) (env : Env) (i : Nat)
    (trampoline callback : Addr) (m : Machine) (s : State) (cb : State → State),
    InlineReady env i trampoline callback → AtEntry env i trampoline callback m s →
    Callee (InlineCode env i) cb →
    CallsThenContinues other (InlineCode env i) cb callback trampoline s := by
  intro h
  have hAt := h (fun _ s => s.next) _ _ _ _ _ _ _ sample_inlineReady sample_atEntry sample_callee
  have hBehind := inlineHook_calls (fun _ s => s.next) sample_inlineReady sample_atEntry
    sample_callee
  exact absurd (hBehind.unique hAt) (by decide)

end Wondar.Hook
