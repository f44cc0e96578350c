import Wondar.A64.Memory
import Wondar.A64.PcRel
import Wondar.A64.Run
import Wondar.Program.ExceptionHandler
import Wondar.Sys.CacheLines
import Wondar.Sys.RwPages

/-!
# Installing the exception handler

The kernel delivers an exception to the first word of rtld. `installExceptionHandler` writes three
instructions there, and behind them the address of `phaseOneHandler`, each through a `RwPages` of
eight bytes.

* `installExceptionHandler_enters`: from then on an exception goes to `phaseOneHandler`, with no
  register changed but X30. In between it goes wherever the eight bytes behind the instructions say;
  where a handler has been installed before, it goes to `phaseOneHandler` all the time.
* `installExceptionHandler_published`: the third instruction is not in the range that is flushed. It
  is published all the same where a line of either cache has sixteen bytes or more.
-/

namespace Wondar.Handler

open A64 Coherence Sys

/-- `text` is `m_Text.m_Start` of rtld. The others are what `virtmemFindAslr` finds for the two
`RwPages`, and the address of the function. -/
structure HandlerSite where
  text : Addr
  branchRw : Addr
  pointerRw : Addr
  phaseOneHandler : Addr

/-- A `RwPages` of eight bytes. -/
def patcher (ro alignedRw : Addr) : Claim :=
  ⟨ro, alignedRw + (ro - alignDown ro pageSize), 8#64, none⟩

/-- `ADR X30, #0xc; LDR X30, [X30]; BR X30`. -/
def handlerBranch : List Word := [0x1000007e#32, 0xf94003de#32, 0xd61f03c0#32]

namespace HandlerSite

variable {ν : Type} (mmu : Mmu) (site : HandlerSite)

def branchPatcher : Claim := patcher site.text site.branchRw

def pointerPatcher : Claim := patcher (site.text + 0xc#64) site.pointerRw

/-- The statements behind the assignment of `handlerFunc`, with those of the two destructors. -/
def stmts : List (Mach ν → Mach ν) :=
  let branchPtr := site.branchPatcher.rw
  [fun m => m.store mmu branchPtr [0x1000007e#32],
    fun m => m.store mmu (wordAt branchPtr 1) [0xf94003de#32],
    fun m => m.store mmu (wordAt branchPtr 2) [0xd61f03c0#32],
    fun m => m.record site.branchPatcher.destructorFlush,
    fun m => m.store64 mmu site.pointerPatcher.rw site.phaseOneHandler,
    fun m => m.record site.pointerPatcher.destructorFlush]

/-- Memory behind the first `k` statements. -/
def installing (k : Nat) (m : Mach ν) : Mach ν :=
  ((site.stmts mmu).take k).foldl (fun m stmt => stmt m) m

end HandlerSite

/-- `installExceptionHandler`. An empty function is `none`. -/
def installExceptionHandler {ν : Type} (mmu : Mmu) (site : HandlerSite) (handler : Option CatchFunc)
    (h : Handlers) (m : Mach ν) : Handlers × Mach ν :=
  ({ h with handlerFunc := handler }, site.installing mmu (site.stmts (ν := ν) mmu).length m)

/-! ## Entering -/

/-- The instructions and the address. -/
def HandlerSite.Code (site : HandlerSite) (a : Addr) : Prop := ∃ k < 5, a = wordAt site.text k

/-- An exception goes to `target`, with nothing changed but X30. -/
def EntersAt {ν : Type} (mmu : Mmu) (site : HandlerSite) (target : Addr) (m : Mach ν) : Prop :=
  ∀ other, Reaches (withPcRel other) 30#5 site.Code (m.view mmu) ⟨site.text, none⟩
    ⟨target, some target⟩

section

variable {ν : Type} {mmu : Mmu} {site : HandlerSite} {m : Mach ν} {view : Addr → Word}
  {other : Word → State → State}

theorem HandlerSite.code_wordAt {k : Nat} (hk : k < 5) : site.Code (wordAt site.text k) :=
  ⟨k, hk, rfl⟩

/-- `ADR X30, #0xc`. -/
theorem reaches_branchAdr (hWord : view site.text = 0x1000007e#32) :
    Reaches (withPcRel other) 30#5 site.Code view ⟨site.text, none⟩
      ⟨wordAt site.text 1, some (wordAt site.text 3)⟩ := by
  have hCode : site.Code site.text := ⟨0, by decide, (wordAt_zero _).symm⟩
  have hDecode : decode 0x1000007e#32 = none := by decide
  have hAdr : decodePcRel 0x1000007e#32 = some (.adr 30#5 12#21) := by decide
  intro s hAt hAgree
  have hPc : s.pc = site.text := hAt.1
  have hFetch : s.mem s.pc = 0x1000007e#32 := by rw [hPc, hAgree _ hCode, hWord]
  have hRun : run (withPcRel other) 1 s = (s.setGpr 30#5 (wordAt s.pc 3)).next := by
    simp only [run, step, exec, hFetch, hDecode, withPcRel, hAdr, PcRel.exec]
    rfl
  refine ⟨1, ?_, ?_⟩
  · rw [hRun, hPc]
    refine ⟨congrArg (· + 4#64) hPc, fun val hVal => ?_⟩
    cases hVal
    simp [State.setGpr]
  · rw [hRun]
    simp [OnlyScratch, State.setGpr, State.next, State.jump]

/-- `LDR X30, [X30]`. -/
theorem reaches_branchLdr (hWord : view (wordAt site.text 1) = 0xf94003de#32) :
    Reaches other 30#5 site.Code view ⟨wordAt site.text 1, some (wordAt site.text 3)⟩
      ⟨wordAt site.text 2, some (load64 view (wordAt site.text 3))⟩ := by
  have hLdr : decode 0xf94003de#32 = some (.ldr 30#5 30#5 0#12) := by decide
  refine reaches_step (HandlerSite.code_wordAt (by decide)) ((congrArg decode hWord).trans hLdr)
    fun s hAt hAgree => ?_
  have hBase : s.x 30#5 = wordAt site.text 3 := hAt.2 _ rfl
  have hLoad : load64 s.mem (wordAt site.text 3) = load64 view (wordAt site.text 3) := by
    have hNext : wordAt (wordAt site.text 3) 1 = wordAt site.text 4 := wordAt_wordAt ..
    rw [load64, load64, hNext, hAgree _ (HandlerSite.code_wordAt (by decide)),
      hAgree _ (HandlerSite.code_wordAt (by decide))]
  have hExec : Instr.exec s (.ldr 30#5 30#5 0#12) =
      (s.setGpr 30#5 (load64 view (wordAt site.text 3))).next := by
    rw [← hLoad, ← hBase]
    simp [Instr.exec, State.gprSp]
  rw [hExec]
  have hNext : wordAt site.text 1 + 4#64 = wordAt site.text 2 := wordAt_wordAt site.text 1 1
  refine ⟨⟨(congrArg (· + 4#64) hAt.1).trans hNext, fun val hVal => ?_⟩, ?_⟩
  · cases hVal
    simp [State.setGpr]
  · simp [OnlyScratch, State.setGpr, State.next, State.jump]

theorem entersAt_of_code (hCode : CodeAt (m.view mmu) site.text handlerBranch) :
    EntersAt mmu site (load64 (m.view mmu) (wordAt site.text 3)) m := by
  intro other
  have hWord (k : Nat) (hk : k < handlerBranch.length) := hCode k hk
  have hAdr := hWord 0 (by decide)
  rw [wordAt_zero] at hAdr
  have hBr : decode (m.view mmu (wordAt site.text 2)) = some (.br 30#5) := by
    rw [hWord 2 (by decide)]
    decide
  exact ((reaches_branchAdr hAdr).trans (reaches_branchLdr (hWord 1 (by decide)))).trans
    (reaches_br (by decide) (HandlerSite.code_wordAt (by decide)) hBr)

/-! ## The statements -/

/-- The two `RwPages` map the words that are written to. -/
structure HandlerSite.Mapped (site : HandlerSite) (mmu : Mmu) : Prop where
  unfolded : mmu.Unfolded site.text 5
  branch : mmu.Alias site.branchPatcher.rw site.text 3
  pointer : mmu.Alias site.pointerPatcher.rw (wordAt site.text 3) 2

/-- What is there behind all of them. -/
def HandlerSite.words (site : HandlerSite) : List Word :=
  handlerBranch ++ [loWord site.phaseOneHandler, hiWord site.phaseOneHandler]

def HandlerSite.word (site : HandlerSite) (k : Nat) : Word := site.words.getD k 0#32

/-- How many of them there are behind so many statements. -/
def HandlerSite.written : Nat → Nat
  | 0 => 0
  | 1 => 1
  | 2 => 2
  | 3 | 4 => 3
  | _ => 5

theorem written_mono (n : Nat) : HandlerSite.written n ≤ HandlerSite.written (n + 1) := by
  match n with
  | 0 | 1 | 2 | 3 | 4 | n + 5 => simp [HandlerSite.written]

/-- A store to word `j` of the site, through an alias of it. -/
theorem view_store_word (hUnfolded : mmu.Unfolded site.text 5) {a : Addr} {w : Word} {j k : Nat}
    (hj : j < 5) (hk : k < 5) (hAlias : mmu.tr a = mmu.tr (wordAt site.text j)) :
    (m.store mmu a [w]).view mmu (wordAt site.text k) =
      if k = j then w else m.view mmu (wordAt site.text k) := by
  have hPhys : (m.store mmu a [w]).phys =
      Function.update m.phys (mmu.tr (wordAt site.text j)) w := by
    rw [← hAlias]
    rfl
  rw [Mach.view, Mach.read, hPhys]
  by_cases hSame : k = j
  · rw [if_pos hSame, hSame, Function.update_self]
  · rw [if_neg hSame, Function.update_of_ne fun h => hSame (hUnfolded k j hk hj h)]
    rfl

/-- A statement writes those words that are to be there behind it and have not been before. -/
theorem view_installing_succ (hMapped : site.Mapped mmu) {n k : Nat} (hn : n < 6) (hk : k < 5) :
    (site.installing mmu (n + 1) m).view mmu (wordAt site.text k) =
      if HandlerSite.written n ≤ k ∧ k < HandlerSite.written (n + 1) then site.word k
      else (site.installing mmu n m).view mmu (wordAt site.text k) := by
  have hStore (j : Nat) (hj : j < 3) (m : Mach ν) (w : Word) :
      (m.store mmu (wordAt site.branchPatcher.rw j) [w]).view mmu (wordAt site.text k) =
        if k = j then w else m.view mmu (wordAt site.text k) :=
    view_store_word hMapped.unfolded (by omega) hk (hMapped.branch j hj)
  have hPointer (j : Nat) (hj : j < 2) (m : Mach ν) (w : Word) :
      (m.store mmu (wordAt site.pointerPatcher.rw j) [w]).view mmu (wordAt site.text k) =
        if k = 3 + j then w else m.view mmu (wordAt site.text k) := by
    apply view_store_word hMapped.unfolded (by omega) hk
    rw [← wordAt_wordAt]
    exact hMapped.pointer j hj
  have hOne {j : Nat} {w old : Word} (hWord : site.word j = w) :
      (if k = j then w else old) = if j ≤ k ∧ k < j + 1 then site.word k else old := by
    by_cases hSame : k = j
    · rw [if_pos hSame, if_pos (by omega), hSame, hWord]
    · rw [if_neg hSame, if_neg (by omega)]
  match n with
  | 0 =>
    have hFirst := hStore 0 (by decide) m 0x1000007e#32
    rw [wordAt_zero] at hFirst
    exact hFirst.trans (hOne rfl)
  | 1 => exact (hStore 1 (by decide) _ _).trans (hOne rfl)
  | 2 => exact (hStore 2 (by decide) _ _).trans (hOne rfl)
  | 3 => exact (if_neg (by simp only [HandlerSite.written]; omega)).symm
  | 4 =>
    -- one store of two words
    have hLow := hPointer 0 (by decide) (site.installing mmu 4 m) (loWord site.phaseOneHandler)
    rw [wordAt_zero] at hLow
    have hHigh := hPointer 1 (by decide)
      ((site.installing mmu 4 m).store mmu site.pointerPatcher.rw [loWord site.phaseOneHandler])
      (hiWord site.phaseOneHandler)
    rw [hLow] at hHigh
    refine hHigh.trans ?_
    simp only [HandlerSite.written]
    by_cases h4 : k = 3 + 1
    · subst h4
      rfl
    · by_cases h3 : k = 3 + 0
      · subst h3
        rfl
      · rw [if_neg h4, if_neg h3, if_neg (by omega)]
  | 5 => exact (if_neg (by simp only [HandlerSite.written]; omega)).symm

theorem view_installing (hMapped : site.Mapped mmu) {n k : Nat} (hn : n ≤ 6) (hk : k < 5) :
    (site.installing mmu n m).view mmu (wordAt site.text k) =
      if k < HandlerSite.written n then site.word k else m.view mmu (wordAt site.text k) := by
  induction n with
  | zero => rfl
  | succ n ih =>
    have hMono := written_mono n
    rw [view_installing_succ hMapped (by omega) hk, ih (by omega)]
    by_cases hBefore : k < HandlerSite.written n
    · rw [if_neg (by omega), if_pos hBefore, if_pos (by omega)]
    · rw [if_neg hBefore]
      exact if_congr (by omega) rfl rfl

theorem installing_frame (hMapped : site.Mapped mmu) {p : BitVec 64}
    (hOutside : ∀ k < 5, p ≠ mmu.tr (wordAt site.text k)) (n : Nat) :
    (site.installing mmu n m).phys p = m.phys p := by
  have hBranch (j : Nat) (hj : j < 3) : p ≠ mmu.tr (wordAt site.branchPatcher.rw j) := by
    rw [hMapped.branch j hj]
    exact hOutside j (by omega)
  have hPointer (j : Nat) (hj : j < 2) : p ≠ mmu.tr (wordAt site.pointerPatcher.rw j) := by
    rw [hMapped.pointer j hj, wordAt_wordAt]
    exact hOutside (3 + j) (by omega)
  have hAll : ∀ stmt ∈ site.stmts (ν := ν) mmu, ∀ m, (stmt m).phys p = m.phys p := by
    simp only [HandlerSite.stmts, List.forall_mem_cons]
    refine ⟨fun m => ?_, fun m => ?_, fun m => ?_, fun m => rfl, fun m => ?_, fun m => rfl,
      fun stmt hMem => by cases hMem⟩
    · exact Mach.store_frame fun i hi => hBranch i (Nat.lt_trans hi (by decide))
    · apply Mach.store_frame
      intro i hi
      rw [wordAt_wordAt]
      exact hBranch (1 + i) (Nat.lt_trans (Nat.add_lt_add_left hi 1) (by decide))
    · apply Mach.store_frame
      intro i hi
      rw [wordAt_wordAt]
      exact hBranch (2 + i) (Nat.add_lt_add_left hi 2)
    · exact Mach.store_frame hPointer
  exact List.foldlRecOn (motive := fun m' => m'.phys p = m.phys p) _ _ rfl
    fun m' hSame stmt hMem => (hAll stmt (List.mem_of_mem_take hMem) m').trans hSame

/-- Memory holds the instructions and the address. -/
def HandlerSite.Installed (site : HandlerSite) (mmu : Mmu) (m : Mach ν) : Prop :=
  ∀ k < 5, m.view mmu (wordAt site.text k) = site.word k

theorem codeAt_handlerBranch
    (hWords : ∀ k < 3, m.view mmu (wordAt site.text k) = site.word k) :
    CodeAt (m.view mmu) site.text handlerBranch := by
  intro k hk
  rw [hWords k hk]
  match k, hk with
  | 0, _ | 1, _ | 2, _ => rfl

theorem HandlerSite.Installed.enters (h : site.Installed mmu m) :
    EntersAt mmu site site.phaseOneHandler m := by
  have hNext : wordAt (wordAt site.text 3) 1 = wordAt site.text 4 := wordAt_wordAt ..
  have hLoad : load64 (m.view mmu) (wordAt site.text 3) = site.phaseOneHandler := by
    rw [load64, hNext, h 3 (by decide), h 4 (by decide)]
    exact ofWords_lo_hi _
  rw [← hLoad]
  exact entersAt_of_code (codeAt_handlerBranch fun k hk => h k (by omega))

theorem installed_installExceptionHandler (hMapped : site.Mapped mmu) (handler : Option CatchFunc)
    (h : Handlers) (m : Mach ν) :
    site.Installed mmu (installExceptionHandler mmu site handler h m).2 :=
  fun _ hk => (view_installing hMapped (Nat.le_refl 6) hk).trans (if_pos hk)

/-- Another call writes what is there. -/
theorem HandlerSite.Installed.installing (h : site.Installed mmu m) (hMapped : site.Mapped mmu)
    {n : Nat} (hn : n ≤ 6) : site.Installed mmu (site.installing mmu n m) := by
  intro k hk
  rw [view_installing hMapped hn hk, h k hk, ite_self]

/-- Between the last instruction and the address. -/
theorem entersAt_between (hMapped : site.Mapped mmu) {n : Nat} (hLow : 3 ≤ n) (hHigh : n ≤ 4) :
    EntersAt mmu site (load64 (m.view mmu) (wordAt site.text 3)) (site.installing mmu n m) := by
  have hWritten : HandlerSite.written n = 3 := by
    match n, hLow, hHigh with
    | 3, _, _ | 4, _, _ => rfl
  have hNext : wordAt (wordAt site.text 3) 1 = wordAt site.text 4 := wordAt_wordAt ..
  have hOld : load64 ((site.installing mmu n m).view mmu) (wordAt site.text 3) =
      load64 (m.view mmu) (wordAt site.text 3) := by
    rw [load64, load64, hNext, view_installing hMapped (by omega) (by decide),
      view_installing hMapped (by omega) (by decide), hWritten]
    rfl
  rw [← hOld]
  apply entersAt_of_code
  apply codeAt_handlerBranch
  intro k hk
  rw [view_installing hMapped (by omega) (by omega), hWritten, if_pos hk]

/-- **Installing.** -/
theorem installExceptionHandler_enters (hMapped : site.Mapped mmu) (handler : Option CatchFunc)
    (h : Handlers) (m : Mach ν) :
    EntersAt mmu site site.phaseOneHandler (installExceptionHandler mmu site handler h m).2 ∧
      (∀ n, 3 ≤ n → n ≤ 4 → EntersAt mmu site (load64 (m.view mmu) (wordAt site.text 3))
        (site.installing mmu n m)) ∧
      (site.Installed mmu m →
        ∀ n ≤ 6, EntersAt mmu site site.phaseOneHandler (site.installing mmu n m)) ∧
      ∀ p, (∀ k < 5, p ≠ mmu.tr (wordAt site.text k)) →
        (installExceptionHandler mmu site handler h m).2.phys p = m.phys p :=
  ⟨(installed_installExceptionHandler hMapped handler h m).enters,
    fun _ hLow hHigh => entersAt_between hMapped hLow hHigh,
    fun hInstalled _ hn => (hInstalled.installing hMapped hn).enters,
    fun _ hOutside => installing_frame hMapped hOutside _⟩

/-- Rtld at a page, and two pages that are mapped to it. -/
def sampleSite : HandlerSite := ⟨0x71000000#64, 0x80000000#64, 0x90000000#64, 0x72001234#64⟩

/-- One physical page. -/
def onePage : Mmu := ⟨fun a => a &&& 0xfff#64, fun _ => true⟩

theorem installExceptionHandler_enters_sample :
    EntersAt onePage sampleSite 0x72001234#64
      (installExceptionHandler (ν := Unit) onePage sampleSite none ⟨none, []⟩
        ⟨fun _ => 0#32, []⟩).2 := by
  have hMapped : sampleSite.Mapped onePage := ⟨by decide, by decide, by decide⟩
  exact (installExceptionHandler_enters hMapped none ⟨none, []⟩ _).1

end

/-! ## Publication -/

/-- The pages of rtld, and those that `virtmemFindAslr` finds. -/
structure HandlerSite.InPages (site : HandlerSite) : Prop where
  text : site.text.toNat % 4096 = 0 ∧ site.text.toNat < 2 ^ 63
  branch : site.branchRw.toNat % 4096 = 0 ∧ site.branchRw.toNat < 2 ^ 63
  pointer : site.pointerRw.toNat % 4096 = 0 ∧ site.pointerRw.toNat < 2 ^ 63

section

variable {ν : Type} {mmu : Mmu} {site : HandlerSite} {m : Mach ν} {ctr : BitVec 64}

theorem covers_add_iff (a : Addr) {n k : Nat} (hk : k < 2 ^ 64) :
    Covers a n (a + BitVec.ofNat 64 k) ↔ k < n := by
  rw [Covers, BitVec.add_comm, BitVec.add_sub_cancel, BitVec.toNat_ofNat, Nat.mod_eq_of_lt hk]

/-- The first `RwPages` begins at its page, and the second twelve bytes into it. -/
theorem HandlerSite.InPages.rw_toNat (h : site.InPages) :
    site.branchPatcher.rw.toNat = site.branchRw.toNat ∧
      site.pointerPatcher.rw.toNat = site.pointerRw.toNat + 12 := by
  obtain ⟨hText, hTextLt⟩ := h.text
  obtain ⟨-, hBranch⟩ := h.branch
  obtain ⟨-, hPointer⟩ := h.pointer
  have hRead : (site.text + 0xc#64).toNat = site.text.toNat + 12 :=
    BitVec.toNat_add_of_lt (by change site.text.toNat + 12 < 2 ^ 64; omega)
  have hFirst := alignDown_toNat site.text
  have hSecond := alignDown_toNat (site.text + 0xc#64)
  rw [HandlerSite.branchPatcher, HandlerSite.pointerPatcher, patcher, patcher]
  dsimp only
  constructor
  · rw [BitVec.toNat_add, BitVec.toNat_sub]
    omega
  · rw [BitVec.toNat_add, BitVec.toNat_sub]
    omega

theorem installing_log (mmu : Mmu) (site : HandlerSite) (m : Mach ν) :
    (site.installing mmu 6 m).log =
      (m.log ++ [.store site.branchPatcher.rw 4, .store (wordAt site.branchPatcher.rw 1) 4,
          .store (wordAt site.branchPatcher.rw 2) 4] ++
        [.dcacheFlush site.branchPatcher.rw 8, .icacheInvalidate site.text 8]) ++
      ([.store site.pointerPatcher.rw 8] ++
        [.dcacheFlush site.pointerPatcher.rw 8, .icacheInvalidate (site.text + 0xc#64) 8]) := by
  have hBranch : (site.branchPatcher.destructorFlush : List (Event ν)) =
      [.dcacheFlush site.branchPatcher.rw 8, .icacheInvalidate site.text 8] := rfl
  have hPointer : (site.pointerPatcher.destructorFlush : List (Event ν)) =
      [.dcacheFlush site.pointerPatcher.rw 8, .icacheInvalidate (site.text + 0xc#64) 8] := rfl
  simp [HandlerSite.installing, HandlerSite.stmts, hBranch, hPointer, Mach.store64]

/-- The stores of the address do not reach the instructions. -/
theorem HandlerSite.InPages.not_covers (h : site.InPages) {k : Nat} (hk : k < 12) :
    ¬ Covers site.pointerPatcher.rw 8 (site.branchPatcher.rw + BitVec.ofNat 64 k) := by
  obtain ⟨hBranch, hPointer⟩ := h.rw_toNat
  obtain ⟨hBranchPage, hBranchLt⟩ := h.branch
  obtain ⟨hPointerPage, hPointerLt⟩ := h.pointer
  have hByte : (site.branchPatcher.rw + BitVec.ofNat 64 k).toNat = site.branchRw.toNat + k := by
    rw [BitVec.toNat_add, BitVec.toNat_ofNat, hBranch]
    omega
  rw [covers_iff (by omega), hByte, hPointer]
  omega

/-- By the ranges. -/
theorem publishedAt_branch_iff (h : site.InPages) {k : Nat} (hk : k < 12) :
    PublishedAt (site.installing mmu 6 m).log (site.branchPatcher.rw + BitVec.ofNat 64 k)
      (site.text + BitVec.ofNat 64 k) ↔ k < 8 := by
  have hLt : k < 2 ^ 64 := by omega
  rw [installing_log]
  constructor
  · intro hPublished
    by_contra hLate
    have hStore : Stores (.store (wordAt site.branchPatcher.rw 2) 4 : Event ν)
        (site.branchPatcher.rw + BitVec.ofNat 64 k) := by
      refine ⟨_, _, rfl, (covers_add_left _ _ _ _).mpr ?_⟩
      rw [Covers, BitVec.toNat_sub, BitVec.toNat_ofNat, BitVec.toNat_ofNat]
      omega
    have hPointer : ¬ Covers (site.text + 0xc#64) 8 (site.text + BitVec.ofNat 64 k) := by
      rw [covers_add_left, Covers, BitVec.toNat_sub, BitVec.toNat_ofNat, BitVec.toNat_ofNat]
      omega
    have hNone : ∀ e ∈ [.dcacheFlush site.branchPatcher.rw 8, .icacheInvalidate site.text 8,
        .store site.pointerPatcher.rw 8, .dcacheFlush site.pointerPatcher.rw 8,
        (.icacheInvalidate (site.text + 0xc#64) 8 : Event ν)],
        ¬ Invalidates e (site.text + BitVec.ofNat 64 k) := by
      rintro e he ⟨a, n, rfl, hCovers⟩
      simp only [List.mem_cons, reduceCtorEq, Event.icacheInvalidate.injEq, List.not_mem_nil,
        or_false, false_or] at he
      rcases he with ⟨rfl, rfl⟩ | ⟨rfl, rfl⟩
      · exact hLate ((covers_add_iff site.text hLt).mp hCovers)
      · exact hPointer hCovers
    have hNot := @not_publishedAt ν (m.log ++ [.store site.branchPatcher.rw 4,
      .store (wordAt site.branchPatcher.rw 1) 4]) _ _ _ _ hStore hNone
    apply hNot
    simpa using hPublished
  · intro hEarly
    have hFirst := publishedAt_flush (m.log ++ [.store site.branchPatcher.rw 4,
      .store (wordAt site.branchPatcher.rw 1) 4, .store (wordAt site.branchPatcher.rw 2) 4])
      ((covers_add_iff site.branchPatcher.rw hLt).mpr hEarly)
      ((covers_add_iff site.text hLt).mpr hEarly)
    rw [← List.append_assoc]
    exact PublishedAt.flush (Or.inl (hFirst.store (h.not_covers hk)))

theorem HandlerSite.InPages.fits (h : site.InPages) (field field' : BitVec 64)
    (hField : field.toNat < 16) (hField' : field'.toNat < 16) :
    site.branchPatcher.rw.toNat + 8 + lineSize field < 2 ^ 64 ∧
      site.text.toNat + 8 + lineSize field' < 2 ^ 64 ∧
      site.pointerPatcher.rw.toNat + 8 + lineSize field < 2 ^ 64 ∧
      (site.text + 0xc#64).toNat + 8 + lineSize field' < 2 ^ 64 := by
  obtain ⟨hBranch, hPointer⟩ := h.rw_toNat
  have hText := h.text.2
  have hBranchLt := h.branch.2
  have hPointerLt := h.pointer.2
  have hLine := lineSize_le hField
  have hLine' := lineSize_le hField'
  have hBehind : (site.text + 0xc#64).toNat = site.text.toNat + 12 :=
    BitVec.toNat_add_of_lt (by change site.text.toNat + 12 < 2 ^ 64; omega)
  omega

/-- By lines of sixteen bytes or more. -/
theorem publishedAt_branch_byLine (h : site.InPages) (hD : 2 ≤ (dminLine ctr).toNat)
    (hI : 2 ≤ (iminLine ctr).toNat) {k : Nat} (hk : k < 12) :
    PublishedAt ((site.installing mmu 6 m).log.flatMap (byLine ctr))
      (site.branchPatcher.rw + BitVec.ofNat 64 k) (site.text + BitVec.ofNat 64 k) := by
  obtain ⟨hBranchFits, hTextFits, -, -⟩ :=
    h.fits (dminLine ctr) (iminLine ctr) (toNat_and_lt _) (toNat_and_lt _)
  have hBranch := h.rw_toNat.1
  have hBranchPage := h.branch.1
  have hTextPage := h.text.1
  obtain ⟨d, hdMem, hd⟩ := exists_line_behind hD hBranchFits (by decide) (by omega)
    (show k < 16 by omega)
  obtain ⟨i, hiMem, hi⟩ := exists_line_behind hI hTextFits (by decide) (by omega)
    (show k < 16 by omega)
  rw [installing_log, List.flatMap_append, List.flatMap_append]
  refine (publishedAt_of_flushedIn (not_stores_byLine ?_)
    (flushedIn_byLine hBranchFits hTextFits hdMem hd hiMem hi)).append
      (publishedAt_of_no_store (not_stores_byLine ?_))
  · rintro e he ⟨b, n, rfl, -⟩
    simp at he
  · rintro e he ⟨b, n, rfl, hCovers⟩
    simp only [List.mem_append, List.mem_cons, List.not_mem_nil, or_false, reduceCtorEq,
      Event.store.injEq] at he
    obtain ⟨rfl, rfl⟩ := he
    exact h.not_covers hk hCovers

/-- The address, whatever the lines are. -/
theorem publishedAt_pointer_byLine (h : site.InPages) {k : Nat} (hk : k < 8) :
    PublishedAt ((site.installing mmu 6 m).log.flatMap (byLine ctr))
      (site.pointerPatcher.rw + BitVec.ofNat 64 k) (site.text + 0xc#64 + BitVec.ofNat 64 k) := by
  obtain ⟨-, -, hPointerFits, hTextFits⟩ :=
    h.fits (dminLine ctr) (iminLine ctr) (toNat_and_lt _) (toNat_and_lt _)
  have hByte (a : Addr) (L : Nat) (hFits : a.toNat + 8 + L < 2 ^ 64) :
      (a + BitVec.ofNat 64 k).toNat = a.toNat + k := by
    rw [BitVec.toNat_add, BitVec.toNat_ofNat]
    omega
  obtain ⟨d, hdMem, hd⟩ := exists_line (lineSize_pos (dminLine ctr)) hPointerFits
    (b := site.pointerPatcher.rw + BitVec.ofNat 64 k) (by rw [hByte _ _ hPointerFits]; omega)
    (by rw [hByte _ _ hPointerFits]; omega)
  obtain ⟨i, hiMem, hi⟩ := exists_line (lineSize_pos (iminLine ctr)) hTextFits
    (b := site.text + 0xc#64 + BitVec.ofNat 64 k) (by rw [hByte _ _ hTextFits]; omega)
    (by rw [hByte _ _ hTextFits]; omega)
  rw [installing_log, ← List.append_assoc, List.flatMap_append]
  refine publishedAt_of_flushedIn (not_stores_byLine ?_)
    (flushedIn_byLine hPointerFits hTextFits hdMem hd hiMem hi)
  rintro e he ⟨b, n, rfl, -⟩
  simp at he

/-- **Publication.** -/
theorem installExceptionHandler_published (hPages : site.InPages) (mmu : Mmu)
    (handler : Option CatchFunc) (h : Handlers) (ctr : BitVec 64) (m : Mach ν) :
    let log := (installExceptionHandler mmu site handler h m).2.log
    (∀ k < 12, PublishedAt log (site.branchPatcher.rw + BitVec.ofNat 64 k)
        (site.text + BitVec.ofNat 64 k) ↔ k < 8) ∧
      (2 ≤ (dminLine ctr).toNat → 2 ≤ (iminLine ctr).toNat →
        ∀ k < 12, PublishedAt (log.flatMap (byLine ctr))
          (site.branchPatcher.rw + BitVec.ofNat 64 k) (site.text + BitVec.ofNat 64 k)) ∧
      ∀ k < 8, PublishedAt (log.flatMap (byLine ctr)) (site.pointerPatcher.rw + BitVec.ofNat 64 k)
        (site.text + 0xc#64 + BitVec.ofNat 64 k) :=
  ⟨fun _ hk => publishedAt_branch_iff hPages hk,
    fun hD hI _ hk => publishedAt_branch_byLine hPages hD hI hk,
    fun _ hk => publishedAt_pointer_byLine hPages hk⟩

theorem installExceptionHandler_published_sample :
    ¬ PublishedAt (installExceptionHandler (ν := Unit) onePage sampleSite none ⟨none, []⟩
        ⟨fun _ => 0#32, []⟩).2.log (0x80000000#64 + 8#64) (0x71000000#64 + 8#64) ∧
      PublishedAt ((installExceptionHandler (ν := Unit) onePage sampleSite none ⟨none, []⟩
        ⟨fun _ => 0#32, []⟩).2.log.flatMap (byLine 0x84448004#64)) (0x80000000#64 + 8#64)
          (0x71000000#64 + 8#64) := by
  have hPages : sampleSite.InPages := ⟨by decide, by decide, by decide⟩
  obtain ⟨hRange, hLine, -⟩ := installExceptionHandler_published (ν := Unit) hPages onePage none
    ⟨none, []⟩ 0x84448004#64 ⟨fun _ => 0#32, []⟩
  exact ⟨fun h => absurd ((hRange 8 (by decide)).mp h) (by decide),
    hLine (by decide) (by decide) 8 (by decide)⟩

end

end Wondar.Handler
