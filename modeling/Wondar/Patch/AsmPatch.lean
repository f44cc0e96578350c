import Wondar.Blocks
import Wondar.Patch.Replace
import Wondar.Runs

/-!
# Assembly patches

`PATCH_DEFINE_ASM` defines the functions of one patch. An install saves the bytes of the site in
a buffer and writes the assembly over them with `ReplaceData`; `Uninstall` copies the buffer back
to the site itself.

A patch is meant to be reversible (`Reversible`): but for the site that is installed last the code
is what it was. That copy back goes to the address of the code and not to a writable alias of it.
`reversible_iff` is the exact condition for any memory; in code that is not writable there can be
no operation behind an install (`reversible_iff_of_readExecute`).
-/

namespace Wondar.Patch.AsmPatch

open A64 Sys Blocks

/-! ## The macro -/

/-- What surrounds a patch: the memory map, the addresses that `virtmemFindAslr` returns, the
heap, the start of the main module, the assembly, and where a store to the address of the code is
allowed. -/
structure Setup (heap : Type) where
  K : KernelMap
  aslr : Nat → Addr
  allocator : Allocator heap
  targetStart : Addr
  assembly : List (BitVec 8)
  nonempty : assembly ≠ []
  small : assembly.length < 2 ^ 64
  free : ∀ n, FreeRange (aslr n) (alignUp (BitVec.ofNat 64 assembly.length) pageSize)
  writable : Addr → Bool

/-- The static variables of a patch, the code and the heap. A null `OrigData` is 0; `mallocs` and
`frees` are the buffers in the order of the calls. -/
structure State (heap : Type) where
  mem : Addr → BitVec 8
  heapMem : Nat → BitVec 8
  heap : heap
  origData : Nat
  addrRef : Addr
  mallocs : List Nat
  frees : List Nat
  /-- An access hit no memory that allows it. -/
  faulted : Bool

section

variable {heap : Type} (E : Setup heap)

def getAsmSize : Nat := E.assembly.length

/-- A site in the code of the process. -/
structure Code (a : Addr) : Prop where
  user : UserRange E.K a (BitVec.ofNat 64 E.assembly.length)
  nonNull : a ≠ 0#64

/-- A store to an address of the code. -/
def direct (a : Addr) : Option Addr := if E.writable a then some a else none

def uninstall (s : State heap) : State heap :=
  match memcpy (direct E) s.mem s.addrRef (read s.heapMem s.origData (getAsmSize E)) with
  | none => { s with faulted := true }
  | some mem =>
    { s with
      mem := mem
      heap := E.allocator.free s.heap s.origData
      frees := s.frees ++ [s.origData]
      origData := 0
      addrRef := 0#64 }

def tryUninstall (s : State heap) : State heap :=
  if s.addrRef ≠ 0#64 then uninstall E s else s

/-- The body of an install, behind `TryUninstall`. -/
def install (addr : Addr) (s : State heap) : State heap :=
  match E.allocator.alloc s.heap (getAsmSize E) with
  | none => { s with addrRef := addr, faulted := true }
  | some (origData, h) =>
    let s : State heap :=
      { s with
        addrRef := addr
        origData := origData
        heap := h
        mallocs := s.mallocs ++ [origData]
        heapMem := write s.heapMem origData (loadBytes s.mem addr (getAsmSize E)) }
    match replaceData E.K.query (E.aslr s.mallocs.length) s.mallocs.length s.mem addr
      E.assembly with
    | none => { s with faulted := true }
    | some mem => { s with mem := mem }

/-- An install; nothing follows a fault. -/
def installAt (addr : Addr) (s : State heap) : State heap :=
  if (tryUninstall E s).faulted then tryUninstall E s else install E addr (tryUninstall E s)

def installAtOffset (address : BitVec 64) (s : State heap) : State heap :=
  installAt E (E.targetStart + address) s

def installAtFuncPtr (ptr : Addr) (s : State heap) : State heap := installAt E ptr s

/-! ## Runs -/

inductive Op
  | installAtOffset (address : BitVec 64) (code : Code E (E.targetStart + address))
  | installAtFuncPtr (ptr : Addr) (code : Code E ptr)
  | tryUninstall

/-- The site that an operation installs. -/
def Op.site : Op E → Option Addr
  | .installAtOffset address _ => some (E.targetStart + address)
  | .installAtFuncPtr ptr _ => some ptr
  | .tryUninstall => none

def perform : Op E → State heap → State heap
  | .installAtOffset address _, s => installAtOffset E address s
  | .installAtFuncPtr ptr _, s => installAtFuncPtr E ptr s
  | .tryUninstall, s => tryUninstall E s

/-- A patch and the site that the operations so far leave installed. -/
structure Installation (heap : Type) where
  state : State heap
  site : Option Addr

def step (o : Op E) (p : Installation heap) : Option (Installation heap) :=
  some ⟨if p.state.faulted then p.state else perform E o p.state, o.site⟩

/-- Before the first install. -/
def Installation.initial (mem : Addr → BitVec 8) (heapMem : Nat → BitVec 8) (h : heap) :
    Installation heap where
  state :=
    { mem := mem
      heapMem := heapMem
      heap := h
      origData := 0
      addrRef := 0#64
      mallocs := []
      frees := []
      faulted := false }
  site := none

/-- An address lies in the installed site. -/
def Installation.InSite (p : Installation heap) (a : Addr) : Prop :=
  ∃ t ∈ p.site, (a - t).toNat < getAsmSize E

/-- What a patch promises, over the code `orig` from before the first install. -/
structure Reversible (orig : Addr → BitVec 8) (p : Installation heap) : Prop where
  outside : ∀ a, ¬ p.InSite E a → p.state.mem a = orig a
  installed : ∀ t ∈ p.site, loadBytes p.state.mem t (getAsmSize E) = E.assembly
  stores : p.state.faulted = false
  buffers : p.state.mallocs = p.state.frees ++ (p.site.map fun _ => p.state.origData).toList

/-- The heap behind `TryUninstall`. -/
def Installation.heapBehind (p : Installation heap) : heap :=
  match p.site with
  | none => p.state.heap
  | some _ => E.allocator.free p.state.heap p.state.origData

/-- The site that is installed may be written directly, and the next one fits the pages that are
mapped for it and finds a buffer. -/
def Allowed (p : Installation heap) (o : Op E) : Prop :=
  (∀ t ∈ p.site, ∀ k < getAsmSize E, E.writable (t + BitVec.ofNat 64 k) = true) ∧
    ∀ t ∈ o.site, Fits t (getAsmSize E) ∧
      (E.allocator.alloc (p.heapBehind E) (getAsmSize E)).isSome = true

/-- The code with the assembly at a site. -/
def patched (orig : Addr → BitVec 8) : Option Addr → Addr → BitVec 8
  | none => orig
  | some t => storeBytes orig t E.assembly

structure Inv (orig : Addr → BitVec 8) (site : Option Addr) (s : State heap) : Prop where
  faulted : s.faulted = false
  addr : s.addrRef = site.getD 0#64
  code : ∀ t ∈ site, Code E t
  mem : s.mem = patched E orig site
  saved : ∀ t ∈ site, read s.heapMem s.origData (getAsmSize E) = loadBytes orig t (getAsmSize E)
  buffers : s.mallocs = s.frees ++ (site.map fun _ => s.origData).toList

variable {E} {orig : Addr → BitVec 8} {site : Option Addr} {s : State heap}

/-! ## `TryUninstall` -/

theorem nonempty_size : 0 < getAsmSize E := List.length_pos_iff.mpr E.nonempty

/-- The copy back restores the code. -/
theorem Inv.tryUninstall (hInv : Inv E orig site s)
    (hWritable : ∀ t ∈ site, ∀ k < getAsmSize E, E.writable (t + BitVec.ofNat 64 k) = true) :
    Inv E orig none (tryUninstall E s) ∧ (tryUninstall E s).heap =
      (Installation.mk s site).heapBehind E := by
  cases site with
  | none =>
    have hAddr : s.addrRef = 0#64 := hInv.addr
    rw [AsmPatch.tryUninstall, if_neg (fun h => h hAddr)]
    exact ⟨hInv, rfl⟩
  | some t =>
    have hAddr : s.addrRef = t := hInv.addr
    have hNonNull : t ≠ 0#64 := (hInv.code t rfl).nonNull
    have hMem : s.mem = storeBytes orig t E.assembly := hInv.mem
    have hCopy : memcpy (direct E) s.mem t (loadBytes orig t (getAsmSize E)) = some orig := by
      rw [memcpy_alias (p := t), hMem, getAsmSize, storeBytes_undo _ _ _ (Nat.le_of_lt E.small)]
      intro k hk
      rw [length_loadBytes] at hk
      rw [direct, if_pos (hWritable t rfl k hk)]
    rw [AsmPatch.tryUninstall, hAddr, if_pos hNonNull, uninstall, hAddr, hInv.saved t rfl, hCopy]
    refine ⟨⟨hInv.faulted, rfl, ?_, rfl, ?_, ?_⟩, rfl⟩
    · intro _ h
      cases h
    · intro _ h
      cases h
    · simp only [hInv.buffers, Option.map_some, Option.toList_some, Option.map_none,
        Option.toList_none, List.append_nil]

theorem tryUninstall_faults (hInv : Inv E orig site s)
    (hWritable : ¬ ∀ t ∈ site, ∀ k < getAsmSize E, E.writable (t + BitVec.ofNat 64 k) = true) :
    (tryUninstall E s).faulted = true := by
  cases site with
  | none => exact absurd (fun _ h => by cases h) hWritable
  | some t =>
    have hAddr : s.addrRef = t := hInv.addr
    have hNonNull : t ≠ 0#64 := (hInv.code t rfl).nonNull
    obtain ⟨k, hk, hByte⟩ : ∃ k < getAsmSize E, E.writable (t + BitVec.ofNat 64 k) = false := by
      by_contra hNone
      refine hWritable fun t' ht' k hk => ?_
      cases ht'
      by_contra hByte
      exact hNone ⟨k, hk, Bool.eq_false_iff.mpr hByte⟩
    have hCopy : memcpy (direct E) s.mem t (loadBytes orig t (getAsmSize E)) = none := by
      apply memcpy_none (k := k) (by rwa [length_loadBytes])
      rw [direct, hByte]
      rfl
    rw [tryUninstall, hAddr, if_pos hNonNull, uninstall, hAddr, hInv.saved t rfl, hCopy]

/-! ## Installing -/

theorem Inv.install (hInv : Inv E orig none s) {t : Addr} (hCode : Code E t)
    (hFits : Fits t (getAsmSize E))
    (hAlloc : (E.allocator.alloc s.heap (getAsmSize E)).isSome = true) :
    Inv E orig (some t) (install E t s) := by
  obtain ⟨⟨p, h⟩, hAlloc⟩ := Option.isSome_iff_exists.mp hAlloc
  have hMem : s.mem = orig := hInv.mem
  have hReplace : replaceData E.K.query (E.aslr (s.mallocs ++ [p]).length)
      (s.mallocs ++ [p]).length s.mem t E.assembly = some (storeBytes s.mem t E.assembly) :=
    replaceData_of_fits E.small hCode.user (E.free _) hFits
  simp only [AsmPatch.install, hAlloc, hReplace]
  refine ⟨hInv.faulted, rfl, ?_, ?_, ?_, ?_⟩
  · intro t' ht'
    cases ht'
    exact hCode
  · rw [hMem]
    rfl
  · intro t' ht'
    cases ht'
    have hLen : (loadBytes s.mem t (getAsmSize E)).length = getAsmSize E := length_loadBytes _ _ _
    have hRead := read_write_self s.heapMem p (loadBytes s.mem t (getAsmSize E))
    rw [hLen] at hRead
    rw [hRead, hMem]
  · have hBuffers : s.mallocs = s.frees := by simpa using hInv.buffers
    simp [hBuffers]

theorem install_faults {t : Addr} (hCode : Code E t)
    (hNot : ¬ (Fits t (getAsmSize E) ∧
      (E.allocator.alloc s.heap (getAsmSize E)).isSome = true)) :
    (install E t s).faulted = true := by
  cases hAlloc : E.allocator.alloc s.heap (getAsmSize E) with
  | none => simp only [install, hAlloc]
  | some r =>
    obtain ⟨p, h⟩ := r
    have hFits : ¬ Fits t (getAsmSize E) := fun hFits => hNot ⟨hFits, by rw [hAlloc]; rfl⟩
    have hReplace : replaceData E.K.query (E.aslr (s.mallocs ++ [p]).length)
        (s.mallocs ++ [p]).length s.mem t E.assembly = none :=
      replaceData_of_not_fits E.small hCode.user hFits
    simp only [install, hAlloc, hReplace]

/-! ## Reversibility -/

/-- What every run keeps as long as its operations are allowed. -/
def Kept (orig : Addr → BitVec 8) (p : Installation heap) : Prop := Inv E orig p.site p.state

theorem Inv.reversible (hInv : Inv E orig site s) : Reversible E orig ⟨s, site⟩ := by
  have hSmall : E.assembly.length ≤ 2 ^ 64 := Nat.le_of_lt E.small
  refine ⟨?_, ?_, hInv.faulted, hInv.buffers⟩
  · intro a hOut
    rw [show (Installation.mk s site).state.mem = _ from hInv.mem]
    cases site with
    | none => rfl
    | some t => exact storeBytes_outside hSmall fun hIn => hOut ⟨t, rfl, hIn⟩
  · intro t ht
    cases (show site = some t from ht)
    rw [show (Installation.mk s (some t)).state.mem = _ from hInv.mem]
    exact loadBytes_storeBytes orig t E.assembly hSmall

theorem installAt_spec (hInv : Inv E orig site s) {t : Addr} (hCode : Code E t) :
    (Inv E orig (some t) (installAt E t s) ∧
      (∀ t ∈ site, ∀ k < getAsmSize E, E.writable (t + BitVec.ofNat 64 k) = true) ∧
      Fits t (getAsmSize E) ∧
      (E.allocator.alloc ((Installation.mk s site).heapBehind E) (getAsmSize E)).isSome = true) ∨
    ((installAt E t s).faulted = true ∧
      ¬ ((∀ t ∈ site, ∀ k < getAsmSize E, E.writable (t + BitVec.ofNat 64 k) = true) ∧
        Fits t (getAsmSize E) ∧
        (E.allocator.alloc ((Installation.mk s site).heapBehind E)
          (getAsmSize E)).isSome = true)) := by
  by_cases hWritable : ∀ t ∈ site, ∀ k < getAsmSize E, E.writable (t + BitVec.ofNat 64 k) = true
  · obtain ⟨hInv', hHeap⟩ := hInv.tryUninstall hWritable
    have hGo : installAt E t s = install E t (tryUninstall E s) :=
      if_neg (by rw [hInv'.faulted]; exact Bool.false_ne_true)
    rw [hGo, ← hHeap]
    by_cases hRest : Fits t (getAsmSize E) ∧
        (E.allocator.alloc (tryUninstall E s).heap (getAsmSize E)).isSome = true
    · exact .inl ⟨hInv'.install hCode hRest.1 hRest.2, hWritable, hRest⟩
    · exact .inr ⟨install_faults hCode hRest, fun h => hRest h.2⟩
  · have hFault := tryUninstall_faults hInv hWritable
    have hStop : installAt E t s = tryUninstall E s := if_pos hFault
    rw [hStop]
    exact .inr ⟨hFault, fun h => hWritable h.1⟩

/-- An operation keeps the invariant if it is allowed, and faults if it is not. -/
theorem step_spec {p p' : Installation heap} (o : Op E) (hKept : Kept (E := E) orig p)
    (hStep : step E o p = some p') :
    (Kept (E := E) orig p' ∧ Allowed E p o) ∨ (p'.state.faulted = true ∧ ¬ Allowed E p o) := by
  cases hStep
  rw [Kept, hKept.faulted]
  cases o with
  | installAtOffset address code =>
    rcases installAt_spec hKept code with ⟨hInv, hWritable, hRest⟩ | ⟨hFault, hNot⟩
    · refine .inl ⟨hInv, hWritable, fun t ht => ?_⟩
      cases ht
      exact hRest
    · exact .inr ⟨hFault, fun h => hNot ⟨h.1, h.2 _ rfl⟩⟩
  | installAtFuncPtr ptr code =>
    rcases installAt_spec hKept code with ⟨hInv, hWritable, hRest⟩ | ⟨hFault, hNot⟩
    · refine .inl ⟨hInv, hWritable, fun t ht => ?_⟩
      cases ht
      exact hRest
    · exact .inr ⟨hFault, fun h => hNot ⟨h.1, h.2 _ rfl⟩⟩
  | tryUninstall =>
    by_cases hWritable : ∀ t ∈ p.site, ∀ k < getAsmSize E,
        E.writable (t + BitVec.ofNat 64 k) = true
    · refine .inl ⟨(hKept.tryUninstall hWritable).1, hWritable, fun t ht => ?_⟩
      cases ht
    · exact .inr ⟨tryUninstall_faults hKept hWritable, fun h => hWritable h.1⟩

theorem kept_initial (mem : Addr → BitVec 8) (heapMem : Nat → BitVec 8) (h : heap) :
    Kept (E := E) mem (.initial mem heapMem h) where
  faulted := rfl
  addr := rfl
  code _ ht := by cases ht
  mem := rfl
  saved _ ht := by cases ht
  buffers := rfl

variable (E) in
/-- The exact condition, for any memory. -/
theorem reversible_iff (mem : Addr → BitVec 8) (heapMem : Nat → BitVec 8) (h : heap)
    (ops : List (Op E)) :
    Runs.Throughout (step E) (Reversible E mem) ops (.initial mem heapMem h) ↔
      Runs.Along (step E) (Allowed E) ops (.initial mem heapMem h) := by
  refine Runs.throughout_iff_along (I := Kept (E := E) mem) (fun p hKept => hKept.reversible)
    ?_ ?_ (kept_initial mem heapMem h) (Runs.run_total _ ops _)
  · intro p o p' hKept hAllowed hStep
    rcases step_spec o hKept hStep with ⟨hKept', -⟩ | ⟨-, hNot⟩
    · exact hKept'
    · exact absurd hAllowed hNot
  · intro p o p' hKept hNot hStep hReversible
    rcases step_spec o hKept hStep with ⟨-, hAllowed⟩ | ⟨hFault, -⟩
    · exact hNot hAllowed
    · rw [hReversible.stores] at hFault
      cases hFault

/-- Nothing is installed yet, and a site that is installed fits the pages that are mapped for it
and finds a buffer. -/
def FirstInstall (p : Installation heap) (o : Op E) : Prop :=
  p.site = none ∧ ∀ t ∈ o.site, Fits t (getAsmSize E) ∧
    (E.allocator.alloc p.state.heap (getAsmSize E)).isSome = true

theorem allowed_of_readExecute (hCode : ∀ a, E.writable a = false) (p : Installation heap)
    (o : Op E) : Allowed E p o ↔ FirstInstall p o := by
  obtain ⟨s, site⟩ := p
  cases site with
  | none =>
    refine and_congr_left' (iff_of_true (fun t ht => ?_) rfl)
    cases ht
  | some t =>
    refine iff_of_false (fun h => ?_) (fun h => ?_)
    · have hByte := h.1 t rfl 0 nonempty_size
      rw [hCode] at hByte
      cases hByte
    · cases h.1

variable (E) in
/-- In code that is mapped read-execute a patch is reversible in exactly the runs in which nothing
follows an install, and that site fits the pages that are mapped for it and finds a buffer. -/
theorem reversible_iff_of_readExecute (hCode : ∀ a, E.writable a = false)
    (mem : Addr → BitVec 8) (heapMem : Nat → BitVec 8) (h : heap) (ops : List (Op E)) :
    Runs.Throughout (step E) (Reversible E mem) ops (.initial mem heapMem h) ↔
      Runs.Along (step E) FirstInstall ops (.initial mem heapMem h) := by
  have hSame : Allowed E = FirstInstall :=
    funext fun p => funext fun o => propext (allowed_of_readExecute hCode p o)
  rw [reversible_iff, hSame]

end

/-! ## A patch of one instruction -/

/-- A `nop`, in code that is mapped read-execute. -/
def samplePatch : Setup Arena where
  K := KernelMap.halves
  aslr _ := 0x71000#64
  allocator := Arena.allocator
  targetStart := 0x8000#64
  assembly := [0x1f#8, 0x20#8, 0x03#8, 0xd5#8]
  nonempty := List.cons_ne_nil _ _
  small := by decide
  free _ := ⟨by decide, by decide, by decide⟩
  writable _ := false

theorem sample_code (address : BitVec 64) (hAddress : address.toNat < 0x1000) :
    Code samplePatch (samplePatch.targetStart + address) := by
  have hSum : (samplePatch.targetStart + address).toNat = 0x8000 + address.toNat := by
    have hStart : samplePatch.targetStart.toNat = 0x8000 := rfl
    rw [BitVec.toNat_add, hStart]
    omega
  have hSize : (BitVec.ofNat 64 samplePatch.assembly.length : BitVec 64).toNat = 4 := rfl
  refine ⟨halves_user (by omega) (by omega), fun hNull => ?_⟩
  rw [hNull, BitVec.toNat_zero] at hSum
  omega

def sampleArena : Arena := ⟨0x1000, 0x1000, [], fun _ h => (List.not_mem_nil h).elim, by decide⟩

theorem reversible_iff_of_readExecute_sample :
    (∀ a, samplePatch.writable a = false) ∧
      (Runs.Throughout (step samplePatch) (Reversible samplePatch fun _ => 0#8)
          [.tryUninstall, .installAtOffset 0x100#64 (sample_code _ (by decide))]
          (.initial (fun _ => 0#8) (fun _ => 0#8) sampleArena) ↔
        Runs.Along (step samplePatch) FirstInstall
          [.tryUninstall, .installAtOffset 0x100#64 (sample_code _ (by decide))]
          (.initial (fun _ => 0#8) (fun _ => 0#8) sampleArena)) :=
  ⟨fun _ => rfl, reversible_iff_of_readExecute samplePatch (fun _ => rfl) _ _ _ _⟩

/-- An install that is taken back is not undone: the copy back stores to the code itself. -/
theorem uninstall_faults :
    ¬ Runs.Throughout (step samplePatch) (Reversible samplePatch fun _ => 0#8)
      [.installAtOffset 0x100#64 (sample_code _ (by decide)), .tryUninstall]
      (.initial (fun _ => 0#8) (fun _ => 0#8) sampleArena) := by
  intro hAll
  have hInstalled := hAll.2 _ rfl
  have hUninstalled : Reversible samplePatch (fun _ => 0#8) _ := (hInstalled.2 _ rfl).head
  rcases step_spec (.installAtOffset 0x100#64 (sample_code _ (by decide)))
    (kept_initial (fun _ => 0#8) (fun _ => 0#8) sampleArena) rfl with ⟨hKept, -⟩ | ⟨hFault, -⟩
  · rcases step_spec .tryUninstall hKept rfl with ⟨-, hAllowed⟩ | ⟨hFault, -⟩
    · have hByte := hAllowed.1 _ rfl 0 nonempty_size
      cases hByte
    · have hStores := hUninstalled.stores
      exact Bool.false_ne_true (hStores.symm.trans hFault)
  · have hStores := hInstalled.head.stores
    exact Bool.false_ne_true (hStores.symm.trans hFault)

end Wondar.Patch.AsmPatch
