import Wondar.Hook.Retarget

/-!
# References inside the window

A branch or ADR of the window that referred to another instruction of the window should refer to what
this instruction has become, by an address that is executed (`Retargeted`). No reference is lost on the
way, and those that the context recognises are right unless they are to an ADRP: its place may be noted
by the address that is written to (`fixInstructions_references`).
-/

namespace Wondar.Hook

open A64 Coherence

variable {mmu : Mmu} {slot : Slot} {inprw f a e e' : Addr} {count i j k k' n c : Nat}
  {m m' : Machine} {s s' t u u' : Reloc} {ws ws' : List Word} {r r' : Option (Nat × FixInfo)}
  {kind : Referrer} {d : BitVec 64}

/-! ## The statement -/

/-- A window of some words at `f` and a slot elsewhere, which is the same words behind both of its
addresses. -/
structure Relocation (mmu : Mmu) (slot : Slot) (f : Addr) (count : Nat) : Prop where
  input : Input slot f count
  unfolded : mmu.Unfolded slot.rw trampolineSize
  aliased : mmu.Alias slot.rw slot.rx trampolineSize
  outside : ∀ q < trampolineSize, ¬ InWindow f count (wordAt slot.rx q)

/-- `a` is where the words from `s` to `t` begin, or behind NOPs at their front. -/
def Begins (mmu : Mmu) (m : Machine) (s t : Reloc) (a : Addr) : Prop :=
  ∃ p, (p = 0 ∨ p < emittedCount s t) ∧ a = wordAt s.outrx p ∧
    ∀ l < p, m.read mmu (wordAt s.outrx l) = aarch64Nop

/-- The word at `e` refers to where the words from `s` to `t` begin, with the low bits of `a`. -/
def Retargeted (mmu : Mmu) (m : Machine) (e : Addr) (s t : Reloc) (kind : Referrer) (a : Addr) : Prop :=
  ∃ b, Begins mmu m s t b ∧ referrer (m.read mmu e) = some (kind, b + (a &&& 3#64) - e)

/-- Executing the word at `e` then jumps to these words, or takes their address. -/
theorem Retargeted.step (h : Retargeted mmu m e s t kind a) (other : Word → State → State) {σ : State}
    (hPc : σ.pc = e) (hWord : σ.mem e = m.read mmu e) :
    ∃ b, Begins mmu m s t b ∧
      A64.step (withPcRel other) σ = kind.exec σ (b + (a &&& 3#64)) := by
  obtain ⟨b, hBegins, hRef⟩ := h
  refine ⟨b, hBegins, ?_⟩
  rw [step_referrer other (by rw [hPc, hWord]) hRef, hPc]
  congr 1
  grind

/-! ## Where the words are -/

/-- The output never goes back. -/
theorem Progress.run (hInput : Input slot f count) (h : Progress mmu slot inprw f count m k n s)
    (hc : n + c ≤ count) (hRun : fixLoop mmu c s = some u) :
    ∃ k', k ≤ k' ∧ Progress mmu slot inprw f count m k' (n + c) u := by
  induction c generalizing s k n with
  | zero =>
    cases hRun
    exact ⟨k, Nat.le_refl k, h⟩
  | succ c ih =>
    obtain ⟨t, hStep, hRest⟩ := Option.bind_eq_some_iff.mp hRun
    obtain ⟨e, ws, r, -, hNext⟩ := h.next hInput (by omega) hStep
    obtain ⟨k', hk, hEnd⟩ := ih hNext (by omega) hRest
    rw [Nat.add_assoc, Nat.add_comm 1 c] at hEnd
    exact ⟨k', by omega, hEnd⟩

/-- The cursor says how many words there are. -/
theorem Progress.unique (hInput : Input slot f count) (hn : n ≤ count)
    (h : Progress mmu slot inprw f count m k n s) (h' : Progress mmu slot inprw f count m k' n s) :
    k = k' := by
  have hSize : trampolineSize = 50 := rfl
  have hRoom := h.room hInput (c := 0) hn
  have hRoom' := h'.room hInput (c := 0) hn
  exact wordAt_inj (p := slot.rx) (by omega) (by omega) (h.cursor.outrx.symm.trans h'.cursor.outrx)

theorem fixLoop_split (hFirst : fixLoop mmu n s = some t) (hRun : fixLoop mmu (n + c) s = some u) :
    fixLoop mmu c t = some u := by
  rwa [fixLoop_add, hFirst, Option.bind_some] at hRun

/-- The jump back leaves the words in front of it alone. -/
theorem fixInstructions_read (h : Relocation mmu slot f count)
    (hFix : fixInstructions mmu inprw f count slot.rw slot.rx m = some m') :
    ∃ t, fixLoop mmu count (startReloc inprw f count slot.rw slot.rx m) = some t ∧
      ∀ k, Progress mmu slot inprw f count m k count t →
        ∀ q < k, m'.read mmu (wordAt slot.rx q) = t.mach.read mmu (wordAt slot.rx q) := by
  obtain ⟨t, hRun, rfl⟩ := Option.map_eq_some_iff.mp hFix
  refine ⟨t, hRun, fun k hProgress q hq => ?_⟩
  obtain ⟨ws, hFive, hAppends⟩ := putJumpBack_appends mmu t
  have hRoom := hProgress.room h.input (c := 0) (Nat.le_refl count)
  refine hAppends.read fun l hl hSame => ?_
  rw [← h.aliased q (by omega), hProgress.cursor.outrw, wordAt_wordAt] at hSame
  have := h.unfolded _ _ (by omega) (by omega) hSame
  omega

theorem emittedCount_turned (h : Turned mmu s u e ws r) : emittedCount s u = ws.length := by
  have hLength := h.length
  rw [emittedCount, h.relocates.outrx, wordAt_sub _ (by omega)]
  omega

variable (mmu slot inprw f count m m' t) in
/-- Turn `i` of a relocation that ends, from word `k` of the slot on. -/
structure Moved (i k : Nat) (s u : Reloc) (e : Addr) (ws : List Word) (r : Option (Nat × FixInfo)) :
    Prop where
  lt : i < count
  before : fixLoop mmu i (startReloc inprw f count slot.rw slot.rx m) = some s
  progress : Progress mmu slot inprw f count m k i s
  step : fixInstruction mmu s = some u
  turned : Turned mmu s u e ws r
  rest : fixLoop mmu (count - (i + 1)) u = some t
  read : ∀ q < k + ws.length, m'.read mmu (wordAt slot.rx q) = t.mach.read mmu (wordAt slot.rx q)

theorem fixLoop_moved (h : Relocation mmu slot f count)
    (hRun : fixLoop mmu count (startReloc inprw f count slot.rw slot.rx m) = some t)
    (hRead : ∀ k, Progress mmu slot inprw f count m k count t →
      ∀ q < k, m'.read mmu (wordAt slot.rx q) = t.mach.read mmu (wordAt slot.rx q))
    (hi : i < count) (hBefore : fixLoop mmu i (startReloc inprw f count slot.rw slot.rx m) = some s)
    (hStep : fixInstruction mmu s = some u) (hTurned : Turned mmu s u e ws r) :
    ∃ k, Moved mmu slot inprw f count m m' t i k s u e ws r := by
  obtain ⟨k, hProgress⟩ := fixLoop_progress h.input (Nat.le_of_lt hi) hBefore
  have hAfter : fixLoop mmu (i + 1) (startReloc inprw f count slot.rw slot.rx m) = some u := by
    rw [fixLoop_succ, hBefore, Option.bind_some, hStep]
  have hAll : i + 1 + (count - (i + 1)) = count := by omega
  have hRest : fixLoop mmu (count - (i + 1)) u = some t := fixLoop_split hAfter (by rwa [hAll])
  obtain ⟨k', hk, hEnd⟩ := (hProgress.turn h.input hi hStep hTurned).run h.input (by omega) hRest
  rw [hAll] at hEnd
  exact ⟨k, hi, hBefore, hProgress, hStep, hTurned, hRest, fun q hq => hRead k' hEnd q (by omega)⟩

section

variable (h : Relocation mmu slot f count)
  (hi : Moved mmu slot inprw f count m m' t i k s u e ws r)
  (hj : Moved mmu slot inprw f count m m' t j k' s' u' e' ws' r')

include h hi

theorem Moved.bounds : k + ws.length < trampolineSize := by
  have hRoom := hi.progress.room h.input (c := 1) hi.lt
  have hLength := hi.turned.length
  omega

theorem Moved.settled {l : Nat} (hl : l < ws.length) (hOpen : r = none ∨ 0 < l) :
    m'.read mmu (wordAt s.outrx l) = ws[l] := by
  have hLt := hi.lt
  have hWord := settled_word h.input h.unfolded h.aliased hi.progress hi.lt hi.step hi.turned
    (by omega) hi.rest hl hOpen
  rw [hi.progress.cursor.outrx, wordAt_wordAt] at hWord ⊢
  rw [hi.read _ (by omega), hWord]

/-- Where an instruction has gone. -/
theorem Moved.placed : (t.ctx.dat i).ins = e ∧
    if notedWritten mmu s then e = wordAt slot.rw k ∧ m'.read mmu s.outrx ≠ aarch64Nop
    else Begins mmu m' s u e := by
  have hLt := hi.lt
  have hNow := hi.progress.currentIdx h.input (Nat.le_of_lt hLt)
  have hPlaced := hi.turned.placed
  refine ⟨?_, ?_⟩
  · have hNext := hi.progress.turn h.input hLt hi.step hi.turned
    rw [fixLoop_places h.input hNext (by omega) hi.rest i (by omega), ← hNow,
      hi.turned.relocates.place]
  unfold Placed at hPlaced
  split at hPlaced
  · rename_i hWritten
    obtain ⟨he, w, rest, rfl, hNop⟩ := hPlaced
    have hNone : r = none := by
      rcases r with _ | ⟨idx, g⟩
      · rfl
      · obtain ⟨-, -, -, -, -, -, hNot⟩ := hi.turned.opens idx g rfl
        rw [hNot] at hWritten
        cases hWritten
    have hFirst := hi.settled h (Nat.zero_lt_succ _) (.inl hNone)
    rw [wordAt_zero] at hFirst
    rw [if_pos hWritten]
    exact ⟨he.trans hi.progress.cursor.outrw, hFirst ▸ hNop⟩
  · rename_i hWritten
    obtain ⟨p, hp, he, hNops⟩ := hPlaced
    rw [if_neg hWritten]
    refine ⟨p, by rwa [emittedCount_turned hi.turned], he, fun l hl => ?_⟩
    have hOpen : r = none ∨ 0 < l := by
      rcases r with _ | ⟨idx, g⟩
      · exact .inl rfl
      · obtain ⟨-, -, -, -, -, hFront, -⟩ := hi.turned.opens idx g rfl
        have hBounds := hi.bounds h
        have hSize : trampolineSize = 50 := rfl
        have : p = 0 := wordAt_inj (p := s.outrx) (by omega) (by omega)
          (by rw [← he, hFront, wordAt_zero])
        omega
    have hWord := hNops l hl
    rw [List.getElem?_eq_getElem (by omega)] at hWord
    rw [hi.settled h (by omega) hOpen]
    exact Option.some.inj hWord

include hj

/-- Later words are behind earlier ones. -/
theorem Moved.before_of_lt (hij : i < j) : k + ws.length ≤ k' := by
  have hLt := hj.lt
  have hAfter : fixLoop mmu (i + 1) (startReloc inprw f count slot.rw slot.rx m) = some u := by
    rw [fixLoop_succ, hi.before, Option.bind_some, hi.step]
  have hAll : i + 1 + (j - (i + 1)) = j := by omega
  have hBetween : fixLoop mmu (j - (i + 1)) u = some s' := fixLoop_split hAfter (by rw [hAll, hj.before])
  obtain ⟨q, hq, hEnd⟩ := (hi.progress.turn h.input hi.lt hi.step hi.turned).run h.input (by omega)
    hBetween
  rw [hAll] at hEnd
  exact (hEnd.unique h.input (Nat.le_of_lt hLt) hj.progress) ▸ hq

omit hj in
/-- A word that refers into the window becomes one word. -/
theorem Moved.length_of_inside (hKind : referrer (s.ins mmu) = some (kind, d))
    (hInside : s.ctx.isInFixingRange (absoluteAddr s.inprx (s.ins mmu) kind) = true) :
    ws.length = 1 := by
  have hSize : trampolineSize = 50 := rfl
  have hRoom := hi.bounds h
  have hReady := hi.progress.ready h.input (Nat.le_of_lt hi.lt)
  have hStep := fixInstruction_inside hReady hKind hInside
  have hOut := (refer_turned hReady (referrer_not_adrp hKind) hInside rfl
    (fieldOf (s.ins mmu) kind)).relocates.outrx
  rw [Option.some.inj (hStep.symm.trans hi.step), hi.turned.relocates.outrx,
    List.length_singleton] at hOut
  exact wordAt_inj (p := s.outrx) (by omega) (by omega) hOut

/-- In the end it has the distance to the place that is noted for the other instruction, as far as it
can hold it. -/
theorem Moved.referrer_of_inside (hKind : referrer (s.ins mmu) = some (kind, d))
    (ha : absoluteAddr s.inprx (s.ins mmu) kind = a) (hTo : a &&& ~~~3#64 = wordAt f j)
    (hInside : s.ctx.isInFixingRange a = true) :
    referrer (m'.read mmu s.outrx) = some (kind, kind.held (e' - s.outrx + (a &&& 3#64))) := by
  have hMax : maxInstructions = 5 := rfl
  have hCount := h.input.count_le
  have hLt := hi.lt
  have hLt' := hj.lt
  have hReady := hi.progress.ready h.input (Nat.le_of_lt hLt)
  have hReady' := hj.progress.ready h.input (Nat.le_of_lt hLt')
  have hIndex : s.ctx.getRefInsIndex a = j := by
    rw [← getRefInsIndex_aligned hReady.base, hTo]
    exact getRefInsIndex_wordAt hi.progress.cursor.basep (by omega)
  have hLow : a &&& 3#64 = (d.setWidth 2).setWidth 64 := ha ▸ absoluteAddr_low hReady.source hKind
  subst ha
  have hOne := hi.length_of_inside h hKind hInside
  have hWord := reference_word h.input h.unfolded h.aliased hi.progress hLt hKind hi.step (by omega)
    hi.rest hInside
  have hRead : m'.read mmu s.outrx = t.mach.read mmu s.outrx := by
    rw [hi.progress.cursor.outrx]
    exact hi.read k (by omega)
  rw [hRead, hWord, hIndex, (hj.placed h).1, hLow]
  exact referrer_field hKind ((hj.turned.placed.aligned hReady').sub hReady.output)

/-- A reference to an address that the context takes for one of the window. -/
theorem retargeted_inside_iff (hKind : referrer (s.ins mmu) = some (kind, d))
    (ha : absoluteAddr s.inprx (s.ins mmu) kind = a) (hTo : a &&& ~~~3#64 = wordAt f j)
    (hInside : s.ctx.isInFixingRange a = true) :
    Retargeted mmu m' s.outrx s' u' kind a ↔
      (notedWritten mmu s' = true → (slot.rw - slot.rx).setWidth kind.reach = 0) := by
  have hRoom := hi.bounds h
  have hRoom' := hj.bounds h
  have hPlaced := (hj.placed h).2
  have hOut := hi.progress.cursor.outrx
  have hOut' := hj.progress.cursor.outrx
  unfold Retargeted
  rw [hi.referrer_of_inside h hj hKind ha hTo hInside]
  by_cases hWritten : notedWritten mmu s' = true
  · rw [if_pos hWritten] at hPlaced
    obtain ⟨rfl, hNop⟩ := hPlaced
    -- such a place is as far from the right one as the two addresses of the slot
    have hAway : wordAt slot.rw k' - s.outrx + (a &&& 3#64) =
        s'.outrx + (a &&& 3#64) - s.outrx + (slot.rw - slot.rx) := by
      rw [hOut']
      unfold wordAt
      grind
    have hBounds := slot_distance slot.rx (i := k') (j := k) (by omega) (by omega) (a.setWidth 2)
    rw [← and_low, ← hOut, ← hOut'] at hBounds
    rw [hAway, ← kind.held_add_iff hBounds.1 hBounds.2]
    constructor
    · rintro ⟨b, ⟨p, hp, rfl, hNops⟩, hSome⟩ -
      have hFirst : p = 0 := by
        by_contra hNot
        have hHead := hNops 0 (by omega)
        rw [wordAt_zero] at hHead
        exact hNop hHead
      rw [hFirst, wordAt_zero] at hSome
      exact congrArg Prod.snd (Option.some.inj hSome)
    · intro hHeld
      refine ⟨s'.outrx, ⟨0, .inl rfl, (wordAt_zero _).symm, fun l hl => ?_⟩, ?_⟩
      · exact absurd hl (Nat.not_lt_zero l)
      · rw [hHeld hWritten]
  · rw [if_neg hWritten] at hPlaced
    refine ⟨fun _ hNot => absurd hNot hWritten, fun _ => ⟨e', hPlaced, ?_⟩⟩
    obtain ⟨p, hp, rfl, -⟩ := hPlaced
    rw [emittedCount_turned hj.turned] at hp
    have hBounds := slot_distance slot.rx (i := k' + p) (j := k) (by omega) (by omega) (a.setWidth 2)
    rw [← and_low, ← wordAt_wordAt, ← hOut', ← hOut] at hBounds
    have hHeld := (kind.held_add_iff hBounds.1 hBounds.2 (δ := 0#64)).mpr (by simp)
    rw [BitVec.add_zero] at hHeld
    rw [← hHeld]
    congr 3
    grind

end

theorem toNat_and_low (a : Addr) : (a &&& 3#64).toNat = a.toNat % 4 := by
  rw [and_low, BitVec.toNat_setWidth, BitVec.toNat_setWidth]
  omega

/-- An address is that of its instruction and low bits. -/
theorem and_add_and (a : Addr) : (a &&& ~~~3#64) + (a &&& 3#64) = a := by
  have hLt := a.isLt
  apply BitVec.eq_of_toNat_eq
  rw [BitVec.toNat_add, toNat_and_aligned, toNat_and_low]
  omega

/-- No words begin in the middle of others, unless behind NOPs. -/
theorem Moved.nop_of_begins (h : Relocation mmu slot f count)
    (hi : Moved mmu slot inprw f count m m' t i k s u e ws r)
    (hj : Moved mmu slot inprw f count m m' t j k' s' u' e' ws' r') {l : Nat} (hPos : 0 < l)
    (hl : l < ws.length) (hBegins : Begins mmu m' s' u' (wordAt s.outrx l)) :
    m'.read mmu s.outrx = aarch64Nop := by
  have hSize : trampolineSize = 50 := rfl
  have hRoom := hi.bounds h
  have hRoom' := hj.bounds h
  obtain ⟨p, hp, hSame, hNops⟩ := hBegins
  rw [emittedCount_turned hj.turned] at hp
  have hPlace : k + l = k' + p := by
    rw [hi.progress.cursor.outrx, hj.progress.cursor.outrx, wordAt_wordAt, wordAt_wordAt] at hSame
    exact wordAt_inj (by omega) (by omega) hSame
  rcases Nat.lt_trichotomy i j with hij | rfl | hij
  · have := hi.before_of_lt h hj hij
    omega
  · cases hi.before.symm.trans hj.before
    obtain rfl := hi.progress.unique h.input (Nat.le_of_lt hi.lt) hj.progress
    have hHead := hNops 0 (by omega)
    rwa [wordAt_zero] at hHead
  · have := hj.before_of_lt h hi hij
    omega

/-- A reference to an address that the context takes for one outside of the window. -/
theorem not_retargeted_outside (h : Relocation mmu slot f count)
    (hi : Moved mmu slot inprw f count m m' t i k s u e ws none)
    (hj : Moved mmu slot inprw f count m m' t j k' s' u' e' ws' r')
    (hFirst : FirstRefers s.outrx a ws) (hTo : a &&& ~~~3#64 = wordAt f j) :
    ¬ Retargeted mmu m' s.outrx s' u' kind a := by
  have hMax : maxInstructions = 5 := rfl
  have hSize : trampolineSize = 50 := rfl
  have hCount := h.input.count_le
  have hLt' := hj.lt
  have hRoom' := hj.bounds h
  have hSum := and_add_and a
  rintro ⟨b, hBegins, hRef⟩
  obtain ⟨v, rest, rfl, hRefers⟩ := hFirst
  have hWord : m'.read mmu s.outrx = v := by
    have hSettled := hi.settled h (Nat.zero_lt_succ _) (.inl rfl)
    rwa [wordAt_zero] at hSettled
  rw [hWord] at hRef
  rcases hRefers _ _ hRef with hBack | ⟨hEight, hLong⟩
  · -- it still refers to the window
    have hSame : b = wordAt f j := by
      rw [hTo] at hSum
      grind
    obtain ⟨p, hp, rfl, -⟩ := hBegins
    rw [emittedCount_turned hj.turned] at hp
    rw [hj.progress.cursor.outrx, wordAt_wordAt] at hSame
    refine h.outside (k' + p) (by omega) ?_
    rw [hSame, InWindow, wordAt_sub f (by omega)]
    omega
  · -- it refers to the middle of its own words
    have hThird : b = wordAt s.outrx 2 := by
      have hLow := toNat_and_low a
      have hRoom := hi.bounds h
      obtain ⟨p, hp, rfl, -⟩ := hBegins
      rw [emittedCount_turned hj.turned] at hp
      rw [hi.progress.cursor.outrx, hj.progress.cursor.outrx, wordAt_wordAt] at hEight ⊢
      have hPlace : k' + p = k + 2 := by
        unfold wordAt at hEight
        generalize a &&& 3#64 = x at hLow hEight
        bv_omega
      rw [hPlace, wordAt_wordAt]
    have hHead := hi.nop_of_begins h hj (by omega) hLong (hThird ▸ hBegins)
    rw [← hWord, hHead, show referrer aarch64Nop = none by decide] at hRef
    cases hRef

/-! ## The references of a window -/

/-- A reference is retargeted when it is recognised, and the instruction that it is to is no ADRP that is
noted where the output is written, out of the reach of the reference. -/
theorem reference_retargeted_iff (h : Relocation mmu slot f count)
    (hFix : fixInstructions mmu inprw f count slot.rw slot.rx m = some m') (hLt : i < count)
    (hLt' : j < count) (hs : fixLoop mmu i (startReloc inprw f count slot.rw slot.rx m) = some s)
    (hs' : fixLoop mmu j (startReloc inprw f count slot.rw slot.rx m) = some s')
    (hStep : fixInstruction mmu s' = some u') (hKind : referrer (s.ins mmu) = some (kind, d))
    (hTo : absoluteAddr s.inprx (s.ins mmu) kind &&& ~~~3#64 = wordAt f j) :
    Retargeted mmu m' s.outrx s' u' kind (absoluteAddr s.inprx (s.ins mmu) kind) ↔
      s.ctx.isInFixingRange (absoluteAddr s.inprx (s.ins mmu) kind) = true ∧
        (notedWritten mmu s' = true → (slot.rw - slot.rx).setWidth kind.reach = 0) := by
  obtain ⟨t, hRun, hRead⟩ := fixInstructions_read h hFix
  have hTurns : ∀ {n : Nat} {v v' : Reloc}, n < count →
      fixLoop mmu n (startReloc inprw f count slot.rw slot.rx m) = some v →
      fixInstruction mmu v = some v' → ∃ k e ws r, Moved mmu slot inprw f count m m' t n k v v' e ws r := by
    intro n v v' hn hv hTurn
    obtain ⟨k, hProgress⟩ := fixLoop_progress h.input (Nat.le_of_lt hn) hv
    obtain ⟨e, ws, r, hTurned, -⟩ := hProgress.next h.input hn hTurn
    obtain ⟨k, hMoved⟩ := fixLoop_moved h hRun hRead hn hv hTurn hTurned
    exact ⟨k, e, ws, r, hMoved⟩
  obtain ⟨k', e', ws', r', hj⟩ := hTurns hLt' hs' hStep
  obtain ⟨k, hProgress⟩ := fixLoop_progress h.input (Nat.le_of_lt hLt) hs
  have hReady := hProgress.ready h.input (Nat.le_of_lt hLt)
  by_cases hInside : s.ctx.isInFixingRange (absoluteAddr s.inprx (s.ins mmu) kind) = true
  · obtain ⟨k, e, ws, r, hi⟩ := hTurns hLt hs (fixInstruction_inside hReady hKind hInside)
    rw [retargeted_inside_iff h hi hj hKind rfl hTo hInside]
    exact ⟨fun hAway => ⟨hInside, hAway⟩, And.right⟩
  · rw [Bool.not_eq_true] at hInside
    obtain ⟨u, e, ws, hTurn, hTurned, hFirst⟩ := fixInstruction_outside hReady hKind hInside
    obtain ⟨k, hi⟩ := fixLoop_moved h hRun hRead hLt hs hTurn hTurned
    refine ⟨fun hRetargeted => absurd hRetargeted (not_retargeted_outside h hi hj hFirst hTo), ?_⟩
    rintro ⟨hIn, -⟩
    rw [hInside] at hIn
    cases hIn

/-- What becomes of the references inside a window. -/
structure References (mmu : Mmu) (slot : Slot) (inprw f : Addr) (count : Nat) (m m' : Machine) : Prop where
  room : ∀ n ≤ count, ∀ s, fixLoop mmu n (startReloc inprw f count slot.rw slot.rx m) = some s →
    ∀ idx, (s.ctx.dat idx).fmap.length < maxReferences
  done : ∃ t, fixLoop mmu count (startReloc inprw f count slot.rw slot.rx m) = some t ∧ t.ctx.NoRefs
  retargeted_iff : ∀ i < count, ∀ j < count, ∀ s s' u',
    fixLoop mmu i (startReloc inprw f count slot.rw slot.rx m) = some s →
    fixLoop mmu j (startReloc inprw f count slot.rw slot.rx m) = some s' →
    fixInstruction mmu s' = some u' →
    ∀ kind d, referrer (s.ins mmu) = some (kind, d) →
    absoluteAddr s.inprx (s.ins mmu) kind &&& ~~~3#64 = wordAt f j →
      (Retargeted mmu m' s.outrx s' u' kind (absoluteAddr s.inprx (s.ins mmu) kind) ↔
        s.ctx.isInFixingRange (absoluteAddr s.inprx (s.ins mmu) kind) = true ∧
          (notedWritten mmu s' = true → (slot.rw - slot.rx).setWidth kind.reach = 0))

/-- **References inside the window.** No list of open references is ever full, and none is open in the
end. A branch or ADR that referred to an instruction of the window refers to what this instruction has
become if and only if the context recognises the address, and the instruction is not an ADRP whose
place is noted by the address that is written to, when that is out of reach. -/
theorem fixInstructions_references (h : Relocation mmu slot f count)
    (hFix : fixInstructions mmu inprw f count slot.rw slot.rx m = some m') :
    References mmu slot inprw f count m m' := by
  refine ⟨fun n hn s hs => ?_, ?_, fun i hi j hj s s' u' hs hs' hStep kind d hKind hTo =>
    reference_retargeted_iff h hFix hi hj hs hs' hStep hKind hTo⟩
  · obtain ⟨k, hProgress⟩ := fixLoop_progress h.input hn hs
    exact (hProgress.ready h.input hn).short
  · obtain ⟨t, hRun, -⟩ := fixInstructions_read h hFix
    obtain ⟨k, hProgress⟩ := fixLoop_progress h.input (Nat.le_refl count) hRun
    refine ⟨t, hRun, fun idx => ?_⟩
    by_cases hIdx : idx < count
    · exact hProgress.done idx hIdx
    · rw [hProgress.beyond idx (by omega)]

theorem literalReadable_flat (s : Reloc) : literalReadable flat s = true := by
  have hReadable : ∀ a n, readable flat a n = true := fun a n => List.all_eq_true.mpr fun _ _ => rfl
  unfold literalReadable
  dsimp only
  split
  · rfl
  · split
    · rfl
    · rw [hReadable, Bool.or_true]

/-- `B #4` in front of a NOP. -/
theorem fixInstructions_references_forward : ∃ m',
    fixInstructions flat 0x1000#64 0x1000#64 2 0x2000#64 0x2000#64
      ⟨fun p => if p = 0x1000#64 then 0x14000001#32 else aarch64Nop, []⟩ = some m' ∧
    References flat ⟨0x2000#64, 0x2000#64⟩ 0x1000#64 0x1000#64 2
      ⟨fun p => if p = 0x1000#64 then 0x14000001#32 else aarch64Nop, []⟩ m' := by
  have hRelocation : Relocation flat ⟨0x2000#64, 0x2000#64⟩ 0x1000#64 2 :=
    ⟨⟨by decide, by decide, by decide, by decide⟩, Mmu.unfolded_of_id (by decide) fun _ _ => rfl,
      fun _ _ => rfl, by decide⟩
  obtain ⟨m', hFix⟩ := (fixInstructions_ends_iff hRelocation.input).mpr fun _ _ _ _ =>
    literalReadable_flat _
  exact ⟨m', hFix, fixInstructions_references hRelocation hFix⟩

/-- Physical memory of 128 MiB, which is repeated. -/
def mirrored : Mmu := ⟨fun p => p &&& 0x7ffffff#64, fun _ => true⟩

/-- `ADRP X0, #0` in front of a branch back to it. -/
def adrpFirst : Machine := ⟨fun p => if p = 0x1004#64 then 0x90000000#32 else 0x17ffffff#32, []⟩

/-- The branch refers to the ADRP by the address that is written to. -/
theorem fixInstructions_references_adrp : ∃ m' s s' u',
    fixInstructions mirrored 0x1004#64 0x1004#64 2 0x8002000#64 0x2000#64 adrpFirst = some m' ∧
    fixLoop mirrored 1 (startReloc 0x1004#64 0x1004#64 2 0x8002000#64 0x2000#64 adrpFirst) = some s ∧
    fixLoop mirrored 0 (startReloc 0x1004#64 0x1004#64 2 0x8002000#64 0x2000#64 adrpFirst) = some s' ∧
    fixInstruction mirrored s' = some u' ∧
    referrer (s.ins mirrored) = some (.jump false, -4#64) ∧
    absoluteAddr s.inprx (s.ins mirrored) (.jump false) = wordAt 0x1004#64 0 ∧
    ¬ Retargeted mirrored m' s.outrx s' u' (.jump false) (wordAt 0x1004#64 0) := by
  have hMirror : ∀ i < trampolineSize,
      mirrored.tr (wordAt 0x8002000#64 i) = wordAt 0x2000#64 i := by decide
  have hUnfolded : mirrored.Unfolded 0x8002000#64 trampolineSize := by
    intro i j hi hj hSame
    rw [hMirror i hi, hMirror j hj] at hSame
    have hSize : trampolineSize = 50 := rfl
    exact wordAt_inj (by omega) (by omega) hSame
  have hRelocation : Relocation mirrored ⟨0x2000#64, 0x8002000#64⟩ 0x1004#64 2 :=
    ⟨⟨by decide, by decide, by decide, by decide⟩, hUnfolded, by decide, by decide⟩
  obtain ⟨m', hFix⟩ := Option.isSome_iff_exists.mp (show (fixInstructions mirrored 0x1004#64 0x1004#64 2
    0x8002000#64 0x2000#64 adrpFirst).isSome by decide)
  obtain ⟨s, hs, hPlace⟩ := Option.map_eq_some_iff.mp (show (fixLoop mirrored 1 (startReloc 0x1004#64
    0x1004#64 2 0x8002000#64 0x2000#64 adrpFirst)).map (fun s => (s.inprx, s.ins mirrored)) =
      some (0x1008#64, 0x17ffffff#32) by decide)
  obtain ⟨u', hStep⟩ := Option.isSome_iff_exists.mp (show (fixInstruction mirrored (startReloc 0x1004#64
    0x1004#64 2 0x8002000#64 0x2000#64 adrpFirst)).isSome by decide)
  obtain ⟨hIn, hIns⟩ := Prod.mk.inj hPlace
  have hKind : referrer (s.ins mirrored) = some (.jump false, -4#64) := by
    rw [hIns]
    decide
  have hTo : absoluteAddr s.inprx (s.ins mirrored) (.jump false) = wordAt 0x1004#64 0 := by
    rw [hIn, hIns]
    decide
  refine ⟨m', s, _, u', hFix, hs, rfl, hStep, hKind, hTo, fun hRetargeted => ?_⟩
  have hAway := (reference_retargeted_iff (i := 1) (j := 0) hRelocation hFix (by decide) (by decide) hs rfl
    hStep hKind (by rw [hTo]; decide)).mp (by rw [hTo]; exact hRetargeted)
  exact absurd (hAway.2 (by decide)) (by decide)

end Wondar.Hook
