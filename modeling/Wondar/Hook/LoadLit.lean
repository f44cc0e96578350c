import Wondar.Hook.AbsoluteAddr
import Wondar.Hook.CondBranch

/-!
# Relocating literal loads

Once `absolute_addr` is known, a literal load becomes the same load with another distance, or,
when the literal is too far away or in the window, a load of a copy behind it. In both forms NOPs
come first until the literal is aligned (`copied_pad`, `near_pad`), and in both the new distance
is put into the old word under a mask that depends on the kind of load.

For most kinds the mask leaves bits of the opcode to the distance. A positive distance does not
reach them; a negative one makes a load of words one of doublewords, and the loads of vector
registers words that are not allocated (`distanceWord_top`). So the load is kept exactly when its
literal is copied, with all words of the copy readable, or lies ahead, or the opcode has those
bits already (`fixLoadlit_faithful_iff`).
-/

namespace Wondar.Hook

open A64 Coherence

variable {mmu : Mmu} {slot : Slot} {s t : Reloc} {ws : List Word} {w : Word} {kind : Literal}
  {a e p : Addr} {rt : Reg}

/-! ## Padding -/

/-- `n` NOPs. -/
def nops (mmu : Mmu) : Nat → Reloc → Reloc
  | 0, s => s
  | n + 1, s => nops mmu n (s.nop mmu)

/-- Padding ends when the condition can be ended by NOPs. -/
theorem padWhile_eq (mmu : Mmu) (cond : Reloc → Bool) {fuel q : Nat} (hq : q ≤ fuel)
    (h : cond (nops mmu q s) = false) :
    ∃ p ≤ q, padWhile mmu cond fuel s = some (nops mmu p s) ∧ cond (nops mmu p s) = false := by
  induction fuel generalizing s q with
  | zero =>
    obtain rfl : q = 0 := by omega
    exact ⟨0, Nat.le_refl 0, by rw [padWhile, show cond s = false from h]; rfl, h⟩
  | succ fuel ih =>
    by_cases hHolds : cond s = true
    · cases q with
      | zero =>
        rw [show cond s = false from h] at hHolds
        cases hHolds
      | succ q =>
        obtain ⟨p, hp, hPad, hEnds⟩ := ih (s := s.nop mmu) (q := q) (by omega) h
        exact ⟨p + 1, by omega, by rw [padWhile, if_pos hHolds, hPad]; rfl, hEnds⟩
    · exact ⟨0, Nat.zero_le _, by rw [padWhile, if_neg hHolds]; rfl, by simpa [nops] using hHolds⟩

theorem Appends.nops (h : Appends mmu s t p ws) (n : Nat) :
    Appends mmu s (nops mmu n t) p (ws ++ List.replicate n aarch64Nop) := by
  induction n generalizing t ws with
  | zero => simpa [Hook.nops] using h
  | succ n ih =>
    have hNext := ih h.nop
    rwa [List.append_assoc] at hNext

/-- The size of a literal, in words. -/
def literalWords : Literal → Nat
  | .w | .sw | .s => 1
  | .x | .d => 2
  | .q => 4

/-- How many words the function copies; of the literal of an LDRSW one too many. -/
def copiedWords (kind : Literal) : Nat := (literalAligned kind + 1) / 4

theorem literalWords_le (kind : Literal) :
    literalWords kind ≤ copiedWords kind ∧ copiedWords kind ≤ 4 := by
  cases kind <;> decide

theorem literalAligned_eq (kind : Literal) : ∃ n ≤ 2, copiedWords kind = 2 ^ n ∧
    literalAligned kind = 2 ^ (n + 2) - 1 ∧ literalAligned kind >>> 2 = 2 ^ n - 1 := by
  cases kind with
  | w => exact ⟨0, by decide⟩
  | s => exact ⟨0, by decide⟩
  | x => exact ⟨1, by decide⟩
  | sw => exact ⟨1, by decide⟩
  | d => exact ⟨1, by decide⟩
  | q => exact ⟨2, by decide⟩

/-- At most three NOPs align the address two words behind. -/
theorem copied_pad (he : Aligned e) (kind : Literal) : ∃ p ≤ 3,
    (wordAt (wordAt e p) 2 &&& BitVec.ofNat 64 (literalAligned kind) != 0#64) = false := by
  obtain ⟨n, hn, -, hMask, -⟩ := literalAligned_eq kind
  refine ⟨(6 - e.toNat / 4 % 4) % 4, by omega, ?_⟩
  have hDvd : 2 ^ (n + 2) ∣ 16 := Nat.pow_dvd_pow 2 (show n + 2 ≤ 4 by omega)
  have hSixteen : (wordAt (wordAt e ((6 - e.toNat / 4 % 4) % 4)) 2).toNat % 16 = 0 := by
    unfold Aligned at he
    rw [wordAt_wordAt, wordAt, BitVec.toNat_add, BitVec.toNat_ofNat]
    omega
  rw [hMask, bne_eq_false_iff_eq, and_low_eq_zero_iff _ (by omega)]
  exact Nat.mod_eq_zero_of_dvd (Nat.dvd_trans hDvd (Nat.dvd_of_mod_eq_zero hSixteen))

/-- A distance is aligned by as many NOPs as it has words too many. -/
theorem near_pad (hd : (a - e).toNat % 4 = 0) (kind : Literal) :
    ((a - wordAt e ((a - e).toNat / 4 % copiedWords kind)).sshiftRight 2 &&&
      BitVec.ofNat 64 (literalAligned kind >>> 2) != 0#64) = false := by
  obtain ⟨n, hn, hWords, -, hMask⟩ := literalAligned_eq kind
  rw [hWords, hMask, bne_eq_false_iff_eq, and_low_eq_zero_iff _ (by omega)]
  generalize hp : (a - e).toNat / 4 % 2 ^ n = p
  have hLe : p ≤ (a - e).toNat / 4 := hp ▸ Nat.mod_le _ _
  have hRest : (a - wordAt e p).toNat = (a - e).toNat - 4 * p := by
    unfold wordAt
    bv_omega
  have hBack := congrArg BitVec.toNat (sshiftRight_shiftLeft_two (a - wordAt e p) (by omega))
  rw [BitVec.toNat_shiftLeft, Nat.shiftLeft_eq, hRest] at hBack
  obtain rfl | rfl | rfl : n = 0 ∨ n = 1 ∨ n = 2 := by omega
  · exact Nat.mod_one _
  · omega
  · omega

/-! ## The words -/

/-- The load with another distance, under the mask that the function takes for its kind. -/
def distanceWord (kind : Literal) (w x : Word) : Word :=
  (x &&& ~~~(literalMask kind)) ||| (w &&& 0xff00001f#32)

/-- `B`, over the copy. -/
def overCopy (kind : Literal) : Word := 0x14000001#32 + BitVec.ofNat 32 (copiedWords kind)

theorem decode_overCopy (kind : Literal) :
    decode (overCopy kind) = some (.b (BitVec.ofNat 26 (1 + copiedWords kind))) := by
  cases kind <;> decide

/-- As long as the opcode stays, so does the kind of load. -/
theorem decode_distanceWord (hKind : decodeLiteral w = some kind) {x : Word}
    (hTop : distanceWord kind w x &&& 0xff000000#32 = kind.opcode) (hLow : x.setWidth 5 = 0#5) :
    decode (distanceWord kind w x) =
      some (.ldrLiteral kind (x.extractLsb' 5 19) (w.setWidth 5)) := by
  have hField : (distanceWord kind w x).extractLsb' 5 19 = x.extractLsb' 5 19 :=
    extractLsb'_put _ _ (by cases kind <;> decide) (by decide)
  have hRt : (distanceWord kind w x).setWidth 5 = w.setWidth 5 := by
    have hMask : (literalMask kind).setWidth 5 = 0#5 := by cases kind <;> decide
    have hKeep : (0xff00001f#32 : Word).setWidth 5 = BitVec.allOnes 5 := by decide
    rw [distanceWord, BitVec.setWidth_or, BitVec.setWidth_and, BitVec.setWidth_and, hLow, hKeep,
      BitVec.zero_and, BitVec.zero_or, BitVec.and_allOnes]
  rw [decode_literal hTop, hField, hRt]

/-- The top byte, which a distance may reach. -/
theorem distanceWord_top (hKind : decodeLiteral w = some kind) (x : Word) :
    distanceWord kind w x &&& 0xff000000#32 =
      ((x &&& 0xff000000#32) &&& ~~~(literalMask kind)) ||| kind.opcode := by
  have hKeep : (0xff00001f#32 &&& 0xff000000#32 : Word) = 0xff000000#32 := by decide
  rw [distanceWord, BitVec.and_comm, BitVec.and_or_distrib_left, BitVec.and_comm _ (w &&& _),
    BitVec.and_assoc w, hKeep, decodeLiteral_top hKind, ← BitVec.and_assoc,
    BitVec.and_comm 0xff000000#32 x]

/-- The distance reaches it when it is negative. -/
theorem distance_top {q : BitVec 64} (hFit : llabs q < 2 ^ 18) :
    (q <<< 5).setWidth 32 &&& 0xff000000#32 = if 0 ≤ q.toInt then 0#32 else 0xff000000#32 := by
  have hLt := q.isLt
  unfold llabs at hFit
  rw [BitVec.toInt_eq_toNat_cond] at hFit ⊢
  have hByte : (((q <<< 5).setWidth 32) >>> 24).toNat = if 2 * q.toNat < 2 ^ 64 then 0 else 255 := by
    rw [BitVec.toNat_ushiftRight, Nat.shiftRight_eq_div_pow, BitVec.toNat_setWidth,
      BitVec.toNat_shiftLeft, Nat.shiftLeft_eq]
    split at hFit
    · rw [if_pos ‹_›]
      omega
    · rw [if_neg ‹_›]
      omega
  rw [and_top_eq]
  split at hByte
  · rename_i hSmall
    rw [if_pos hSmall, if_pos (by omega), BitVec.toNat_inj (y := 0#32) |>.mp hByte]
    rfl
  · rename_i hLarge
    rw [if_neg hLarge, if_neg (by omega), BitVec.toNat_inj (y := 255#32) |>.mp hByte]
    rfl

/-- The opcode survives a distance that is not negative; of the others only where it has the bits
anyway. -/
theorem distanceWord_kept_iff (hKind : decodeLiteral w = some kind) {q : BitVec 64}
    (hFit : llabs q < 2 ^ 18) :
    distanceWord kind w ((q <<< 5).setWidth 32) &&& 0xff000000#32 = kind.opcode ↔
      0 ≤ q.toInt ∨ kind = .x ∨ kind = .sw := by
  rw [distanceWord_top hKind, distance_top hFit]
  split
  · rename_i hAhead
    simp [hAhead]
  · rename_i hBehind
    simp only [hBehind, false_or]
    cases kind <;> decide

/-! ## Emission -/

/-- The words of a load from a copy that is `lits`. -/
def copiedLoad (kind : Literal) (w : Word) (lits : List Word) : List Word :=
  distanceWord kind w 0x40#32 :: overCopy kind :: lits

/-- A load and the copy behind it, which is of the words that were at `a` when they are not
among those that have been written. -/
theorem Appends.copiedLoad (h : Appends mmu s t p ws) (kind : Literal) (w : Word) {k : Nat}
    (hApart : mmu.Apart a k s.outrw (ws.length + 2)) :
    ∃ lits, lits.length = copiedWords kind ∧
      (∀ i < k, ∀ hi : i < lits.length, lits[i] = s.mach.read mmu (wordAt a i)) ∧
      Appends mmu s (((((t.put mmu 0 (distanceWord kind w 0x40#32)).put mmu 1 (overCopy kind)).copy
        mmu 2 (copiedWords kind) a)).advance (2 + copiedWords kind)) p
        (ws ++ Hook.copiedLoad kind w lits) := by
  have hHead : Writes mmu t ((t.put mmu 0 (distanceWord kind w 0x40#32)).put mmu 1 (overCopy kind))
      [distanceWord kind w 0x40#32, overCopy kind] :=
    ((Writes.refl mmu t).put (distanceWord kind w 0x40#32)).put (overCopy kind)
  generalize (t.put mmu 0 (distanceWord kind w 0x40#32)).put mmu 1 (overCopy kind) = u at hHead
  have hAppends := h.block (hHead.copy (copiedWords kind) a)
  rw [List.length_append, List.length_map, List.length_range] at hAppends
  refine ⟨(List.range (copiedWords kind)).map fun i => u.mach.read mmu (wordAt a i),
    by rw [List.length_map, List.length_range], fun i hik hi => ?_, hAppends⟩
  rw [List.getElem_map, List.getElem_range]
  exact (h.block hHead).read fun j hj => hApart i j hik (by simpa using hj)

/-- The copied form, when the words of the copy can be read. -/
theorem loadlitFrom_copied (mmu : Mmu) (he : Aligned s.outrx) {k : Nat} (hApart : mmu.Apart a k s.outrw 5)
    (hCopied : literalCopied s (literalAligned kind) a = true) :
    if readable mmu a (copiedWords kind) then
      ∃ u p lits, loadlitFrom mmu s (literalMask kind) (literalAligned kind) a =
          .fixed (u.consume.processFixMap mmu s.currentIdx) ∧ p ≤ 3 ∧
        lits.length = copiedWords kind ∧
        (∀ i < k, ∀ hi : i < lits.length, lits[i] = s.mach.read mmu (wordAt a i)) ∧
        Appends mmu s u (wordAt s.outrx p)
          (List.replicate p aarch64Nop ++ copiedLoad kind (s.ins mmu) lits)
    else loadlitFrom mmu s (literalMask kind) (literalAligned kind) a = .stuck := by
  have hStart := Appends.start mmu s s.outrx
  obtain ⟨q, hq, hAligned⟩ := copied_pad he kind
  have hOut : ∀ n, (nops mmu n (s.setCurrentIndex s.outrx)).outrx = wordAt s.outrx n := fun n => by
    rw [(hStart.nops n).outrx, List.nil_append, List.length_replicate]
  obtain ⟨p, hp, hPad, -⟩ := padWhile_eq mmu
    (fun s => wordAt s.outrx 2 &&& BitVec.ofNat 64 (literalAligned kind) != 0#64)
    (s := s.setCurrentIndex s.outrx) (show q ≤ padFuel from hq) (by rw [hOut]; exact hAligned)
  have hSame : literalCopied (s.setCurrentIndex s.outrx) (literalAligned kind) a = true := hCopied
  have hWords : (literalAligned kind + 1) / 4 = copiedWords kind := rfl
  unfold loadlitFrom
  dsimp only
  simp only [if_pos hSame, hPad, Option.bind_some, hWords]
  split
  · have hPadded := (hStart.nops p).resetCurrentIns
    rw [List.nil_append, List.length_replicate] at hPadded
    obtain ⟨lits, hLength, hLits, hAppends⟩ := hPadded.copiedLoad kind (s.ins mmu) (k := k)
      fun i j hi hj => hApart i j hi (by rw [List.length_replicate] at hj; omega)
    exact ⟨_, p, lits, rfl, by omega, hLength, hLits, hAppends⟩
  · rfl

/-- The near form. -/
theorem loadlitFrom_near (mmu : Mmu) (hd : (a - s.outrx).toNat % 4 = 0)
    (hNear : literalCopied s (literalAligned kind) a = false) :
    ∃ u p, loadlitFrom mmu s (literalMask kind) (literalAligned kind) a =
        .fixed (u.consume.processFixMap mmu s.currentIdx) ∧
      p ≤ (a - s.outrx).toNat / 4 % copiedWords kind ∧
      Appends mmu s u (wordAt s.outrx p) (List.replicate p aarch64Nop ++
        [distanceWord kind (s.ins mmu) ((hookOffset (wordAt s.outrx p) a <<< 5).setWidth 32)]) := by
  have hStart := Appends.start mmu s s.outrx
  have hOut : ∀ n, (nops mmu n (s.setCurrentIndex s.outrx)).outrx = wordAt s.outrx n := fun n => by
    rw [(hStart.nops n).outrx, List.nil_append, List.length_replicate]
  have hLe := literalWords_le kind
  have hPos : 0 < copiedWords kind := by cases kind <;> decide
  have hMod := Nat.mod_lt ((a - s.outrx).toNat / 4) hPos
  have hFuel : (a - s.outrx).toNat / 4 % copiedWords kind ≤ padFuel := show _ ≤ 3 by omega
  obtain ⟨p, hp, hPad, -⟩ := padWhile_eq mmu
    (fun s => (a - s.outrx).sshiftRight 2 &&& BitVec.ofNat 64 (literalAligned kind >>> 2) != 0#64)
    (s := s.setCurrentIndex s.outrx) hFuel (by rw [hOut]; exact near_pad hd kind)
  have hSame : ¬ literalCopied (s.setCurrentIndex s.outrx) (literalAligned kind) a = true := by
    rw [Bool.not_eq_true]
    exact hNear
  unfold loadlitFrom
  dsimp only
  simp only [if_neg hSame, hPad, Option.map_some]
  refine ⟨_, p, rfl, hp, ?_⟩
  have hPadded := (hStart.nops p).resetCurrentIns
  rw [List.nil_append, List.length_replicate] at hPadded
  have hAppends := hPadded.put (distanceWord kind (s.ins mmu)
    ((hookOffset (wordAt s.outrx p) a <<< 5).setWidth 32))
  rw [← hOut p] at hAppends ⊢
  exact hAppends

/-! ## Execution -/

section

variable {other : Word → State → State} {σ τ : State} {i k n : Nat} {lits : List Word}
  {mem : Addr → Word}

@[simp] theorem loadLiteral_pc (σ : State) (kind : Literal) (a : Addr) (rt : Reg) :
    (loadLiteral σ kind a rt).pc = σ.pc := by
  cases kind
  iterate 3
    · simp only [loadLiteral, State.setGpr]
      split <;> rfl
  all_goals rfl

/-- A load looks at the words of its literal only. -/
theorem loadLiteral_congr {b : Addr}
    (h : ∀ i < literalWords kind, σ.mem (wordAt a i) = mem (wordAt b i)) (rt : Reg) :
    loadLiteral σ kind a rt =
      { loadLiteral { σ with mem := mem } kind b rt with mem := σ.mem } := by
  have hFirst : σ.mem a = mem b := by
    have := h 0 (by cases kind <;> decide)
    rwa [wordAt_zero, wordAt_zero] at this
  have hDouble : ∀ i, i + 1 < literalWords kind →
      load64 σ.mem (wordAt a i) = load64 mem (wordAt b i) := fun i hi => by
    rw [load64, load64, wordAt_wordAt, wordAt_wordAt, h i (by omega), h (i + 1) hi]
  have hZero := hDouble 0
  rw [wordAt_zero, wordAt_zero] at hZero
  cases kind with
  | w =>
    simp only [loadLiteral, State.setGpr, hFirst]
    split <;> rfl
  | x =>
    simp only [loadLiteral, State.setGpr, hZero (by decide)]
    split <;> rfl
  | sw =>
    simp only [loadLiteral, State.setGpr, hFirst]
    split <;> rfl
  | s =>
    simp only [loadLiteral, State.setV, hFirst]
  | d =>
    simp only [loadLiteral, State.setV, hZero (by decide)]
  | q =>
    simp only [loadLiteral, State.setV, hZero (by decide), hDouble 2 (by decide)]

/-- The register holds what the literal at `a` is in `mem`; nothing else has changed, and execution
goes on at `after`. -/
def loaded (kind : Literal) (rt : Reg) (mem : Addr → Word) (a after : Addr) (σ : State) : State :=
  { loadLiteral { σ with mem := mem } kind a rt with pc := after, mem := σ.mem }

/-- It does not matter where the load was. -/
@[simp] theorem loaded_pc (kind : Literal) (rt : Reg) (mem : Addr → Word) (a after p : Addr)
    (σ : State) : loaded kind rt mem a after { σ with pc := p } = loaded kind rt mem a after σ := by
  unfold loaded
  cases kind
  iterate 3
    · simp only [loadLiteral, State.setGpr]
      split <;> rfl
  all_goals rfl

variable (a other mem) in
theorem step_literal {imm : BitVec 19} {b : Addr} (hWord : σ.mem σ.pc = w)
    (hDecode : decode w = some (.ldrLiteral kind imm rt)) (hLit : σ.pc + branchOffset imm = b)
    (h : ∀ i < literalWords kind, σ.mem (wordAt b i) = mem (wordAt a i)) :
    step other σ = loaded kind rt mem a (σ.pc + 4#64) σ := by
  rw [step_core _ hWord hDecode, Instr.exec, hLit, State.next, loadLiteral_pc, loadLiteral_congr h]
  rfl

/-- NOPs before a block do not matter. -/
theorem exits_padded {p : Nat} (hAt : σ.AtWord e 0)
    (hCode : CodeAt σ.mem e (List.replicate p aarch64Nop ++ ws)) (hPos : 0 < ws.length)
    (hSmall : p + ws.length ≤ trampolineSize)
    (hRest : CodeAt σ.mem (wordAt e p) ws →
      Exits other e (p + ws.length) { σ with pc := wordAt e p } τ) :
    Exits other e (p + ws.length) σ τ := by
  have hSize : trampolineSize = 50 := rfl
  obtain ⟨hNops, hWords⟩ := codeAt_append.mp hCode
  rw [List.length_replicate] at hWords
  refine exits_nops (fun w hw => List.eq_of_mem_replicate hw) hAt (by rwa [wordAt_zero]) ?_
    (by omega) ?_
  · rw [List.length_replicate]
    omega
  · rw [List.length_replicate, Nat.zero_add]
    exact hRest hWords

theorem decode_copiedLoad (hKind : decodeLiteral w = some kind) :
    decode (distanceWord kind w 0x40#32) = some (.ldrLiteral kind 2#19 (w.setWidth 5)) := by
  have hTop : distanceWord kind w 0x40#32 &&& 0xff000000#32 = kind.opcode := by
    rw [distanceWord_top hKind]
    cases kind <;> decide
  exact decode_distanceWord hKind hTop (by decide)

/-- The load of a copy. -/
theorem exits_copiedLoad (hKind : decodeLiteral w = some kind) {p : Nat} (hAt : σ.AtWord e 0)
    (hCode : CodeAt σ.mem e (List.replicate p aarch64Nop ++ copiedLoad kind w lits)) (hp : p ≤ 3)
    (hLength : lits.length = copiedWords kind)
    (hLits : ∀ i < literalWords kind, ∀ hi : i < lits.length, lits[i] = mem (wordAt a i)) :
    Exits other e (p + (copiedLoad kind w lits).length) σ
      (loaded kind (w.setWidth 5) mem a (wordAt e (p + (copiedLoad kind w lits).length)) σ) := by
  have hWords := literalWords_le kind
  have hSize : trampolineSize = 50 := rfl
  have hCount : (copiedLoad kind w lits).length = copiedWords kind + 2 := by
    rw [copiedLoad, List.length_cons, List.length_cons, hLength]
  refine exits_padded hAt hCode (by omega) (by omega) fun hBlock => ?_
  rw [copiedLoad, codeAt_cons, codeAt_cons, wordAt_wordAt, wordAt_wordAt] at hBlock
  obtain ⟨hLoad, hOver, hCopy⟩ := hBlock
  have hTarget : wordAt e p + branchOffset 2#19 = wordAt e (p + 2) := by
    rw [← wordAt_wordAt]
    rfl
  have hFirst := step_literal a other mem (σ := { σ with pc := wordAt e p }) hLoad
    (decode_copiedLoad hKind) hTarget fun i hi => by
      rw [wordAt_wordAt, ← hLits i hi (by omega), ← hCopy i (by omega), wordAt_wordAt]
  dsimp only at hFirst
  rw [loaded_pc, ← wordAt_one, wordAt_wordAt] at hFirst
  have hSecond : step other (loaded kind (w.setWidth 5) mem a (wordAt e (p + 1)) σ) =
      loaded kind (w.setWidth 5) mem a (wordAt e (p + (copiedLoad kind w lits).length)) σ := by
    have hEnd : wordAt e (p + 1) + branchOffset (BitVec.ofNat 26 (1 + copiedWords kind)) =
        wordAt e (p + (copiedLoad kind w lits).length) := by
      rw [hCount, show p + (copiedWords kind + 2) = p + 1 + (1 + copiedWords kind) by omega,
        ← wordAt_wordAt e (p + 1)]
      cases kind <;> rfl
    rw [step_core other (s := loaded kind (w.setWidth 5) mem a (wordAt e (p + 1)) σ) hOver
      (decode_overCopy kind), Instr.exec, ← hEnd]
    rfl
  exact .fall hFirst rfl rfl (by omega) (by omega) (.end hSecond rfl (by omega))

/-- The load with another distance. -/
theorem exits_distance (hKind : decodeLiteral w = some kind) {p : Nat} (he : Aligned e)
    (ha : Aligned a) (hAt : σ.AtWord e 0) (hp : p ≤ 3)
    (hCode : CodeAt σ.mem e (List.replicate p aarch64Nop ++
      [distanceWord kind w ((hookOffset (wordAt e p) a <<< 5).setWidth 32)]))
    (hFit : llabs (hookOffset (wordAt e p) a) < 2 ^ 18)
    (hKept : 0 ≤ (hookOffset (wordAt e p) a).toInt ∨ kind = .x ∨ kind = .sw)
    (hLits : ∀ i < literalWords kind, σ.mem (wordAt a i) = mem (wordAt a i)) :
    Exits other e (p + 1) σ (loaded kind (w.setWidth 5) mem a (wordAt e (p + 1)) σ) := by
  have hSize : trampolineSize = 50 := rfl
  refine exits_padded hAt hCode (by simp) (by simp; omega) fun hBlock => ?_
  have hDecode := decode_distanceWord hKind ((distanceWord_kept_iff hKind hFit).mpr hKept)
    (setWidth_shifted _)
  rw [extractLsb'_shifted (by omega)] at hDecode
  have hReach : wordAt e p + branchOffset ((hookOffset (wordAt e p) a).setWidth 19) = a := by
    rw [branchOffset_of_fit (by omega) (he.wordAt p) ha hFit]
    grind
  have hStep := step_literal a other mem (σ := { σ with pc := wordAt e p })
    (codeAt_cons.mp hBlock).1 hDecode hReach hLits
  dsimp only at hStep
  rw [loaded_pc, ← wordAt_one, wordAt_wordAt] at hStep
  exact .end hStep rfl (by rw [List.length_singleton]; omega)

end

/-! ## The instruction -/

theorem Became.padding {p i : Nat} (h : Became mmu s t (List.replicate p aarch64Nop ++ ws))
    (hi : i < p) : t.mach.read mmu (wordAt s.outrx i) = aarch64Nop := by
  have hWord := (codeAt_append.mp h.code).1 i (by rwa [List.length_replicate])
  rwa [List.getElem_replicate] at hWord

theorem Became.last {p : Nat} (h : Became mmu s t (List.replicate p aarch64Nop ++ w :: ws)) :
    t.mach.read mmu (wordAt s.outrx p) = w := by
  have hWords := (codeAt_append.mp h.code).2
  rw [List.length_replicate] at hWords
  exact (codeAt_cons.mp hWords).1

theorem aligned_loadlitAddress {e : Addr} (he : Aligned e) (w : Word) :
    Aligned (loadlitAddress e w) := by
  have hOff : ((wordImmediate w).setWidth 64).toNat % 4 = 0 := by
    rw [wordImmediate_eq, BitVec.toNat_setWidth, BitVec.toNat_shiftLeft, Nat.shiftLeft_eq]
    omega
  unfold Aligned at he ⊢
  rw [loadlitAddress, BitVec.toNat_add]
  omega

/-- A distance that is taken for near fits, and padding does not change its sign. -/
theorem near_fit (hd : (a - s.outrx).toNat % 4 = 0)
    (hNear : literalCopied s (literalAligned kind) a = false) {p : Nat}
    (hp : p ≤ (a - s.outrx).toNat / 4 % copiedWords kind) :
    llabs (hookOffset (wordAt s.outrx p) a) < 2 ^ 18 ∧
      (0 ≤ (hookOffset (wordAt s.outrx p) a).toInt ↔ 0 ≤ (a - s.outrx).toInt) := by
  have hPos : 0 < copiedWords kind := by cases kind <;> decide
  have hMod := Nat.mod_lt ((a - s.outrx).toNat / 4) hPos
  have hModLe := Nat.mod_le ((a - s.outrx).toNat / 4) (copiedWords kind)
  have hAligned : literalAligned kind + 1 - 4 = 4 * (copiedWords kind - 1) := by
    cases kind <;> rfl
  obtain ⟨-, hFit⟩ := Bool.or_eq_false_iff.mp hNear
  replace hFit : llabs ((a - s.outrx).sshiftRight 2) + (copiedWords kind - 1) < 0x3ffff := by
    have := of_decide_eq_false hFit
    omega
  have hLt := (a - s.outrx).isLt
  have hRest : (a - wordAt s.outrx p).toNat = (a - s.outrx).toNat - 4 * p := by
    unfold wordAt
    bv_omega
  unfold llabs hookOffset at *
  rw [toInt_sshiftRight_two, BitVec.toInt_eq_toNat_cond] at hFit
  rw [toInt_sshiftRight_two, BitVec.toInt_eq_toNat_cond, hRest, BitVec.toInt_eq_toNat_cond]
  generalize (a - s.outrx).toNat = d at *
  split at hFit <;> split <;> constructor <;> omega

section

variable {inprw f : Addr} {count n : Nat} {m : Machine}

/-- What a literal load has become is one of the same kind, and executing it is executing the load
with the literal that was at `a`. -/
def LoadKept (mmu : Mmu) (s s' : Reloc) (kind : Literal) (rt : Reg) (m : Machine) (a : Addr)
    (start : State → Prop) : Prop :=
  (∃ i < emittedCount s s', ∃ imm,
    decode (s'.mach.read mmu (wordAt s.outrx i)) = some (.ldrLiteral kind imm rt)) ∧
  Faithful mmu s s' start fun σ τ => τ = loaded kind rt (m.view mmu) a s'.outrx σ

/-- The words of the literal, where the load still refers to them. -/
def literalInPlace (mmu : Mmu) (s : Reloc) (kind : Literal) (m : Machine) (a : Addr) (σ : State) :
    Prop :=
  literalCopied s (literalAligned kind) a = false →
    ∀ i < literalWords kind, σ.mem (wordAt a i) = m.read mmu (wordAt a i)

/-- The condition under which a literal load survives. -/
def literalKept (mmu : Mmu) (s : Reloc) (kind : Literal) (a : Addr) : Prop :=
  if literalCopied s (literalAligned kind) a then readable mmu a (copiedWords kind) = true
  else 0 ≤ (a - s.outrx).toInt ∨ kind = .x ∨ kind = .sw

/-- Before a word is relocated, literals outside of the slot are as they were. -/
theorem Midway.read (h : Midway mmu slot inprw f count n m s) {p : Addr}
    (hApart : ∀ j < trampolineSize, mmu.tr p ≠ mmu.tr (wordAt slot.rw j)) :
    s.mach.read mmu p = m.read mmu p := by
  obtain ⟨k, hk, hCursor⟩ := h.cursor
  have hCount := h.count_le
  have hLt := h.lt
  have hMax : maxInstructions = 5 := rfl
  have hSize : trampolineSize = 50 := rfl
  exact hCursor.frame _ fun j _ hj => hApart j (by omega)

theorem Midway.apart (h : Midway mmu slot inprw f count n m s) {k : Nat}
    (hApart : mmu.Apart a k slot.rw trampolineSize) : mmu.Apart a k s.outrw 5 := by
  obtain ⟨i, hi, hCursor⟩ := h.cursor
  have hCount := h.count_le
  have hLt := h.lt
  have hMax : maxInstructions = 5 := rfl
  have hSize : trampolineSize = 50 := rfl
  intro j l hj hl
  rw [hCursor.outrw, wordAt_wordAt]
  exact hApart j _ hj (by omega)

/-- The copied form. -/
theorem loadKept_copied (h : Midway mmu slot inprw f count n m s)
    (hKind : decodeLiteral (s.ins mmu) = some kind) (hRt : rt = (s.ins mmu).setWidth 5)
    (hApart : mmu.Apart a (literalWords kind) slot.rw trampolineSize)
    (hCopied : literalCopied s (literalAligned kind) a = true) (start : State → Prop) :
    (∃ s', loadlitFrom mmu s (literalMask kind) (literalAligned kind) a = .fixed s' ∧
      LoadKept mmu s s' kind rt m a start) ↔
        readable mmu a (copiedWords kind) = true := by
  subst hRt
  have hWords := literalWords_le kind
  have hSize : trampolineSize = 50 := rfl
  have hForm := loadlitFrom_copied mmu h.output_aligned (h.apart hApart) hCopied
  by_cases hReadable : readable mmu a (copiedWords kind) = true
  · rw [if_pos hReadable] at hForm
    obtain ⟨u, p, lits, hFix, hp, hLength, hLits, hAppends⟩ := hForm
    have hCount : (List.replicate p aarch64Nop ++ copiedLoad kind (s.ins mmu) lits).length =
        p + (copiedLoad kind (s.ins mmu) lits).length := by
      rw [List.length_append, List.length_replicate]
    have hLoad : (copiedLoad kind (s.ins mmu) lits).length = copiedWords kind + 2 := by
      rw [copiedLoad, List.length_cons, List.length_cons, hLength]
    have hBecame := hAppends.consume_process (h.room (by omega)) s.currentIdx
    refine ⟨fun _ => hReadable, fun _ => ⟨_, hFix, ⟨p, ?_, 2#19, ?_⟩, ?_⟩⟩
    · rw [hBecame.count (by omega)]
      omega
    · rw [hBecame.last]
      exact decode_copiedLoad hKind
    · refine hBecame.faithful (by omega) fun other σ hAt hCode _ => ?_
      rw [hBecame.outrx, hCount]
      refine ⟨_, exits_copiedLoad hKind hAt hCode hp hLength (fun i hi hi' => ?_), rfl⟩
      rw [hLits i hi hi', h.read fun j hj => hApart i j hi hj]
      rfl
  · rw [if_neg hReadable] at hForm
    refine ⟨?_, fun hTrue => absurd hTrue hReadable⟩
    rintro ⟨s', hFix, -⟩
    rw [hForm] at hFix
    cases hFix

/-- The near form. A load whose opcode has changed is not among the words. -/
theorem loadKept_near (h : Midway mmu slot inprw f count n m s)
    (hKind : decodeLiteral (s.ins mmu) = some kind) (hRt : rt = (s.ins mmu).setWidth 5)
    (ha : Aligned a) (hNear : literalCopied s (literalAligned kind) a = false) {start : State → Prop}
    (hStart : ∀ σ, start σ → ∀ i < literalWords kind, σ.mem (wordAt a i) = m.read mmu (wordAt a i)) :
    (∃ s', loadlitFrom mmu s (literalMask kind) (literalAligned kind) a = .fixed s' ∧
      LoadKept mmu s s' kind rt m a start) ↔
        0 ≤ (a - s.outrx).toInt ∨ kind = .x ∨ kind = .sw := by
  subst hRt
  have hWords := literalWords_le kind
  have hSize : trampolineSize = 50 := rfl
  have hd := ha.sub h.output_aligned
  obtain ⟨u, p, hFix, hp, hAppends⟩ := loadlitFrom_near mmu hd hNear
  obtain ⟨hFit, hSign⟩ := near_fit hd hNear hp
  have hPad : p ≤ 3 := by
    have hPos : 0 < copiedWords kind := by cases kind <;> decide
    have hMod := Nat.mod_lt ((a - s.outrx).toNat / 4) hPos
    omega
  have hCount : (List.replicate p aarch64Nop ++ [distanceWord kind (s.ins mmu)
      ((hookOffset (wordAt s.outrx p) a <<< 5).setWidth 32)]).length = p + 1 := by
    rw [List.length_append, List.length_replicate, List.length_singleton]
  have hBecame := hAppends.consume_process (h.room (by omega)) s.currentIdx
  rw [← hSign]
  constructor
  · rintro ⟨s', hFix', ⟨i, hi, imm, hLoad⟩, -⟩
    rw [hFix] at hFix'
    cases hFix'
    rw [hBecame.count (by omega), hCount] at hi
    by_cases hLast : i < p
    · have hNop : decode aarch64Nop = some .nop := by decide
      rw [hBecame.padding hLast, hNop] at hLoad
      cases hLoad
    · obtain rfl : i = p := by omega
      rw [hBecame.last] at hLoad
      obtain ⟨hKind', -⟩ := decodeLiteral_of_decode hLoad
      exact (distanceWord_kept_iff hKind hFit).mp (decodeLiteral_top hKind')
  · intro hKept
    have hLoad := decode_distanceWord hKind ((distanceWord_kept_iff hKind hFit).mpr hKept)
      (setWidth_shifted _)
    refine ⟨_, hFix, ⟨p, ?_, _, by rw [hBecame.last, hLoad]⟩,
      hBecame.faithful (by omega) fun other σ hAt hCode hPlace => ?_⟩
    · rw [hBecame.count (by omega)]
      omega
    · rw [hBecame.outrx, hCount]
      exact ⟨_, exits_distance hKind h.output_aligned ha hAt hPad hCode hFit hKept
        (hStart σ hPlace), rfl⟩

/-- **Relocating a literal load.** A literal load becomes words that load the same from the address
that was computed for it, if the literal is copied and all words of the copy can be read, or is
not behind the output, or the load is one of a doubleword or LDRSW; otherwise it does not. -/
theorem fixLoadlit_faithful_iff (h : Midway mmu slot inprw f count n m s) {imm : BitVec 19}
    (hDecode : decode (s.ins mmu) = some (.ldrLiteral kind imm rt))
    (ha : loadlitAddress s.inprx (s.ins mmu) = a)
    (hApart : mmu.Apart a (literalWords kind) slot.rw trampolineSize) :
    (∃ s', fixLoadlit mmu s = .fixed s' ∧
      LoadKept mmu s s' kind rt m a (literalInPlace mmu s kind m a)) ↔ literalKept mmu s kind a := by
  obtain ⟨hKind, -, rfl⟩ := decodeLiteral_of_decode hDecode
  obtain ⟨hPrefetch, hMask⟩ := loadlitMask_of_literal hKind
  have hAligned : Aligned a := ha ▸ aligned_loadlitAddress h.source_aligned _
  rw [fixLoadlit_eq hPrefetch hMask, ha, literalKept]
  by_cases hCopied : literalCopied s (literalAligned kind) a = true
  · rw [if_pos hCopied]
    exact loadKept_copied h hKind rfl hApart hCopied _
  · rw [if_neg hCopied]
    rw [Bool.not_eq_true] at hCopied
    exact loadKept_near h hKind rfl hAligned hCopied fun σ hPlace => hPlace hCopied

end

/-- `LDR X0, #8`, to a literal behind the output. -/
theorem fixLoadlit_faithful_iff_behind :
    let m : Machine := ⟨fun _ => 0x58000040#32, []⟩
    let s := startReloc 0x1000#64 0x1000#64 1 0x2000#64 0x2000#64 m
    ∃ s', fixLoadlit flat s = .fixed s' ∧
      LoadKept flat s s' .x 0#5 m 0x1008#64 (literalInPlace flat s .x m 0x1008#64) :=
  (fixLoadlit_faithful_iff (midway_flat (by decide) (by decide) (by decide) (by decide) _)
    (show decode _ = some (.ldrLiteral .x 2#19 0#5) by decide) (by decide) (by decide)).mpr (.inr (.inl rfl))

/-- `LDR W0, #8` becomes a load of X0. -/
theorem fixLoadlit_word_behind :
    let m : Machine := ⟨fun _ => 0x18000040#32, []⟩
    let s := startReloc 0x1000#64 0x1000#64 1 0x2000#64 0x2000#64 m
    decode (s.ins flat) = some (.ldrLiteral .w 2#19 0#5) ∧
      loadlitAddress s.inprx (s.ins flat) = 0x1008#64 ∧
      ¬ ∃ s', fixLoadlit flat s = .fixed s' ∧
        LoadKept flat s s' .w 0#5 m 0x1008#64 (literalInPlace flat s .w m 0x1008#64) := by
  intro m s
  have hMidway : Midway flat ⟨0x2000#64, 0x2000#64⟩ 0x1000#64 0x1000#64 1 0 m s :=
    midway_flat (by decide) (by decide) (by decide) (by decide) _
  have hKind : decodeLiteral (s.ins flat) = some .w := by decide
  obtain ⟨hPrefetch, hMask⟩ := loadlitMask_of_literal hKind
  have hAddress : loadlitAddress s.inprx (s.ins flat) = 0x1008#64 := by decide
  have hNear : literalCopied s (literalAligned .w) 0x1008#64 = false := by decide
  refine ⟨by decide, hAddress, ?_⟩
  rw [fixLoadlit_eq hPrefetch hMask, hAddress]
  intro hKept
  have hAhead := (loadKept_near hMidway hKind (by decide) (by decide) hNear fun _ hPlace =>
    hPlace hNear).mp hKept
  exact absurd hAhead (by decide)

end Wondar.Hook
