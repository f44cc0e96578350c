import Wondar.A64.Machine

/-!
# Runs through a piece of code

Code is a view `view` of memory on a set `C` of addresses mapped read-execute: a run
starts in a state whose memory agrees with `view` on `C`, and no instruction of it may
change a word of `C`.

* `Reaches`: from one control point, execution arrives at another and changes nothing
  but the program counter and one scratch register on the way. The rules
  `reaches_nop`, `reaches_b`, `reaches_ldr` and `reaches_br` are the single steps of
  position-independent jump sequences, and `Reaches.trans` composes them.
* `Relays`: from `entry`, execution performs the words `ws` once each and in order, as
  far as each falls through to the next, and then goes on to `exit`.
* `relays_of_code`: `Relays` follows from the layout of the words and from one
  `Reaches` for the code behind them.
* `Leaves`: execution stays in a piece of code until it leaves it in a certain state,
  which is unique (`Leaves.unique`). `straight_of_states` and `straight_run` walk through
  a block whose intermediate states are known.
-/

namespace A64

section

variable (other : Word → State → State) (r : Reg) (C : Addr → Prop) (view : Addr → Word)

/-! ## Control points -/

/-- Memory holds the code. -/
def Agrees (s : State) : Prop := ∀ a, C a → s.mem a = view a

/-- A place in the code, with the value the scratch register has there if it matters. -/
structure Point where
  pc : Addr
  scratch : Option (BitVec 64)

def At (p : Point) (s : State) : Prop :=
  s.pc = p.pc ∧ ∀ val, p.scratch = some val → s.x r = val

/-- Everything but the program counter and the scratch register is as before. -/
def OnlyScratch (s s' : State) : Prop :=
  s' = { s with pc := s'.pc, x := Function.update s.x r (s'.x r) }

theorem OnlyScratch.refl (s : State) : OnlyScratch r s s := by
  unfold OnlyScratch
  rw [Function.update_eq_self]

variable {r} in
theorem OnlyScratch.mem {s s' : State} (h : OnlyScratch r s s') : s'.mem = s.mem := by
  rw [h]

variable {r} in
theorem OnlyScratch.trans {s s' s'' : State} (h : OnlyScratch r s s')
    (h' : OnlyScratch r s' s'') : OnlyScratch r s s'' := by
  unfold OnlyScratch at *
  rw [h] at h'
  rw [h']
  simp only [Function.update_idem, Function.update_self]

/-- Execution from `p` arrives at `q`. -/
def Reaches (p q : Point) : Prop :=
  ∀ s, At r p s → Agrees C view s →
    ∃ n, At r q (run other n s) ∧ OnlyScratch r s (run other n s)

variable {other r C view}

theorem Reaches.refl (p : Point) : Reaches other r C view p p :=
  fun s hAt _ => ⟨0, hAt, OnlyScratch.refl r s⟩

theorem Reaches.trans {p q t : Point} (h : Reaches other r C view p q)
    (h' : Reaches other r C view q t) : Reaches other r C view p t := by
  intro s hAt hCode
  obtain ⟨n, hQ, hSame⟩ := h s hAt hCode
  obtain ⟨m, hT, hSame'⟩ := h' (run other n s) hQ (fun a ha => by rw [hSame.mem]; exact hCode a ha)
  refine ⟨n + m, ?_, ?_⟩
  · rw [run_add]; exact hT
  · rw [run_add]; exact hSame.trans hSame'

/-- Forget the value of the scratch register. -/
theorem Reaches.drop {p : Point} {a : Addr} {v : Option (BitVec 64)}
    (h : Reaches other r C view p ⟨a, v⟩) : Reaches other r C view p ⟨a, none⟩ := by
  intro s hAt hCode
  obtain ⟨n, hQ, hSame⟩ := h s hAt hCode
  exact ⟨n, ⟨hQ.1, by simp⟩, hSame⟩

/-- Execution that ends in a loop elsewhere does not arrive. -/
theorem not_reaches_of_loop {p q : Point} {s : State} {n : Nat} (hAt : At r p s)
    (hCode : Agrees C view s) (hLoop : step other (run other n s) = run other n s)
    (hNever : ∀ k ≤ n, (run other k s).pc ≠ q.pc) : ¬ Reaches other r C view p q := by
  have hStuck : ∀ k, run other k (run other n s) = run other n s := by
    intro k
    induction k with
    | zero => rfl
    | succ k ih => rw [run, hLoop, ih]
  intro h
  obtain ⟨k, hQ, -⟩ := h s hAt hCode
  by_cases hk : k ≤ n
  · exact hNever k hk hQ.1
  · refine hNever n (Nat.le_refl n) ?_
    rw [← hStuck (k - n), ← run_add, Nat.add_sub_cancel' (by omega)]
    exact hQ.1

/-! ## Single steps -/

/-- The step at `p` executes the instruction `i`, which arrives at `q`. -/
theorem reaches_step {p q : Point} {i : Instr} (hC : C p.pc) (hDecode : decode (view p.pc) = some i)
    (hStep : ∀ s, At r p s → Agrees C view s → At r q (i.exec s) ∧ OnlyScratch r s (i.exec s)) :
    Reaches other r C view p q := by
  intro s hAt hCode
  have hFetch : s.mem s.pc = view p.pc := by rw [hAt.1]; exact hCode _ hC
  have hRun : run other 1 s = i.exec s := by
    simp only [run, step, exec, hFetch, hDecode]
  exact ⟨1, by rw [hRun]; exact (hStep s hAt hCode).1, by rw [hRun]; exact (hStep s hAt hCode).2⟩

theorem onlyScratch_jump (s : State) (a : Addr) : OnlyScratch r s (s.jump a) := by
  simp [OnlyScratch, State.jump]

theorem reaches_nop {e : Addr} {v : Option (BitVec 64)} (hC : C e) (hWord : view e = 0xd503201f#32) :
    Reaches other r C view ⟨e, v⟩ ⟨wordAt e 1, v⟩ := by
  refine reaches_step (i := .nop) hC (by rw [hWord]; rfl) (fun s hAt _ => ⟨⟨?_, hAt.2⟩, ?_⟩)
  · simp only [Instr.exec, State.next_pc, hAt.1]
    rfl
  · exact onlyScratch_jump s _

theorem reaches_b {e t : Addr} {v : Option (BitVec 64)} {imm : BitVec 26} (hC : C e)
    (hDecode : decode (view e) = some (.b imm)) (hTarget : e + branchOffset imm = t) :
    Reaches other r C view ⟨e, v⟩ ⟨t, v⟩ := by
  refine reaches_step hC hDecode (fun s hAt _ => ⟨⟨?_, hAt.2⟩, onlyScratch_jump s _⟩)
  simp only [Instr.exec, State.jump_pc, hAt.1]
  exact hTarget

theorem reaches_ldr {e lit : Addr} {v : Option (BitVec 64)} {imm : BitVec 19} (hr : r ≠ 31#5)
    (hC : C e) (hDecode : decode (view e) = some (.ldrLiteral .x imm r))
    (hLit : e + branchOffset imm = lit) (hLo : C lit) (hHi : C (wordAt lit 1)) :
    Reaches other r C view ⟨e, v⟩ ⟨wordAt e 1, some (load64 view lit)⟩ := by
  refine reaches_step hC hDecode (fun s hAt hCode => ?_)
  have hLoad : load64 s.mem lit = load64 view lit := by
    simp only [load64, hCode _ hLo, hCode _ hHi]
  simp only [Instr.exec, loadLiteral, hAt.1, hLit, hLoad, State.setGpr, if_neg hr]
  refine ⟨⟨?_, ?_⟩, ?_⟩
  · rw [State.next_pc]; rfl
  · intro val hVal
    cases hVal
    simp
  · simp [OnlyScratch, State.next, State.jump]

theorem reaches_br {e t : Addr} (hr : r ≠ 31#5) (hC : C e) (hDecode : decode (view e) = some (.br r)) :
    Reaches other r C view ⟨e, some t⟩ ⟨t, some t⟩ := by
  refine reaches_step hC hDecode (fun s hAt _ => ⟨⟨?_, hAt.2⟩, onlyScratch_jump s _⟩)
  simp only [Instr.exec, State.jump_pc, State.gpr_eq _ _ hr]
  exact hAt.2 t rfl

/-! ## Straight-line code -/

/-- The words `ws` lie in memory from `a` on. -/
def CodeAt (view : Addr → Word) (a : Addr) (ws : List Word) : Prop :=
  ∀ i (h : i < ws.length), view (wordAt a i) = ws[i]

theorem codeAt_nil {a : Addr} : CodeAt view a [] := fun _ h => absurd h (Nat.not_lt_zero _)

theorem codeAt_cons {a : Addr} {w : Word} {ws : List Word} :
    CodeAt view a (w :: ws) ↔ view a = w ∧ CodeAt view (wordAt a 1) ws := by
  constructor
  · intro h
    have hFirst := h 0 (by simp)
    rw [wordAt_zero] at hFirst
    refine ⟨hFirst, fun i hi => ?_⟩
    have := h (i + 1) (by simpa using hi)
    rw [wordAt_wordAt, Nat.add_comm]
    simpa using this
  · rintro ⟨hFirst, hRest⟩ i hi
    cases i with
    | zero => simpa using hFirst
    | succ i =>
      have := hRest i (by simpa using hi)
      rw [wordAt_wordAt, Nat.add_comm] at this
      simpa using this

theorem codeAt_append {a : Addr} {ws ws' : List Word} :
    CodeAt view a (ws ++ ws') ↔ CodeAt view a ws ∧ CodeAt view (wordAt a ws.length) ws' := by
  induction ws generalizing a with
  | nil => simp [codeAt_nil]
  | cons w ws ih => simp [codeAt_cons, ih, Nat.add_comm, and_assoc]

/-- A part of the code. -/
theorem CodeAt.slice {a : Addr} {ws : List Word} (h : CodeAt view a ws) (i n : Nat) :
    CodeAt view (wordAt a i) ((ws.drop i).take n) := by
  intro k hk
  rw [List.length_take, List.length_drop] at hk
  rw [wordAt_wordAt, h (i + k) (by omega), List.getElem_take, List.getElem_drop]

theorem codeAt_congr {view' : Addr → Word} {a b : Addr} {ws : List Word}
    (h : ∀ i < ws.length, view' (wordAt b i) = view (wordAt a i)) :
    CodeAt view' b ws ↔ CodeAt view a ws :=
  forall₂_congr fun i hi => by rw [h i hi]

variable (other C)

/-- Executing `ws` one after the other takes `s` to `s'`: each word falls through, and
none changes the code. -/
def Straight : List Word → State → State → Prop
  | [], s, s' => s' = s
  | w :: ws, s, s' =>
    (exec other w s).pc = wordAt s.pc 1 ∧ (∀ a, C a → (exec other w s).mem a = s.mem a) ∧
      Straight ws (exec other w s) s'

variable {other C}

/-- A block whose intermediate states are known. -/
theorem straight_of_states (f : Nat → State) {ws : List Word}
    (hStep : ∀ k (h : k < ws.length), exec other ws[k] (f k) = f (k + 1))
    (hPc : ∀ k < ws.length, (f (k + 1)).pc = wordAt (f k).pc 1)
    (hMem : ∀ k < ws.length, ∀ a, C a → (f (k + 1)).mem a = (f k).mem a) :
    Straight other C ws (f 0) (f ws.length) := by
  induction ws generalizing f with
  | nil => rfl
  | cons w ws ih =>
    have hFirst : exec other w (f 0) = f 1 := hStep 0 (by simp)
    rw [Straight, hFirst]
    refine ⟨hPc 0 (by simp), hMem 0 (by simp), ?_⟩
    exact ih (fun k => f (k + 1)) (fun k hk => hStep (k + 1) (by simpa using hk))
      (fun k hk => hPc (k + 1) (by simpa using hk)) (fun k hk => hMem (k + 1) (by simpa using hk))

variable (other C) in
/-- `n` steps inside the code. -/
def Stays (n : Nat) (s s' : State) : Prop :=
  run other n s = s' ∧ ∀ k < n, C (run other k s).pc

theorem stays_instr {s : State} {w : Word} {i : Instr} (hC : C s.pc) (hWord : s.mem s.pc = w)
    (hDecode : decode w = some i) : Stays other C 1 s (i.exec s) := by
  refine ⟨by simp only [run, step, exec, hWord, hDecode], fun k hk => ?_⟩
  cases Nat.lt_one_iff.mp hk
  exact hC

theorem Stays.trans {m n : Nat} {s s' s'' : State} (h : Stays other C m s s')
    (h' : Stays other C n s' s'') : Stays other C (m + n) s s'' := by
  obtain ⟨rfl, hFirst⟩ := h
  obtain ⟨rfl, hRest⟩ := h'
  refine ⟨run_add .., fun k hk => ?_⟩
  by_cases hkm : k < m
  · exact hFirst k hkm
  · have := hRest (k - m) (by omega)
    rwa [← run_add, Nat.add_sub_cancel' (by omega)] at this

theorem straight_run {ws : List Word} {s s' : State} (hCode : CodeAt view s.pc ws)
    (hC : ∀ i < ws.length, C (wordAt s.pc i)) (hAgree : Agrees C view s)
    (hStraight : Straight other C ws s s') :
    Stays other C ws.length s s' ∧ trace other ws.length s = ws ∧
      s'.pc = wordAt s.pc ws.length ∧ Agrees C view s' := by
  induction ws generalizing s with
  | nil =>
    have hEnd : s' = s := hStraight
    subst hEnd
    exact ⟨⟨rfl, nofun⟩, rfl, by simp, hAgree⟩
  | cons w ws ih =>
    obtain ⟨hWord, hRest⟩ := codeAt_cons.mp hCode
    obtain ⟨hPc, hKeeps, hTail⟩ := hStraight
    have hHere : C s.pc := by
      have := hC 0 (by simp)
      rwa [wordAt_zero] at this
    have hFetch : s.mem s.pc = w := by rw [hAgree _ hHere, hWord]
    have hStep : step other s = exec other w s := by rw [step, hFetch]
    obtain ⟨hStays, hTrace, hEnd, hAgree'⟩ := ih (s := exec other w s) (by rw [hPc]; exact hRest)
      (fun i hi => by
        rw [hPc, wordAt_wordAt, Nat.add_comm]
        exact hC (i + 1) (by simpa using hi))
      (fun a ha => by rw [hKeeps a ha]; exact hAgree a ha) hTail
    have hFirst : Stays other C 1 s (exec other w s) :=
      ⟨hStep, fun k hk => by cases Nat.lt_one_iff.mp hk; exact hHere⟩
    refine ⟨?_, ?_, ?_, hAgree'⟩
    · rw [List.length_cons, Nat.add_comm]
      exact hFirst.trans hStays
    · rw [List.length_cons, trace, hStep, hTrace, hFetch]
    · rw [hEnd, hPc, wordAt_wordAt, List.length_cons, Nat.add_comm]

/-! ## Loaded code -/

/-- The words `ws` are loaded at `e`, as part of the code. -/
structure Loaded (C : Addr → Prop) (e : Addr) (ws : List Word) (mem : Addr → Word) : Prop where
  words : CodeAt mem e ws
  inside : ∀ k < ws.length, C (wordAt e k)

theorem Loaded.congr {e : Addr} {ws : List Word} {mem mem' : Addr → Word}
    (h : Loaded C e ws mem) (hMem : ∀ a, C a → mem' a = mem a) : Loaded C e ws mem' :=
  ⟨fun k hk => by rw [hMem _ (h.inside k hk), h.words k hk], h.inside⟩

variable (other) in
theorem Loaded.step {e : Addr} {ws : List Word} {s : State} (h : Loaded C e ws s.mem) {k : Nat}
    {i : Instr} (hk : k < ws.length) (hDecode : decode ws[k] = some i) (hPc : s.pc = wordAt e k) :
    Stays other C 1 s (i.exec s) :=
  stays_instr (by rw [hPc]; exact h.inside k hk) (by rw [hPc]; exact h.words k hk) hDecode

variable (other) in
/-- The words from `k` on as a block. -/
theorem Loaded.block {e : Addr} {ws : List Word} {s s' : State} (h : Loaded C e ws s.mem)
    {k n : Nat} (hk : k + n ≤ ws.length) (hPc : s.pc = wordAt e k)
    (hStraight : Straight other C ((ws.drop k).take n) s s') : Stays other C n s s' := by
  have hLength : ((ws.drop k).take n).length = n := by
    rw [List.length_take, List.length_drop]
    omega
  have hCode : CodeAt s.mem s.pc ((ws.drop k).take n) := by
    rw [hPc]
    exact h.words.slice k n
  have hRun := straight_run hCode
    (fun i hi => by rw [hPc, wordAt_wordAt]; exact h.inside _ (by omega)) (fun _ _ => rfl) hStraight
  rw [hLength] at hRun
  exact hRun.1

/-! ## Leaving the code -/

variable (other C) in
/-- Execution leaves the code in `s'`. -/
def Leaves (s s' : State) : Prop := ∃ n, Stays other C n s s' ∧ ¬ C s'.pc

/-- Code is left in one state only. -/
theorem Leaves.unique {s s' s'' : State} (h : Leaves other C s s') (h' : Leaves other C s s'') :
    s' = s'' := by
  obtain ⟨m, ⟨hRun, hIn⟩, hOut⟩ := h
  obtain ⟨n, ⟨hRun', hIn'⟩, hOut'⟩ := h'
  rcases Nat.lt_trichotomy m n with hLt | rfl | hLt
  · exact absurd (hRun ▸ hIn' m hLt) hOut
  · exact hRun.symm.trans hRun'
  · exact absurd (hRun' ▸ hIn n hLt) hOut'

variable (other r C view)

/-- From `entry`, the words `ws` are executed once each and in order as far as they fall
through, and behind the last one execution goes on to `exit`. -/
def Relays (entry : Addr) (ws : List Word) (exit : Addr) : Prop :=
  ∀ s, s.pc = entry → Agrees C view s → ∀ n ≤ ws.length, ∀ s', Straight other C (ws.take n) s s' →
    run other n s = s' ∧ trace other n s = ws.take n ∧
      (∀ h : n < ws.length, s'.mem s'.pc = ws[n]) ∧
      (n = ws.length → ∃ m, (run other m s').pc = exit ∧ OnlyScratch r s' (run other m s'))

variable {other r C view}

theorem relays_of_code {entry exit : Addr} {ws : List Word} (hCode : CodeAt view entry ws)
    (hC : ∀ i < ws.length, C (wordAt entry i))
    (hExit : Reaches other r C view ⟨wordAt entry ws.length, none⟩ ⟨exit, none⟩) :
    Relays other r C view entry ws exit := by
  intro s hPc hAgree n hn s' hStraight
  have hLength : (ws.take n).length = n := by simp [hn]
  have hTake : CodeAt view s.pc (ws.take n) := by
    intro i hi
    rw [hPc, hCode i (by omega), List.getElem_take]
  obtain ⟨⟨hRun, -⟩, hTrace, hEnd, hAgree'⟩ := straight_run hTake
    (fun i hi => by rw [hPc]; exact hC i (by omega)) hAgree hStraight
  rw [hLength] at hRun hTrace hEnd
  rw [hPc] at hEnd
  refine ⟨hRun, hTrace, fun h => ?_, fun h => ?_⟩
  · rw [hEnd, hAgree' _ (hC n h)]
    exact hCode n h
  · subst h
    obtain ⟨m, hAt, hSame⟩ := hExit s' ⟨hEnd, by simp⟩ hAgree'
    exact ⟨m, hAt.1, hSame⟩

end

end A64
