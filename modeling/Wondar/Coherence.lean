import Wondar.A64.Bits

/-!
# Cache maintenance in an event log

A program that writes code leaves a log of its stores and cache operations, oldest
first. Code is stored through one address and fetched through another, so a stored byte
has a data-side address `x` and a fetch-side address `y`, and it is published when its
store is followed by a data-cache flush over `x` and, after that, by an instruction-cache
invalidation over `y`.

`PublishedAt` asks this of every store in the log. It survives whatever is appended,
except a new store of the same byte (`PublishedAt.append`), and a flush of both sides
establishes it, whatever the log was (`publishedAt_flush`). A store behind which no
invalidation covers `y` refutes it (`not_publishedAt`).
-/

namespace Coherence

open A64

/-- An event of the log; `note` is for what else the program records. -/
inductive Event (ν : Type)
  | store (a : Addr) (n : Nat)
  | dcacheFlush (a : Addr) (n : Nat)
  | icacheInvalidate (a : Addr) (n : Nat)
  | note (x : ν)
deriving DecidableEq

/-- The log has grown, but by no note. -/
def Grows {ν : Type} (log log' : List (Event ν)) : Prop :=
  ∃ more, log' = log ++ more ∧ ∀ x, .note x ∉ more

section

variable {ν : Type} {log log' log'' : List (Event ν)}

theorem Grows.refl (log : List (Event ν)) : Grows log log := ⟨[], by simp, by simp⟩

theorem Grows.trans (h : Grows log log') (h' : Grows log' log'') : Grows log log'' := by
  obtain ⟨more, rfl, hMore⟩ := h
  obtain ⟨more', rfl, hMore'⟩ := h'
  refine ⟨more ++ more', List.append_assoc .., fun x hx => ?_⟩
  rcases List.mem_append.mp hx with hOld | hNew
  · exact hMore x hOld
  · exact hMore' x hNew

theorem Grows.isPrefix (h : Grows log log') : log <+: log' := by
  obtain ⟨more, rfl, -⟩ := h
  exact List.prefix_append ..

theorem Grows.note_mem (h : Grows log log') {x : ν} : .note x ∈ log' ↔ .note x ∈ log := by
  obtain ⟨more, rfl, hMore⟩ := h
  rw [List.mem_append, or_iff_left (hMore x)]

end

/-- The byte `b` lies in the `n` bytes from `a` on. -/
def Covers (a : Addr) (n : Nat) (b : Addr) : Prop := (b - a).toNat < n

instance (a : Addr) (n : Nat) (b : Addr) : Decidable (Covers a n b) :=
  inferInstanceAs (Decidable (_ < _))

theorem covers_self (a : Addr) {n : Nat} (hn : 0 < n) : Covers a n a := by
  unfold Covers
  rw [BitVec.sub_self]
  exact hn

theorem covers_add_left (b a : Addr) (n : Nat) (k : Addr) : Covers (b + a) n (b + k) ↔ Covers a n k := by
  unfold Covers
  rw [show b + k - (b + a) = k - a by grind]

/-- Without wrap-around, coverage is an interval. -/
theorem covers_iff {a : Addr} {n : Nat} {b : Addr} (hFits : a.toNat + n ≤ 2 ^ 64) :
    Covers a n b ↔ a.toNat ≤ b.toNat ∧ b.toNat < a.toNat + n := by
  unfold Covers
  rw [BitVec.toNat_sub]
  have := a.isLt
  have := b.isLt
  omega

variable {ν : Type}

def Stores (e : Event ν) (x : Addr) : Prop := ∃ a n, e = .store a n ∧ Covers a n x

def Invalidates (e : Event ν) (y : Addr) : Prop := ∃ a n, e = .icacheInvalidate a n ∧ Covers a n y

/-- The log flushes `x` and later invalidates `y`. -/
def FlushedIn (log : List (Event ν)) (x y : Addr) : Prop :=
  ∃ a n a' n', Covers a n x ∧ Covers a' n' y ∧
    [.dcacheFlush a n, .icacheInvalidate a' n'].Sublist log

/-- Every store to `x` in the log is followed by a flush of `x` and, later, an
invalidation of `y`. -/
def PublishedAt : List (Event ν) → Addr → Addr → Prop
  | [], _, _ => True
  | e :: log, x, y => (Stores e x → FlushedIn log x y) ∧ PublishedAt log x y

theorem FlushedIn.append {log : List (Event ν)} {x y : Addr} (h : FlushedIn log x y)
    (more : List (Event ν)) : FlushedIn (log ++ more) x y := by
  obtain ⟨a, n, a', n', hD, hI, hSub⟩ := h
  exact ⟨a, n, a', n', hD, hI, hSub.trans (List.sublist_append_left log more)⟩

theorem FlushedIn.invalidates {log : List (Event ν)} {x y : Addr} (h : FlushedIn log x y) :
    ∃ e ∈ log, Invalidates e y := by
  obtain ⟨a, n, a', n', -, hI, hSub⟩ := h
  exact ⟨_, hSub.subset (by simp), a', n', rfl, hI⟩

theorem PublishedAt.append {log : List (Event ν)} {x y : Addr} (h : PublishedAt log x y)
    {more : List (Event ν)} (hMore : PublishedAt more x y) : PublishedAt (log ++ more) x y := by
  induction log with
  | nil => exact hMore
  | cons e log ih => exact ⟨fun hStore => (h.1 hStore).append more, ih h.2⟩

theorem publishedAt_of_no_store {log : List (Event ν)} {x y : Addr}
    (h : ∀ e ∈ log, ¬ Stores e x) : PublishedAt log x y := by
  induction log with
  | nil => trivial
  | cons e log ih =>
    exact ⟨fun hStore => absurd hStore (h e (by simp)), ih fun e' he' => h e' (by simp [he'])⟩

/-- A flush of both sides publishes whatever the log stored before. -/
theorem publishedAt_flush (log : List (Event ν)) {x y a a' : Addr} {n n' : Nat}
    (hD : Covers a n x) (hI : Covers a' n' y) :
    PublishedAt (log ++ [.dcacheFlush a n, .icacheInvalidate a' n']) x y := by
  induction log with
  | nil =>
    apply publishedAt_of_no_store
    rintro e he ⟨b, k, rfl, -⟩
    simp at he
  | cons e log ih =>
    exact ⟨fun _ => ⟨a, n, a', n', hD, hI, List.sublist_append_right log _⟩, ih⟩

/-- The same for what flushes both sides in some other way, but does not store. -/
theorem publishedAt_of_flushedIn {log more : List (Event ν)} {x y : Addr}
    (hNoStore : ∀ e ∈ more, ¬ Stores e x) (hFlushed : FlushedIn more x y) :
    PublishedAt (log ++ more) x y := by
  obtain ⟨a, n, a', n', hD, hI, hSub⟩ := hFlushed
  induction log with
  | nil => exact publishedAt_of_no_store hNoStore
  | cons e log ih =>
    exact ⟨fun _ => ⟨a, n, a', n', hD, hI, hSub.trans (List.sublist_append_right log more)⟩, ih⟩

/-- A store elsewhere changes nothing. -/
theorem PublishedAt.store {log : List (Event ν)} {x y a : Addr} {n : Nat} (h : PublishedAt log x y)
    (hElsewhere : ¬ Covers a n x) : PublishedAt (log ++ [.store a n]) x y := by
  refine h.append (publishedAt_of_no_store ?_)
  rintro e he ⟨b, k, rfl, hCovers⟩
  cases List.mem_singleton.mp he
  exact hElsewhere hCovers

/-- Neither does a flush, except that it publishes what it covers. -/
theorem PublishedAt.flush {log : List (Event ν)} {x y a a' : Addr} {n n' : Nat}
    (h : PublishedAt log x y ∨ Covers a n x ∧ Covers a' n' y) :
    PublishedAt (log ++ [.dcacheFlush a n, .icacheInvalidate a' n']) x y := by
  rcases h with hBefore | ⟨hD, hI⟩
  · refine hBefore.append (publishedAt_of_no_store ?_)
    rintro e he ⟨b, k, rfl, -⟩
    simp at he
  · exact publishedAt_flush log hD hI

/-- Whatever the log invalidates satisfies `P`. -/
def InvalidatesOnly (P : Addr → Prop) (log : List (Event ν)) : Prop :=
  ∀ e ∈ log, ∀ y, Invalidates e y → P y

/-- The log stores `x`, and whatever it invalidates after that satisfies `P`. -/
def StaleOutside (P : Addr → Prop) (log : List (Event ν)) (x : Addr) : Prop :=
  ∃ pre e post, log = pre ++ e :: post ∧ Stores e x ∧ InvalidatesOnly P post

theorem not_publishedAt {pre post : List (Event ν)} {e : Event ν} {x y : Addr}
    (hStore : Stores e x) (hNone : ∀ e' ∈ post, ¬ Invalidates e' y) :
    ¬ PublishedAt (pre ++ e :: post) x y := by
  induction pre with
  | nil =>
    intro h
    obtain ⟨e', he', hInv⟩ := (h.1 hStore).invalidates
    exact hNone e' he' hInv
  | cons d pre ih => exact fun h => ih h.2

theorem InvalidatesOnly.append {P : Addr → Prop} {log more : List (Event ν)}
    (h : InvalidatesOnly P log) (hMore : InvalidatesOnly P more) : InvalidatesOnly P (log ++ more) := by
  intro e he
  rcases List.mem_append.mp he with hOld | hNew
  · exact h e hOld
  · exact hMore e hNew

theorem invalidatesOnly_store (P : Addr → Prop) (a : Addr) (n : Nat) :
    InvalidatesOnly P [(.store a n : Event ν)] := by
  rintro e he y ⟨b, k, rfl, -⟩
  simp at he

theorem invalidatesOnly_flush {P : Addr → Prop} {a a' : Addr} {n n' : Nat}
    (h : ∀ y, Covers a' n' y → P y) :
    InvalidatesOnly P [(.dcacheFlush a n : Event ν), .icacheInvalidate a' n'] := by
  rintro e he y ⟨b, k, rfl, hCovers⟩
  simp only [List.mem_cons, reduceCtorEq, Event.icacheInvalidate.injEq, List.not_mem_nil,
    or_false, false_or] at he
  obtain ⟨rfl, rfl⟩ := he
  exact h y hCovers

theorem StaleOutside.append {P : Addr → Prop} {log more : List (Event ν)} {x : Addr}
    (h : StaleOutside P log x) (hMore : InvalidatesOnly P more) : StaleOutside P (log ++ more) x := by
  obtain ⟨pre, e, post, rfl, hStore, hPost⟩ := h
  exact ⟨pre, e, post ++ more, by simp, hStore, hPost.append hMore⟩

theorem StaleOutside.prepend {P : Addr → Prop} {log : List (Event ν)} {x : Addr}
    (h : StaleOutside P log x) (before : List (Event ν)) : StaleOutside P (before ++ log) x := by
  obtain ⟨pre, e, post, rfl, hStore, hPost⟩ := h
  exact ⟨before ++ pre, e, post, by simp, hStore, hPost⟩

theorem StaleOutside.mono {P Q : Addr → Prop} {log : List (Event ν)} {x : Addr}
    (h : StaleOutside P log x) (hPQ : ∀ y, P y → Q y) : StaleOutside Q log x := by
  obtain ⟨pre, e, post, hLog, hStore, hPost⟩ := h
  exact ⟨pre, e, post, hLog, hStore, fun e' he' y hy => hPQ y (hPost e' he' y hy)⟩

/-- A byte that is fetched where nothing has been invalidated is not published. -/
theorem StaleOutside.not_publishedAt {P : Addr → Prop} {log : List (Event ν)} {x y : Addr}
    (h : StaleOutside P log x) (hy : ¬ P y) : ¬ PublishedAt log x y := by
  obtain ⟨pre, e, post, rfl, hStore, hPost⟩ := h
  exact Coherence.not_publishedAt hStore fun e' he' hInv => hy (hPost e' he' y hInv)

/-- No byte belongs to both ranges. -/
def Separate (a : Addr) (n : Nat) (b : Addr) (k : Nat) : Prop := ∀ x, ¬ (Covers a n x ∧ Covers b k x)

theorem separate_of_le {a b : Addr} {n k : Nat} (h : a.toNat + n ≤ b.toNat)
    (hFits : b.toNat + k ≤ 2 ^ 64) : Separate a n b k := by
  rintro x ⟨ha, hb⟩
  have := b.isLt
  rw [covers_iff (by omega)] at ha hb
  omega

end Coherence
