import Wondar.Runs
import Wondar.Sys.RwPages

/-!
# Who owns an RW mapping

`RwPages` objects are constructed, move-constructed, move-assigned and destroyed in any
order (`Op`, `step`). A claim is released by the destructor of an object whose `m_Owner` is
set; `m_Owner` stands beside the claim, and the two move operations update it differently.

Every reservation has a number of its own, so the log can be read reservation by
reservation (`history`). The invariant `Inv` says that the history of a reservation is
`reserved, mapped` while exactly one object owns the claim, and that
`unmapped, removed` closes it. All operations keep the invariant, except a move assignment
that has an owning object on either side: `moveAssign_loses` shows that such an assignment
leaves a mapped claim without an owner. `linear_iff_assignsMovedFrom` concludes by the rules
of `Runs`.
-/

namespace Wondar.Sys

open A64 Coherence

/-! ## Objects and operations -/

/-- The claim with the flag that says who gives it back. -/
structure RwPages where
  claim : Claim
  owner : Bool

/-- The calls that a claim consists of. -/
inductive KernelCall
  | reserved (r : Nat)
  | mapped (c : Claim) (ms : List Mapping)
  | unmapped (c : Claim) (ms : List Mapping)
  | removed (r : Option Nat)
deriving DecidableEq

/-- A page address, as `virtmemFindAslr` returns it. -/
structure PageAddr where
  addr : Addr
  aligned : addr.toNat % 4096 = 0

/-- The objects that have been constructed, the reservations that have been handed out and the
calls so far. -/
structure World where
  objs : Nat → Option RwPages
  nextReserve : Nat
  log : List (Event KernelCall)

namespace World

/-- No objects and no calls. -/
def initial : World := ⟨fun _ => none, 0, []⟩

/-- Object `i` has been constructed with the next reservation. -/
def add (w : World) (i : Nat) (c : Constructed) : World where
  objs := Function.update w.objs i (some ⟨c.claim, true⟩)
  nextReserve := w.nextReserve + 1
  log := w.log ++ [.note (.reserved w.nextReserve), .note (.mapped c.claim c.mappings)]

/-- Object `i` has been destroyed, with the calls of its destructor. -/
def remove (w : World) (i : Nat) (calls : List (Event KernelCall)) : World :=
  { w with objs := Function.update w.objs i none, log := w.log ++ calls }

variable {w : World} {i j : Nat} {c : Constructed} {calls : List (Event KernelCall)}

theorem objs_add {o : RwPages} : (w.add i c).objs j = some o ↔
    j = i ∧ o = ⟨c.claim, true⟩ ∨ j ≠ i ∧ w.objs j = some o := by
  by_cases hji : j = i
  · simp [add, hji, eq_comm]
  · simp [add, hji]

theorem objs_remove {o : RwPages} : (w.remove i calls).objs j = some o ↔
    j ≠ i ∧ w.objs j = some o := by
  by_cases hji : j = i
  · simp [remove, hji]
  · simp [remove, hji]

end World

/-- The calls that the loop over the pages of a claim makes, in order. -/
def rangesOf (query : Addr → Region) (c : Claim) : Option (List Mapping) :=
  (forEachMemRange query c.getAlignedRo c.getAlignedSize).map
    (·.map (Piece.mapping c.getAlignedRw))

/-- `RwPages::~RwPages`. -/
def destructor (query : Addr → Region) (o : RwPages) : Option (List (Event KernelCall)) :=
  if o.owner then
    (rangesOf query o.claim).map fun ms =>
      o.claim.destructorFlush ++ [.note (.unmapped o.claim ms), .note (.removed o.claim.rwReserve)]
  else some []

/-- One object is changed, if there is one. -/
def modify (objs : Nat → Option RwPages) (i : Nat) (f : RwPages → RwPages) : Nat → Option RwPages :=
  Function.update objs i ((objs i).map f)

/-- `RwPages(RwPages&& other)`: both members are exchanged. -/
def moveConstruct (objs : Nat → Option RwPages) (dst src : Nat) (other : RwPages) :
    Nat → Option RwPages :=
  Function.update (modify objs src fun _ => ⟨.empty, false⟩) dst (some ⟨other.claim, other.owner⟩)

/-- `operator=(RwPages&& other)`: the claim is exchanged, the owner flag of the other object
is cleared. `dst` and `src` may be the same object. -/
def moveAssign (objs : Nat → Option RwPages) (dst src : Nat) (other : RwPages) :
    Nat → Option RwPages :=
  let exchanged := modify objs src fun o => { o with claim := .empty }
  let assigned := modify exchanged dst fun o => { o with claim := other.claim }
  modify assigned src fun o => { o with owner := false }

/-- The operations on the objects of the program. -/
inductive Op
  | construct (i : Nat) (ro size : BitVec 64) (alignedRw : PageAddr)
    (read : Addr → Option (BitVec 8))
  | moveConstruct (dst src : Nat)
  | moveAssign (dst src : Nat)
  | destroy (i : Nat)

/-- One operation; `none` when the program names an object that does not exist, or
constructs one that does, and when an assertion of the constructor fails. A construction comes with
the memory it reads. -/
def step (query : Addr → Region) : Op → World → Option World
  | .construct i ro size alignedRw read, w =>
    match w.objs i with
    | some _ => none
    | none =>
      (construct query read alignedRw.addr (some w.nextReserve) ro size).map fun c => w.add i c
  | .moveConstruct dst src, w =>
    match w.objs dst, w.objs src with
    | none, some other => some { w with objs := moveConstruct w.objs dst src other }
    | _, _ => none
  | .moveAssign dst src, w =>
    match w.objs dst, w.objs src with
    | some _, some other => some { w with objs := moveAssign w.objs dst src other }
    | _, _ => none
  | .destroy i, w =>
    match w.objs i with
    | some o => (destructor query o).map fun calls => w.remove i calls
    | none => none

/-! ## Linear ownership -/

/-- The mapping of claim `c` has been made and not been undone. -/
def Live (w : World) (c : Claim) (ms : List Mapping) : Prop :=
  .note (.mapped c ms) ∈ w.log ∧ .note (.unmapped c ms) ∉ w.log

/-- Each live mapping is owned by exactly one object. -/
def OwnedOnce (w : World) : Prop := ∀ c ms, Live w c ms → ∃! i, w.objs i = some ⟨c, true⟩

/-- Each mapping and each reservation has been released exactly once. -/
def ReleasedOnce (w : World) : Prop :=
  (∀ c ms, .note (.mapped c ms) ∈ w.log → w.log.count (.note (.unmapped c ms)) = 1) ∧
    ∀ r, .note (.reserved r) ∈ w.log → w.log.count (.note (.removed (some r))) = 1

/-- Each claim has one owner, and when no object is left it has been given back once. -/
def Linear (w : World) : Prop :=
  OwnedOnce w ∧ ((∀ i, w.objs i = none) → ReleasedOnce w)

/-- A move assignment has moved-from objects on both sides. -/
def AssignsMovedFrom (w : World) : Op → Prop
  | .moveAssign dst src =>
    (∀ o, w.objs dst = some o → o.owner = false) ∧ ∀ o, w.objs src = some o → o.owner = false
  | _ => True

/-! ## The history of a reservation -/

/-- The reservation that a call is about. -/
def tag : Event KernelCall → Option Nat
  | .note (.reserved r) => some r
  | .note (.mapped c _) => c.rwReserve
  | .note (.unmapped c _) => c.rwReserve
  | .note (.removed r) => r
  | _ => none

/-- The calls about one reservation. -/
def history (w : World) (r : Nat) : List (Event KernelCall) :=
  w.log.filter fun e => decide (tag e = some r)

theorem mem_history {w : World} {r : Nat} {e : Event KernelCall} :
    e ∈ history w r ↔ e ∈ w.log ∧ tag e = some r := by
  simp [history]

theorem count_history {w : World} {r : Nat} {e : Event KernelCall} (h : tag e = some r) :
    (history w r).count e = w.log.count e :=
  List.count_filter (by simpa using h)

/-- A claim that has an owner. -/
def opened (r : Nat) (c : Claim) (ms : List Mapping) : List (Event KernelCall) :=
  [.note (.reserved r), .note (.mapped c ms)]

/-- What giving a claim back adds. -/
def closed (r : Nat) (c : Claim) (ms : List Mapping) : List (Event KernelCall) :=
  [.note (.unmapped c ms), .note (.removed (some r))]

/-- Only the history of the new reservation changes. -/
theorem history_add {w : World} {c : Constructed} (hReserve : c.claim.rwReserve = some w.nextReserve)
    (i r : Nat) : history (w.add i c) r =
      history w r ++ if r = w.nextReserve then opened r c.claim c.mappings else [] := by
  simp only [history, World.add, List.filter_append, List.filter_cons, List.filter_nil, tag,
    hReserve, Option.some.injEq]
  by_cases hr : r = w.nextReserve
  · subst hr
    simp [opened]
  · have hr' : ¬ w.nextReserve = r := fun hEq => hr hEq.symm
    simp [hr, hr']

/-- The history of the released reservation is closed, all others stay. -/
theorem history_remove {w : World} {c : Claim} {q : Nat} (hReserve : c.rwReserve = some q)
    (ms : List Mapping) (i r : Nat) :
    history (w.remove i (c.destructorFlush ++
        [.note (.unmapped c ms), .note (.removed c.rwReserve)])) r =
      history w r ++ if r = q then closed r c ms else [] := by
  simp only [history, World.remove, List.filter_append, List.filter_cons, List.filter_nil, tag,
    hReserve, Claim.destructorFlush, Option.some.injEq, reduceCtorEq, decide_false,
    Bool.false_eq_true, if_false, List.nil_append]
  by_cases hr : r = q
  · subst hr
    simp [closed]
  · have hr' : ¬ q = r := fun hEq => hr hEq.symm
    simp [hr, hr']

/-- Reservation `r` is unused, or owned by exactly one object, or closed. -/
inductive Status (w : World) (r : Nat) : Prop
  | unused (hFresh : w.nextReserve ≤ r) (hHistory : history w r = [])
  | owned (c : Claim) (ms : List Mapping) (i : Nat) (hOld : r < w.nextReserve)
      (hTag : c.rwReserve = some r) (hHistory : history w r = opened r c ms)
      (hOwner : w.objs i = some ⟨c, true⟩)
  | closed (c : Claim) (ms : List Mapping) (hOld : r < w.nextReserve)
      (hTag : c.rwReserve = some r) (hHistory : history w r = opened r c ms ++ closed r c ms)

/-- What holds between the operations. -/
structure Inv (query : Addr → Region) (w : World) : Prop where
  movedFrom : ∀ i o, w.objs i = some o → o.owner = false → o.claim = .empty
  owner : ∀ i c, w.objs i = some ⟨c, true⟩ → ∃ r ms, c.rwReserve = some r ∧
    rangesOf query c = some ms ∧ history w r = opened r c ms
  unique : ∀ i j c c', w.objs i = some ⟨c, true⟩ → w.objs j = some ⟨c', true⟩ →
    c.rwReserve = c'.rwReserve → i = j
  status : ∀ r, Status w r
  tagged : ∀ c ms, .note (.mapped c ms) ∈ w.log → ∃ r, c.rwReserve = some r

section

variable {query : Addr → Region} {w w' : World}

theorem Inv.ownedOnce (h : Inv query w) : OwnedOnce w := by
  rintro c ms ⟨hMapped, hLive⟩
  obtain ⟨r, hr⟩ := h.tagged c ms hMapped
  have hMem : .note (.mapped c ms) ∈ history w r := mem_history.mpr ⟨hMapped, hr⟩
  cases h.status r with
  | unused _ hHistory => rw [hHistory] at hMem; cases hMem
  | owned c' ms' i _ _ hHistory hOwner =>
    rw [hHistory] at hMem
    obtain ⟨rfl, rfl⟩ : c = c' ∧ ms = ms' := by simpa [opened] using hMem
    exact ⟨i, hOwner, fun j hj => h.unique j i c c hj hOwner rfl⟩
  | closed c' ms' _ _ hHistory =>
    rw [hHistory] at hMem
    obtain ⟨rfl, rfl⟩ : c = c' ∧ ms = ms' := by simpa [opened, closed] using hMem
    have hUnmapped : .note (.unmapped c ms) ∈ history w r := by
      rw [hHistory]; simp [opened, closed]
    exact absurd (mem_history.mp hUnmapped).1 hLive

/-- Without objects every reservation that was ever made is closed. -/
theorem Inv.closed_of_empty (h : Inv query w) (hEmpty : ∀ i, w.objs i = none) {r : Nat}
    {e : Event KernelCall} (he : e ∈ history w r) :
    ∃ c ms, c.rwReserve = some r ∧ history w r = opened r c ms ++ closed r c ms := by
  cases h.status r with
  | unused _ hHistory => rw [hHistory] at he; cases he
  | owned c ms i _ _ _ hOwner => rw [hEmpty i] at hOwner; cases hOwner
  | closed c ms _ hTag hHistory => exact ⟨c, ms, hTag, hHistory⟩

theorem Inv.releasedOnce (h : Inv query w) (hEmpty : ∀ i, w.objs i = none) : ReleasedOnce w := by
  refine ⟨fun c ms hMapped => ?_, fun r hReserved => ?_⟩
  · obtain ⟨r, hr⟩ := h.tagged c ms hMapped
    have hMem : .note (.mapped c ms) ∈ history w r := mem_history.mpr ⟨hMapped, hr⟩
    obtain ⟨c', ms', hTag, hHistory⟩ := h.closed_of_empty hEmpty hMem
    rw [hHistory] at hMem
    obtain ⟨rfl, rfl⟩ : c = c' ∧ ms = ms' := by simpa [opened, closed] using hMem
    rw [← count_history (r := r) (by exact hr), hHistory]
    simp [opened, closed]
  · have hMem : .note (.reserved r) ∈ history w r := mem_history.mpr ⟨hReserved, rfl⟩
    obtain ⟨c, ms, -, hHistory⟩ := h.closed_of_empty hEmpty hMem
    rw [← count_history (r := r) (by rfl), hHistory]
    simp [opened, closed]

theorem Inv.linear (h : Inv query w) : Linear w := ⟨h.ownedOnce, h.releasedOnce⟩

theorem inv_initial : Inv query World.initial where
  movedFrom := by intro i o h; cases h
  owner := by intro i c h; cases h
  unique := by intro i j c c' h; cases h
  status := fun r => .unused (Nat.zero_le r) rfl
  tagged := by intro c ms h; cases h

/-! ## The operations keep the invariant -/

/-- The destructor will undo what the constructor mapped. -/
theorem mapClaim_ranges {alignedRw : PageAddr} {reserve : Nat} {ro size : BitVec 64}
    {c : Constructed} (h : mapClaim query alignedRw.addr (some reserve) ro size = some c) :
    c.claim.rwReserve = some reserve ∧ rangesOf query c.claim = some c.mappings := by
  obtain ⟨-, -, ps, hPieces, rfl⟩ := mapClaim_eq_some_iff.mp h
  have hOffset : (ro - alignDown ro pageSize).toNat < 4096 := by
    have hDown := alignDown_toNat ro
    rw [BitVec.toNat_sub_of_le (by rw [BitVec.le_def]; omega)]
    omega
  refine ⟨rfl, ?_⟩
  simp only [mapped, rangesOf, Claim.getAlignedRo, Claim.getAlignedSize, Claim.getAlignedRw]
  rw [hPieces, alignDown_add_offset alignedRw.aligned hOffset]
  rfl

/-- The calls of the constructor and of the destructor for one range of pages. The destructor works
with what the constructor has left in the claim, so both ask for the same pieces. -/
def Undoes (query : Addr → Region) (ps : List Piece) (start length : BitVec 64) : Prop :=
  ∀ (alignedRw : PageAddr) (reserve : Nat) (ro size : BitVec 64), alignedRw.addr ≠ 0#64 →
    alignDown ro pageSize = start → alignUp size pageSize = length →
    ∃ c, mapClaim query alignedRw.addr (some reserve) ro size = some c ∧
      c.mappings = ps.map (Piece.mapping alignedRw.addr) ∧
      destructor query ⟨c.claim, true⟩ = some (c.claim.destructorFlush ++
        [.note (.unmapped c.claim c.mappings), .note (.removed (some reserve))])

/-- **Ranges of memory.** For a range of pages that ends before the last region of the map, or where
it starts, the loop returns; its pieces are the range in order, each of them in one region, and
the destructor unmaps exactly the pieces that the constructor has mapped. -/
theorem forEachMemRange_exact (K : KernelMap) {start length : BitVec 64} (hPos : 0 < length.toNat)
    (hTop : start.toNat + length.toNat ≤ K.top.addr.toNat) :
    ∃ ps, forEachMemRange K.query start length = some ps ∧
      Tiles K start.toNat start.toNat (start.toNat + length.toNat) ps ∧
      Undoes K.query ps start length := by
  have hLt := K.top.addr.isLt
  obtain ⟨ps, hRun, hTiles⟩ : ∃ ps, forEachMemRange K.query start length = some ps ∧
      Tiles K start.toNat start.toNat (start.toNat + length.toNat) ps :=
    forEachMemRange_tiles K hPos (by omega) fun a ha =>
      Nat.lt_of_le_of_lt (KernelMap.stop_le_top (by omega)) hLt
  refine ⟨ps, hRun, hTiles, fun alignedRw reserve ro size hNonzero hStart hLength => ?_⟩
  subst hStart hLength
  have hMap : mapClaim K.query alignedRw.addr (some reserve) ro size =
      some (mapped alignedRw.addr (some reserve) ro size ps) :=
    mapClaim_eq_some_iff.mpr ⟨hNonzero, Option.some_ne_none reserve, ps, hRun, rfl⟩
  obtain ⟨hReserve, hRanges⟩ := mapClaim_ranges hMap
  refine ⟨_, hMap, rfl, ?_⟩
  rw [destructor, if_pos rfl, hRanges, hReserve]
  rfl

/-- Three pages of the lower half. -/
theorem forEachMemRange_exact_halves :
    ∃ ps, forEachMemRange KernelMap.halves.query 0x1000#64 0x3000#64 = some ps ∧
      Tiles KernelMap.halves (0x1000#64).toNat (0x1000#64).toNat
        ((0x1000#64).toNat + (0x3000#64).toNat) ps ∧
      Undoes KernelMap.halves.query ps 0x1000#64 0x3000#64 :=
  forEachMemRange_exact KernelMap.halves (by decide) (by decide)

/-- The loop does not end for the first page of the last region. -/
theorem forEachLoop_last_region : ¬ ∃ fuel ps, forEachLoop KernelMap.halves.query
    0x8000000000000000#64 0x8000000000001000#64 fuel ⟨0x8000000000000000#64, 0#64⟩ = some ps := by
  intro hEnds
  have hTop : (0x8000000000000000#64).toNat + (0x1000#64).toNat ≤ KernelMap.halves.top.addr.toNat :=
    (forEachLoop_ends_iff KernelMap.halves (by decide) (by decide)).mp hEnds
  exact absurd hTop (by decide)

/-- Operations that leave the log alone and rename the owners by `φ`. -/
theorem Inv.rename (h : Inv query w) (φ : Nat → Nat) (hLog : w'.log = w.log)
    (hNext : w'.nextReserve = w.nextReserve)
    (hMoved : ∀ i o, w'.objs i = some o → o.owner = false → o.claim = .empty)
    (hFrom : ∀ j c, w'.objs j = some ⟨c, true⟩ → w.objs (φ j) = some ⟨c, true⟩)
    (hInj : ∀ j j' c c', w'.objs j = some ⟨c, true⟩ → w'.objs j' = some ⟨c', true⟩ →
      φ j = φ j' → j = j')
    (hTo : ∀ i c, w.objs i = some ⟨c, true⟩ → ∃ j, w'.objs j = some ⟨c, true⟩) : Inv query w' where
  movedFrom := hMoved
  owner := fun i c hi => by
    simpa only [history, hLog] using h.owner (φ i) c (hFrom i c hi)
  unique := fun i j c c' hi hj hTag =>
    hInj i j c c' hi hj (h.unique _ _ c c' (hFrom i c hi) (hFrom j c' hj) hTag)
  status := fun r => by
    have hSame : history w' r = history w r := by rw [history, hLog, history]
    cases h.status r with
    | unused hFresh hHistory => exact .unused (hNext ▸ hFresh) (hSame.trans hHistory)
    | owned c ms i hOld hTag hHistory hOwner =>
      obtain ⟨j, hj⟩ := hTo i c hOwner
      exact .owned c ms j (hNext ▸ hOld) hTag (hSame.trans hHistory) hj
    | closed c ms hOld hTag hHistory =>
      exact .closed c ms (hNext ▸ hOld) hTag (hSame.trans hHistory)
  tagged := fun c ms hm => h.tagged c ms (hLog ▸ hm)

theorem Inv.fresh (h : Inv query w) : history w w.nextReserve = [] := by
  cases h.status w.nextReserve with
  | unused _ hHistory => exact hHistory
  | owned _ _ _ hOld => omega
  | closed _ _ hOld => omega

theorem Inv.old (h : Inv query w) {i r : Nat} {c : Claim} (hi : w.objs i = some ⟨c, true⟩)
    (hr : c.rwReserve = some r) : r < w.nextReserve := by
  obtain ⟨r', ms, hr', -, hHistory⟩ := h.owner i c hi
  obtain rfl : r = r' := Option.some.inj (hr.symm.trans hr')
  cases h.status r with
  | unused _ hNone => rw [hHistory] at hNone; cases hNone
  | owned _ _ _ hOld => exact hOld
  | closed _ _ hOld => exact hOld

/-- An operation that touches reservation `r` only. -/
theorem Inv.update (h : Inv query w) (r : Nat)
    (hHistory : ∀ q, q ≠ r → history w' q = history w q)
    (hNext : ∀ q, q ≠ r → (q < w'.nextReserve ↔ q < w.nextReserve))
    (hObjs : ∀ j c, c.rwReserve ≠ some r →
      (w'.objs j = some ⟨c, true⟩ ↔ w.objs j = some ⟨c, true⟩))
    (hMoved : ∀ j o, w'.objs j = some o → o.owner = false → o.claim = .empty)
    (hOwner : ∀ j c, w'.objs j = some ⟨c, true⟩ → c.rwReserve = some r →
      ∃ ms, rangesOf query c = some ms ∧ history w' r = opened r c ms)
    (hUnique : ∀ j k c c', w'.objs j = some ⟨c, true⟩ → w'.objs k = some ⟨c', true⟩ →
      c.rwReserve = some r → c'.rwReserve = some r → j = k)
    (hStatus : Status w' r)
    (hTagged : ∀ c ms, .note (.mapped c ms) ∈ w'.log → ∃ q, c.rwReserve = some q) :
    Inv query w' where
  movedFrom := hMoved
  owner := fun j c hj => by
    by_cases hr : c.rwReserve = some r
    · obtain ⟨ms, hms, hOpened⟩ := hOwner j c hj hr
      exact ⟨r, ms, hr, hms, hOpened⟩
    · obtain ⟨q, ms, hq, hms, hOpened⟩ := h.owner j c ((hObjs j c hr).mp hj)
      have hqr : q ≠ r := by rintro rfl; exact hr hq
      exact ⟨q, ms, hq, hms, (hHistory q hqr).trans hOpened⟩
  unique := fun j k c c' hj hk hTag => by
    by_cases hr : c.rwReserve = some r
    · exact hUnique j k c c' hj hk hr (hTag ▸ hr)
    · exact h.unique j k c c' ((hObjs j c hr).mp hj) ((hObjs k c' (hTag ▸ hr)).mp hk) hTag
  status := fun q => by
    by_cases hqr : q = r
    · exact hqr ▸ hStatus
    · have hSame := hHistory q hqr
      have hLt := hNext q hqr
      cases h.status q with
      | unused hFresh hNil => exact .unused (by omega) (hSame.trans hNil)
      | owned c ms j hOld hTag hOpened hObj =>
        have hr : c.rwReserve ≠ some r := fun hr => hqr (Option.some.inj (hTag.symm.trans hr))
        exact .owned c ms j (hLt.mpr hOld) hTag (hSame.trans hOpened) ((hObjs j c hr).mpr hObj)
      | closed c ms hOld hTag hClosed =>
        exact .closed c ms (hLt.mpr hOld) hTag (hSame.trans hClosed)
  tagged := hTagged

theorem Inv.construct (h : Inv query w) {i : Nat} {ro size : BitVec 64} {alignedRw : PageAddr}
    {read : Addr → Option (BitVec 8)}
    (hStep : step query (.construct i ro size alignedRw read) w = some w') : Inv query w' := by
  simp only [step] at hStep
  split at hStep
  · cases hStep
  · rename_i hNone
    obtain ⟨c, hRun, rfl⟩ := Option.map_eq_some_iff.mp hStep
    obtain ⟨hReserve, hRanges⟩ := mapClaim_ranges (construct_eq_some_iff.mp hRun).1
    have hOpened : history (w.add i c) w.nextReserve =
        opened w.nextReserve c.claim c.mappings := by
      rw [history_add hReserve, h.fresh, if_pos rfl, List.nil_append]
    have hNew : ∀ j c', (w.add i c).objs j = some ⟨c', true⟩ → c'.rwReserve = some w.nextReserve →
        j = i ∧ c' = c.claim := by
      intro j c' hj hr
      rcases World.objs_add.mp hj with ⟨hji, hEq⟩ | ⟨-, hj⟩
      · cases hEq
        exact ⟨hji, rfl⟩
      · exact absurd (h.old hj hr) (Nat.lt_irrefl _)
    refine h.update w.nextReserve ?_ ?_ ?_ ?_ ?_ ?_
      (.owned c.claim c.mappings i (Nat.lt_succ_self _) hReserve hOpened
        (World.objs_add.mpr (.inl ⟨rfl, rfl⟩))) ?_
    · intro q hq
      rw [history_add hReserve, if_neg hq, List.append_nil]
    · intro q hq
      simp only [World.add]
      omega
    · intro j c' hr
      rw [World.objs_add]
      constructor
      · rintro (⟨-, hEq⟩ | ⟨-, hj⟩)
        · cases hEq
          exact absurd hReserve hr
        · exact hj
      · intro hj
        refine .inr ⟨?_, hj⟩
        rintro rfl
        rw [hNone] at hj
        cases hj
    · intro j o hj ho
      rcases World.objs_add.mp hj with ⟨-, rfl⟩ | ⟨-, hj⟩
      · cases ho
      · exact h.movedFrom j o hj ho
    · intro j c' hj hr
      obtain ⟨-, rfl⟩ := hNew j c' hj hr
      exact ⟨_, hRanges, hOpened⟩
    · intro j k c' c'' hj hk hr hr'
      rw [(hNew j c' hj hr).1, (hNew k c'' hk hr').1]
    · intro c' ms hm
      rcases List.mem_append.mp hm with hm | hm
      · exact h.tagged c' ms hm
      · obtain ⟨rfl, -⟩ : c' = c.claim ∧ ms = c.mappings := by simpa using hm
        exact ⟨_, hReserve⟩

/-- The objects after a move construction. -/
theorem moveConstruct_objs {objs : Nat → Option RwPages} {src : Nat} {other : RwPages}
    (hSrc : objs src = some other) (dst j : Nat) :
    moveConstruct objs dst src other j =
      if j = dst then some other else if j = src then some ⟨.empty, false⟩ else objs j := by
  by_cases hj : j = dst
  · subst hj
    simp [moveConstruct]
  · by_cases hj' : j = src
    · subst hj'
      simp [moveConstruct, modify, hj, hSrc]
    · simp [moveConstruct, modify, hj, hj']

theorem Inv.moveConstruct (h : Inv query w) {dst src : Nat}
    (hStep : step query (.moveConstruct dst src) w = some w') : Inv query w' := by
  simp only [step] at hStep
  split at hStep
  · rename_i other hDst hSrc
    cases hStep
    have hNe : src ≠ dst := by rintro rfl; rw [hDst] at hSrc; cases hSrc
    have hObjs := moveConstruct_objs hSrc dst
    refine h.rename (fun j => if j = dst then src else j) rfl rfl ?_ ?_ ?_ ?_
    · intro j o hj ho
      dsimp only at hj
      rw [hObjs] at hj
      split at hj
      · cases hj; exact h.movedFrom src _ hSrc ho
      · split at hj
        · cases hj; rfl
        · exact h.movedFrom j o hj ho
    · intro j c hj
      dsimp only at hj
      rw [hObjs] at hj
      split at hj
      · rename_i hjd
        cases hj
        rw [if_pos hjd]
        exact hSrc
      · rename_i hjd
        rw [if_neg hjd]
        split at hj
        · cases hj
        · exact hj
    · intro j k c c' hj hk hSame
      dsimp only at hj hk
      rw [hObjs] at hj hk
      -- the old owner `src` is no owner any more, so `φ` identifies nothing
      by_cases hjd : j = dst <;> by_cases hkd : k = dst
      · rw [hjd, hkd]
      · rw [if_pos hjd, if_neg hkd] at hSame
        rw [if_neg hkd, if_pos hSame.symm] at hk
        cases hk
      · rw [if_neg hjd, if_pos hkd] at hSame
        rw [if_neg hjd, if_pos hSame] at hj
        cases hj
      · rwa [if_neg hjd, if_neg hkd] at hSame
    · intro i c hi
      by_cases his : i = src
      · subst his
        rw [hSrc] at hi
        cases hi
        exact ⟨dst, by dsimp only; rw [hObjs, if_pos rfl]⟩
      · have hid : i ≠ dst := by rintro rfl; rw [hDst] at hi; cases hi
        exact ⟨i, by dsimp only; rw [hObjs, if_neg hid, if_neg his]; exact hi⟩
  · cases hStep

/-- The objects after a move assignment: the flag of the destination stays, unless the
source is the same object. -/
theorem moveAssign_objs {objs : Nat → Option RwPages} {dst src : Nat} {this other : RwPages}
    (hDst : objs dst = some this) (hSrc : objs src = some other) (j : Nat) :
    moveAssign objs dst src other j =
      if j = dst then some ⟨other.claim, if dst = src then false else this.owner⟩
      else if j = src then some ⟨.empty, false⟩ else objs j := by
  by_cases hds : dst = src
  · subst hds
    by_cases hj : j = dst
    · subst hj; simp [moveAssign, modify, hDst]
    · simp [moveAssign, modify, hj]
  · have hsd : ¬ src = dst := fun e => hds e.symm
    by_cases hj : j = dst
    · subst hj; simp [moveAssign, modify, hDst, hds]
    · by_cases hj' : j = src
      · subst hj'; simp [moveAssign, modify, hSrc, hsd]
      · simp [moveAssign, modify, hj, hj']

theorem Inv.moveAssign (h : Inv query w) {dst src : Nat}
    (hIdle : AssignsMovedFrom w (.moveAssign dst src))
    (hStep : step query (.moveAssign dst src) w = some w') : Inv query w' := by
  simp only [step] at hStep
  split at hStep
  · rename_i this other hDst hSrc
    cases hStep
    have hObjs := moveAssign_objs hDst hSrc
    have hDstFlag := hIdle.1 this hDst
    have hSrcFlag := hIdle.2 other hSrc
    have hDstNew : (if dst = src then false else this.owner) = false := by
      rw [hDstFlag]; split <;> rfl
    refine h.rename id rfl rfl ?_ ?_ (fun _ _ _ _ _ _ hSame => hSame) ?_
    · intro j o hj ho
      dsimp only at hj
      rw [hObjs] at hj
      split at hj
      · cases hj; exact h.movedFrom src other hSrc hSrcFlag
      · split at hj
        · cases hj; rfl
        · exact h.movedFrom j o hj ho
    · intro j c hj
      dsimp only at hj
      rw [hObjs, hDstNew] at hj
      split at hj
      · cases hj
      · split at hj
        · cases hj
        · exact hj
    · intro i c hi
      have hid : i ≠ dst := by rintro rfl; rw [hDst] at hi; cases hi; cases hDstFlag
      have his : i ≠ src := by rintro rfl; rw [hSrc] at hi; cases hi; cases hSrcFlag
      exact ⟨i, by dsimp only; rw [hObjs, if_neg hid, if_neg his]; exact hi⟩
  · cases hStep

/-- The destructor of a moved-from object. -/
theorem Inv.forget (h : Inv query w) {i : Nat} {c : Claim} (hObj : w.objs i = some ⟨c, false⟩) :
    Inv query (w.remove i []) := by
  refine h.rename id (List.append_nil _) rfl ?_ ?_ (fun _ _ _ _ _ _ hSame => hSame) ?_
  · intro j o hj ho
    exact h.movedFrom j o (World.objs_remove.mp hj).2 ho
  · intro j c' hj
    exact (World.objs_remove.mp hj).2
  · intro j c' hj
    refine ⟨j, World.objs_remove.mpr ⟨?_, hj⟩⟩
    rintro rfl
    rw [hObj] at hj
    cases hj

/-- The destructor of an owner, whose reservation is `r`. -/
theorem Inv.release (h : Inv query w) {i r : Nat} {c : Claim} {ms : List Mapping}
    (hObj : w.objs i = some ⟨c, true⟩) (hr : c.rwReserve = some r)
    (hOpened : history w r = opened r c ms) :
    Inv query (w.remove i
      (c.destructorFlush ++ [.note (.unmapped c ms), .note (.removed c.rwReserve)])) := by
  -- `i` was the only owner of the reservation
  have hOnly : ∀ j c', w.objs j = some ⟨c', true⟩ → c'.rwReserve = some r → j = i :=
    fun j c' hj hr' => h.unique j i c' c hj hObj (hr'.trans hr.symm)
  have hGone : ∀ j c', (w.remove i (c.destructorFlush ++
      [.note (.unmapped c ms), .note (.removed c.rwReserve)])).objs j = some ⟨c', true⟩ →
        c'.rwReserve ≠ some r := by
    intro j c' hj hr'
    obtain ⟨hji, hj⟩ := World.objs_remove.mp hj
    exact hji (hOnly j c' hj hr')
  refine h.update r ?_ (fun _ _ => Iff.rfl) ?_ ?_ (fun j c' hj hr' => absurd hr' (hGone j c' hj))
    (fun j _ c' _ hj _ hr' _ => absurd hr' (hGone j c' hj)) (.closed c ms (h.old hObj hr) hr ?_) ?_
  · intro q hq
    rw [history_remove hr, if_neg hq, List.append_nil]
  · intro j c' hr'
    rw [World.objs_remove]
    refine ⟨And.right, fun hj => ⟨?_, hj⟩⟩
    rintro rfl
    rw [hObj] at hj
    cases hj
    exact hr' hr
  · intro j o hj ho
    exact h.movedFrom j o (World.objs_remove.mp hj).2 ho
  · rw [history_remove hr, if_pos rfl, hOpened]
  · intro c' ms' hm
    simp only [World.remove, Claim.destructorFlush, List.mem_append, List.mem_cons,
      List.not_mem_nil, or_false, reduceCtorEq, Event.note.injEq] at hm
    exact h.tagged c' ms' hm

theorem Inv.destroy (h : Inv query w) {i : Nat}
    (hStep : step query (.destroy i) w = some w') : Inv query w' := by
  simp only [step] at hStep
  split at hStep
  · rename_i o hObj
    obtain ⟨calls, hCalls, rfl⟩ := Option.map_eq_some_iff.mp hStep
    obtain ⟨c, flag⟩ := o
    cases flag with
    | false =>
      cases hCalls
      exact h.forget hObj
    | true =>
      obtain ⟨r, ms, hr, hRanges, hOpened⟩ := h.owner i c hObj
      simp only [destructor, if_true, hRanges, Option.map_some, Option.some.injEq] at hCalls
      subst hCalls
      exact h.release hObj hr hOpened
  · cases hStep

theorem Inv.step {op : Op} (h : Inv query w) (hOp : AssignsMovedFrom w op)
    (hStep : Sys.step query op w = some w') : Inv query w' := by
  cases op with
  | construct i ro size alignedRw read => exact h.construct hStep
  | moveConstruct dst src => exact h.moveConstruct hStep
  | moveAssign dst src => exact h.moveAssign hOp hStep
  | destroy i => exact h.destroy hStep

/-! ## A move assignment with an owner loses a claim -/

/-- A claim with an owner is live. -/
theorem Inv.live (h : Inv query w) {i : Nat} {c : Claim} (hi : w.objs i = some ⟨c, true⟩) :
    ∃ ms, Live w c ms := by
  obtain ⟨r, ms, hr, -, hOpened⟩ := h.owner i c hi
  refine ⟨ms, ?_, fun hUnmapped => ?_⟩
  · have : .note (.mapped c ms) ∈ history w r := by rw [hOpened]; simp [opened]
    exact (mem_history.mp this).1
  · have : .note (.unmapped c ms) ∈ history w r := mem_history.mpr ⟨hUnmapped, hr⟩
    rw [hOpened] at this
    simp [opened] at this

theorem moveAssign_loses {dst src : Nat} (h : Inv query w)
    (hOwner : ¬ AssignsMovedFrom w (.moveAssign dst src))
    (hStep : step query (.moveAssign dst src) w = some w') : ¬ OwnedOnce w' := by
  simp only [step] at hStep
  split at hStep
  · rename_i this other hDst hSrc
    cases hStep
    have hObjs := moveAssign_objs hDst hSrc
    -- the claim without an owner: the old one of `dst`, or else the one taken from `src`
    have hLost : ∃ i c, (i = dst ∨ i = src) ∧ w.objs i = some ⟨c, true⟩ ∧
        (this.owner = true → dst ≠ src → c ≠ other.claim) := by
      by_cases hThis : this.owner = true
      · refine ⟨dst, this.claim, Or.inl rfl, by rw [hDst, ← hThis], fun _ hne hc => ?_⟩
        have hDst' : w.objs dst = some ⟨this.claim, true⟩ := by rw [hDst, ← hThis]
        by_cases hOther : other.owner = true
        · have hSrc' : w.objs src = some ⟨other.claim, true⟩ := by rw [hSrc, ← hOther]
          exact hne (h.unique dst src _ _ hDst' hSrc' (by rw [hc]))
        · have hEmpty := h.movedFrom src other hSrc (by simpa using hOther)
          obtain ⟨r, _, hr, _⟩ := h.owner dst _ hDst'
          rw [hc, hEmpty] at hr
          cases hr
      · have hOther : other.owner = true := by
          by_contra hOther
          refine hOwner ⟨fun o ho => ?_, fun o ho => ?_⟩
          · rw [hDst] at ho; cases ho; simpa using hThis
          · rw [hSrc] at ho; cases ho; simpa using hOther
        exact ⟨src, other.claim, Or.inr rfl, by rw [hSrc, ← hOther], fun hTrue => absurd hTrue hThis⟩
    obtain ⟨i, c, hi, hObj, hNe⟩ := hLost
    obtain ⟨ms, hLive⟩ := h.live hObj
    intro hOnce
    obtain ⟨j, hj, -⟩ := hOnce c ms hLive
    dsimp only at hj
    rw [hObjs] at hj
    split at hj
    · split at hj
      · cases hj
      · rename_i hds
        obtain ⟨hc, hFlag⟩ : other.claim = c ∧ this.owner = true := by simpa using hj
        exact hNe hFlag hds hc.symm
    · split at hj
      · cases hj
      · rename_i hjd hjs
        have hSame := h.unique j i c c hj hObj rfl
        rcases hi with hi | hi
        · exact hjd (hSame.trans hi)
        · exact hjs (hSame.trans hi)
  · cases hStep

/-- Along a run all of whose states are linear, no move assignment has an owner. -/
theorem along_of_linear {ops : List Op}
    (hRun : Runs.run (step query) ops World.initial = some w')
    (hLinear : Runs.Throughout (step query) Linear ops World.initial) :
    Runs.Along (step query) AssignsMovedFrom ops World.initial := by
  refine Runs.along_of_throughout (I := Inv query) (fun w op w' h hOp hStep => h.step hOp hStep)
    (fun w op w' h hOp hStep hLin => ?_) inv_initial hRun hLinear
  cases op with
  | moveAssign dst src => exact moveAssign_loses h hOp hStep hLin.1
  | construct i ro size alignedRw read => exact hOp trivial
  | moveConstruct dst src => exact hOp trivial
  | destroy i => exact hOp trivial

/-- **Linear ownership.** In every run, every state is linear exactly when every move
assignment has moved-from objects on both sides. -/
theorem linear_iff_assignsMovedFrom {ops : List Op}
    (hRun : Runs.run (step query) ops World.initial = some w') :
    Runs.Throughout (step query) Linear ops World.initial ↔
      Runs.Along (step query) AssignsMovedFrom ops World.initial :=
  ⟨along_of_linear hRun, Runs.throughout_of_along (I := Inv query) (fun _ h => h.linear)
    (fun _ _ _ h hOp hStep => h.step hOp hStep) inv_initial⟩

/-- One object, moved to a second one and destroyed there. -/
theorem linear_moveConstruct_run :
    Runs.Throughout (step fun _ => ⟨0x0#64, 0x80000000#64⟩) Linear
      [.construct 0 0x1000#64 0x14#64 ⟨0x71000#64, rfl⟩ fun _ => some 0#8, .moveConstruct 1 0,
        .destroy 0, .destroy 1]
      World.initial :=
  (linear_iff_assignsMovedFrom rfl).mpr
    ⟨trivial, fun _ _ => ⟨trivial, fun _ _ => ⟨trivial, fun _ _ => ⟨trivial, fun _ _ => trivial⟩⟩⟩⟩

/-- Assigning an owning object to another one leaks the claim that was there. -/
theorem moveAssign_owner_leaks : ¬ ∀ (query : Addr → Region) (ops : List Op) (w : World),
    Runs.run (step query) ops World.initial = some w →
      Runs.Throughout (step query) Linear ops World.initial := by
  intro h
  have hRun := h (fun _ => ⟨0x0#64, 0x80000000#64⟩)
    [.construct 0 0x1000#64 0x14#64 ⟨0x71000#64, rfl⟩ fun _ => some 0#8,
      .construct 1 0x2000#64 0x14#64 ⟨0x72000#64, rfl⟩ fun _ => some 0#8, .moveAssign 0 1] _ rfl
  have hAlong := along_of_linear rfl hRun
  have hIdle := ((hAlong.2 _ rfl).2 _ rfl).1.1 _ rfl
  cases hIdle

end

end Wondar.Sys
