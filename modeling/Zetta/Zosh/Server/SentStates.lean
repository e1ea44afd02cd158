import Mathlib
import Zetta.Lib.NumberedLog
import Zetta.Lib.Run
import Zetta.Zosh.Server.Accounts

/-!
# What the sent states carried

A `TerminalState` keeps at most `MAX_SNAPSHOTS` snapshots and forgets the rest. To say what an
acknowledgement *should* do, a run is traced: `Traced` records beside the state every state
that was sent, with the terminal it showed (`SentRecord`), and every query that was accepted.

* `Tracks` is what the state and the record have to do with each other on every run that
  numbers its states in increasing order: the snapshots are the **window** of the record above
  the base, and the pending queries are a suffix of the accepted ones.
* `AckHeld` is the condition under which an acknowledgement finds the state it names: fewer
  than `MAX_SNAPSHOTS` newer states have been sent since. Under it the base is the newest
  state acknowledged (`BaseAcked`) and the queries retired are those it carried (`Delivered`).
-/

namespace Zetta.Zosh.Server

open Vt100 NumberedLog

universe u

/-- What is on record of a state that was sent. -/
structure SentRecord (Screen : Type u) where
  /-- The terminal it showed. -/
  snapshot : TerminalSnapshot Screen
  /-- How many queries had been accepted by then. -/
  registered : ℕ

/-- A terminal state with the record of its run. -/
structure Traced (Screen : Type u) where
  state : TerminalState Screen
  /-- The states sent, in order. -/
  sent : List (ℕ × SentRecord Screen)
  /-- The queries accepted, in order. -/
  registered : List TerminalQuery

namespace Traced

variable {Screen : Type u} (em : Emulator Screen)

/-- The record before any operation. -/
def new (rows cols : ℕ) : Traced Screen := ⟨.new em rows cols, [], []⟩

/-- What an operation adds to the states sent. -/
def logSent (t : Traced Screen) : TerminalOp → List (ℕ × SentRecord Screen)
  | .snapshotForState n => t.sent ++ [(n, ⟨t.state.snapshot, t.registered.length⟩)]
  | _ => t.sent

/-- What an operation adds to the queries accepted. -/
def logRegistered (t : Traced Screen) : TerminalOp → List TerminalQuery
  | .addQuery bytes =>
    if t.state.acceptsQuery bytes then t.registered ++ [⟨t.state.nextQueryId, bytes⟩]
    else t.registered
  | _ => t.registered

/-- One operation, recorded. -/
def step (t : Traced Screen) (op : TerminalOp) : Except Fault (Traced Screen) :=
  (t.state.step em op).map fun s => ⟨s, t.logSent op, t.logRegistered op⟩

/-- States are numbered in increasing order, above every number acknowledged so far. -/
def Ordered (t : Traced Screen) : TerminalOp → Prop
  | .snapshotForState n => t.state.baseNum < n ∧ ∀ x ∈ t.sent, x.1 < n
  | _ => True

/-- An acknowledgement past the base names a state that is still held: if any state has been
sent between the base and it, then fewer than `MAX_SNAPSHOTS` have been sent after it. -/
def AckHeld (t : Traced Screen) : TerminalOp → Prop
  | .acknowledge m => t.state.baseNum < m →
    between t.sent t.state.baseNum m = [] ∨ (after t.sent m).length < MAX_SNAPSHOTS
  | _ => True

instance (t : Traced Screen) : ∀ op, Decidable (t.Ordered op)
  | .snapshotForState n =>
    inferInstanceAs (Decidable (t.state.baseNum < n ∧ ∀ x ∈ t.sent, x.1 < n))
  | .process _ | .resize _ _ | .acknowledge _ | .addQuery _ => .isTrue trivial

instance [DecidableEq Screen] (t : Traced Screen) : ∀ op, Decidable (t.AckHeld op)
  | .acknowledge m =>
    inferInstanceAs (Decidable (t.state.baseNum < m →
      between t.sent t.state.baseNum m = [] ∨ (after t.sent m).length < MAX_SNAPSHOTS))
  | .process _ | .resize _ _ | .snapshotForState _ | .addQuery _ => .isTrue trivial

/-- How many queries the acknowledgements have retired. -/
def retired (t : Traced Screen) : ℕ :=
  t.registered.length - t.state.pendingQueries.items.length

/-- How many queries the newest state numbered `m` or below carried. -/
def carried (t : Traced Screen) (m : ℕ) : ℕ :=
  ((newest? t.sent m).map fun x => x.2.registered).getD 0

/-- The snapshot held of a record once `r` queries have been retired. -/
def held (r : ℕ) (e : SentRecord Screen) : TerminalSnapshot Screen :=
  { e.snapshot with queryCount := e.registered - r }

/-- **The state keeps track of the record.** -/
structure Tracks (t : Traced Screen) : Prop where
  accounts : t.state.Accounts
  increasing : Increasing t.sent
  /-- The pending queries are the last ones accepted. -/
  suffix : t.state.pendingQueries.items <:+ t.registered
  /-- The snapshots are the last states sent after the base. -/
  mirrors : t.state.snapshots.Mirrors t.sent t.state.baseNum MAX_SNAPSHOTS (held t.retired)
  registered_le : ∀ x ∈ t.sent, x.2.registered ≤ t.registered.length
  /-- Later states carry no fewer queries. -/
  mono : ∀ x ∈ t.sent, ∀ y ∈ t.sent, x.1 ≤ y.1 → x.2.registered ≤ y.2.registered

/-- The queries retired are those the newest acknowledged state carried. -/
def Delivered (t : Traced Screen) : Prop := t.retired = t.carried t.state.baseNum

/-- The parts of a base that a snapshot determines. -/
def baseOf (snapshot : TerminalSnapshot Screen) : Base Screen :=
  ⟨snapshot.screen, snapshot.scrollbackClearCount, snapshot.evictedTotal, snapshot.title, 0⟩

/-- The base is the newest acknowledged state, or the terminal the session began with. -/
def BaseAcked (rows cols : ℕ) (t : Traced Screen) : Prop :=
  t.state.base none =
    some (((newest? t.sent t.state.baseNum).map fun x => baseOf x.2.snapshot).getD
      ⟨em.new rows cols, 0, 0, none, 0⟩)

variable {em}

/-! ### One step -/

variable {t t' : Traced Screen} {op : TerminalOp}

/-- A recorded step is a step of the state. -/
theorem step_eq_ok (h : t.step em op = .ok t') :
    t.state.step em op = .ok t'.state ∧ t'.sent = t.logSent op ∧
      t'.registered = t.logRegistered op := by
  rw [step] at h
  cases hs : t.state.step em op with
  | error e => simp [hs, Except.map] at h
  | ok s =>
    simp only [hs, Except.map, Except.ok.injEq] at h
    subst h
    exact ⟨rfl, rfl, rfl⟩

variable {s' : TerminalState Screen} {s : TerminalState Screen}

/-- Collecting rows leaves queries, snapshots and base alone. -/
theorem collectScrollback_frame (hs : s.Accounts) (h : s.collectScrollback = .ok s') :
    s'.pendingQueries = s.pendingQueries ∧ s'.snapshots = s.snapshots ∧
      s'.baseNum = s.baseNum ∧ s'.base none = s.base none := by
  rcases TerminalState.collectScrollback_cases hs.scrollback h with rfl | ⟨pending, rfl⟩ <;>
    exact ⟨rfl, rfl, rfl, rfl⟩

/-- Output and resizes leave queries, snapshots and base alone. -/
theorem screen_frame (hs : s.Accounts)
    (hop : (∃ bytes, op = .process bytes) ∨ ∃ rows cols, op = .resize rows cols)
    (h : s.step em op = .ok s') :
    s'.pendingQueries = s.pendingQueries ∧ s'.snapshots = s.snapshots ∧
      s'.baseNum = s.baseNum ∧ s'.base none = s.base none := by
  rcases hop with ⟨bytes, rfl⟩ | ⟨rows, cols, rfl⟩
  · exact collectScrollback_frame (s := s.feed em bytes) (hs.feed bytes) h
  · exact collectScrollback_frame (s := s.reflow em rows cols) (hs.reflow rows cols) h

/-- The pending queries are those accepted after the retired ones. -/
theorem Tracks.pending_eq (h : t.Tracks) :
    t.state.pendingQueries.items = t.registered.drop t.retired :=
  List.suffix_iff_eq_drop.mp h.suffix

/-- The retired and the pending queries are all there are. -/
theorem Tracks.retired_add (h : t.Tracks) :
    t.retired + t.state.pendingQueries.items.length = t.registered.length := by
  have := h.suffix.length_le
  simp only [retired]
  omega

/-- A step that touches neither queries, snapshots nor base keeps track. -/
private theorem Tracks.of_frame (h : t.Tracks) (hacc : s'.Accounts)
    (hq : s'.pendingQueries = t.state.pendingQueries) (hsnap : s'.snapshots = t.state.snapshots)
    (hnum : s'.baseNum = t.state.baseNum) :
    Tracks ⟨s', t.sent, t.registered⟩ where
  accounts := hacc
  increasing := h.increasing
  suffix := by rw [hq]; exact h.suffix
  mirrors := by
    have hret : retired ⟨s', t.sent, t.registered⟩ = t.retired := by simp only [retired, hq]
    rw [hret, hsnap, hnum]
    exact h.mirrors
  registered_le := h.registered_le
  mono := h.mono

private theorem Tracks.snapshot (h : t.Tracks) {n : ℕ} (hn : t.state.baseNum < n)
    (hsent : ∀ x ∈ t.sent, x.1 < n) :
    Tracks ⟨t.state.snapshotForState n, t.sent ++ [(n, ⟨t.state.snapshot, t.registered.length⟩)],
      t.registered⟩ where
  accounts := h.accounts.snapshotForState n
  increasing := by
    refine List.pairwise_append.mpr ⟨h.increasing, List.pairwise_singleton _ _, ?_⟩
    intro x hx y hy
    rw [List.mem_singleton.mp hy]
    exact hsent x hx
  suffix := h.suffix
  mirrors := by
    have hheld : held t.retired ⟨t.state.snapshot, t.registered.length⟩ = t.state.snapshot := by
      have hcount := h.retired_add
      have hq : t.state.snapshot.queryCount = t.registered.length - t.retired := by
        show t.state.pendingQueries.items.length = _
        omega
      rw [held, ← hq]
    have hmirrors := h.mirrors.insert (b := ⟨t.state.snapshot, t.registered.length⟩) hn hsent
    rwa [hheld] at hmirrors
  registered_le := by
    intro x hx
    rcases List.mem_append.mp hx with hx | hx
    · exact h.registered_le x hx
    · rw [List.mem_singleton.mp hx]
  mono := by
    intro x hx y hy hxy
    rcases List.mem_append.mp hx with hx | hx <;> rcases List.mem_append.mp hy with hy | hy
    · exact h.mono x hx y hy hxy
    · rw [List.mem_singleton.mp hy]
      exact h.registered_le x hx
    · have := hsent y hy
      rw [List.mem_singleton.mp hx] at hxy
      exact absurd this (Nat.not_lt.mpr hxy)
    · rw [List.mem_singleton.mp hx, List.mem_singleton.mp hy]

private theorem retired_pushQuery (t : Traced Screen) (bytes : List UInt8) :
    retired ⟨t.state.pushQuery bytes, t.sent, t.registered ++ [⟨t.state.nextQueryId, bytes⟩]⟩ =
      t.retired := by
  simp only [retired, TerminalState.pushQuery, CountedQueue.items_push, List.length_append,
    List.length_singleton]
  omega

private theorem Tracks.addQuery (h : t.Tracks) {bytes : List UInt8}
    (hacc : (t.state.pushQuery bytes).Accounts) :
    Tracks ⟨t.state.pushQuery bytes, t.sent,
      t.registered ++ [⟨t.state.nextQueryId, bytes⟩]⟩ where
  accounts := hacc
  increasing := h.increasing
  suffix := by
    obtain ⟨front, hfront⟩ := h.suffix
    exact ⟨front, by rw [← hfront]; simp [TerminalState.pushQuery]⟩
  mirrors := by
    rw [retired_pushQuery]
    exact h.mirrors
  registered_le := fun x hx => by
    rw [List.length_append]
    exact (h.registered_le x hx).trans (Nat.le_add_right _ _)
  mono := h.mono

/-! ### Acknowledgements -/

variable {m : ℕ}

/-- The snapshot an acknowledgement finds: that of the newest state sent up to it and after
the base, unless too many have been sent since. -/
theorem Tracks.floor?_eq (h : t.Tracks) (hm : t.state.baseNum ≤ m) :
    t.state.snapshots.floor? m =
      if (after t.sent m).length < MAX_SNAPSHOTS then
        (between t.sent t.state.baseNum m).getLast?.map fun x => (x.1, held t.retired x.2)
      else none :=
  h.mirrors.floor?_eq h.increasing hm

private theorem Tracks.above (h : t.Tracks) (hm : t.state.baseNum < m)
    (hacc : TerminalState.Accounts
      { t.state with baseNum := m, snapshots := t.state.snapshots.above m }) :
    Tracks ⟨{ t.state with baseNum := m, snapshots := t.state.snapshots.above m },
      t.sent, t.registered⟩ :=
  ⟨hacc, h.increasing, h.suffix, h.mirrors.above h.increasing hm.le, h.registered_le, h.mono⟩

variable {rows : CountedQueue PendingRow} {queries : CountedQueue TerminalQuery}

private theorem retired_rebase (h : t.Tracks) {snapshot : TerminalSnapshot Screen}
    (hcount : snapshot.queryCount ≤ t.state.pendingQueries.items.length)
    (hitems : queries.items = t.state.pendingQueries.items.drop snapshot.queryCount) :
    retired ⟨t.state.rebase m snapshot rows queries, t.sent, t.registered⟩ =
      t.retired + snapshot.queryCount := by
  have := h.retired_add
  show t.registered.length - queries.items.length = _
  rw [hitems, List.length_drop]
  omega

private theorem Tracks.rebase (h : t.Tracks) {snapshot : TerminalSnapshot Screen}
    (hm : t.state.baseNum < m) (hcount : snapshot.queryCount ≤ t.state.pendingQueries.items.length)
    (hitems : queries.items = t.state.pendingQueries.items.drop snapshot.queryCount)
    (hacc : (t.state.rebase m snapshot rows queries).Accounts) :
    Tracks ⟨t.state.rebase m snapshot rows queries, t.sent, t.registered⟩ where
  accounts := hacc
  increasing := h.increasing
  suffix := by
    show queries.items <:+ t.registered
    rw [hitems]
    exact (List.drop_suffix _ _).trans h.suffix
  mirrors := by
    rw [retired_rebase h hcount hitems]
    refine (h.mirrors.mapValues (k := held (t.retired + snapshot.queryCount)) _ ?_).above
      h.increasing hm.le
    intro x _
    simp only [held, Nat.sub_sub]
  registered_le := h.registered_le
  mono := h.mono

/-- What an acknowledgement past the base does to a tracked state. -/
theorem Tracks.acknowledge (h : t.Tracks) (hm : t.state.baseNum < m)
    (hack : t.state.acknowledge m = .ok s') :
    Tracks ⟨s', t.sent, t.registered⟩ ∧ s'.baseNum = m ∧
      ((t.state.snapshots.floor? m = none ∧ s'.pendingQueries = t.state.pendingQueries ∧
          s'.base none = t.state.base none) ∨
        ∃ n snapshot, t.state.snapshots.floor? m = some (n, snapshot) ∧
          retired ⟨s', t.sent, t.registered⟩ = t.retired + snapshot.queryCount ∧
          s'.base none = some (baseOf snapshot)) := by
  obtain ⟨s'', heq, hacc⟩ := h.accounts.acknowledge m
  cases heq.symm.trans hack
  rcases TerminalState.acknowledge_eq h.accounts m with ⟨hle, -⟩ | ⟨-, hfloor, heq'⟩ |
    ⟨n, snapshot, rows, queries, -, hfloor, -, -, -, -, hitems, heq'⟩
  · exact absurd hle (Nat.not_le.mpr hm)
  · cases heq'.symm.trans heq
    exact ⟨h.above hm hacc, rfl, .inl ⟨hfloor, rfl, rfl⟩⟩
  · cases heq'.symm.trans heq
    have hcount := h.accounts.queryCount_le _ (OrdMap.floor?_eq_some_iff.mp hfloor).1
    exact ⟨h.rebase hm hcount hitems hacc, rfl,
      .inr ⟨n, snapshot, hfloor, retired_rebase h hcount hitems, rfl⟩⟩

/-! ### Runs -/

theorem tracks_new (rows cols : ℕ) : (new em rows cols).Tracks where
  accounts := TerminalState.accounts_new rows cols
  increasing := .nil
  suffix := List.suffix_refl _
  mirrors := OrdMap.mirrors_empty
  registered_le := by simp [new]
  mono := by simp [new]

/-- **One step** of an ordered run keeps track. -/
theorem Tracks.step (h : t.Tracks) (hop : t.Ordered op) (hstep : t.step em op = .ok t') :
    t'.Tracks := by
  obtain ⟨hs, hsent, hreg⟩ := step_eq_ok hstep
  obtain ⟨s', sent', registered'⟩ := t'
  simp only at hs hsent hreg
  subst hsent hreg
  have hacc : s'.Accounts := by
    rcases TerminalState.step_accounts em h.accounts op with ⟨s'', heq, hacc⟩ | heq
    · cases heq.symm.trans hs
      exact hacc
    · cases heq.symm.trans hs
  cases op with
  | process bytes =>
    obtain ⟨hq, hsnap, hnum, -⟩ := screen_frame h.accounts (.inl ⟨bytes, rfl⟩) hs
    exact h.of_frame hacc hq hsnap hnum
  | resize rows cols =>
    obtain ⟨hq, hsnap, hnum, -⟩ := screen_frame h.accounts (.inr ⟨rows, cols, rfl⟩) hs
    exact h.of_frame hacc hq hsnap hnum
  | snapshotForState n =>
    cases hs
    exact h.snapshot hop.1 hop.2
  | acknowledge m =>
    by_cases hm : t.state.baseNum < m
    · exact (h.acknowledge hm hs).1
    · have heq : t.state.acknowledge m = .ok t.state := if_pos (Nat.not_lt.mp hm)
      cases heq.symm.trans hs
      exact h
  | addQuery bytes =>
    simp only [TerminalState.step] at hs
    rcases TerminalState.addQuery_eq t.state bytes with ⟨hno, heq⟩ | ⟨hyes, heq | heq⟩
    · rw [heq] at hs
      cases hs
      simp only [logSent, logRegistered, hno]
      exact h
    · rw [heq] at hs
      cases hs
    · rw [heq] at hs
      cases hs
      simp only [logSent, logRegistered, hyes, if_true]
      exact h.addQuery hacc

/-- Under `AckHeld` an acknowledgement finds the newest state up to it and after the base. -/
theorem Tracks.floor?_of_ackHeld (h : t.Tracks) (hm : t.state.baseNum < m)
    (hheld : t.AckHeld (.acknowledge m)) :
    t.state.snapshots.floor? m =
      (between t.sent t.state.baseNum m).getLast?.map fun x => (x.1, held t.retired x.2) := by
  rw [h.floor?_eq hm.le]
  rcases hheld hm with hnil | hlt
  · simp [hnil]
  · rw [if_pos hlt]

/-- The number the base is at carried no more than any later state. -/
private theorem carried_le (h : t.Tracks) {x : ℕ × SentRecord Screen} (hx : x ∈ t.sent)
    (hlt : t.state.baseNum < x.1) :
    t.carried t.state.baseNum ≤ x.2.registered := by
  cases hnew : newest? t.sent t.state.baseNum with
  | none => simp [carried, hnew]
  | some y =>
    obtain ⟨hy, hle⟩ := mem_of_newest? hnew
    simpa [carried, hnew] using h.mono y hy x hx (hle.trans hlt.le)

/-- **Deliveries**: one step of an ordered run whose acknowledgements are held retires the
queries of the state acknowledged, and no others. -/
theorem Delivered.step (hd : t.Delivered) (h : t.Tracks) (hop : t.Ordered op) (hheld : t.AckHeld op)
    (hstep : t.step em op = .ok t') :
    t'.Delivered := by
  obtain ⟨hs, hsent, hreg⟩ := step_eq_ok hstep
  obtain ⟨s', sent', registered'⟩ := t'
  simp only at hs hsent hreg
  subst hsent hreg
  -- A step that keeps the queries and the base number keeps the deliveries.
  have hkeep : s'.pendingQueries = t.state.pendingQueries → s'.baseNum = t.state.baseNum →
      Delivered ⟨s', t.sent, t.registered⟩ := by
    intro hq hnum
    show t.registered.length - s'.pendingQueries.items.length = _
    rw [hq]
    simp only [hnum]
    exact hd
  cases op with
  | process bytes =>
    obtain ⟨hq, -, hnum, -⟩ := screen_frame h.accounts (.inl ⟨bytes, rfl⟩) hs
    exact hkeep hq hnum
  | resize rows cols =>
    obtain ⟨hq, -, hnum, -⟩ := screen_frame h.accounts (.inr ⟨rows, cols, rfl⟩) hs
    exact hkeep hq hnum
  | snapshotForState n =>
    cases hs
    have hnew : newest? (t.sent ++ [(n, ⟨t.state.snapshot, t.registered.length⟩)])
        t.state.baseNum = newest? t.sent t.state.baseNum := newest?_concat_of_lt hop.1
    show t.retired = ((newest? _ t.state.baseNum).map _).getD 0
    simp only [logSent, hnew]
    exact hd
  | acknowledge m =>
    by_cases hm : t.state.baseNum < m
    · obtain ⟨-, hnum, hcases⟩ := h.acknowledge hm hs
      have hnewest := h.increasing.newest?_eq hm.le
      rw [h.floor?_of_ackHeld hm hheld] at hcases
      show retired ⟨s', t.sent, t.registered⟩ = ((newest? t.sent s'.baseNum).map _).getD 0
      rw [hnum, hnewest]
      rcases hcases with ⟨hnone, hq, -⟩ | ⟨n, snapshot, hsome, hret, -⟩
      · rw [Option.map_eq_none_iff.mp hnone, Option.none_or]
        show t.registered.length - s'.pendingQueries.items.length = _
        rw [hq]
        exact hd
      · obtain ⟨x, hx, hxeq⟩ := Option.map_eq_some_iff.mp hsome
        obtain ⟨-, rfl⟩ := Prod.mk.inj hxeq
        obtain ⟨hmem, hlt, -⟩ := mem_of_getLast?_between hx
        have hle : t.retired ≤ x.2.registered := (le_of_eq hd).trans (carried_le h hmem hlt)
        rw [hret, hx]
        show t.retired + (x.2.registered - t.retired) = x.2.registered
        omega
    · have heq : t.state.acknowledge m = .ok t.state := if_pos (Nat.not_lt.mp hm)
      cases heq.symm.trans hs
      exact hd
  | addQuery bytes =>
    simp only [TerminalState.step] at hs
    rcases TerminalState.addQuery_eq t.state bytes with ⟨hno, heq⟩ | ⟨hyes, heq | heq⟩
    · rw [heq] at hs
      cases hs
      simp only [logSent, logRegistered, hno]
      exact hd
    · rw [heq] at hs
      cases hs
    · rw [heq] at hs
      cases hs
      simp only [logSent, logRegistered, hyes, if_true]
      exact (retired_pushQuery t bytes).trans hd

variable {cols : ℕ}

/-- **The base follows the acknowledgements**, one step of an ordered run whose
acknowledgements are held. -/
theorem BaseAcked.step {rows : ℕ} (hb : t.BaseAcked em rows cols) (h : t.Tracks)
    (hop : t.Ordered op) (hheld : t.AckHeld op) (hstep : t.step em op = .ok t') :
    t'.BaseAcked em rows cols := by
  obtain ⟨hs, hsent, -⟩ := step_eq_ok hstep
  obtain ⟨s', sent', registered'⟩ := t'
  simp only at hs hsent
  subst hsent
  -- A step that keeps the base and its number keeps what the base is.
  have hkeep : s'.base none = t.state.base none → s'.baseNum = t.state.baseNum →
      BaseAcked em rows cols ⟨s', t.sent, registered'⟩ := by
    intro hbase hnum
    rw [BaseAcked] at hb ⊢
    simp only [hbase, hnum]
    exact hb
  cases op with
  | process bytes =>
    obtain ⟨-, -, hnum, hbase⟩ := screen_frame h.accounts (.inl ⟨bytes, rfl⟩) hs
    exact hkeep hbase hnum
  | resize rows cols =>
    obtain ⟨-, -, hnum, hbase⟩ := screen_frame h.accounts (.inr ⟨rows, cols, rfl⟩) hs
    exact hkeep hbase hnum
  | snapshotForState n =>
    cases hs
    have hnew : newest? (t.sent ++ [(n, ⟨t.state.snapshot, t.registered.length⟩)])
        t.state.baseNum = newest? t.sent t.state.baseNum := newest?_concat_of_lt hop.1
    rw [BaseAcked] at hb ⊢
    show t.state.base none = some (((newest? _ t.state.baseNum).map _).getD _)
    simp only [logSent, hnew]
    exact hb
  | acknowledge m =>
    by_cases hm : t.state.baseNum < m
    · obtain ⟨-, hnum, hcases⟩ := h.acknowledge hm hs
      rw [h.floor?_of_ackHeld hm hheld] at hcases
      rw [BaseAcked] at hb ⊢
      simp only [hnum]
      show s'.base none = some (((newest? t.sent m).map _).getD _)
      rw [h.increasing.newest?_eq hm.le]
      rcases hcases with ⟨hnone, -, hbase⟩ | ⟨n, snapshot, hsome, -, hbase⟩
      · rw [Option.map_eq_none_iff.mp hnone, Option.none_or, hbase]
        exact hb
      · obtain ⟨x, hx, hxeq⟩ := Option.map_eq_some_iff.mp hsome
        obtain ⟨-, rfl⟩ := Prod.mk.inj hxeq
        rw [hx, hbase]
        rfl
    · have heq : t.state.acknowledge m = .ok t.state := if_pos (Nat.not_lt.mp hm)
      cases heq.symm.trans hs
      exact hb
  | addQuery bytes =>
    simp only [TerminalState.step] at hs
    rcases TerminalState.addQuery_eq t.state bytes with ⟨-, heq⟩ | ⟨-, heq | heq⟩
    · rw [heq] at hs
      cases hs
      exact hb
    · rw [heq] at hs
      cases hs
    · rw [heq] at hs
      cases hs
      exact hb

/-- The steps of an ordered run. -/
def orderedStep (em : Emulator Screen) : Traced Screen → TerminalOp → Traced Screen → Prop :=
  Meeting Ordered (Succeeds (Traced.step em))

/-- **Every run whose acknowledgements are held** delivers what it retires, and has the newest
acknowledged state as its base. -/
theorem run_of_ackHeld {ops : List TerminalOp} {rows : ℕ}
    (hrun : Run (Meeting AckHeld (orderedStep em)) (new em rows cols) ops t) :
    t.Tracks ∧ t.Delivered ∧ t.BaseAcked em rows cols := by
  refine hrun.invariant
    (I := fun t => t.Tracks ∧ t.Delivered ∧ t.BaseAcked em rows cols)
    ⟨tracks_new rows cols, rfl, rfl⟩ ?_
  rintro t op t' ⟨h, hd, hb⟩ ⟨hheld, hop, hstep⟩
  exact ⟨h.step hop hstep, hd.step h hop hheld hstep, hb.step h hop hheld hstep⟩

end Traced

end Zetta.Zosh.Server
