import Mathlib
import Zetta.Lib.Run
import Zetta.Zosh.Server.TerminalState

/-!
# The budgets of the terminal state

What the two byte counts of a `TerminalState` are worth, over every sequence of operations
(`TerminalOp`): the invariant `Accounts` says that each count is the sum it stands for, that
both are within their budgets, and that no snapshot carries more queries than are pending.

* Each operation, from accounts that are right, **succeeds** and leaves them right
  (`Accounts.collectScrollback`, `Accounts.acknowledge`, …): the checked subtractions of the
  model never fail.
* `step_accounts` puts the operations together; a run is then a fold of successful steps,
  unless the query ids are used up, which is not an underflow.

Each operation also has one equation for what it leaves (`acknowledge_eq`, …), from which the
later modules argue.
-/

namespace Zetta.Zosh.Server

open Vt100

universe u

/-- The operations of a terminal state. -/
inductive TerminalOp where
  | process (bytes : List UInt8)
  | resize (rows cols : ℕ)
  | snapshotForState (stateNum : ℕ)
  | acknowledge (ackNum : ℕ)
  | addQuery (bytes : List UInt8)

namespace TerminalState

variable {Screen : Type u} (em : Emulator Screen)

/-- One operation. -/
def step (s : TerminalState Screen) : TerminalOp → Except Fault (TerminalState Screen)
  | .process bytes => s.process em bytes
  | .resize rows cols => s.resize em rows cols
  | .snapshotForState stateNum => .ok (s.snapshotForState stateNum)
  | .acknowledge ackNum => s.acknowledge ackNum
  | .addQuery bytes => (s.addQuery bytes).map Prod.snd

/-- **The accounts are right.** -/
structure Accounts (s : TerminalState Screen) : Prop where
  /-- The scrollback byte count is the cost of the pending rows. -/
  scrollback : s.pendingScrollback.Balanced PendingRow.cost
  /-- Rows nobody asked for are within the budget. -/
  scrollback_le : s.scrollbackAnnounced = false → s.pendingScrollback.total ≤ s.scrollbackBudget
  /-- Only a server nobody asked has no budget. -/
  unannounced : s.scrollbackBudget = 0 → s.scrollbackAnnounced = false
  /-- The query byte count is the size of the pending queries. -/
  queries : s.pendingQueries.Balanced TerminalQuery.cost
  queries_length : s.pendingQueries.items.length ≤ MAX_PENDING_QUERIES
  queries_le : s.pendingQueries.total ≤ MAX_PENDING_QUERY_BYTES
  /-- A snapshot carries no more queries than are pending. -/
  queryCount_le : ∀ x ∈ s.snapshots.entries,
    x.2.queryCount ≤ s.pendingQueries.items.length

variable {em}

@[simp] theorem checked_some {α : Type u} (a : α) : checked (some a) = .ok a := rfl

/-! ### Collecting rows -/

variable {s : TerminalState Screen}

/-- Rows beyond the budget are dropped from the front, and nothing else changes. -/
theorem dropScrollbackOverBudget_eq (h : s.pendingScrollback.Balanced PendingRow.cost) :
    ∃ pending, s.dropScrollbackOverBudget = .ok { s with pendingScrollback := pending } ∧
      pending.Balanced PendingRow.cost ∧ pending.items <:+ s.pendingScrollback.items ∧
      pending.total ≤ s.scrollbackBudget := by
  obtain ⟨pending, hpop, hbal, hsuf, -⟩ :=
    h.popWhile fun bytes _ => decide (s.scrollbackBudget < bytes)
  refine ⟨pending, ?_, hbal, hsuf, h.total_le_of_popWhile hpop⟩
  rw [dropScrollbackOverBudget, hpop]
  rfl

/-- Collecting leaves a suffix of the pending rows and the captured ones; what else it does,
`takeEvictedRows` says. -/
theorem collectScrollback_eq (h : s.pendingScrollback.Balanced PendingRow.cost)
    (hbudget : s.scrollbackBudget ≠ 0) :
    ∃ pending, s.collectScrollback = .ok { s.takeEvictedRows with pendingScrollback := pending } ∧
      pending.Balanced PendingRow.cost ∧
      pending.items <:+ s.pendingScrollback.items ++
        indexRows s.parser.grid.takeEvicted.1.1 s.parser.grid.evicted ∧
      (s.scrollbackAnnounced = false → pending.total ≤ s.scrollbackBudget) := by
  have hpush : s.takeEvictedRows.pendingScrollback.Balanced PendingRow.cost := h.pushAll _
  have hitems : s.takeEvictedRows.pendingScrollback.items = s.pendingScrollback.items ++
      indexRows s.parser.grid.takeEvicted.1.1 s.parser.grid.evicted :=
    CountedQueue.items_pushAll _ _ _
  rw [collectScrollback, if_neg hbudget]
  cases hannounced : s.scrollbackAnnounced with
  | true => exact ⟨_, rfl, hpush, hitems ▸ List.suffix_refl _, by simp⟩
  | false =>
    obtain ⟨pending, heq, hbal, hsuf, hle⟩ := dropScrollbackOverBudget_eq hpush
    exact ⟨pending, by simpa using heq, hbal, hitems ▸ hsuf, fun _ => hle⟩

variable {s' : TerminalState Screen}

/-- Collecting touches the pending rows, the emulator's queue and the kept screen only. -/
theorem collectScrollback_cases (h : s.pendingScrollback.Balanced PendingRow.cost)
    (hs' : s.collectScrollback = .ok s') :
    s' = s ∨ ∃ pending, s' = { s.takeEvictedRows with pendingScrollback := pending } := by
  by_cases hzero : s.scrollbackBudget = 0
  · rw [collectScrollback, if_pos hzero] at hs'
    exact .inl (Except.ok.inj hs').symm
  · obtain ⟨pending, heq, -⟩ := collectScrollback_eq h hzero
    exact .inr ⟨pending, Except.ok.inj (hs'.symm.trans heq)⟩

/-- **Collecting succeeds** and keeps the accounts right. -/
theorem Accounts.collectScrollback (h : s.Accounts) :
    ∃ s', s.collectScrollback = .ok s' ∧ s'.Accounts := by
  by_cases hzero : s.scrollbackBudget = 0
  · exact ⟨s, by rw [TerminalState.collectScrollback, if_pos hzero], h⟩
  · obtain ⟨pending, heq, hbal, -, htotal⟩ := collectScrollback_eq h.scrollback hzero
    exact ⟨_, heq, { h with scrollback := hbal, scrollback_le := htotal }⟩

/-- What the scanners and the emulator do with a chunk keeps the accounts right. -/
theorem Accounts.feed (h : s.Accounts) (bytes : List UInt8) :
    (s.feed em bytes).Accounts := by
  by_cases hclear : 0 < (s.scrollbackDetector.feed bytes).2
  · have hempty : (s.feed em bytes).pendingScrollback = .empty := if_pos hclear
    refine { h with scrollback := ?_, scrollback_le := fun _ => ?_ }
    · rw [hempty]; exact CountedQueue.balanced_empty
    · rw [hempty]; exact Nat.zero_le _
  · have hkeep : (s.feed em bytes).pendingScrollback = s.pendingScrollback := if_neg hclear
    refine { h with scrollback := ?_, scrollback_le := fun ha => ?_ }
    · rw [hkeep]; exact h.scrollback
    · rw [hkeep]; exact h.scrollback_le ha

theorem Accounts.reflow (h : s.Accounts) (rows cols : ℕ) :
    (s.reflow em rows cols).Accounts :=
  { h with }

theorem Accounts.process (h : s.Accounts) (bytes : List UInt8) :
    ∃ s', s.process em bytes = .ok s' ∧ s'.Accounts :=
  (h.feed bytes).collectScrollback

theorem Accounts.resize (h : s.Accounts) (rows cols : ℕ) :
    ∃ s', s.resize em rows cols = .ok s' ∧ s'.Accounts :=
  (h.reflow rows cols).collectScrollback

/-! ### Queries and snapshots -/

/-- A query is refused, appended under the next id, or finds the ids used up. -/
theorem addQuery_eq (s : TerminalState Screen) (bytes : List UInt8) :
    (s.acceptsQuery bytes = false ∧ s.addQuery bytes = .ok (0, s)) ∨
      (s.acceptsQuery bytes = true ∧
        (s.addQuery bytes = .error .queryIdExhausted ∨
          s.addQuery bytes = .ok (s.nextQueryId, s.pushQuery bytes))) := by
  unfold addQuery
  cases s.acceptsQuery bytes with
  | false => exact .inl ⟨rfl, rfl⟩
  | true =>
    refine .inr ⟨rfl, ?_⟩
    by_cases hid : s.nextQueryId + 1 < 2 ^ 64
    · exact .inr (by simp only [if_true, if_pos hid])
    · exact .inl (by simp only [if_true, if_neg hid])

theorem Accounts.addQuery {bytes : List UInt8} {id : ℕ} (h : s.Accounts)
    (hadd : s.addQuery bytes = .ok (id, s')) : s'.Accounts := by
  rcases addQuery_eq s bytes with ⟨-, heq⟩ | ⟨haccepts, heq | heq⟩
  · obtain ⟨-, rfl⟩ := Prod.mk.inj (Except.ok.inj (hadd.symm.trans heq))
    exact h
  · cases hadd.symm.trans heq
  · obtain ⟨-, rfl⟩ := Prod.mk.inj (Except.ok.inj (hadd.symm.trans heq))
    simp only [acceptsQuery, Bool.and_eq_true, decide_eq_true_eq] at haccepts
    refine { h with
      queries := h.queries.push _, queries_length := ?_, queries_le := ?_, queryCount_le := ?_ }
    · rw [pushQuery, CountedQueue.items_push, List.length_append]
      exact haccepts.1
    · exact haccepts.2
    · intro x hx
      rw [pushQuery, CountedQueue.items_push, List.length_append]
      exact (h.queryCount_le x hx).trans (Nat.le_add_right _ _)

theorem Accounts.snapshotForState (h : s.Accounts) (stateNum : ℕ) :
    (s.snapshotForState stateNum).Accounts := by
  refine { h with queryCount_le := fun x hx => ?_ }
  rcases OrdMap.mem_insert.mp (OrdMap.mem_of_mem_keepLast hx) with rfl | ⟨hx, -⟩
  · exact le_refl _
  · exact h.queryCount_le x hx

/-! ### Acknowledging -/

/-- The state after the snapshot found becomes the base: the rows it carried are gone from
the pending ones, and so are the first `count` queries, here and in every snapshot. -/
def rebase (s : TerminalState Screen) (ackNum : ℕ) (snapshot : TerminalSnapshot Screen)
    (rows : CountedQueue PendingRow) (queries : CountedQueue TerminalQuery) :
    TerminalState Screen :=
  { s with
    baseScreen := snapshot.screen
    baseScrollbackClearCount := snapshot.scrollbackClearCount
    baseTitle := snapshot.title
    baseEvictedTotal := snapshot.evictedTotal
    baseNum := ackNum
    pendingScrollback := rows
    pendingQueries := queries
    snapshots := (s.snapshots.mapValues fun other =>
      { other with queryCount := other.queryCount - snapshot.queryCount }).above ackNum }

private theorem mapValues_sub_zero (m : OrdMap ℕ (TerminalSnapshot Screen)) :
    (m.mapValues fun other => { other with queryCount := other.queryCount - 0 }) = m := by
  cases m
  simp [OrdMap.mapValues]

/-- Rows below a snapshot's count are dropped from the front. -/
theorem setBase_eq (h : s.pendingScrollback.Balanced PendingRow.cost)
    (snapshot : TerminalSnapshot Screen) :
    ∃ rows : CountedQueue PendingRow, rows.Balanced PendingRow.cost ∧
      rows.items = s.rowsFrom snapshot.evictedTotal ∧
      rows.total ≤ s.pendingScrollback.total ∧
      s.setBase snapshot = .ok
        { s with
          baseScreen := snapshot.screen
          baseScrollbackClearCount := snapshot.scrollbackClearCount
          baseTitle := snapshot.title
          baseEvictedTotal := snapshot.evictedTotal
          pendingScrollback := rows } := by
  obtain ⟨rows, hpop, hbal, hsuf, -⟩ :=
    h.popWhile fun _ row => decide (row.index < snapshot.evictedTotal)
  refine ⟨rows, hbal, CountedQueue.popWhile_items hpop, h.total_le_of_suffix hbal hsuf, ?_⟩
  rw [setBase, retireScrollbackBelow, hpop]
  rfl

/-- **An acknowledgement**, from accounts that are right: it names a state the base is at or
past; it finds no snapshot at or below it; or the newest such snapshot becomes the base. -/
theorem acknowledge_eq (h : s.Accounts) (ackNum : ℕ) :
    (ackNum ≤ s.baseNum ∧ s.acknowledge ackNum = .ok s) ∨
    (s.baseNum < ackNum ∧ s.snapshots.floor? ackNum = none ∧
      s.acknowledge ackNum = .ok
        { s with baseNum := ackNum, snapshots := s.snapshots.above ackNum }) ∨
    ∃ n snapshot rows queries, s.baseNum < ackNum ∧
      s.snapshots.floor? ackNum = some (n, snapshot) ∧
      rows.Balanced PendingRow.cost ∧ rows.items = s.rowsFrom snapshot.evictedTotal ∧
      rows.total ≤ s.pendingScrollback.total ∧
      queries.Balanced TerminalQuery.cost ∧
      queries.items = s.pendingQueries.items.drop snapshot.queryCount ∧
      s.acknowledge ackNum = .ok (s.rebase ackNum snapshot rows queries) := by
  by_cases hle : ackNum ≤ s.baseNum
  · exact .inl ⟨hle, if_pos hle⟩
  · refine .inr ?_
    cases hfloor : s.snapshots.floor? ackNum with
    | none =>
      refine .inl ⟨by omega, rfl, ?_⟩
      rw [acknowledge, if_neg hle, hfloor]
      rfl
    | some x =>
      obtain ⟨n, snapshot⟩ := x
      have hcount := h.queryCount_le _ (OrdMap.floor?_eq_some_iff.mp hfloor).1
      obtain ⟨rows, hrows, hitems, htotal, hset⟩ := setBase_eq h.scrollback snapshot
      obtain ⟨queries, hdrop, hqueries, hqitems⟩ := h.queries.dropFirst snapshot.queryCount
      refine .inr ⟨n, snapshot, rows, ?_⟩
      by_cases hpos : 0 < snapshot.queryCount
      · refine ⟨queries, by omega, rfl, hrows, hitems, htotal, hqueries, hqitems, ?_⟩
        rw [acknowledge, if_neg hle, hfloor]
        simp only [hset, Except.bind, bind]
        rw [retireQueries, if_pos hpos, min_eq_left hcount]
        simp only [hdrop, checked_some, Except.map]
        rfl
      · have hzero : snapshot.queryCount = 0 := by omega
        refine ⟨s.pendingQueries, by omega, rfl, hrows, hitems, htotal, h.queries,
          by rw [hzero, List.drop_zero], ?_⟩
        rw [acknowledge, if_neg hle, hfloor]
        simp only [hset, Except.bind, bind]
        rw [retireQueries, if_neg hpos]
        simp only [rebase, hzero, mapValues_sub_zero]

theorem Accounts.acknowledge (h : s.Accounts) (ackNum : ℕ) :
    ∃ s', s.acknowledge ackNum = .ok s' ∧ s'.Accounts := by
  rcases acknowledge_eq h ackNum with ⟨-, heq⟩ | ⟨-, -, heq⟩ |
    ⟨n, snapshot, rows, queries, -, -, hrows, -, htotal, hqueries, hitems, heq⟩
  · exact ⟨s, heq, h⟩
  · exact ⟨_, heq, { h with
      queryCount_le := fun x hx => h.queryCount_le x (OrdMap.mem_above.mp hx).1 }⟩
  · have hqtotal : queries.total ≤ s.pendingQueries.total :=
      h.queries.total_le_of_suffix hqueries (hitems ▸ List.drop_suffix _ _)
    have hlen : queries.items.length = s.pendingQueries.items.length - snapshot.queryCount := by
      rw [hitems, List.length_drop]
    refine ⟨_, heq, ⟨hrows, fun ha => htotal.trans (h.scrollback_le ha), h.unannounced, hqueries,
      ?_, ?_, ?_⟩⟩
    · exact hlen.trans_le ((Nat.sub_le _ _).trans h.queries_length)
    · exact hqtotal.trans h.queries_le
    · intro x hx
      obtain ⟨hx, -⟩ := OrdMap.mem_above.mp hx
      obtain ⟨other, hother, hx⟩ := OrdMap.mem_mapValues.mp hx
      have hle := h.queryCount_le _ hother
      rw [← hx]
      show other.queryCount - snapshot.queryCount ≤ queries.items.length
      simp only at hle
      omega

/-! ### Runs -/

theorem accounts_new (rows cols : ℕ) : (new em rows cols).Accounts where
  scrollback := CountedQueue.balanced_empty
  scrollback_le _ := Nat.zero_le _
  unannounced _ := rfl
  queries := CountedQueue.balanced_empty
  queries_length := Nat.zero_le _
  queries_le := Nat.zero_le _
  queryCount_le := by simp [new]

/-- **One step** from right accounts either leaves them right or finds the query ids used
up. -/
theorem step_accounts (em : Emulator Screen) (h : s.Accounts) (op : TerminalOp) :
    (∃ s', s.step em op = .ok s' ∧ s'.Accounts) ∨ s.step em op = .error .queryIdExhausted := by
  cases op with
  | process bytes => exact .inl (h.process bytes)
  | resize rows cols => exact .inl (h.resize rows cols)
  | snapshotForState n => exact .inl ⟨_, rfl, h.snapshotForState n⟩
  | acknowledge n => exact .inl (h.acknowledge n)
  | addQuery bytes =>
    simp only [step]
    cases hadd : s.addQuery bytes with
    | ok x => exact .inl ⟨x.2, rfl, h.addQuery hadd⟩
    | error e =>
      rcases addQuery_eq s bytes with ⟨-, heq⟩ | ⟨-, heq | heq⟩ <;>
        rw [heq] at hadd <;> cases hadd
      exact .inr rfl

/-- A step asks for no history, leaves the budget, and reads titles from the output only. -/
theorem step_frame {op : TerminalOp} (h : s.Accounts) (hstep : s.step em op = .ok s') :
    s'.scrollbackAnnounced = s.scrollbackAnnounced ∧
      s'.scrollbackBudget = s.scrollbackBudget ∧ ∃ bytes, s'.titleScanner = s.titleScanner.feed bytes := by
  cases op with
  | process bytes =>
    rcases collectScrollback_cases (h.feed bytes).scrollback hstep with rfl | ⟨_, rfl⟩ <;>
      exact ⟨rfl, rfl, bytes, rfl⟩
  | resize rows cols =>
    rcases collectScrollback_cases (h.reflow rows cols).scrollback hstep with rfl | ⟨_, rfl⟩ <;>
      exact ⟨rfl, rfl, [], rfl⟩
  | snapshotForState n =>
    cases hstep
    exact ⟨rfl, rfl, [], rfl⟩
  | acknowledge m =>
    rcases acknowledge_eq h m with ⟨-, heq⟩ | ⟨-, -, heq⟩ |
      ⟨n, snapshot, rows, queries, -, -, -, -, -, -, -, heq⟩ <;>
    obtain rfl := Except.ok.inj (heq.symm.trans hstep) <;>
    exact ⟨rfl, rfl, [], rfl⟩
  | addQuery bytes =>
    simp only [step] at hstep
    rcases addQuery_eq s bytes with ⟨-, heq⟩ | ⟨-, heq | heq⟩ <;> rw [heq] at hstep
    · cases hstep
      exact ⟨rfl, rfl, [], rfl⟩
    · cases hstep
    · cases hstep
      exact ⟨rfl, rfl, [], rfl⟩

/-- The accounts are right after every run. -/
theorem Accounts.of_run {t : TerminalState Screen} {ops : List TerminalOp} (h : s.Accounts)
    (hrun : Run (Succeeds (step em)) s ops t) : t.Accounts := by
  refine hrun.invariant h fun s op s' hs hop => ?_
  rcases step_accounts em hs op with ⟨s'', heq, hacc⟩ | heq
  · cases heq.symm.trans hop
    exact hacc
  · cases heq.symm.trans hop

end TerminalState

end Zetta.Zosh.Server
