import Mathlib
import Zetta.Lib.Run
import Zetta.Zosh.Server.Accounts

/-!
# The pending rows are contiguous

A scrollback marker carries the index of its first row and the rows, so that it says where
every row belongs only if the pending rows are numbered without a gap and end just below the
count of evictions. `Aligned` is that property, and `Collected` the invariant that carries it:
between operations the emulator's queue is empty, and it captures rows unless none are
pending.

Two things break it, both inside one operation and both only while rows are pending
(`NoLoss`): the emulator's queue overflows, and drops rows between those pending and those it
still holds; and `ESC c`, which rebuilds the screen, starts the count over.
-/

namespace Zetta.Zosh.Server

open Vt100

universe u

/-- The rows are numbered without a gap, the last one just below `total`. -/
def Aligned (rows : List PendingRow) (total : ℕ) : Prop :=
  rows.length ≤ total ∧
    rows.map PendingRow.index = List.range' (total - rows.length) rows.length

theorem aligned_nil (total : ℕ) : Aligned [] total := ⟨Nat.zero_le _, rfl⟩

/-- What is left of aligned rows after some are dropped from the front is aligned. -/
theorem Aligned.of_suffix {rows rows' : List PendingRow} {total : ℕ} (h : Aligned rows total)
    (hsuf : rows' <:+ rows) : Aligned rows' total := by
  obtain ⟨front, rfl⟩ := hsuf
  obtain ⟨hlen, hindex⟩ := h
  rw [List.length_append] at hlen hindex
  refine ⟨by omega, ?_⟩
  have hsplit := congrArg (List.drop front.length) hindex
  rw [List.map_append, List.drop_append, List.length_map, Nat.sub_self, List.drop_zero,
    List.drop_of_length_le (by rw [List.length_map]), List.nil_append,
    List.drop_range'] at hsplit
  rw [hsplit]
  congr 1 <;> omega

/-- Rows taken from the emulator follow aligned ones that end where they begin. -/
theorem Aligned.append_indexRows {rows : List PendingRow} {first : ℕ} (h : Aligned rows first)
    (taken : List EvictedRow) :
    Aligned (rows ++ TerminalState.indexRows first taken) (first + taken.length) := by
  obtain ⟨hlen, hindex⟩ := h
  have hmap : (TerminalState.indexRows first taken).map PendingRow.index =
      List.range' first taken.length := by
    refine List.ext_getElem (by simp [TerminalState.indexRows]) fun i h₁ h₂ => ?_
    simp [TerminalState.indexRows]
  have hlength : (TerminalState.indexRows first taken).length = taken.length := by
    simp [TerminalState.indexRows]
  refine ⟨by rw [List.length_append, hlength]; omega, ?_⟩
  rw [List.map_append, hindex, hmap, List.length_append, hlength]
  have h₁ : first + taken.length - (rows.length + taken.length) = first - rows.length := by omega
  have h₂ : first - rows.length + rows.length = first := by omega
  have happend := List.range'_append_1 (s := first - rows.length) (m := rows.length)
    (n := taken.length)
  rw [h₂] at happend
  rw [h₁, happend]

namespace TerminalState

variable {Screen : Type u} (em : Emulator Screen)

/-- The operation discards no row that comes after a pending one, and does not start the count
over while rows are pending. -/
def NoLoss (s : TerminalState Screen) : TerminalOp → Prop
  | .process bytes => (s.feed em bytes).pendingScrollback.items = [] ∨
    (GridOp.ris ∉ Parser.gridOps em s.parser.screen bytes ∧
      (Parser.gridOps em s.parser.screen bytes).length ≤ EVICTED_CAP)
  | .resize rows cols => s.pendingScrollback.items = [] ∨
    (em.setSizeReflow s.parser.screen rows cols).2.length ≤ EVICTED_CAP
  | _ => True

/-- **Between operations** the emulator's queue has been collected, and the pending rows are
aligned with the count of evictions. -/
structure Collected (s : TerminalState Screen) : Prop where
  accounts : s.Accounts
  budget : s.scrollbackBudget ≠ 0
  grid : s.parser.grid.WF
  collected : s.parser.grid.evicted = []
  /-- Rows are captured unless none are pending. -/
  captured : s.parser.grid.captureEvicted = true ∨ s.pendingScrollback.items = []
  aligned : Aligned s.pendingScrollback.items s.evictedTotal

variable {em}

theorem collected_new (rows cols : ℕ) : (new em rows cols).Collected where
  accounts := accounts_new rows cols
  budget := show SCROLLBACK_BUDGET_PROVISIONAL ≠ 0 by decide
  grid := Grid.wf_new.setCaptureEvicted true
  collected := rfl
  captured := .inl rfl
  aligned := aligned_nil _

variable {s s' : TerminalState Screen}

/-- Collecting restores the invariant when the rows pending before it are aligned with the
first row taken. -/
theorem Collected.of_collect (hacc : s.Accounts) (hbudget : s.scrollbackBudget ≠ 0)
    (hgrid : s.parser.grid.WF)
    (hcaptured : s.parser.grid.captureEvicted = true ∨ s.pendingScrollback.items = [])
    (haligned : Aligned s.pendingScrollback.items s.parser.grid.takeEvicted.1.1)
    (hs' : s.collectScrollback = .ok s') : s'.Collected := by
  obtain ⟨s'', heq, hacc'⟩ := hacc.collectScrollback
  cases heq.symm.trans hs'
  obtain ⟨pending, heq', -, hsuf, -⟩ := collectScrollback_eq hacc.scrollback hbudget
  cases heq.symm.trans heq'
  have hall := haligned.append_indexRows s.parser.grid.evicted
  have htotal : s.parser.grid.takeEvicted.1.1 + s.parser.grid.evicted.length =
      s.parser.grid.evictedTotal := hgrid.takeEvicted_index
  rw [htotal] at hall
  refine ⟨hacc', hbudget, hgrid.takeEvicted, rfl, ?_, hall.of_suffix hsuf⟩
  rcases hcaptured with h | h
  · exact .inl h
  · cases hcapture : s.parser.grid.captureEvicted with
    | true => exact .inl hcapture
    | false =>
      rw [h, hgrid.uncaptured hcapture] at hsuf
      exact .inr (List.suffix_nil.mp hsuf)

/-- Rows remembered by a collected state, without overflow, follow those pending. -/
private theorem aligned_rememberRows {g : Grid} {pending : List PendingRow}
    (haligned : Aligned pending g.evictedTotal) (hempty : g.evicted = [])
    (hcapture : g.captureEvicted = true) {rows : List EvictedRow}
    (hcap : rows.length ≤ EVICTED_CAP) :
    Aligned pending (rows.foldl Grid.rememberRow g).takeEvicted.1.1 := by
  have hevicted := Grid.foldl_rememberRow_evicted hcapture rows (by simpa [hempty] using hcap)
  have htotal := Grid.foldl_rememberRow_evictedTotal g rows
  have hfirst : (rows.foldl Grid.rememberRow g).takeEvicted.1.1 = g.evictedTotal := by
    show (rows.foldl Grid.rememberRow g).evictedTotal - _ = _
    rw [hevicted, htotal, hempty, List.nil_append, Nat.add_sub_cancel]
  rwa [hfirst]

private theorem length_rowsOf_le (ops : List GridOp) : (Grid.rowsOf ops).length ≤ ops.length :=
  List.length_filterMap_le _ _

theorem Collected.process {bytes : List UInt8} (h : s.Collected)
    (hloss : s.NoLoss em (.process bytes)) (hs' : s.process em bytes = .ok s') :
    s'.Collected := by
  have hgrid : (s.feed em bytes).parser.grid =
      (Parser.gridOps em s.parser.screen bytes).foldl Grid.apply s.parser.grid :=
    Parser.process_grid em s.parser bytes
  have hwf : (s.feed em bytes).parser.grid.WF := hgrid ▸ h.grid.foldl_apply _
  rcases hloss with hnil | ⟨hris, hcap⟩
  · exact .of_collect (h.accounts.feed bytes) h.budget hwf (.inr hnil)
      (by rw [hnil]; exact aligned_nil _) hs'
  · rw [Grid.foldl_apply_of_not_ris hris] at hgrid
    -- A clear empties the pending rows; otherwise they are those of before.
    by_cases hnil : (s.feed em bytes).pendingScrollback.items = []
    · exact .of_collect (h.accounts.feed bytes) h.budget hwf (.inr hnil)
        (by rw [hnil]; exact aligned_nil _) hs'
    have hpending : (s.feed em bytes).pendingScrollback = s.pendingScrollback := by
      refine if_neg fun hclear => hnil ?_
      have hempty : (s.feed em bytes).pendingScrollback = .empty := if_pos hclear
      rw [hempty]
      rfl
    rw [hpending] at hnil
    have hcapture : s.parser.grid.captureEvicted = true := h.captured.resolve_right hnil
    refine .of_collect (h.accounts.feed bytes) h.budget hwf (.inl ?_) ?_ hs'
    · rw [hgrid, Grid.foldl_rememberRow_captureEvicted]
      exact hcapture
    · rw [hpending, hgrid]
      exact aligned_rememberRows h.aligned h.collected hcapture
        ((length_rowsOf_le _).trans hcap)

theorem Collected.resize {rows cols : ℕ} (h : s.Collected) (hloss : s.NoLoss em (.resize rows cols))
    (hs' : s.resize em rows cols = .ok s') :
    s'.Collected := by
  have hwf : (s.reflow em rows cols).parser.grid.WF := h.grid.foldl_rememberRow _
  by_cases hnil : s.pendingScrollback.items = []
  · exact .of_collect (h.accounts.reflow rows cols) h.budget hwf (.inr hnil)
      (by show Aligned s.pendingScrollback.items _; rw [hnil]; exact aligned_nil _) hs'
  · have hcapture : s.parser.grid.captureEvicted = true := h.captured.resolve_right hnil
    refine .of_collect (h.accounts.reflow rows cols) h.budget hwf (.inl ?_) ?_ hs'
    · exact (Grid.foldl_rememberRow_captureEvicted _ _).trans hcapture
    · exact aligned_rememberRows h.aligned h.collected hcapture (hloss.resolve_left hnil)

/-- The rows a base has not been sent are the last of those pending. -/
theorem rowsFrom_suffix (s : TerminalState Screen) (n : ℕ) :
    s.rowsFrom n <:+ s.pendingScrollback.items := List.dropWhile_suffix _

theorem Collected.acknowledge {m : ℕ} (h : s.Collected) (hs' : s.acknowledge m = .ok s') :
    s'.Collected := by
  obtain ⟨s'', heq, hacc⟩ := h.accounts.acknowledge m
  cases heq.symm.trans hs'
  rcases acknowledge_eq h.accounts m with ⟨-, heq'⟩ | ⟨-, -, heq'⟩ |
    ⟨n, snapshot, rows, queries, -, -, -, hrows, -, -, -, heq'⟩ <;>
  cases heq.symm.trans heq'
  · exact h
  · exact ⟨hacc, h.budget, h.grid, h.collected, h.captured, h.aligned⟩
  · have hsuf : rows.items <:+ s.pendingScrollback.items := hrows ▸ s.rowsFrom_suffix _
    refine ⟨hacc, h.budget, h.grid, h.collected, h.captured.imp id fun hnil => ?_,
      h.aligned.of_suffix hsuf⟩
    rw [hnil] at hsuf
    exact List.suffix_nil.mp hsuf

/-- **One step** without loss keeps the pending rows aligned. -/
theorem Collected.step {op : TerminalOp} (h : s.Collected) (hloss : s.NoLoss em op)
    (hstep : s.step em op = .ok s') : s'.Collected := by
  cases op with
  | process bytes => exact h.process hloss hstep
  | resize rows cols => exact h.resize hloss hstep
  | snapshotForState n =>
    cases hstep
    exact ⟨h.accounts.snapshotForState n, h.budget, h.grid, h.collected, h.captured, h.aligned⟩
  | acknowledge m => exact h.acknowledge hstep
  | addQuery bytes =>
    simp only [TerminalState.step] at hstep
    rcases addQuery_eq s bytes with ⟨-, heq⟩ | ⟨-, heq | heq⟩
    · rw [heq] at hstep
      cases hstep
      exact h
    · rw [heq] at hstep
      cases hstep
    · have hacc := h.accounts.addQuery heq
      rw [heq] at hstep
      cases hstep
      exact ⟨hacc, h.budget, h.grid, h.collected, h.captured, h.aligned⟩

/-- **A run without loss** keeps the pending rows aligned. -/
theorem collected_of_run {ops : List TerminalOp} {rows cols : ℕ}
    (hrun : Run (Meeting (NoLoss em) (Succeeds (step em))) (new em rows cols) ops s) :
    s.Collected :=
  hrun.invariant (collected_new rows cols) fun _ _ _ h hstep => h.step hstep.1 hstep.2

end TerminalState

end Zetta.Zosh.Server
