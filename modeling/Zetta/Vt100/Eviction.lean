import Mathlib

/-!
# Rows evicted from the emulated screen

The part of the terminal emulator that the session's scrollback rests on: the queue of rows
that have scrolled off the top of the normal grid (`evicted`), the count of all evictions
(`evictedTotal`) and whether the rows are kept at all (`captureEvicted`).

* The queue is **bounded**: `rememberRow` drops the oldest uncollected row once `EVICTED_CAP`
  are held, while the count goes on, so `takeEvicted` reports a first index that runs ahead of
  the rows collected so far.
* The count is **reset** by `ESC c`, which rebuilds the screen (`ris`); nothing else lowers it.
* Escape parsing, drawing and the diff between two screens are a parameter, `Emulator`: what
  the session reads of them is the visible screen after each byte, the rows the grid remembers
  on the way (`GridOp`), and the diff bytes.
-/

namespace Zetta.Vt100

universe u

/-- How many uncollected evicted rows a grid holds before it drops the oldest. -/
def EVICTED_CAP : ℕ := 16 * 1024

/-- One row that has scrolled off the top of the normal screen: its drawing bytes and whether
it continues on the row below. A row has at most `u16::MAX` cells of a few dozen bytes each, so
that its length always fits the 32-bit field it is sent with. -/
structure EvictedRow where
  /-- The bytes that draw the row. -/
  contents : List UInt8
  /-- Whether the logical line continues on the next row. -/
  wrapped : Bool
  /-- The length fits a `u32`. -/
  length_lt : contents.length < 2 ^ 32
  deriving DecidableEq

/-- The eviction fields of a `Grid`. -/
structure Grid where
  /-- The rows not collected yet. -/
  evicted : List EvictedRow
  /-- How many rows have been evicted, captured or not. -/
  evictedTotal : ℕ
  /-- Whether evicted rows are kept. -/
  captureEvicted : Bool

namespace Grid

/-- The grid of a new screen. -/
def new : Grid := ⟨[], 0, false⟩

/-- A row leaves the top of the screen. -/
def rememberRow (g : Grid) (removed : EvictedRow) : Grid :=
  { g with
    evictedTotal := g.evictedTotal + 1
    evicted :=
      if g.captureEvicted then
        (if EVICTED_CAP ≤ g.evicted.length then g.evicted.tail else g.evicted) ++ [removed]
      else g.evicted }

/-- Starts or stops keeping evicted rows. -/
def setCaptureEvicted (g : Grid) (capture : Bool) : Grid :=
  { g with captureEvicted := capture, evicted := if capture then g.evicted else [] }

/-- Collects the captured rows, with the absolute index of the first of them. -/
def takeEvicted (g : Grid) : (ℕ × List EvictedRow) × Grid :=
  ((g.evictedTotal - g.evicted.length, g.evicted), { g with evicted := [] })

end Grid

/-- What one byte of output does to the eviction fields: a row is remembered, or `ESC c`
builds the screen anew. -/
inductive GridOp where
  /-- `remember_row` on the normal grid. -/
  | remember (row : EvictedRow)
  /-- `ris`: the whole screen is replaced by `Screen::new`. -/
  | ris
  deriving DecidableEq

/-- One eviction operation. -/
def Grid.apply (g : Grid) : GridOp → Grid
  | .remember row => g.rememberRow row
  | .ris => .new

/-- **The emulator** apart from its eviction queue. -/
structure Emulator (Screen : Type u) where
  /-- A blank screen of some rows and columns. -/
  new : ℕ → ℕ → Screen
  /-- One byte of program output: the screen after it, and what it did to the grid. -/
  advance : Screen → UInt8 → Screen × List GridOp
  /-- `set_size_reflow`: the screen at the new size, and the rows pushed off its top. -/
  setSizeReflow : Screen → ℕ → ℕ → Screen × List EvictedRow
  /-- `set_size`: the screen at the new size, without rewrapping. -/
  setSize : Screen → ℕ → ℕ → Screen
  /-- The rows and columns of a screen. -/
  size : Screen → ℕ × ℕ
  /-- `a.state_diff(b)`: the bytes that turn `b` into `a`. -/
  stateDiff : Screen → Screen → List UInt8
  /-- The bytes that draw a screen from scratch. -/
  stateFormatted : Screen → List UInt8

/-- The screen after some bytes. -/
def Emulator.run {Screen : Type u} (em : Emulator Screen) (s : Screen) (bytes : List UInt8) :
    Screen :=
  bytes.foldl (fun s b => (em.advance s b).1) s

theorem Emulator.run_append {Screen : Type u} (em : Emulator Screen) (s : Screen)
    (xs ys : List UInt8) : em.run s (xs ++ ys) = em.run (em.run s xs) ys :=
  List.foldl_append

/-- A parser: the visible screen and the eviction fields of its normal grid. -/
structure Parser (Screen : Type u) where
  /-- What the emulator shows. -/
  screen : Screen
  /-- The eviction queue. -/
  grid : Grid

namespace Parser

variable {Screen : Type u} (em : Emulator Screen)

/-- One byte of program output. -/
def advance (p : Parser Screen) (byte : UInt8) : Parser Screen :=
  ⟨(em.advance p.screen byte).1, (em.advance p.screen byte).2.foldl Grid.apply p.grid⟩

/-- A chunk of program output. -/
def process (p : Parser Screen) (bytes : List UInt8) : Parser Screen :=
  bytes.foldl (advance em) p

/-- A resize that rewraps the screen. -/
def setSizeReflow (p : Parser Screen) (rows cols : ℕ) : Parser Screen :=
  ⟨(em.setSizeReflow p.screen rows cols).1,
    (em.setSizeReflow p.screen rows cols).2.foldl Grid.rememberRow p.grid⟩

/-- What a chunk does to the eviction fields, in order. -/
def gridOps : Screen → List UInt8 → List GridOp
  | _, [] => []
  | s, b :: bytes => (em.advance s b).2 ++ gridOps (em.advance s b).1 bytes

/-- The grid after a chunk is the grid before it with the chunk's operations applied. -/
theorem process_grid (p : Parser Screen) (bytes : List UInt8) :
    (p.process em bytes).grid = (gridOps em p.screen bytes).foldl Grid.apply p.grid := by
  induction bytes generalizing p with
  | nil => rfl
  | cons b bytes ih =>
    rw [gridOps, List.foldl_append]
    exact ih (p.advance em b)

end Parser

/-! ### The eviction queue -/

namespace Grid

/-- A queue is within its cap, holds no more rows than have been evicted, and none unless they
are captured. -/
structure WF (g : Grid) : Prop where
  length_le_cap : g.evicted.length ≤ EVICTED_CAP
  length_le_total : g.evicted.length ≤ g.evictedTotal
  uncaptured : g.captureEvicted = false → g.evicted = []

theorem wf_new : new.WF := ⟨Nat.zero_le _, Nat.zero_le _, fun _ => rfl⟩

variable {g : Grid}

theorem WF.rememberRow (h : g.WF) (row : EvictedRow) : (g.rememberRow row).WF := by
  obtain ⟨hcap, htotal, hun⟩ := h
  have hpos : 0 < EVICTED_CAP := by decide
  have hlen : (g.rememberRow row).evicted.length ≤ min EVICTED_CAP (g.evicted.length + 1) := by
    simp only [Grid.rememberRow]
    split_ifs
    · simp only [List.length_append, List.length_tail, List.length_singleton]
      omega
    · simp only [List.length_append, List.length_singleton]
      omega
    · omega
  have htot : (g.rememberRow row).evictedTotal = g.evictedTotal + 1 := rfl
  refine ⟨by omega, by omega, fun hfalse => ?_⟩
  have hfalse : g.captureEvicted = false := hfalse
  simp [Grid.rememberRow, hfalse, hun hfalse]

theorem WF.apply (h : g.WF) : ∀ op, (g.apply op).WF
  | .remember row => h.rememberRow row
  | .ris => wf_new

theorem WF.foldl_apply (h : g.WF) (ops : List GridOp) :
    (ops.foldl Grid.apply g).WF := by
  induction ops generalizing g with
  | nil => exact h
  | cons op ops ih => exact ih (h.apply op)

theorem WF.setCaptureEvicted (h : g.WF) (capture : Bool) :
    (g.setCaptureEvicted capture).WF := by
  cases capture
  · exact ⟨Nat.zero_le _, Nat.zero_le _, fun _ => rfl⟩
  · exact ⟨h.length_le_cap, h.length_le_total, fun hfalse => by cases hfalse⟩

theorem WF.takeEvicted (_ : g.WF) : g.takeEvicted.2.WF :=
  ⟨Nat.zero_le _, Nat.zero_le _, fun _ => rfl⟩

theorem WF.foldl_rememberRow (h : g.WF) (rows : List EvictedRow) :
    (rows.foldl Grid.rememberRow g).WF := by
  induction rows generalizing g with
  | nil => exact h
  | cons row rows ih => exact ih (h.rememberRow row)

/-- The rows collected are the last ones evicted. -/
theorem WF.takeEvicted_index (h : g.WF) :
    g.takeEvicted.1.1 + g.takeEvicted.1.2.length = g.evictedTotal :=
  Nat.sub_add_cancel h.length_le_total

/-- The rows among some operations. -/
def rowsOf (ops : List GridOp) : List EvictedRow :=
  ops.filterMap fun
    | .remember row => some row
    | .ris => none

/-- Without `ESC c` the operations only remember rows. -/
theorem foldl_apply_of_not_ris {ops : List GridOp} (h : GridOp.ris ∉ ops) :
    ops.foldl apply g = (rowsOf ops).foldl rememberRow g := by
  induction ops generalizing g with
  | nil => rfl
  | cons op ops ih =>
    have htail : GridOp.ris ∉ ops := fun hmem => h (List.mem_cons_of_mem _ hmem)
    cases op with
    | remember row => exact ih htail
    | ris => exact absurd List.mem_cons_self h

/-- Remembering rows counts every one of them. -/
theorem foldl_rememberRow_evictedTotal (g : Grid) (rows : List EvictedRow) :
    (rows.foldl rememberRow g).evictedTotal = g.evictedTotal + rows.length := by
  induction rows generalizing g with
  | nil => rfl
  | cons row rows ih =>
    rw [List.foldl_cons, ih, List.length_cons]
    simp only [rememberRow]
    omega

theorem foldl_rememberRow_captureEvicted (g : Grid) (rows : List EvictedRow) :
    (rows.foldl rememberRow g).captureEvicted = g.captureEvicted := by
  induction rows generalizing g with
  | nil => rfl
  | cons row rows ih => rw [List.foldl_cons, ih]; rfl

/-- **No loss below the cap**: a capturing grid keeps every row it remembers as long as they
fit the queue. -/
theorem foldl_rememberRow_evicted (hcap : g.captureEvicted = true) (rows : List EvictedRow)
    (hlen : g.evicted.length + rows.length ≤ EVICTED_CAP) :
    (rows.foldl rememberRow g).evicted = g.evicted ++ rows := by
  induction rows generalizing g with
  | nil => simp
  | cons row rows ih =>
    rw [List.length_cons] at hlen
    have hkeep : (g.rememberRow row).evicted = g.evicted ++ [row] := by
      have hlt : ¬ EVICTED_CAP ≤ g.evicted.length := by omega
      simp [rememberRow, hcap, hlt]
    rw [List.foldl_cons, ih (g := g.rememberRow row) hcap, hkeep]
    · simp
    · rw [hkeep, List.length_append, List.length_singleton]
      omega

end Grid

end Zetta.Vt100
