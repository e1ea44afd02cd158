import Mathlib
import Zetta.Vt100.ReflowRows

/-!
# The logical lines of a reflow

`setSizeReflow` keeps the logical lines of a grid.

* The old rows are read as the reflow reads them (`Grid.reading`).
* `Placed` and `Laid` relate what a reflow has built to the text it has read. `cellStep`, `rowStep`
  and so the whole run keep them, and the cursor is marked with its place in the text (`Reads`).
* `lines_kept` puts this together with the rows that are dropped, evicted and added at the end.
-/

namespace Zetta.Vt100.Reflow

open List Zetta.LogicalLines

variable {A : Type} [Inhabited A] [DecidableEq A]

/-! ### The parts of a step -/

section Step

variable {charWidth : Char → Option ℕ} {g : Grid A} {cols y x : ℕ} {source : Row A}
  {s : Reflowed A} {c : Cell A}

/-- The end of a row only notes the cursors. -/
theorem cellStep_last :
    g.cellStep charWidth cols y source s (g.rowEnd y source) =
      g.note y (g.rowEnd y source) s := by
  simp [Grid.cellStep, Grid.note]

/-- So does the second cell of a wide character. -/
theorem cellStep_continuation (hc : source.get x = some c) (hcont : c.isWideContinuation = true) :
    g.cellStep charWidth cols y source s x = g.note y x s := by
  simp [Grid.cellStep, Grid.note, hc, hcont]

/-- Another cell is put in where it fits. -/
theorem cellStep_cell (hx : x < g.rowEnd y source) (hc : source.get x = some c)
    (hcont : c.isWideContinuation = false) :
    g.cellStep charWidth cols y source s x =
      (g.note y x (s.fit cols (c.width charWidth))).write charWidth cols c := by
  simp [Grid.cellStep, Grid.note, Reflowed.fit, Reflowed.write, hc, hcont, hx, hx.ne]

end Step

/-! ### What has been laid out -/

/-- The state of a reflow: the rows that are complete, and the cells of the row that is being
filled. -/
structure Placed (cols : ℕ) (s : Reflowed A) (rs : List (ReadRow A)) (cells : List (Cell A)) :
    Prop where
  result : s.result = rs.map Prod.fst
  row : s.row = fill cols cells
  column : s.column = cells.length

/-- The rows and the cells spell the text, up to blanks at the ends of lines. -/
structure Laid (cols : ℕ) (text : List (Token (Glyph A))) (rs : List (ReadRow A))
    (cells : List (Cell A)) : Prop where
  fits : cells.length ≤ cols
  widths : ∀ r ∈ rs, r.1.cells.length = cols
  reading : Reading (rs ++ [(fill cols cells, false)])
  text : Padded Glyph.blank text (spelled rs ++ glyphs cells)

section Laid

variable {charWidth : Char → Option ℕ} {cols : ℕ} {text : List (Token (Glyph A))} {s : Reflowed A}
  {rs : List (ReadRow A)} {cells : List (Cell A)} {c : Cell A}

omit [DecidableEq A] in
theorem Placed.note (h : Placed cols s rs cells) (g : Grid A) (y x : ℕ) :
    Placed cols (g.note y x s) rs cells :=
  ⟨note_result.trans h.result, note_row.trans h.row, note_column.trans h.column⟩

omit [DecidableEq A] in
theorem Placed.write (h : Placed cols s rs cells) (hcols : 0 < cols)
    (hfits : (cells ++ rendered charWidth cols c).length ≤ cols) :
    Placed cols (s.write charWidth cols c) rs (cells ++ rendered charWidth cols c) := by
  obtain ⟨hrow, hcolumn⟩ := write_fill hcols h.row h.column hfits
  exact ⟨h.result, hrow, hcolumn⟩

omit [DecidableEq A] in
/-- A row is complete: it is wrapped onto the next, or the last of its line. -/
theorem Placed.close (h : Placed cols s rs cells) (wrapped pad : Bool) :
    Placed cols
      { s with result := s.result ++ [s.row.wrap wrapped], row := .new cols, column := 0 }
      (rs ++ [(Row.mk (fill cols cells).cells wrapped, pad)]) [] := by
  refine ⟨?_, rfl, rfl⟩
  rw [h.result, h.row, map_append]
  rfl

/-- A cell in the row it fits in. -/
theorem Laid.put (h : Laid cols text rs cells)
    (hfits : (cells ++ rendered charWidth cols c).length ≤ cols)
    (hcont : c.isWideContinuation = false) :
    Laid cols (text ++ glyphs [c]) rs (cells ++ rendered charWidth cols c) := by
  refine ⟨hfits, h.widths, h.reading.replace ⟨Bool.noConfusion, trivial⟩ (fill_wide _), ?_⟩
  rw [glyphs_append, glyphs_rendered hcont, ← append_assoc]
  exact h.text.append (.refl _)

omit [DecidableEq A] in
/-- What is read of a row that is full but for padding is what has been put in. -/
theorem tokens_wrap (hroom : cols - cells.length < 2) :
    tokens (Row.mk (fill cols cells).cells true, decide (cells.length < cols)) = glyphs cells := by
  by_cases hlt : cells.length < cols
  · have hone : cols - cells.length = 1 := by omega
    simp [tokens, fill, hlt, hone]
  · have hzero : cols - cells.length = 0 := by omega
    simp [tokens, fill, hlt, hzero]

theorem Laid.text_wrap (h : Laid cols text rs cells) (hroom : cols - cells.length < 2) :
    Padded Glyph.blank text
      (spelled (rs ++ [(Row.mk (fill cols cells).cells true, decide (cells.length < cols))])) := by
  rw [spelled_append, spelled_singleton, tokens_wrap hroom]
  exact h.text

/-- A cell in a new row, onto which the one before is wrapped: an empty cell at the end of that
one is padding. -/
theorem Laid.wrap (h : Laid cols text rs cells) (hpos : 0 < cells.length)
    (hwidth : cols - cells.length < c.width charWidth) (hcont : c.isWideContinuation = false) :
    Laid cols (text ++ glyphs [c])
      (rs ++ [(Row.mk (fill cols cells).cells true, decide (cells.length < cols))])
      (rendered charWidth cols c) := by
  have hfits := h.fits
  have hle := c.width_le_two charWidth
  refine ⟨?_, ?_, ?_, ?_⟩
  · rw [length_rendered (by omega)]
    exact min_le_right _ _
  · intro r hr
    rcases mem_append.1 hr with hr | hr
    · exact h.widths r hr
    · rw [mem_singleton.1 hr]
      exact length_fill hfits
  · rw [append_assoc]
    refine h.reading.replace ⟨fun hpad => ?_, Bool.noConfusion, trivial⟩ id
    -- the character that did not fit in the last column is wide
    have hlt : cells.length < cols := of_decide_eq_true hpad
    have hone : cols - cells.length = 1 := by omega
    have htwo : c.width charWidth = 2 ∧ 1 < cols := by omega
    simp [mayPad, fill, hone, rendered, htwo, Row.get, Cell.setWide]
  · rw [glyphs_rendered hcont]
    exact (h.text_wrap (by omega)).append (.refl _)

/-- The end of a line. -/
theorem Laid.close (h : Laid cols text rs cells) :
    Laid cols (text ++ [.newline]) (rs ++ [(fill cols cells, false)]) [] := by
  refine ⟨Nat.zero_le _, ?_, h.reading.append ⟨Bool.noConfusion, trivial⟩, ?_⟩
  · intro r hr
    rcases mem_append.1 hr with hr | hr
    · exact h.widths r hr
    · rw [mem_singleton.1 hr]
      exact length_fill h.fits
  · have hread : tokens (fill cols cells, false) = glyphs cells ++
        (List.replicate (cols - cells.length) (.glyph Glyph.blank) ++ [.newline]) := by
      rw [tokens, fill, if_neg Bool.false_ne_true, if_neg Bool.false_ne_true, glyphs_append,
        glyphs_replicate_new, append_assoc]
    rw [spelled_append, spelled_singleton, hread, ← append_assoc (spelled rs)]
    exact (append_nil _).symm ▸ h.text.append (.blanks _ .nil)

end Laid

/-! ### The cells of a row -/

section Cells

variable (charWidth : Char → Option ℕ) {g : Grid A} {cols y : ℕ} {source : Row A}
  {text : List (Token (Glyph A))} {s : Reflowed A} {rs : List (ReadRow A)} {cells : List (Cell A)}

/-- One cell of a row lays out its glyph; the cursor on it is noted in front of that. -/
theorem cellStep_laid (hcols : 0 < cols) (hplaced : Placed cols s rs cells)
    (hlaid : Laid cols text rs cells) {x : ℕ} {c : Cell A} (hx : x < g.rowEnd y source)
    (hc : source.get x = some c) :
    ∃ rs' cells', Placed cols (g.cellStep charWidth cols y source s x) rs' cells' ∧
      Laid cols (text ++ glyphs [c]) rs' cells' ∧
      (∀ p q, Marked cols rs cells p q → Marked cols rs' cells' p q) ∧
      ∃ p, Marked cols rs' cells' p (place text) ∧
        (g.cellStep charWidth cols y source s x).pos =
          if y = g.pos.row ∧ x = g.pos.col then p else s.pos := by
  have hhere := marked_end hlaid.fits hlaid.text
  by_cases hcont : c.isWideContinuation = true
  · -- nothing is laid out for it
    have hnil : glyphs [c] = [] := by simp [glyphs, hcont]
    rw [cellStep_continuation hc hcont, hnil, append_nil]
    refine ⟨rs, cells, hplaced.note g y x, hlaid, fun _ _ => id, _, hhere, ?_⟩
    rw [note_pos, hplaced.result, hplaced.column, length_map]
  rw [Bool.not_eq_true] at hcont
  rw [cellStep_cell hx hc hcont]
  by_cases hfit : 0 < cells.length ∧ cols - cells.length < c.width charWidth
  · have hstep : s.fit cols (c.width charWidth) =
        { s with result := s.result ++ [s.row.wrap true], row := .new cols, column := 0 } := by
      rw [Reflowed.fit, hplaced.column, if_pos hfit]
    have hclosed := hplaced.close true (decide (cells.length < cols))
    rw [← hstep] at hclosed
    have hwrap := hlaid.wrap hfit.1 hfit.2 hcont
    have htext := hlaid.text_wrap (hfit.2.trans_le (c.width_le_two charWidth))
    rw [← append_nil (spelled _), ← glyphs_nil] at htext
    have hnew := marked_end (Nat.zero_le cols) htext
    refine ⟨_, _, (hclosed.note g y x).write hcols hwrap.fits, hwrap,
      fun p q h => (h.close true _).2.put _, _, hnew.put _, ?_⟩
    show (g.note y x _).pos = _
    rw [note_pos, hclosed.result, hclosed.column, length_map, hstep]
  · have hstep : s.fit cols (c.width charWidth) = s := by
      rw [Reflowed.fit, hplaced.column, if_neg hfit]
    have hroom : (cells ++ rendered charWidth cols c).length ≤ cols := by
      have hfits := hlaid.fits
      rw [length_append, length_rendered hcols]
      omega
    rw [hstep]
    refine ⟨rs, _, (hplaced.note g y x).write hcols hroom, hlaid.put hroom hcont,
      fun p q h => h.put _, _, hhere.put _, ?_⟩
    show (g.note y x s).pos = _
    rw [note_pos, hplaced.result, hplaced.column, length_map]

/-- So do several: once the cursor has been passed, it is marked with what is in front of it. -/
theorem cellSteps_laid (hcols : 0 < cols) (hplaced : Placed cols s rs cells)
    (hlaid : Laid cols text rs cells) (hend : g.rowEnd y source ≤ source.cells.length) {n : ℕ}
    (hn : n ≤ g.rowEnd y source) :
    ∃ rs' cells',
      Placed cols ((List.range n).foldl (g.cellStep charWidth cols y source) s) rs' cells' ∧
      Laid cols (text ++ glyphs (source.cells.take n)) rs' cells' ∧
      (∀ p q, Marked cols rs cells p q → Marked cols rs' cells' p q) ∧
      (y = g.pos.row → g.pos.col < n →
        Marked cols rs' cells' ((List.range n).foldl (g.cellStep charWidth cols y source) s).pos
          (place (text ++ glyphs (source.cells.take g.pos.col)))) ∧
      (¬(y = g.pos.row ∧ g.pos.col < n) →
        ((List.range n).foldl (g.cellStep charWidth cols y source) s).pos = s.pos) := by
  induction n with
  | zero =>
    refine ⟨rs, cells, hplaced, ?_, fun _ _ => id, fun _ h => absurd h (Nat.not_lt_zero _),
      fun _ => rfl⟩
    rw [take_zero, glyphs_nil, append_nil]
    exact hlaid
  | succ n ih =>
    obtain ⟨rs₁, cells₁, hplaced₁, hlaid₁, hkeeps₁, hpassed₁, hahead₁⟩ := ih (by omega)
    have hlt : n < source.cells.length := by omega
    obtain ⟨rs₂, cells₂, hplaced₂, hlaid₂, hkeeps₂, p, hp, hpos⟩ :=
      cellStep_laid charWidth hcols hplaced₁ hlaid₁ hn (getElem?_eq_getElem hlt)
    rw [append_assoc, ← glyphs_append, take_append_getElem hlt] at hlaid₂
    rw [range_succ, foldl_append, foldl_cons, foldl_nil]
    refine ⟨rs₂, cells₂, hplaced₂, hlaid₂, fun p q h => hkeeps₂ p q (hkeeps₁ p q h), ?_, ?_⟩
    · intro hrow hcol
      rw [hpos]
      rcases Nat.lt_succ_iff_lt_or_eq.1 hcol with hcol | rfl
      · -- the cursor has been passed before
        rw [if_neg fun h => hcol.ne' h.2]
        exact hkeeps₂ _ _ (hpassed₁ hrow hcol)
      · rw [if_pos ⟨hrow, rfl⟩]
        exact hp
    · intro hahead
      rw [hpos, if_neg fun h => hahead ⟨h.1, by omega⟩]
      exact hahead₁ fun h => hahead ⟨h.1, by omega⟩

/-- A whole row: the end of it is passed as well. -/
theorem row_laid (hcols : 0 < cols) (hplaced : Placed cols s rs cells)
    (hlaid : Laid cols text rs cells) (hend : g.rowEnd y source ≤ source.cells.length) :
    ∃ rs' cells',
      Placed cols ((List.range (g.rowEnd y source + 1)).foldl
        (g.cellStep charWidth cols y source) s) rs' cells' ∧
      Laid cols (text ++ glyphs (source.cells.take (g.rowEnd y source))) rs' cells' ∧
      (∀ p q, Marked cols rs cells p q → Marked cols rs' cells' p q) ∧
      (y = g.pos.row →
        Marked cols rs' cells' ((List.range (g.rowEnd y source + 1)).foldl
          (g.cellStep charWidth cols y source) s).pos
          (place (text ++ glyphs (source.cells.take g.pos.col)))) ∧
      (y ≠ g.pos.row → ((List.range (g.rowEnd y source + 1)).foldl
        (g.cellStep charWidth cols y source) s).pos = s.pos) := by
  obtain ⟨rs₁, cells₁, hplaced₁, hlaid₁, hkeeps₁, hpassed₁, hahead₁⟩ :=
    cellSteps_laid charWidth hcols hplaced hlaid hend le_rfl
  rw [range_succ, foldl_append, foldl_cons, foldl_nil, cellStep_last]
  refine ⟨rs₁, cells₁, hplaced₁.note _ _ _, hlaid₁, hkeeps₁, ?_, ?_⟩
  · intro hrow
    have hcol : g.pos.col ≤ g.rowEnd y source := by
      rw [Grid.rowEnd, if_pos hrow]
      exact (le_max_right _ _).trans (le_max_left _ _)
    rw [note_pos]
    rcases hcol.lt_or_eq with hcol | hcol
    · rw [if_neg fun h => hcol.ne' h.2]
      exact hpassed₁ hrow hcol
    · rw [if_pos ⟨hrow, hcol.symm⟩, hplaced₁.result, hplaced₁.column, length_map, hcol]
      exact marked_end hlaid₁.fits hlaid₁.text
  · intro hrow
    rw [note_pos, if_neg fun h => hrow h.1]
    exact hahead₁ fun h => hrow h.1

end Cells

/-! ### The old rows -/

/-- A grid whose rows are allocated: each has all columns, and the cursors are inside, or behind
the last column. -/
structure Grid.Valid (g : Grid A) : Prop where
  cols_pos : 0 < g.size.cols
  rows : g.rows.length = g.size.rows
  cols : ∀ row ∈ g.rows, row.cells.length = g.size.cols
  pos_row : g.pos.row < g.size.rows
  pos_col : g.pos.col ≤ g.size.cols
  savedPos_col : g.savedPos.col ≤ g.size.cols

/-- What may be padding at the end of the `y`-th row is read so, unless a cursor stands behind
it. -/
def Grid.pads (g : Grid A) (y : ℕ) (row : Row A) (below : List (Row A)) : Bool :=
  mayPad row below && decide (g.pos ≠ ⟨y, g.size.cols⟩) && decide (g.savedPos ≠ ⟨y, g.size.cols⟩)

/-- Rows from the `y`-th on as the reflow reads them. -/
def Grid.readFrom (g : Grid A) : ℕ → List (Row A) → List (ReadRow A)
  | _, [] => []
  | y, row :: below => (row, g.pads y row below) :: g.readFrom (y + 1) below

/-- The rows of a grid as the reflow reads them. -/
def Grid.reading (g : Grid A) : List (ReadRow A) := g.readFrom 0 g.rows

theorem map_fst_readFrom (g : Grid A) (y : ℕ) (rows : List (Row A)) :
    (g.readFrom y rows).map Prod.fst = rows := by
  induction rows generalizing y with
  | nil => rfl
  | cons row below ih => rw [Grid.readFrom, map_cons, ih]

theorem reading_readFrom (g : Grid A) (y : ℕ) (rows : List (Row A)) :
    Reading (g.readFrom y rows) := by
  induction rows generalizing y with
  | nil => trivial
  | cons row below ih =>
    refine ⟨fun hpad => ?_, ih (y + 1)⟩
    rw [map_fst_readFrom]
    simp only [Grid.pads, Bool.and_eq_true] at hpad
    exact hpad.1.1

section Rows

variable {g : Grid A} {y : ℕ} {source : Row A} {below : List (Row A)}

theorem find?_reverse_range (n : ℕ) (p : ℕ → Bool) {x : ℕ}
    (hle : (((List.range n).reverse.find? p).elim 0 (· + 1)) ≤ x) (hx : x < n) : p x = false := by
  induction n with
  | zero => exact absurd hx (Nat.not_lt_zero x)
  | succ n ih =>
    rw [range_succ, reverse_append, reverse_singleton, singleton_append,
      find?_cons] at hle
    cases hp : p n with
    | true =>
      rw [hp] at hle
      exact absurd hle (by simp; omega)
    | false =>
      rw [hp] at hle
      rcases Nat.lt_succ_iff_lt_or_eq.1 hx with hx | rfl
      · exact ih hle hx
      · exact hp

/-- Behind what is read of a row that is not wrapped, all is empty. -/
theorem drop_rowEnd (hlength : source.cells.length = g.size.cols) (hwrapped : source.wrapped = false) :
    source.cells.drop (g.rowEnd y source) =
      List.replicate (g.size.cols - g.rowEnd y source) .new := by
  refine eq_replicate_iff.2 ⟨by rw [length_drop, hlength], fun c hc => ?_⟩
  obtain ⟨i, hi, rfl⟩ := getElem_of_mem hc
  rw [getElem_drop]
  rw [length_drop] at hi
  have hend : g.contentEnd y source ≤ g.rowEnd y source + i := by
    rw [Grid.rowEnd]
    omega
  rw [Grid.contentEnd, hwrapped, if_neg Bool.false_ne_true] at hend
  have hnew := find?_reverse_range _ _ hend (by omega)
  rw [Row.get, getElem?_eq_getElem (by omega)] at hnew
  simpa using hnew

/-- What is read of a row that is wrapped. -/
theorem rowEnd_wrapped (hvalid : g.Valid) (hlength : source.cells.length = g.size.cols)
    (hbelow : g.rows[y + 1]? = below.head?) (hwrapped : source.wrapped = true) :
    g.rowEnd y source = g.size.cols - if g.pads y source below then 1 else 0 := by
  have hpad : g.isPadded y source = mayPad source below := by
    rw [Grid.isPadded, mayPad, hwrapped, hbelow, getLast?_eq_getElem?, hlength]
    rfl
  have hpos := hvalid.pos_col
  have hsaved := hvalid.savedPos_col
  have hposEnd : g.pos = ⟨y, g.size.cols⟩ ↔ y = g.pos.row ∧ g.pos.col = g.size.cols := by
    rw [Pos.mk.injEq g.pos.row, eq_comm (a := y)]
  have hsavedEnd : g.savedPos = ⟨y, g.size.cols⟩ ↔
      y = g.savedPos.row ∧ g.savedPos.col = g.size.cols := by
    rw [Pos.mk.injEq g.savedPos.row, eq_comm (a := y)]
  rw [Grid.rowEnd, Grid.contentEnd, hwrapped, if_pos rfl, hpad]
  simp only [Grid.pads, ne_eq, hposEnd, hsavedEnd, Bool.and_eq_true, decide_eq_true_eq]
  cases mayPad source below with
  | false =>
    simp only [Bool.false_eq_true, false_and, if_false]
    split_ifs <;> omega
  | true =>
    simp only [true_and, if_true]
    split_ifs <;> omega

/-- What a row spells as it is read, up to blanks at the end of its line. -/
theorem padded_tokens (hvalid : g.Valid) (hlength : source.cells.length = g.size.cols)
    (hbelow : g.rows[y + 1]? = below.head?) :
    Padded Glyph.blank (glyphs (source.cells.take (g.rowEnd y source)) ++
      if source.wrapped then [] else [.newline]) (tokens (source, g.pads y source below)) := by
  rw [tokens]
  cases hwrapped : source.wrapped with
  | true =>
    rw [rowEnd_wrapped hvalid hlength hbelow hwrapped]
    cases g.pads y source below with
    | true =>
      rw [if_pos rfl, if_pos rfl, dropLast_eq_take, hlength]
      exact .refl _
    | false =>
      rw [if_neg Bool.false_ne_true, if_neg Bool.false_ne_true, Nat.sub_zero,
        take_of_length_le hlength.le]
      exact .refl _
  | false =>
    have hpad : g.pads y source below = false := by
      rw [Grid.pads, mayPad, hwrapped]
      rfl
    have hcells : glyphs source.cells = glyphs (source.cells.take (g.rowEnd y source)) ++
        List.replicate (g.size.cols - g.rowEnd y source) (.glyph Glyph.blank) := by
      rw [← glyphs_replicate_new, ← drop_rowEnd hlength hwrapped, ← glyphs_append,
        take_append_drop]
    rw [hpad, if_neg Bool.false_ne_true, if_neg Bool.false_ne_true]
    exact hcells ▸ .line _ _

/-- No more is read of a row than there is. -/
theorem rowEnd_le (hvalid : g.Valid) : g.rowEnd y source ≤ g.size.cols := by
  have hpos := hvalid.pos_col
  have hsaved := hvalid.savedPos_col
  have hcontent : g.contentEnd y source ≤ g.size.cols := by
    rw [Grid.contentEnd]
    by_cases hwrapped : source.wrapped = true
    · rw [if_pos hwrapped]
      exact Nat.sub_le _ _
    rw [if_neg hwrapped]
    cases hfind : (List.range g.size.cols).reverse.find? fun x =>
      (source.get x).any fun cell => cell ≠ .new with
    | none => exact Nat.zero_le _
    | some x =>
      have hx := mem_of_find?_eq_some hfind
      rw [mem_reverse, mem_range] at hx
      exact hx
  rw [Grid.rowEnd]
  split_ifs <;> omega

/-- What a reflow has read of a grid and how it has laid it out: the cursor, once it has been
passed, is marked with its place, in a complete row if the last line is complete. -/
structure Reads (g : Grid A) (cols : ℕ) (read : List (ReadRow A)) (s : Reflowed A)
    (rs : List (ReadRow A)) (cells : List (Cell A)) : Prop where
  placed : Placed cols s rs cells
  laid : ∃ text, Laid cols text rs cells ∧ Padded Glyph.blank text (spelled read)
  cursor : g.pos.row < read.length → Marked cols rs cells s.pos (placeAt read g.pos)
  complete : (read.getLast?.any fun r => r.1.wrapped) = false →
    cells = [] ∧ (g.pos.row < read.length → s.pos.row < rs.length)

variable (charWidth : Char → Option ℕ) {cols : ℕ} {read : List (ReadRow A)} {s : Reflowed A}
  {rs : List (ReadRow A)} {cells : List (Cell A)}

/-- One more row is read. -/
theorem rowStep_reads (hvalid : g.Valid) (hcols : 0 < cols)
    (hlength : source.cells.length = g.size.cols) (hbelow : g.rows[y + 1]? = below.head?)
    (hy : read.length = y) (h : Reads g cols read s rs cells) :
    ∃ rs' cells', Reads g cols (read ++ [(source, g.pads y source below)])
      (g.rowStep charWidth cols s y source) rs' cells' := by
  obtain ⟨text, hlaid, htext⟩ := h.laid
  obtain ⟨rs₁, cells₁, hplaced₁, hlaid₁, hkeeps, hcursor, hother⟩ :=
    row_laid charWidth (y := y) hcols h.placed hlaid ((rowEnd_le hvalid).trans hlength.ge)
  have hspelled := htext.append (padded_tokens hvalid hlength hbelow)
  rw [← spelled_singleton, ← spelled_append, ← append_assoc] at hspelled
  -- the cursor is in this row, or has been passed before
  have hmarked : g.pos.row < (read ++ [(source, g.pads y source below)]).length →
      Marked cols rs₁ cells₁ ((List.range (g.rowEnd y source + 1)).foldl
        (g.cellStep charWidth cols y source) s).pos
        (placeAt (read ++ [(source, g.pads y source below)]) g.pos) := by
    intro hrow
    rw [length_append, length_singleton, hy] at hrow
    rcases Nat.lt_succ_iff_lt_or_eq.1 hrow with hrow | hrow
    · rw [hother hrow.ne', placeAt_append (hrow.trans_eq hy.symm)]
      exact hkeeps _ _ (h.cursor (hrow.trans_eq hy.symm))
    · have hplace : placeAt (read ++ [(source, g.pads y source below)]) g.pos =
          place (text ++ glyphs (source.cells.take g.pos.col)) := by
        have hpos : g.pos = ⟨read.length, g.pos.col⟩ := by
          rw [hy, ← hrow]
        rw [hpos, placeAt_append_cons, htext.place_eq]
      rw [hplace]
      exact hcursor hrow.symm
  rw [Grid.rowStep]
  cases hwrapped : source.wrapped with
  | true =>
    refine ⟨rs₁, cells₁, ?_, ⟨_, hlaid₁, ?_⟩, ?_, ?_⟩
    · exact hplaced₁
    · rwa [hwrapped, if_pos rfl, append_nil] at hspelled
    · exact hmarked
    · intro hlast
      rw [getLast?_concat, Option.any_some, hwrapped] at hlast
      exact absurd hlast (by decide)
  | false =>
    refine ⟨_, [], ?_, ⟨_, hlaid₁.close, ?_⟩, fun hrow => ((hmarked hrow).close false false).2,
      fun _ => ⟨rfl, fun hrow => ((hmarked hrow).close false false).1⟩⟩
    · have hclosed := hplaced₁.close false false
      have hrow : (fill cols cells₁).wrap false = fill cols cells₁ := rfl
      rw [hplaced₁.row, hrow] at hclosed
      simp only [Bool.false_eq_true, if_false, hplaced₁.row]
      exact hclosed
    · rwa [hwrapped, if_neg Bool.false_ne_true] at hspelled

/-- All rows from the `y`-th on are read. -/
theorem foldl_rowStep_reads (hvalid : g.Valid) (hcols : 0 < cols) (hbelow : g.rows.drop y = below)
    (hy : read.length = y) (h : Reads g cols read s rs cells) :
    ∃ rs' cells', Reads g cols (read ++ g.readFrom y below)
      ((below.zipIdx y).foldl (fun s x => g.rowStep charWidth cols s x.2 x.1) s) rs' cells' := by
  induction below generalizing y read s rs cells with
  | nil => exact ⟨rs, cells, by rwa [Grid.readFrom, append_nil]⟩
  | cons source below ih =>
    have hrest : g.rows.drop (y + 1) = below := by
      rw [← tail_drop, hbelow, tail_cons]
    have hmem : source ∈ g.rows := mem_of_mem_drop (hbelow ▸ mem_cons_self)
    have hnext : g.rows[y + 1]? = below.head? := by rw [← head?_drop, hrest]
    obtain ⟨rs₁, cells₁, h₁⟩ :=
      rowStep_reads charWidth hvalid hcols (hvalid.cols source hmem) hnext hy h
    obtain ⟨rs₂, cells₂, h₂⟩ := ih hrest (by rw [length_append, hy]; rfl) h₁
    refine ⟨rs₂, cells₂, ?_⟩
    rw [append_assoc, singleton_append] at h₂
    exact h₂

/-- The rows of a reflow, before any is dropped or evicted. -/
theorem reflowRows_spec (hvalid : g.Valid) (hcols : 0 < cols) :
    ∃ rs : List (ReadRow A), (g.reflowRows charWidth cols).1 = rs.map Prod.fst ∧ Reading rs ∧
      (∀ r ∈ rs, r.1.cells.length = cols) ∧
      trim Glyph.blank (spelled rs) = trim Glyph.blank (spelled g.reading) ∧
      (g.reflowRows charWidth cols).2.1.row < rs.length ∧
      (g.reflowRows charWidth cols).2.1.col ≤ cols ∧
      placeAt rs ⟨(g.reflowRows charWidth cols).2.1.row, (g.reflowRows charWidth cols).2.1.col⟩ =
        placeAt g.reading g.pos := by
  have hstart : Reads g cols [] ⟨[], .new cols, 0, ⟨0, 0⟩, ⟨0, 0⟩⟩ [] [] :=
    ⟨⟨rfl, rfl, rfl⟩,
      ⟨[], ⟨Nat.zero_le _, fun _ h => absurd h not_mem_nil, ⟨Bool.noConfusion, trivial⟩, .nil⟩,
        .nil⟩,
      fun h => absurd h (Nat.not_lt_zero _),
      fun _ => ⟨rfl, fun h => absurd h (Nat.not_lt_zero _)⟩⟩
  obtain ⟨rs, cells, h⟩ := foldl_rowStep_reads charWidth hvalid hcols drop_zero rfl hstart
  obtain ⟨s, hs⟩ : ∃ s, (g.rows.zipIdx 0).foldl (fun s x => g.rowStep charWidth cols s x.2 x.1)
      ⟨[], .new cols, 0, ⟨0, 0⟩, ⟨0, 0⟩⟩ = s := ⟨_, rfl⟩
  rw [hs, nil_append, ← Grid.reading] at h
  obtain ⟨text, hlaid, htext⟩ := h.laid
  have hfst : g.reading.map Prod.fst = g.rows := map_fst_readFrom g 0 g.rows
  have hpassed : g.pos.row < g.reading.length := by
    have hlength := congrArg List.length hfst
    rw [length_map, hvalid.rows] at hlength
    exact hvalid.pos_row.trans_eq hlength.symm
  obtain ⟨hcol, hrow, hplace⟩ := h.cursor hpassed
  have hlast : (g.rows.getLast?.any Row.wrapped) = g.reading.getLast?.any fun r => r.1.wrapped := by
    rw [← hfst, getLast?_map, Option.any_map]
  rw [Grid.reflowRows, hs, hlast]
  cases hwrapped : g.reading.getLast?.any fun r => r.1.wrapped with
  | true =>
    -- the row that was being filled is the last
    refine ⟨rs ++ [(fill cols cells, false)], ?_, hlaid.reading, hlaid.close.widths, ?_, ?_, hcol,
      hplace⟩
    · simp only [if_true, h.placed.result, h.placed.row, map_append, map_cons,
        map_nil]
    · have hclosed := hlaid.close.text.trim_eq
      rw [glyphs_nil, append_nil] at hclosed
      rw [← hclosed, ← htext.trim_eq]
      exact trim_append_of_blank _ fun t ht => .inl (mem_singleton.1 ht)
    · show s.pos.row < _
      rw [length_append, length_singleton]
      omega
  | false =>
    obtain ⟨hcells, hcomplete⟩ := h.complete hwrapped
    subst hcells
    refine ⟨rs, ?_, ?_, hlaid.widths, ?_, hcomplete hpassed, hcol, ?_⟩
    · simp only [Bool.false_eq_true, if_false, h.placed.result]
    · refine hlaid.reading.of_append fun r hr => ?_
      rw [head?_singleton, Option.mem_some_iff] at hr
      rw [← hr, fill_nil]
      exact new_not_wide cols
    · rw [← htext.trim_eq, hlaid.text.trim_eq, glyphs_nil, append_nil]
    · rw [placeAt_append (hcomplete hpassed)] at hplace
      exact hplace

end Rows

/-! ### Dropped, evicted and new rows -/

/-- Only blank rows are dropped, none of them above the cursor. -/
theorem dropBlank_spec (height keep : ℕ) (rev : List (Row A)) :
    ∃ dropped, rev = dropped ++ Grid.dropBlank height keep rev ∧
      (∀ row ∈ dropped, row.isBlank = true) ∧
      (keep < rev.length → keep < (Grid.dropBlank height keep rev).length) := by
  induction rev with
  | nil => exact ⟨[], rfl, fun _ h => absurd h not_mem_nil, id⟩
  | cons row above ih =>
    rw [Grid.dropBlank]
    split_ifs with hdrop
    · obtain ⟨dropped, hrev, hblank, hkeep⟩ := ih
      refine ⟨row :: dropped, congrArg (row :: ·) hrev, ?_, fun _ => hkeep (by omega)⟩
      rintro row' (_ | ⟨_, hmem⟩)
      · exact hdrop.2.2
      · exact hblank row' hmem
    · exact ⟨[], rfl, fun _ h => absurd h not_mem_nil, id⟩

/-- A blank row spells nothing, and does not start with a wide character. -/
theorem isBlank_spec {row : Row A} (h : row.isBlank = true) (pad : Bool) :
    Blank Glyph.blank (tokens (row, pad)) ∧ (row.get 0).any Cell.isWide = false := by
  rw [Row.isBlank, Bool.and_eq_true, all_eq_true] at h
  have hnew : ∀ c ∈ row.cells, c = .new := fun c hc => of_decide_eq_true (h.2 c hc)
  constructor
  · intro t ht
    rw [tokens, mem_append] at ht
    rcases ht with ht | ht
    · rw [glyphs, mem_map] at ht
      obtain ⟨c, hc, rfl⟩ := ht
      have hmem : c ∈ row.cells := by
        have := mem_of_mem_filter hc
        split_ifs at this
        · exact mem_of_mem_dropLast this
        · exact this
      rw [hnew c hmem]
      exact .inr rfl
    · left
      split_ifs at ht
      · exact absurd ht not_mem_nil
      · exact mem_singleton.1 ht
  · cases hget : row.get 0 with
    | none => rfl
    | some c =>
      rw [hnew c (mem_of_getElem? hget)]
      rfl

variable {rs : List (ReadRow A)}

/-- Rows that are all blank spell nothing. -/
theorem blank_spelled (h : ∀ r ∈ rs, r.1.isBlank = true) : Blank Glyph.blank (spelled rs) := by
  intro t ht
  obtain ⟨r, hr, ht⟩ := mem_flatMap.1 ht
  exact (isBlank_spec (h r hr) r.2).1 t ht

theorem isBlank_new (cols : ℕ) : (Row.new cols : Row A).isBlank = true := by
  simp [Row.new, Row.isBlank]

omit [DecidableEq A] in
/-- Rows that have the columns of the new size already stay, and blank ones are added. -/
theorem setSize_rows {g : Grid A} {size : Size} (hcols : g.size.cols = size.cols)
    (hwidths : ∀ row ∈ g.rows, row.cells.length = size.cols) (hrows : g.rows.length ≤ size.rows) :
    (g.setSize size).rows =
      g.rows ++ List.replicate (size.rows - g.rows.length) (.new size.cols) := by
  have hmap : (g.rows.map fun row =>
      if row.cols ≠ size.cols then row.resize size.cols else row) = g.rows := by
    conv_rhs => rw [← map_id g.rows]
    refine map_congr_left fun row hrow => ?_
    rw [Row.cols, if_neg (not_not.2 (hwidths row hrow))]
    rfl
  rw [Grid.setSize]
  simp only [hcols, ne_eq, not_true_eq_false, if_false] at hmap ⊢
  rw [hmap, take_of_length_le hrows]

/-- A resize to this size, to a grid and with rows that are evicted, keeps the logical lines and the
cursor's place in them. A cursor whose row is evicted is shown in the first one that is left. -/
structure Grid.Keeps (g : Grid A) (size : Size) (resized : Grid A) (evicted : List (Row A)) :
    Prop where
  size_eq : resized.size = size
  rows : resized.rows.length = size.rows
  cols : ∀ row ∈ resized.rows, row.cells.length = size.cols
  pos_row : resized.pos.row < size.rows
  pos_col : resized.pos.col ≤ size.cols
  lines : ∃ after : List (ReadRow A), after.map Prod.fst = evicted ++ resized.rows ∧
    Reading after ∧ trim Glyph.blank (spelled after) = trim Glyph.blank (spelled g.reading) ∧
    ∃ row, row < after.length ∧ placeAt after ⟨row, resized.pos.col⟩ = placeAt g.reading g.pos ∧
      resized.pos.row = row - evicted.length

/-- What is left of a reflow's rows when blank ones have been dropped, as it is read. -/
theorem dropBlank_reads (hreading : Reading rs) (height : ℕ) {p : Pos} (hrow : p.row < rs.length) :
    ∃ kept, (Grid.dropBlank height p.row (rs.map Prod.fst).reverse).reverse = kept.map Prod.fst ∧
      kept <+: rs ∧ Reading kept ∧
      trim Glyph.blank (spelled rs) = trim Glyph.blank (spelled kept) ∧ p.row < kept.length ∧
      placeAt rs p = placeAt kept p := by
  obtain ⟨dropped, hrev, hblank, hkeep⟩ :=
    dropBlank_spec height p.row (rs.map Prod.fst).reverse
  have hrows := congrArg List.reverse hrev
  rw [reverse_reverse, reverse_append] at hrows
  obtain ⟨kept, last, rfl, hkept, hlast⟩ := map_eq_append_iff.1 hrows
  have hblank' : ∀ r ∈ last, r.1.isBlank = true := by
    intro r hr
    refine hblank _ (mem_reverse.1 ?_)
    rw [← hlast]
    exact mem_map_of_mem hr
  have hlt : p.row < kept.length := by
    have hlength := congrArg List.length hkept
    rw [length_map, length_reverse] at hlength
    rw [hlength]
    exact hkeep (by rw [length_reverse, length_map]; exact hrow)
  refine ⟨kept, hkept.symm, prefix_append _ _, ?_, ?_, hlt, placeAt_append hlt _⟩
  · refine hreading.of_append fun r hr => ?_
    exact (isBlank_spec (hblank' r (mem_of_mem_head? hr)) r.2).2
  · rw [spelled_append]
    exact trim_append_of_blank _ (blank_spelled hblank')

/-- The rows that are left, with the first ones evicted as far as there are too many and blank ones
added as far as there are too few. -/
theorem resize_keeps {g resized : Grid A} {size : Size} (hrows : 0 < size.rows)
    (hrowsMax : size.rows < 2 ^ 16) {kept : List (ReadRow A)} {p : ReflowPosition}
    (hreading : Reading kept) (hwidths : ∀ r ∈ kept, r.1.cells.length = size.cols)
    (htrim : trim Glyph.blank (spelled kept) = trim Glyph.blank (spelled g.reading))
    (hrow : p.row < kept.length) (hcol : p.col ≤ size.cols)
    (hplace : placeAt kept ⟨p.row, p.col⟩ = placeAt g.reading g.pos)
    (hcols : resized.size.cols = size.cols)
    (hresized : resized.rows = (kept.map Prod.fst).drop (kept.length - size.rows))
    (hpos : resized.pos = p.clamped (kept.length - size.rows)) :
    g.Keeps size
      { resized.setSize size with
        pos := { (resized.setSize size).pos with col := min p.col size.cols } }
      ((kept.map Prod.fst).take (kept.length - size.rows)) := by
  have hwidth : ∀ row ∈ resized.rows, row.cells.length = size.cols := by
    intro row hmem
    obtain ⟨r, hr, rfl⟩ := mem_map.1 (mem_of_mem_drop (hresized ▸ hmem))
    exact hwidths r hr
  have hlength : resized.rows.length ≤ size.rows := by
    rw [hresized, length_drop, length_map]
    omega
  have hsized := setSize_rows hcols hwidth hlength
  have hposRow : (resized.setSize size).pos.row = p.row - (kept.length - size.rows) := by
    show min resized.pos.row (size.rows - 1) = _
    rw [hpos]
    show min (min (p.row - (kept.length - size.rows)) (2 ^ 16 - 1)) (size.rows - 1) = _
    omega
  refine ⟨rfl, ?_, ?_, ?_, min_le_right _ _, ?_⟩
  · show (resized.setSize size).rows.length = _
    rw [hsized, length_append, length_replicate]
    omega
  · intro row hmem
    rcases mem_append.1 (hsized ▸ hmem) with hmem | hmem
    · exact hwidth row hmem
    · rw [eq_of_mem_replicate hmem, Row.new, length_replicate]
  · show (resized.setSize size).pos.row < _
    rw [hposRow]
    omega
  · -- new rows are blank
    have hnew : ∀ r ∈ List.replicate (size.rows - resized.rows.length)
        ((Row.new size.cols, false) : ReadRow A), r.1.isBlank = true := by
      intro r hr
      rw [eq_of_mem_replicate hr]
      exact isBlank_new _
    refine ⟨kept ++ List.replicate (size.rows - resized.rows.length) (.new size.cols, false), ?_,
      hreading.append ?_, ?_, p.row, ?_, ?_, ?_⟩
    · show _ = _ ++ (resized.setSize size).rows
      rw [hsized, hresized, ← append_assoc, take_append_drop, map_append,
        map_replicate]
    · induction size.rows - resized.rows.length with
      | zero => trivial
      | succ k ih => exact ⟨Bool.noConfusion, ih⟩
    · rw [spelled_append, trim_append_of_blank _ (blank_spelled hnew), htrim]
    · rw [length_append]
      omega
    · show placeAt _ ⟨p.row, min p.col size.cols⟩ = _
      rw [min_eq_left hcol, placeAt_append hrow, hplace]
    · show (resized.setSize size).pos.row = _
      rw [hposRow, length_take, length_map]
      omega

/-- `setSizeReflow` keeps the logical lines and the cursor's place in them. -/
theorem lines_kept (charWidth : Char → Option ℕ) {g : Grid A} (hvalid : g.Valid)
    (hregion : g.scrollRegionActive = false) {size : Size} (hrows : 0 < size.rows)
    (hrowsMax : size.rows < 2 ^ 16) (hcols : 0 < size.cols) :
    g.Keeps size (g.setSizeReflow charWidth size).1 (g.setSizeReflow charWidth size).2 := by
  have hfst : g.reading.map Prod.fst = g.rows := map_fst_readFrom g 0 g.rows
  have hlength : g.reading.length = g.rows.length := by rw [← hfst, length_map]
  rw [Grid.setSizeReflow]
  by_cases hsize : g.size = size
  · subst hsize
    rw [if_pos rfl]
    refine ⟨rfl, hvalid.rows, hvalid.cols, hvalid.pos_row, hvalid.pos_col, g.reading, hfst,
      reading_readFrom g 0 g.rows, rfl, g.pos.row, ?_, rfl, rfl⟩
    rw [hlength, hvalid.rows]
    exact hvalid.pos_row
  have hne : g.rows.isEmpty = false := by
    refine isEmpty_eq_false_iff.2 (ne_nil_of_length_pos ?_)
    rw [hvalid.rows]
    exact Nat.zero_lt_of_lt hvalid.pos_row
  rw [if_neg hsize, hregion, hne, Bool.or_false, if_neg Bool.false_ne_true]
  obtain ⟨rs, hrs, hreading, hwidths, htrim, hrow, hcol, hplace⟩ :=
    reflowRows_spec charWidth hvalid hcols
  rcases hrun : g.reflowRows charWidth size.cols with ⟨rows, pos, savedPos⟩
  rw [hrun] at hrs hrow hcol hplace
  dsimp only at hrs hrow hcol hplace
  subst hrs
  obtain ⟨kept, hkept, hhead, hreads, hspelled, hlt, hkeptPlace⟩ :=
    dropBlank_reads hreading size.rows (p := ⟨pos.row, pos.col⟩) hrow
  dsimp only at hkept hlt ⊢
  rw [hkept, length_map]
  refine resize_keeps hrows hrowsMax hreads (fun r hr => hwidths r (hhead.subset hr))
    (hspelled.symm.trans htrim) hlt hcol (hkeptPlace.symm.trans hplace) ?_ ?_ ?_
  · rfl
  · rfl
  · rfl

/-! ### What a reflow does not keep -/

private def letter (c : Char) : Cell Unit := ⟨[c], false, false, ()⟩

/-- Two full lines, the cursor in the first. -/
private def fullGrid : Grid Unit :=
  { size := ⟨2, 4⟩
    pos := ⟨0, 1⟩
    savedPos := ⟨0, 0⟩
    rows := [⟨"abcd".toList.map letter, false⟩, ⟨"efgh".toList.map letter, false⟩]
    scrollTop := 0
    scrollBottom := 1 }

/-- A blank before a wide character. -/
private def gapGrid : Grid Unit :=
  { size := ⟨1, 4⟩
    pos := ⟨0, 0⟩
    savedPos := ⟨0, 0⟩
    rows := [⟨[letter 'a', .new, ⟨['界'], true, false, ()⟩, ⟨[], false, true, ()⟩], false⟩]
    scrollTop := 0
    scrollBottom := 0 }

private def wide (c : Char) : Option ℕ := if c = '界' then some 2 else some 1

private theorem fullGrid_valid : fullGrid.Valid :=
  ⟨by decide, by decide, by decide, by decide, by decide, by decide⟩

private theorem gapGrid_valid : gapGrid.Valid :=
  ⟨by decide, by decide, by decide, by decide, by decide, by decide⟩

/-- At two columns the cursor of the first grid is shown in another line; and the blank of the
second one comes to stand at the end of a wrapped row before a wide character, where it looks like
padding. -/
theorem cursor_and_gap_lost :
    (fullGrid.Valid ∧ fullGrid.scrollRegionActive = false ∧
      let r := fullGrid.setSizeReflow wide ⟨2, 2⟩
      placeAt (unpadded (r.2 ++ r.1.rows)) ⟨r.2.length + r.1.pos.row, r.1.pos.col⟩ ≠
        placeAt (unpadded fullGrid.rows) fullGrid.pos) ∧
    (gapGrid.Valid ∧ gapGrid.scrollRegionActive = false ∧
      let r := gapGrid.setSizeReflow wide ⟨2, 2⟩
      trim Glyph.blank (spelled (unpadded (r.2 ++ r.1.rows))) ≠
        trim Glyph.blank (spelled (unpadded gapGrid.rows))) :=
  ⟨⟨fullGrid_valid, by decide, by decide +kernel⟩, gapGrid_valid, by decide, by decide +kernel⟩

/-- The lines of both are kept, as they can be read. -/
theorem lines_kept_narrow :
    fullGrid.Keeps ⟨2, 2⟩ (fullGrid.setSizeReflow wide ⟨2, 2⟩).1
        (fullGrid.setSizeReflow wide ⟨2, 2⟩).2 ∧
      gapGrid.Keeps ⟨2, 2⟩ (gapGrid.setSizeReflow wide ⟨2, 2⟩).1
        (gapGrid.setSizeReflow wide ⟨2, 2⟩).2 :=
  ⟨lines_kept wide fullGrid_valid (by decide) (by decide) (by decide) (by decide),
    lines_kept wide gapGrid_valid (by decide) (by decide) (by decide) (by decide)⟩

end Zetta.Vt100.Reflow
