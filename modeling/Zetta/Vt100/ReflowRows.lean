import Mathlib
import Zetta.Lib.LogicalLines
import Zetta.Vt100.Reflow

/-!
# The text of rows

Which logical lines the rows of a grid spell.

* A row is read with a mark: whether its last cell is taken for padding (`Reading`). An empty cell
  that has come to stand at the end of a wrapped row before a wide character looks like padding, so
  that the rows of a reflow can be read in more than one way; `unpadded` takes all for padding that
  can be.
* `placeAt` is the place in the text in front of a position in the rows.
* A row that is being filled has some cells, and is empty behind them (`fill`). What is marked in
  the rows above it or in front of its end stays where it is (`Marked`).
-/

namespace Zetta.Vt100.Reflow

open List Zetta.LogicalLines

variable {A : Type}

/-! ### What rows spell -/

/-- What a cell shows: its characters and the attributes. -/
abbrev Glyph (A : Type) := List Char × A

def Glyph.blank [Inhabited A] : Glyph A := ([], default)

def Cell.glyph (c : Cell A) : Glyph A := (c.contents, c.attrs)

/-- The glyphs of cells: the second cell of a wide character has none of its own. -/
def glyphs (cells : List (Cell A)) : List (Token (Glyph A)) :=
  (cells.filter fun c => !c.isWideContinuation).map fun c => .glyph c.glyph

theorem glyphs_nil : glyphs ([] : List (Cell A)) = [] := rfl

theorem glyphs_append (xs ys : List (Cell A)) : glyphs (xs ++ ys) = glyphs xs ++ glyphs ys := by
  rw [glyphs, filter_append, map_append]
  rfl

/-- A row, and whether its last cell is taken for padding. -/
abbrev ReadRow (A : Type) := Row A × Bool

/-- The text of one row. -/
def tokens (r : ReadRow A) : List (Token (Glyph A)) :=
  glyphs (if r.2 then r.1.cells.dropLast else r.1.cells) ++ if r.1.wrapped then [] else [.newline]

/-- The text of rows. -/
def spelled (rs : List (ReadRow A)) : List (Token (Glyph A)) := rs.flatMap tokens

theorem spelled_append (rs rs' : List (ReadRow A)) :
    spelled (rs ++ rs') = spelled rs ++ spelled rs' :=
  flatMap_append

theorem spelled_singleton (r : ReadRow A) : spelled [r] = tokens r :=
  flatMap_singleton tokens r

/-- The place in the text in front of a position in the rows. -/
def placeAt (rs : List (ReadRow A)) (p : Pos) : ℕ × ℕ :=
  place (spelled (rs.take p.row) ++
    glyphs (((rs.drop p.row).head?.elim [] fun r => r.1.cells).take p.col))

theorem placeAt_append_cons (rs : List (ReadRow A)) (r : ReadRow A) (rs' : List (ReadRow A))
    (col : ℕ) :
    placeAt (rs ++ r :: rs') ⟨rs.length, col⟩ =
      place (spelled rs ++ glyphs (r.1.cells.take col)) := by
  rw [placeAt, take_left, drop_left]
  rfl

variable {rs : List (ReadRow A)}

/-- Rows below do not matter. -/
theorem placeAt_append {p : Pos} (h : p.row < rs.length) (rs' : List (ReadRow A)) :
    placeAt (rs ++ rs') p = placeAt rs p := by
  rw [placeAt, placeAt, take_append_of_le_length h.le, drop_append_of_le_length h.le,
    head?_append_of_ne_nil _ (ne_nil_of_length_pos (by rw [length_drop]; omega))]

/-- The cursors are noted where they stand. -/
def Grid.note (g : Grid A) (y x : ℕ) (s : Reflowed A) : Reflowed A :=
  let mapped : ReflowPosition := ⟨s.result.length, s.column⟩
  let s := if y = g.pos.row ∧ x = g.pos.col then { s with pos := mapped } else s
  if y = g.savedPos.row ∧ x = g.savedPos.col then { s with savedPos := mapped } else s

section Note

variable {g : Grid A} {y x : ℕ} {s : Reflowed A}

theorem note_result : (g.note y x s).result = s.result := by
  rw [Grid.note]
  split_ifs <;> rfl

theorem note_row : (g.note y x s).row = s.row := by
  rw [Grid.note]
  split_ifs <;> rfl

theorem note_column : (g.note y x s).column = s.column := by
  rw [Grid.note]
  split_ifs <;> rfl

theorem note_pos : (g.note y x s).pos =
    if y = g.pos.row ∧ x = g.pos.col then ⟨s.result.length, s.column⟩ else s.pos := by
  rw [Grid.note]
  split_ifs <;> rfl

end Note

/-! ### The row that is being filled -/

variable [Inhabited A]

theorem glyphs_replicate_new (k : ℕ) :
    glyphs (List.replicate k (Cell.new : Cell A)) = List.replicate k (.glyph Glyph.blank) := by
  rw [glyphs, filter_replicate_of_pos (by rfl), map_replicate]
  rfl

/-- A row with cells from the left. -/
def fill (cols : ℕ) (cells : List (Cell A)) : Row A :=
  ⟨cells ++ List.replicate (cols - cells.length) .new, false⟩

theorem fill_nil (cols : ℕ) : fill cols ([] : List (Cell A)) = .new cols := rfl

theorem new_not_wide (cols : ℕ) : ((Row.new cols : Row A).get 0).any Cell.isWide = false := by
  cases cols with
  | zero => rfl
  | succ cols => rfl

variable {cols : ℕ} {cells : List (Cell A)}

theorem fill_put (h : cells.length < cols) (c : Cell A) :
    (fill cols cells).put cells.length c = fill cols (cells ++ [c]) := by
  obtain ⟨k, hk⟩ : ∃ k, cols - cells.length = k + 1 := ⟨cols - cells.length - 1, by omega⟩
  have hk' : cols - (cells ++ [c]).length = k := by
    rw [length_append, length_singleton]
    omega
  rw [fill, fill, Row.put, hk, hk', set_append_right _ _ le_rfl, Nat.sub_self,
    replicate_succ, set_cons_zero, append_assoc]
  rfl

theorem length_fill (h : cells.length ≤ cols) : (fill cols cells).cells.length = cols := by
  rw [fill, length_append, length_replicate]
  omega

/-- What is put in for a cell: a wide character takes two. -/
def rendered (charWidth : Char → Option ℕ) (cols : ℕ) (c : Cell A) : List (Cell A) :=
  if c.width charWidth = 2 ∧ 1 < cols then
    [c.setWide true, (Cell.clear .new c.attrs).setWideContinuation true]
  else [c.setWide false]

omit [Inhabited A] in
theorem Cell.width_pos (charWidth : Char → Option ℕ) (c : Cell A) : 0 < c.width charWidth := by
  rw [Cell.width]
  split_ifs <;> decide

omit [Inhabited A] in
theorem Cell.width_le_two (charWidth : Char → Option ℕ) (c : Cell A) : c.width charWidth ≤ 2 := by
  rw [Cell.width]
  split_ifs <;> decide

variable {charWidth : Char → Option ℕ}

theorem length_rendered (hcols : 0 < cols) (c : Cell A) :
    (rendered charWidth cols c).length = min (c.width charWidth) cols := by
  rw [rendered, Cell.width]
  split_ifs <;> simp <;> omega

theorem glyphs_rendered {c : Cell A} (h : c.isWideContinuation = false) :
    glyphs (rendered charWidth cols c) = glyphs [c] := by
  rw [rendered]
  split_ifs <;> simp [glyphs, Cell.setWide, Cell.setWideContinuation, Cell.clear, Cell.glyph, h]

namespace Reflowed

/-- A new row, if a character of this width does not fit in the one that is being filled. -/
def fit (cols width : ℕ) (s : Reflowed A) : Reflowed A :=
  if 0 < s.column ∧ cols - s.column < width then
    { s with result := s.result ++ [s.row.wrap true], row := .new cols, column := 0 }
  else s

/-- One cell is put in. -/
def write (charWidth : Char → Option ℕ) (cols : ℕ) (c : Cell A) (s : Reflowed A) : Reflowed A :=
  let width := c.width charWidth
  let row := s.row.put s.column (c.setWide (width = 2 && 1 < cols))
  { s with
    row :=
      if width = 2 ∧ 1 < cols then
        row.put (s.column + 1) ((Cell.clear .new c.attrs).setWideContinuation true)
      else row
    column := s.column + min width cols }

end Reflowed

/-- A position among what has been laid out, and its place in the text. -/
def Marked (cols : ℕ) (rs : List (ReadRow A)) (cells : List (Cell A)) (p : ReflowPosition)
    (place : ℕ × ℕ) : Prop :=
  p.col ≤ cols ∧ (p.row < rs.length ∨ p.row = rs.length ∧ p.col ≤ cells.length) ∧
    placeAt (rs ++ [(fill cols cells, false)]) ⟨p.row, p.col⟩ = place

section Marked

variable {charWidth : Char → Option ℕ} {cols : ℕ} {text : List (Token (Glyph A))} {s : Reflowed A}
  {rs : List (ReadRow A)} {cells : List (Cell A)} {p : ReflowPosition} {q : ℕ × ℕ} {c : Cell A}

/-- Where the next cell comes is marked with the end of the text. -/
theorem marked_end (hcells : cells.length ≤ cols)
    (htext : Padded Glyph.blank text (spelled rs ++ glyphs cells)) :
    Marked cols rs cells ⟨rs.length, cells.length⟩ (place text) := by
  refine ⟨hcells, .inr ⟨rfl, le_rfl⟩, ?_⟩
  have hplace := htext.place_eq []
  rw [append_nil, append_nil] at hplace
  rw [placeAt_append_cons, fill, take_left, hplace]

/-- More cells in the row do not move what is marked. -/
theorem Marked.put (h : Marked cols rs cells p q) (more : List (Cell A)) :
    Marked cols rs (cells ++ more) p q := by
  obtain ⟨hcol, hrow, hplace⟩ := h
  rcases hrow with hrow | ⟨hrow, hcell⟩
  · refine ⟨hcol, .inl hrow, ?_⟩
    rw [placeAt_append hrow] at hplace ⊢
    exact hplace
  · refine ⟨hcol, .inr ⟨hrow, by rw [length_append]; omega⟩, ?_⟩
    rw [hrow, placeAt_append_cons, fill, take_append_of_le_length hcell] at hplace
    rw [hrow, placeAt_append_cons, fill, append_assoc, take_append_of_le_length hcell,
      hplace]

/-- Nor does a new row, however the one before it is wrapped and read. -/
theorem Marked.close (h : Marked cols rs cells p q) (wrapped pad : Bool) :
    p.row < (rs ++ [(Row.mk (fill cols cells).cells wrapped, pad)]).length ∧
      Marked cols (rs ++ [(Row.mk (fill cols cells).cells wrapped, pad)]) [] p q := by
  obtain ⟨hcol, hrow, hplace⟩ := h
  have hlt : p.row < (rs ++ [(Row.mk (fill cols cells).cells wrapped, pad)]).length := by
    rw [length_append, length_singleton]
    omega
  refine ⟨hlt, hcol, .inl hlt, ?_⟩
  rw [placeAt_append hlt]
  rcases hrow with hrow | ⟨hrow, -⟩
  · rw [placeAt_append hrow] at hplace ⊢
    exact hplace
  · rw [hrow, placeAt_append_cons] at hplace ⊢
    exact hplace

/-- The first cell of a row that is being filled stays when more cells are put in, and is not wide
as long as there are none. -/
theorem fill_wide (more : List (Cell A)) :
    ((fill cols cells).get 0).any Cell.isWide = true →
      ((fill cols (cells ++ more)).get 0).any Cell.isWide = true := by
  intro h
  cases cells with
  | cons c cells => exact h
  | nil =>
    rw [fill_nil, new_not_wide] at h
    exact absurd h Bool.false_ne_true

/-- One cell is put in as it is rendered. -/
theorem write_fill (hcols : 0 < cols) (hrow : s.row = fill cols cells)
    (hcolumn : s.column = cells.length)
    (hfits : (cells ++ rendered charWidth cols c).length ≤ cols) :
    (s.write charWidth cols c).row = fill cols (cells ++ rendered charWidth cols c) ∧
      (s.write charWidth cols c).column = (cells ++ rendered charWidth cols c).length := by
  have hlength : (rendered charWidth cols c).length = _ := length_rendered hcols c
  have hwidth := c.width_pos charWidth
  rw [length_append] at hfits
  constructor
  · rw [Reflowed.write, rendered]
    have hone : ∀ c : Cell A, (fill cols cells).put cells.length c = _ := fill_put (by omega)
    by_cases hwide : c.width charWidth = 2 ∧ 1 < cols
    · have hlt : (cells ++ [c.setWide true]).length < cols := by
        rw [length_append, length_singleton]
        omega
      have htwo : ∀ c' : Cell A, (fill cols (cells ++ [c.setWide true])).put _ c' = _ :=
        fill_put hlt
      rw [length_append, length_singleton] at htwo
      simp only [hrow, hcolumn, hwide, and_self, if_true, decide_true, Bool.and_self, hone, htwo,
        append_assoc]
      rfl
    · have hmark : (c.width charWidth = 2 && decide (1 < cols)) = false := by simpa using hwide
      simp only [hrow, hcolumn, hmark, if_neg hwide, hone]
  · rw [Reflowed.write, hcolumn, length_append, hlength]

end Marked

/-! ### Readings -/

variable [DecidableEq A]

/-- The last cell of a row may be padding: it is empty, and the row is wrapped onto one that starts
with a wide character. -/
def mayPad (row : Row A) (below : List (Row A)) : Bool :=
  row.wrapped && decide (row.cells.getLast? = some .new) &&
    below.head?.any fun next => (next.get 0).any Cell.isWide

/-- Only what may be padding is read so. -/
def Reading : List (ReadRow A) → Prop
  | [] => True
  | r :: rs => (r.2 = true → mayPad r.1 (rs.map Prod.fst) = true) ∧ Reading rs

/-- The rows with all padding left out that there may be. -/
def unpadded : List (Row A) → List (ReadRow A)
  | [] => []
  | row :: below => (row, mayPad row below) :: unpadded below

variable {rs' : List (ReadRow A)}

theorem Reading.append (h : Reading rs) (h' : Reading rs') : Reading (rs ++ rs') := by
  induction rs with
  | nil => exact h'
  | cons r rs ih =>
    refine ⟨fun hpad => ?_, ih h.2⟩
    have hmay := h.1 hpad
    cases rs with
    | cons next rs => exact hmay
    | nil => simp [mayPad] at hmay

/-- Rows that do not start with a wide character can go. -/
theorem Reading.of_append (h : Reading (rs ++ rs'))
    (hwide : ∀ r ∈ rs'.head?, (r.1.get 0).any Cell.isWide = false) : Reading rs := by
  induction rs with
  | nil => trivial
  | cons r rs ih =>
    refine ⟨fun hpad => ?_, ih h.2⟩
    have hmay := h.1 hpad
    cases rs with
    | cons next rs => exact hmay
    | nil =>
      exfalso
      cases rs' with
      | nil => simp [mayPad] at hmay
      | cons next rs' =>
        have := hwide next rfl
        simp_all [mayPad]

/-- Another row at the end, which starts with a wide character if the one there now does. -/
theorem Reading.replace {row : Row A} (h : Reading (rs ++ [(row, false)])) {r : ReadRow A}
    (hr : Reading (r :: rs'))
    (hwide : (row.get 0).any Cell.isWide = true → (r.1.get 0).any Cell.isWide = true) :
    Reading (rs ++ r :: rs') := by
  induction rs with
  | nil => exact hr
  | cons r₀ rs ih =>
    refine ⟨fun hpad => ?_, ih h.2⟩
    have hmay := h.1 hpad
    cases rs with
    | cons next rs => exact hmay
    | nil =>
      simp only [mayPad, Bool.and_eq_true] at hmay ⊢
      exact ⟨hmay.1, hwide hmay.2⟩

end Zetta.Vt100.Reflow
