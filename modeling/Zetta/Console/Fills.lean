import Zetta.Console.Regions

/-!
# Fills

A fill goes through its input and writes it, from a start, into the cells of a row and of the rows
under it. Row by row is how the console does it; in the end it is one run through the cells that
follow one another (`flow`), off screen (`fillsInOrder`) and on screen (`drawsInOrder`).

`rectangles_within_iff` is the result about all four operations on rectangles.
-/

namespace Zetta.Console.ScreenBuffer

open List

/-! ### One run through the cells -/

/-- What a fill does to a cell. -/
inductive Piece
  | paint (attributes : UInt16)
  | put (ch half : UInt16)
  deriving DecidableEq

def Piece.on : Piece → CharInfo → CharInfo
  | .paint attributes, cell =>
    ⟨cell.ch, (attributes &&& ~~~DBCS) ||| (cell.attributes &&& DBCS)⟩
  | .put ch half, cell => ⟨ch, (cell.attributes &&& ~~~DBCS) ||| half⟩

/-- A cell, the first of which was in the place of a number. -/
def painted (pieces : List Piece) (k : ℕ) (cell : CharInfo) : CharInfo :=
  (pieces[k]?).elim cell fun piece => piece.on cell

/-- The input of a fill. -/
def Fill.elements (fill : Fill) (length : ℕ) : List UInt16 :=
  match fill with
  | .attributes input | .characters input => input
  | .attribute value => List.replicate length value
  | .character ch => List.replicate length ch

section Flow

variable (isWide : UInt16 → Bool) (attributes : Bool) (width : ℕ)

/-- The column behind a column; behind the last one is the first one of the next row. -/
def next (width column : ℕ) : ℕ := if column + 1 < width then column + 1 else 0

/-- The input in the cells that follow one another, of which there are `room`, and how much of it
was used. The first cell is in the given column, and may be for the other half of a wide
character. Such a character does not begin in the last column, which it leaves to a space. -/
def flow : (room column : ℕ) → Option UInt16 → List UInt16 → List Piece × ℕ
  | 0, _, _, _ => ([], 0)
  | room + 1, column, some unit, input =>
    let out := flow room (next width column) none input
    (.put unit TRAILING_BYTE :: out.1, out.2)
  | _ + 1, _, none, [] => ([], 0)
  | room + 1, column, none, unit :: rest =>
    if attributes then
      let out := flow room (next width column) none rest
      (.paint unit :: out.1, out.2 + 1)
    else if isWide unit then
      if width ≤ column + 1 then
        let out := flow room 0 none (unit :: rest)
        (.put 32 0 :: out.1, out.2)
      else
        let out := flow room (next width column) (some unit) rest
        (.put unit LEADING_BYTE :: out.1, out.2 + 1)
    else
      let out := flow room (next width column) none rest
      (.put unit 0 :: out.1, out.2 + 1)

variable {isWide attributes width}

theorem flow_nil (room column : ℕ) :
    flow isWide attributes width room column none [] = ([], 0) := by
  cases room with
  | zero => rfl
  | succ room => rfl

end Flow

theorem length_elements (fill : Fill) (length : ℕ) :
    (fill.elements length).length = fill.len length := by
  rcases fill with input | value | input | ch
  · rfl
  · exact length_replicate
  · rfl
  · exact length_replicate

theorem unit_eq {fill : Fill} {length position : ℕ} (h : position < fill.len length) :
    fill.unit position = (fill.elements length)[position]? := by
  rcases fill with input | value | input | ch
  · rfl
  · exact (getElem?_replicate_of_lt h).symm
  · rfl
  · exact (getElem?_replicate_of_lt h).symm

theorem drop_elements {fill : Fill} {length position : ℕ} (h : position < fill.len length) :
    ∃ unit, fill.unit position = some unit ∧
      (fill.elements length).drop position = unit :: (fill.elements length).drop (position + 1) := by
  have hlt : position < (fill.elements length).length := (length_elements fill length).symm ▸ h
  refine ⟨(fill.elements length)[position], ?_, drop_eq_getElem_cons hlt⟩
  rw [unit_eq h, getElem?_eq_getElem hlt]

/-! ### Rows -/

theorem painted_append (pieces more : List Piece) (k : ℕ) (cell : CharInfo) :
    painted (pieces ++ more) k cell =
      if k < pieces.length then painted pieces k cell else painted more (k - pieces.length) cell := by
  rw [painted]
  split_ifs with h
  · rw [getElem?_append_left h, painted]
  · rw [getElem?_append_right (not_lt.mp h), painted]

theorem painted_of_le {pieces : List Piece} {k : ℕ} (h : pieces.length ≤ k) (cell : CharInfo) :
    painted pieces k cell = cell := by
  rw [painted, getElem?_eq_none h]
  rfl

namespace Row

variable {row row' row'' : Row} {pieces more : List Piece}

/-- **A row goes on** by pieces, in its next columns. -/
structure Lays (row row' : Row) (pieces : List Piece) : Prop where
  columns : row'.columns = row.columns + pieces.length
  within : row'.columns ≤ row.cells.length
  cells : ∀ k, row'.cells[k]? = (row.cells[k]?).map fun cell =>
    if row.columns ≤ k then painted pieces (k - row.columns) cell else cell

namespace Lays

theorem length (h : Lays row row' pieces) : row'.cells.length = row.cells.length := by
  refine le_antisymm ?_ ?_
  · by_contra hlt
    have hcell := h.cells row.cells.length
    rw [getElem?_eq_getElem (not_le.mp hlt), getElem?_eq_none le_rfl] at hcell
    exact absurd hcell (by simp)
  · by_contra hlt
    have hcell := h.cells row'.cells.length
    rw [getElem?_eq_none le_rfl, getElem?_eq_getElem (not_le.mp hlt)] at hcell
    exact absurd hcell (by simp)

theorem refl (hrow : row.columns ≤ row.cells.length) : Lays row row [] := by
  refine ⟨rfl, hrow, fun k => ?_⟩
  cases row.cells[k]? with
  | none => rfl
  | some cell => simp [painted]

theorem trans (h : Lays row row' pieces) (h' : Lays row' row'' more) :
    Lays row row'' (pieces ++ more) := by
  have hcolumns := h.columns
  have hcolumns' := h'.columns
  refine ⟨?_, h.length ▸ h'.within, fun k => ?_⟩
  · rw [hcolumns', hcolumns, length_append, add_assoc]
  rw [h'.cells, h.cells, Option.map_map]
  refine congrArg (fun f => (row.cells[k]?).map f) ?_
  funext cell
  simp only [Function.comp_apply]
  by_cases hk : row.columns ≤ k
  · rw [if_pos hk, if_pos hk, painted_append]
    by_cases hk' : row'.columns ≤ k
    · have hpast : ¬k - row.columns < pieces.length := by omega
      have hpast' : k - row.columns - pieces.length = k - row'.columns := by omega
      rw [if_pos hk', if_neg hpast, painted_of_le (not_lt.mp hpast), hpast']
    · rw [if_neg hk', if_pos (by omega)]
  · rw [if_neg hk, if_neg hk, if_neg (by omega)]

end Lays

/-- A piece in the next column. -/
def laid (row : Row) (piece : Piece) : Row :=
  { row with cells := row.cells.modify row.columns piece.on, columns := row.columns + 1 }

theorem lays_laid (h : row.columns < row.cells.length) (piece : Piece) (position : ℕ) :
    Lays row { row.laid piece with position } [piece] := by
  refine ⟨rfl, h, fun k => ?_⟩
  simp only [laid, getElem?_modify]
  refine congrArg (fun f => (row.cells[k]?).map f) ?_
  funext cell
  by_cases hk : row.columns = k
  · rw [if_pos hk, if_pos hk.le, hk, Nat.sub_self]
    rfl
  · rw [if_neg hk]
    split_ifs with hle
    · exact (painted_of_le (by simp only [length_singleton]; omega) cell).symm
    · rfl

theorem set_eq_modify {cells : List CharInfo} {k : ℕ} {cell : CharInfo}
    (h : cells[k]? = some cell) (f : CharInfo → CharInfo) : cells.set k (f cell) = cells.modify k f := by
  refine ext_getElem? fun j => ?_
  rw [getElem?_set, getElem?_modify]
  by_cases hj : k = j
  · subst hj
    obtain ⟨hlt, rfl⟩ := List.getElem?_eq_some_iff.mp h
    simp [hlt]
  · simp [hj]

theorem put_eq (h : row.columns < row.cells.length) (ch half : UInt16) :
    row.put ch half = some (row.laid (.put ch half)) := by
  have hcell := getElem?_eq_getElem h
  rw [put, hcell, laid, ← set_eq_modify hcell]
  rfl

theorem paint_eq (h : row.columns < row.cells.length) (attributes : UInt16) :
    row.paint attributes = some (row.laid (.paint attributes)) := by
  have hcell := getElem?_eq_getElem h
  rw [paint, hcell, laid, ← set_eq_modify hcell]
  rfl

/-- The column of the buffer that a row has got to; the row begins at `start`, and behind its last
column is the first one of the next row. -/
def column (start : ℕ) (row : Row) : ℕ :=
  if row.columns < row.cells.length then start + row.columns else 0

end Row

section Rows

variable (isWide : UInt16 → Bool) (fill : Fill) (n start : ℕ)

/-- **A row goes on** in the flow: from where it was, the flow is what the row went on by, and then
the flow from where it is. -/
structure Advances (row row' : Row) (pieces : List Piece) : Prop extends
    Row.Lays row row' pieces where
  le : row.position ≤ row'.position
  flow : ∀ room, row.cells.length - row.columns ≤ room →
    flow isWide fill.isAttributes (start + row.cells.length) room (row.column start) none
        ((fill.elements n).drop row.position) =
      (pieces ++ (flow isWide fill.isAttributes (start + row.cells.length) (room - pieces.length)
          (row'.column start) none ((fill.elements n).drop row'.position)).1,
        row'.position - row.position + (flow isWide fill.isAttributes (start + row.cells.length)
          (room - pieces.length) (row'.column start) none
          ((fill.elements n).drop row'.position)).2)

namespace Advances

variable {isWide fill n start} {row row' row'' : Row} {pieces more : List Piece}

theorem refl (hrow : row.columns ≤ row.cells.length) :
    Advances isWide fill n start row row [] :=
  ⟨.refl hrow, le_rfl, fun room _ => by simp⟩

theorem trans (h : Advances isWide fill n start row row' pieces)
    (h' : Advances isWide fill n start row' row'' more) :
    Advances isWide fill n start row row'' (pieces ++ more) := by
  have hlength := h.length
  have hcolumns := h.columns
  refine ⟨h.toLays.trans h'.toLays, h.le.trans h'.le, fun room hroom => ?_⟩
  have hrest := h'.flow (room - pieces.length) (by omega)
  rw [hlength] at hrest
  have hsub : room - (pieces ++ more).length = room - pieces.length - more.length := by
    rw [length_append, Nat.sub_add_eq]
  have hle := h.le
  have hle' := h'.le
  rw [h.flow room hroom, hrest, hsub, append_assoc]
  refine Prod.ext rfl ?_
  simp only
  omega

variable {unit : UInt16}

/-- One element that takes one column. -/
theorem one {piece : Piece} (h : row.columns < row.cells.length)
    (hunit : (fill.elements n).drop row.position =
      unit :: (fill.elements n).drop (row.position + 1))
    (hpiece : ∀ width room column rest, Zetta.Console.ScreenBuffer.flow isWide fill.isAttributes
      width (room + 1) column none (unit :: rest) =
        (piece :: (Zetta.Console.ScreenBuffer.flow isWide fill.isAttributes width room
            (next width column) none rest).1,
          (Zetta.Console.ScreenBuffer.flow isWide fill.isAttributes width room
            (next width column) none rest).2 + 1)) :
    Advances isWide fill n start row { row.laid piece with position := row.position + 1 }
      [piece] := by
  refine ⟨Row.lays_laid h piece _, Nat.le_succ _, fun room hroom => ?_⟩
  obtain ⟨room, rfl⟩ : ∃ room', room = room' + 1 := ⟨room - 1, by omega⟩
  have hcolumn : next (start + row.cells.length) (start + row.columns) =
      Row.column start { row.laid piece with position := row.position + 1 } := by
    simp only [next, Row.column, Row.laid, length_modify, add_assoc, add_lt_add_iff_left]
  have hsub : row.position + 1 - row.position = 1 := Nat.add_sub_cancel_left ..
  rw [hunit, Row.column, if_pos h, hpiece, hcolumn]
  refine Prod.ext rfl ?_
  simp only [hsub]
  exact add_comm _ _

/-- A wide character, in two columns. -/
theorem wide (h : row.columns + 1 < row.cells.length) (hunit : (fill.elements n).drop row.position =
      unit :: (fill.elements n).drop (row.position + 1)) (hcharacters : fill.isAttributes = false)
    (hwide : isWide unit = true) :
    Advances isWide fill n start row
      { (row.laid (.put unit LEADING_BYTE)).laid (.put unit TRAILING_BYTE) with
        position := row.position + 1 } [.put unit LEADING_BYTE, .put unit TRAILING_BYTE] := by
  have hsecond : (row.laid (.put unit LEADING_BYTE)).columns <
      (row.laid (.put unit LEADING_BYTE)).cells.length := by
    simpa [Row.laid] using h
  refine ⟨(Row.lays_laid (Nat.lt_of_succ_lt h) _ _).trans (Row.lays_laid hsecond _ _),
    Nat.le_succ _, fun room hroom => ?_⟩
  obtain ⟨room, rfl⟩ : ∃ room', room = room' + 2 := ⟨room - 2, by omega⟩
  have hfirst : next (start + row.cells.length) (start + row.columns) =
      start + (row.columns + 1) := by
    rw [next, if_pos (by omega), add_assoc]
  have hcolumn : next (start + row.cells.length) (start + (row.columns + 1)) = Row.column start
      { (row.laid (.put unit LEADING_BYTE)).laid (.put unit TRAILING_BYTE) with
        position := row.position + 1 } := by
    simp only [next, Row.column, Row.laid, length_modify, add_assoc, add_lt_add_iff_left]
  have hsub : row.position + 1 - row.position = 1 := Nat.add_sub_cancel_left ..
  rw [hunit, Row.column, if_pos (Nat.lt_of_succ_lt h)]
  simp only [Zetta.Console.ScreenBuffer.flow, hcharacters, hwide, Bool.false_eq_true, if_false,
    if_true]
  rw [if_neg (by omega), hfirst, hcolumn]
  refine Prod.ext rfl ?_
  simp only [hsub]
  exact add_comm _ _

/-- The space that a wide character leaves in the last column. -/
theorem pad (h : row.columns + 1 = row.cells.length) (hunit : (fill.elements n).drop row.position =
      unit :: (fill.elements n).drop (row.position + 1)) (hcharacters : fill.isAttributes = false)
    (hwide : isWide unit = true) :
    Advances isWide fill n start row (row.laid (.put 32 0)) [.put 32 0] := by
  refine ⟨Row.lays_laid (by omega) _ _, le_rfl, fun room hroom => ?_⟩
  obtain ⟨room, rfl⟩ : ∃ room', room = room' + 1 := ⟨room - 1, by omega⟩
  have hcolumn : Row.column start (row.laid (.put 32 0)) = 0 := by
    rw [Row.column, if_neg]
    simp [Row.laid, h]
  rw [hcolumn, hunit, Row.column, if_pos (by omega)]
  simp only [Zetta.Console.ScreenBuffer.flow, hcharacters, hwide, Bool.false_eq_true, if_false,
    if_true]
  have hposition : (row.laid (.put 32 0)).position = row.position := rfl
  rw [if_pos (by omega), hposition, hunit, Nat.sub_self, Nat.zero_add]
  rfl

end Advances

variable {isWide fill n}

/-- **A row** of a fill goes on in the flow to its last column or to the end of the input. -/
theorem exists_fillRow_advances (rounds : ℕ) {row : Row} (hcolumns : row.columns ≤ row.cells.length)
    (hrounds : row.cells.length - row.columns ≤ rounds) (hposition : row.position ≤ fill.len n) :
    ∃ row' pieces, fillRow isWide fill (fill.len n) rounds row = some row' ∧
      Advances isWide fill n start row row' pieces ∧ row'.position ≤ fill.len n ∧
      (row'.columns = row'.cells.length ∨ row'.position = fill.len n) := by
  induction rounds generalizing row with
  | zero => exact ⟨row, [], rfl, .refl hcolumns, hposition, .inl (by omega)⟩
  | succ rounds ih =>
    rw [fillRow]
    by_cases hgoes : row.columns < row.cells.length ∧ row.position < fill.len n
    · obtain ⟨hroom, hinput⟩ := hgoes
      obtain ⟨unit, hunit, hdrop⟩ := drop_elements hinput
      -- Once a step has been made, the rest of the row is made from where it led to.
      have hrest : ∀ next pieces, Advances isWide fill n start row next pieces → 0 < pieces.length →
          next.position ≤ fill.len n → ∃ row' pieces,
            fillRow isWide fill (fill.len n) rounds next = some row' ∧
            Advances isWide fill n start row row' pieces ∧ row'.position ≤ fill.len n ∧
            (row'.columns = row'.cells.length ∨ row'.position = fill.len n) := by
        intro next pieces hstep hpieces hnext
        have hlength := hstep.length
        have hwithin := hstep.within
        have hmore := hstep.columns
        obtain ⟨row', more, hrow', hadvances, hends⟩ :=
          ih (by omega : next.columns ≤ next.cells.length) (by omega) hnext
        exact ⟨row', pieces ++ more, hrow', hstep.trans hadvances, hends⟩
      rw [if_pos ⟨hroom, hinput⟩, Option.bind_eq_bind, hunit, Option.bind_some]
      by_cases hattributes : fill.isAttributes = true
      · rw [if_pos hattributes, Option.bind_eq_bind, Row.paint_eq hroom, Option.bind_some]
        refine hrest _ [.paint unit] (.one hroom hdrop fun width room column rest => ?_)
          Nat.zero_lt_one hinput
        simp only [flow, hattributes, if_true]
      · rw [if_neg hattributes]
        by_cases hwide : isWide unit = true
        · rw [if_pos hwide]
          by_cases hlast : row.cells.length ≤ row.columns + 1
          · rw [if_pos hlast, Row.put_eq hroom]
            have hpad := (Advances.pad (by omega) hdrop (by simpa using hattributes) hwide :
                Advances isWide fill n start row _ _)
            refine ⟨_, _, rfl, hpad, hposition, .inl ?_⟩
            have hlength := hpad.length
            have hmore := hpad.columns
            rw [length_singleton] at hmore
            omega
          · have hsecond : (row.laid (.put unit LEADING_BYTE)).columns <
                (row.laid (.put unit LEADING_BYTE)).cells.length := by
              simpa [Row.laid] using hlast
            rw [if_neg hlast, Option.bind_eq_bind, Row.put_eq hroom, Option.bind_some,
              Row.put_eq hsecond, Option.bind_some]
            exact hrest _ _ (.wide (not_le.mp hlast) hdrop (by simpa using hattributes) hwide)
              Nat.two_pos hinput
        · rw [if_neg hwide, Option.bind_eq_bind, Row.put_eq hroom, Option.bind_some]
          refine hrest _ [.put unit 0] (.one hroom hdrop fun width room column rest => ?_)
            Nat.zero_lt_one hinput
          simp only [flow, hattributes, hwide, Bool.false_eq_true, if_false]
    · rw [if_neg hgoes]
      exact ⟨row, [], rfl, .refl hcolumns, hposition, by omega⟩

end Rows

/-! ### Lines -/

section Lines

variable (isWide : UInt16 → Bool) (fill : Fill) (n : ℕ)

/-- **A line**, from the column `first` on, takes the pieces that the flow has for it. -/
structure LineFilled (width first : ℕ) (cells : List CharInfo) (position : ℕ) (row : Row)
    (pieces : List Piece) : Prop where
  columns : row.columns = pieces.length
  length : row.cells.length = cells.length
  within : pieces.length ≤ width - first
  cells : ∀ k, row.cells[k]? = (cells[k]?).map (painted pieces k)
  le : position ≤ row.position
  position_le : row.position ≤ fill.len n
  ends : pieces.length = width - first ∨ row.position = fill.len n
  flow : ∀ room, width - first ≤ room →
    flow isWide fill.isAttributes width room first none ((fill.elements n).drop position) =
      (pieces ++ (flow isWide fill.isAttributes width (room - pieces.length) 0 none
          ((fill.elements n).drop row.position)).1,
        row.position - position + (flow isWide fill.isAttributes width (room - pieces.length) 0 none
          ((fill.elements n).drop row.position)).2)

variable {isWide fill n}

theorem drop_len : (fill.elements n).drop (fill.len n) = [] := by
  rw [← length_elements, drop_length]

variable (isWide) in
theorem exists_line {width first position : ℕ} {cells : List CharInfo} (hfirst : first < width)
    (hlength : cells.length = width - first) (hposition : position < fill.len n) :
    ∃ row pieces, fillRow isWide fill (fill.len n) cells.length ⟨cells, 0, position⟩ = some row ∧
      LineFilled isWide fill n width first cells position row pieces := by
  obtain ⟨row, pieces, hrow, hadvances, hle, hends⟩ :=
    (exists_fillRow_advances first cells.length (Nat.zero_le _) (Nat.sub_le _ _) hposition.le :
      ∃ row pieces, fillRow isWide fill (fill.len n) cells.length ⟨cells, 0, position⟩ = some row ∧
        Advances isWide fill n first ⟨cells, 0, position⟩ row pieces ∧ _)
  have hcolumns := hadvances.columns
  have hcells := hadvances.length
  have hwithin := hadvances.within
  have hwidth : first + cells.length = width := by omega
  rw [zero_add] at hcolumns
  have hall : (⟨cells, 0, position⟩ : Row).cells.length = cells.length := rfl
  refine ⟨row, pieces, hrow, hcolumns, hcells, by omega, fun k => ?_, hadvances.le, hle, by omega,
    fun room hroom => ?_⟩
  · simpa using hadvances.cells k
  have hflow := hadvances.flow room (by simpa [hlength] using hroom)
  have hbegins : Row.column first ⟨cells, 0, position⟩ = first := by
    rw [Row.column, if_pos (by simp only; omega)]
    rfl
  rw [hbegins, hall, hwidth] at hflow
  rw [hflow]
  -- Where the row ends, the next column is the first one, or nothing is left for it.
  rcases hends with hfull | hdone
  · rw [Row.column, if_neg (by omega)]
  · rw [hdone, drop_len, flow_nil, flow_nil]

/-- The column that a line of a fill begins in. -/
def lineFirst (first line : ℕ) : ℕ := if line = 0 then first else 0

/-- How many cells there are from the start of a fill to one of its lines. -/
def lineOffset (width first line : ℕ) : ℕ := if line = 0 then 0 else line * width - first

theorem lineOffset_succ {width first : ℕ} (h : first < width) (line : ℕ) :
    lineOffset width first (line + 1) =
      lineOffset width first line + (width - lineFirst first line) := by
  rcases line with - | line
  · simp [lineOffset, lineFirst]
  · have hle : width ≤ (line + 1) * width := Nat.le_mul_of_pos_left width (Nat.succ_pos line)
    simp only [lineOffset, lineFirst, Nat.succ_ne_zero, if_false, Nat.succ_mul (line + 1)]
    omega

theorem lineOffset_mono {width first line lines : ℕ} (h : line ≤ lines) :
    lineOffset width first line ≤ lineOffset width first lines := by
  have hmul := Nat.mul_le_mul_right width h
  rw [lineOffset, lineOffset]
  split_ifs with hzero hzero'
  · exact le_rfl
  · exact Nat.zero_le _
  · omega
  · omega

variable (isWide fill n) in
/-- **A fill before a line**: the flow through the cells of all lines has led there. -/
structure Reaches (width first lines line position : ℕ) (pieces : List Piece) : Prop where
  le : position ≤ fill.len n
  ends : position = fill.len n ∨ pieces.length = lineOffset width first line
  within : pieces.length ≤ lineOffset width first line
  flow : flow isWide fill.isAttributes width (lineOffset width first lines) first none
      (fill.elements n) =
    (pieces ++ (flow isWide fill.isAttributes width (lineOffset width first lines - pieces.length)
        (lineFirst first line) none ((fill.elements n).drop position)).1,
      position + (flow isWide fill.isAttributes width
        (lineOffset width first lines - pieces.length) (lineFirst first line) none
        ((fill.elements n).drop position)).2)

namespace Reaches

variable {width first lines line position : ℕ} {pieces more : List Piece} {cells : List CharInfo}
  {row : Row}

theorem start (width first lines : ℕ) : Reaches isWide fill n width first lines 0 0 [] := by
  refine ⟨Nat.zero_le _, .inr rfl, Nat.zero_le _, ?_⟩
  simp [lineFirst]

/-- A line on. -/
theorem step (h : Reaches isWide fill n width first lines line position pieces)
    (hfirst : first < width) (hline : line < lines) (hposition : position < fill.len n)
    (hrow : LineFilled isWide fill n width (lineFirst first line) cells position row more) :
    Reaches isWide fill n width first lines (line + 1) row.position (pieces ++ more) := by
  have hreached := h.ends.resolve_left hposition.ne
  have hnext := lineOffset_succ hfirst line
  have hroom : lineOffset width first (line + 1) ≤ lineOffset width first lines :=
    lineOffset_mono hline
  have hwithin := hrow.within
  have hle := hrow.le
  refine ⟨hrow.position_le, ?_, ?_, ?_⟩
  · refine hrow.ends.symm.imp id fun hfull => ?_
    rw [length_append, hreached, hfull, hnext]
  · rw [length_append]
    omega
  · have hflow := hrow.flow (lineOffset width first lines - pieces.length) (by omega)
    rw [h.flow, hflow, append_assoc, length_append, Nat.sub_add_eq]
    refine Prod.ext rfl ?_
    simp only [lineFirst, Nat.succ_ne_zero, if_false]
    omega

/-- A line that nothing is left for. -/
theorem skip (h : Reaches isWide fill n width first lines line position pieces)
    (hposition : ¬position < fill.len n) :
    Reaches isWide fill n width first lines (line + 1) position pieces := by
  have hdone : position = fill.len n := le_antisymm h.le (not_lt.mp hposition)
  have hflow := h.flow
  refine ⟨h.le, .inl hdone, h.within.trans (lineOffset_mono (Nat.le_succ line)), ?_⟩
  rw [hdone, drop_len, flow_nil] at hflow
  rw [hdone, drop_len, flow_nil, hflow]

/-- **Behind the last line**, the whole flow has been made. -/
theorem done (h : Reaches isWide fill n width first lines lines position pieces) :
    ScreenBuffer.flow isWide fill.isAttributes width (lineOffset width first lines) first none
      (fill.elements n) = (pieces, position) := by
  rcases h.ends with hdone | hfull
  · have hflow := h.flow
    rw [hdone, drop_len, flow_nil] at hflow
    rw [hflow, append_nil, hdone]
    rfl
  · rw [h.flow, hfull, Nat.sub_self]
    simp [ScreenBuffer.flow]

end Reaches

variable {b : ScreenBuffer} {width first position : ℕ} {y : ℤ}

/-- The cells of a line from a column on. -/
def lineRect (width first : ℕ) (y : ℤ) : Rect := ⟨first, y, width - 1, y⟩

/-- As much of a line as was filled. -/
def writtenRect (first columns : ℕ) (y : ℤ) : Rect := ⟨first, y, first + columns - 1, y⟩

theorem area_lineRect (h : first < width) : (lineRect width first y).area = width - first := by
  rw [Rect.area, Rect.width, Rect.height, lineRect]
  simp only [sub_self, zero_add, mul_one]
  omega

theorem writtenRect_isValid {columns : ℕ} : (writtenRect first columns y).IsValid ↔ 0 < columns := by
  simp only [writtenRect, Rect.IsValid]
  omega

theorem area_writtenRect (first columns : ℕ) (y : ℤ) :
    (writtenRect first columns y).area = columns := by
  rw [Rect.area, Rect.width, Rect.height, writtenRect]
  simp only [sub_self, zero_add, mul_one]
  omega

theorem contains_writtenRect {columns : ℕ} {x y' : ℤ} :
    (writtenRect first columns y).Contains x y' ↔ y' = y ∧ first ≤ x ∧ (x - first).toNat < columns := by
  simp only [writtenRect, Rect.Contains]
  omega

theorem place_writtenRect (first columns : ℕ) (x y : ℤ) :
    (writtenRect first columns y).place x y = (x - first).toNat := by
  rw [Rect.place, writtenRect]
  simp

variable (isWide) in
/-- **A line of a buffer** is read and filled. -/
theorem exists_line_of_sized (hb : b.Sized) (hwidth : (width : ℤ) = b.size.1) (hfirst : first < width)
    (hposition : position < fill.len n) :
    ∃ cells row more, b.readRect (lineRect width first y) = some cells ∧
      fillRow isWide fill (fill.len n) cells.length ⟨cells, 0, position⟩ = some row ∧
      LineFilled isWide fill n width first cells position row more ∧
      ∃ written, slice row.cells 0 row.columns = some written ∧ written.length = more.length ∧
        ∀ k < more.length, written[k]? = some (painted more k (b.cell (first + k) y)) := by
  have hvalid : (lineRect width first y).IsValid := by
    simp only [lineRect, Rect.IsValid]
    omega
  obtain ⟨cells, hread, hlength, hcells⟩ := readRect_spec hb hvalid
  rw [area_lineRect hfirst] at hlength
  obtain ⟨row, more, hrow, hline⟩ := exists_line isWide hfirst hlength hposition
  have hcolumns := hline.columns
  have hcount := hline.length
  have hwithin := hline.within
  refine ⟨cells, row, more, hread, hrow, hline, (row.cells.take row.columns).drop 0,
    if_pos ⟨Nat.zero_le _, by omega⟩, ?_, fun k hk => ?_⟩
  · rw [drop_zero, length_take]
    omega
  · have hcontains : (lineRect width first y).Contains (first + k) y := by
      simp only [lineRect, Rect.Contains]
      omega
    have hplace : (lineRect width first y).place (first + k) y = k := by
      rw [Rect.place, lineRect]
      simp
    have hcell := hcells _ _ hcontains
    rw [hplace] at hcell
    rw [drop_zero, getElem?_take_of_lt (by omega), hline.cells, hcell]
    rfl

/-! ### Off screen -/

/-- **A line of a fill** changes the cells of the line that the flow has pieces for. -/
theorem exists_fillLine_spec {f : Filling} (hf : f.buffer.Sized)
    (hwidth : (width : ℤ) = f.buffer.size.1) (hfirst : first < width)
    (hposition : f.position < fill.len n) :
    ∃ f' cells row more, fillLine isWide fill (fill.len n) f first y = some f' ∧
      LineFilled isWide fill n width first cells f.position row more ∧
      f'.position = row.position ∧ f'.modified = f.modified + more.length ∧
      Recelled f.buffer f'.buffer ∧ ∀ x y', f.buffer.bounds.Contains x y' →
        f'.buffer.cell x y' =
          if y' = y ∧ (first : ℤ) ≤ x then painted more (x - first).toNat (f.buffer.cell x y')
          else f.buffer.cell x y' := by
  obtain ⟨cells, row, more, hread, hrow, hline, written, hslice, hlength, hwritten⟩ :=
    exists_line_of_sized isWide (y := y) hf hwidth hfirst hposition
  have hcolumns := hline.columns
  have hgoes : fillLine isWide fill (fill.len n) f first y =
      (f.buffer.writeRect (writtenRect first row.columns y) written).map
        fun t => ⟨t, row.position, f.modified + row.columns⟩ := by
    rw [fillLine, if_pos hposition]
    dsimp only
    rw [← hwidth]
    change (f.buffer.readRect (lineRect width first y)).bind _ = _
    rw [hread, Option.bind_some, Option.bind_eq_bind, hrow, Option.bind_some, Option.bind_eq_bind,
      hslice, Option.bind_some]
    exact (Option.map_eq_bind ..).symm
  by_cases hsome : 0 < row.columns
  · have harea : written.length = (writtenRect first row.columns y).area := by
      rw [area_writtenRect, hlength, hcolumns]
    obtain ⟨t, ht, hrecelled, hplaces⟩ :=
      writeRect_spec hf (writtenRect_isValid.mpr hsome) harea
    refine ⟨_, cells, row, more, by rw [hgoes, ht]; rfl, hline, rfl, by rw [hcolumns], hrecelled,
      fun x y' hxy => ?_⟩
    obtain ⟨hinside, houtside⟩ := hplaces x y' hxy
    by_cases hcontains : (writtenRect first row.columns y).Contains x y'
    · obtain ⟨rfl, hx, hlt⟩ := contains_writtenRect.mp hcontains
      have hcell := hinside hcontains
      have hback : (first : ℤ) + ((x - first).toNat : ℤ) = x := by omega
      rw [place_writtenRect, hwritten _ (hcolumns ▸ hlt), hback] at hcell
      rw [if_pos ⟨rfl, hx⟩]
      exact Option.some.inj hcell
    · rw [houtside hcontains]
      split_ifs with h
      · refine (painted_of_le ?_ _).symm
        rw [contains_writtenRect] at hcontains
        omega
      · rfl
  · have hsame : f.buffer.writeRect (writtenRect first row.columns y) written = some f.buffer :=
      if_neg (mt writtenRect_isValid.mp hsome)
    refine ⟨⟨f.buffer, row.position, f.modified + row.columns⟩, cells, row, more,
      by rw [hgoes, hsame]; rfl, hline, rfl, by rw [hcolumns], .refl _, fun x y' _ => ?_⟩
    split_ifs
    · exact (painted_of_le (by omega) _).symm
    · rfl

/-- How many cells there are from one place to another, row by row. -/
def ahead (size start : Coord) (x y : ℤ) : ℤ := (y - start.2) * size.1 + (x - start.1)

/-- The piece for a cell that is so far ahead. -/
def pieceAt (pieces : List Piece) (k : ℤ) : Option Piece :=
  if 0 ≤ k then pieces[k.toNat]? else none

section Ahead

variable {size start : Coord} {line : ℕ} {x y' : ℤ}

theorem cast_lineOffset (hsize : (width : ℤ) = size.1) (hstart : (first : ℤ) = start.1)
    (hfirst : first < width) (line : ℕ) :
    (lineOffset width first line : ℤ) = if line = 0 then 0 else line * size.1 - start.1 := by
  rcases line with - | line
  · rfl
  · have hle : first ≤ (line + 1) * width :=
      hfirst.le.trans (Nat.le_mul_of_pos_left width (Nat.succ_pos line))
    rw [lineOffset, if_neg (Nat.succ_ne_zero line), if_neg (Nat.succ_ne_zero line),
      Nat.cast_sub hle, Nat.cast_mul, hsize, hstart]

theorem ahead_of_line (hsize : (width : ℤ) = size.1) (hstart : (first : ℤ) = start.1)
    (hfirst : first < width) (hy : y' = start.2 + line) :
    ahead size start x y' = lineOffset width first line + (x - lineFirst first line) := by
  have hcast := cast_lineOffset hsize hstart hfirst line
  rw [ahead, hcast, hy, add_sub_cancel_left, lineFirst]
  rcases line with - | line
  · simp [hstart]
  · simp only [Nat.succ_ne_zero, if_false, Nat.cast_zero]
    ring

theorem ahead_lt_of_above (hsize : (width : ℤ) = size.1) (hstart : (first : ℤ) = start.1)
    (hfirst : first < width) (hx : x < size.1) (hy : y' < start.2 + line) :
    ahead size start x y' < lineOffset width first line := by
  have hcast := cast_lineOffset hsize hstart hfirst line
  have hmul : (y' - start.2) * size.1 ≤ ((line : ℤ) - 1) * size.1 :=
    mul_le_mul_of_nonneg_right (by omega) (by omega)
  rw [sub_one_mul] at hmul
  have hlt : ahead size start x y' < line * size.1 - start.1 := by
    rw [ahead]
    omega
  refine hlt.trans_le ?_
  rw [hcast]
  split_ifs with hzero
  · subst hzero
    rw [Nat.cast_zero, zero_mul]
    omega
  · exact le_rfl

theorem lineOffset_le_ahead (hsize : (width : ℤ) = size.1) (hstart : (first : ℤ) = start.1)
    (hfirst : first < width) (hx : 0 ≤ x) (hy : start.2 + line < y') :
    (lineOffset width first (line + 1) : ℤ) ≤ ahead size start x y' := by
  have hcast := cast_lineOffset hsize hstart hfirst (line + 1)
  have hmul : ((line + 1 : ℕ) : ℤ) * size.1 ≤ (y' - start.2) * size.1 :=
    mul_le_mul_of_nonneg_right (by omega) (by omega)
  rw [hcast, if_neg (Nat.succ_ne_zero line), ahead]
  omega

/-- **The piece of a cell after a line** that took more pieces: in the line it is one of these, and
there was none before. -/
theorem pieceAt_line (y' : ℤ) {pieces more : List Piece} (hsize : (width : ℤ) = size.1)
    (hstart : (first : ℤ) = start.1) (hfirst : first < width) (hx : 0 ≤ x ∧ x < size.1)
    (hreached : pieces.length = lineOffset width first line)
    (hwithin : more.length ≤ width - lineFirst first line) :
    (y' = start.2 + line ∧ (lineFirst first line : ℤ) ≤ x →
      pieceAt pieces (ahead size start x y') = none ∧
        pieceAt (pieces ++ more) (ahead size start x y') =
          more[(x - lineFirst first line).toNat]?) ∧
      (¬(y' = start.2 + line ∧ (lineFirst first line : ℤ) ≤ x) →
        pieceAt (pieces ++ more) (ahead size start x y') =
          pieceAt pieces (ahead size start x y')) := by
  have hnext := lineOffset_succ hfirst line
  constructor
  · rintro ⟨hy, hcolumn⟩
    have heq := ahead_of_line (x := x) hsize hstart hfirst hy
    have hlong : pieces.length ≤ (ahead size start x y').toNat := by omega
    have hplace : (ahead size start x y').toNat - pieces.length =
        (x - lineFirst first line).toNat := by omega
    constructor
    · rw [pieceAt, if_pos (by omega), getElem?_eq_none hlong]
    · rw [pieceAt, if_pos (by omega), getElem?_append_right hlong, hplace]
  · intro houtside
    rw [pieceAt, pieceAt]
    refine if_ctx_congr Iff.rfl (fun hahead => ?_) fun _ => rfl
    rcases lt_trichotomy y' (start.2 + line) with hy | hy | hy
    · have hlt := ahead_lt_of_above hsize hstart hfirst hx.2 hy
      rw [getElem?_append_left (by omega)]
    · -- Only the first line begins further right than its row.
      have hcolumn : x < lineFirst first line := not_le.mp fun h => houtside ⟨hy, h⟩
      have heq := ahead_of_line (x := x) hsize hstart hfirst hy
      have hzero : line = 0 := by
        by_contra hne
        rw [lineFirst, if_neg hne] at hcolumn
        omega
      rw [hzero, lineOffset, if_pos rfl] at heq
      rw [hzero] at hcolumn
      omega
    · have hge := lineOffset_le_ahead hsize hstart hfirst hx.1 hy
      rw [getElem?_eq_none (by rw [length_append]; omega),
        getElem?_eq_none (by omega)]

end Ahead

section Fills

variable {start : Coord}

/-- A fill off screen, before a line. -/
structure Filled (isWide : UInt16 → Bool) (fill : Fill) (n : ℕ) (b : ScreenBuffer) (start : Coord)
    (lines line : ℕ) (f : Filling) (pieces : List Piece) : Prop where
  reaches : Reaches isWide fill n b.size.1.toNat start.1.toNat lines line f.position pieces
  modified : f.modified = pieces.length
  recelled : Recelled b f.buffer
  cells : ∀ x y, b.bounds.Contains x y → f.buffer.cell x y =
    (pieceAt pieces (ahead b.size start x y)).elim (b.cell x y) fun piece => piece.on (b.cell x y)

/-- A line of a fill that begins in the buffer. -/
theorem line_begins (line : ℕ) (hstart : b.bounds.Contains start.1 start.2) :
    (b.size.1.toNat : ℤ) = b.size.1 ∧ (start.1.toNat : ℤ) = start.1 ∧
      start.1.toNat < b.size.1.toNat ∧
      (if line = 0 then start.1 else 0) = (lineFirst start.1.toNat line : ℤ) ∧
      lineFirst start.1.toNat line < b.size.1.toNat := by
  have hx := (contains_bounds.mp hstart).1
  have hfirst : (start.1.toNat : ℤ) = start.1 := Int.toNat_of_nonneg hx.1
  refine ⟨Int.toNat_of_nonneg (by omega), hfirst, by omega, ?_, ?_⟩
  · rw [lineFirst, Nat.cast_ite, hfirst, Nat.cast_zero]
  · rw [lineFirst]
    split_ifs
    · omega
    · omega

theorem Filled.step {lines line : ℕ} {f : Filling} {pieces : List Piece} (hb : b.Sized)
    (hstart : b.bounds.Contains start.1 start.2) (hline : line < lines)
    (h : Filled isWide fill n b start lines line f pieces) :
    ∃ f' pieces', fillLine isWide fill (fill.len n) f (if line = 0 then start.1 else 0)
      (start.2 + line) = some f' ∧ Filled isWide fill n b start lines (line + 1) f' pieces' := by
  by_cases hposition : f.position < fill.len n
  · obtain ⟨hwidth, hfirst, hlt, hbegins, hlt'⟩ := line_begins line hstart
    have hsize := h.recelled.size
    have hbounds : f.buffer.bounds = b.bounds := by rw [bounds, bounds, hsize]
    obtain ⟨f', cells, row, more, hf', hrow, hat, hmodified, hrecelled, hcells⟩ :=
      exists_fillLine_spec (y := start.2 + line) (h.recelled.sized hb) (hsize ▸ hwidth) hlt' hposition
    have hreached := h.reaches.ends.resolve_left hposition.ne
    refine ⟨f', pieces ++ more, hbegins ▸ hf', hat ▸ h.reaches.step hlt hline hposition hrow, ?_,
      h.recelled.trans hrecelled, fun x y hxy => ?_⟩
    · rw [hmodified, h.modified, length_append]
    · obtain ⟨hinline, helse⟩ := pieceAt_line y hwidth hfirst hlt (contains_bounds.mp hxy).1
        hreached hrow.within
      rw [hcells x y (hbounds ▸ hxy), h.cells x y hxy]
      split_ifs with hxy'
      · rw [(hinline hxy').1, (hinline hxy').2]
        rfl
      · rw [helse hxy']
  · exact ⟨f, pieces, if_neg hposition, h.reaches.skip hposition, h.modified, h.recelled, h.cells⟩

variable (isWide) in
/-- **A fill off screen goes in order** through the cells from its start on: it uses the input that
the flow uses, and changes the cells that the flow has pieces for. A start outside the buffer and
an empty fill do nothing. -/
def FillsInOrder (b : ScreenBuffer) (start : Coord) (fill : Fill) (n : ℕ) : Prop :=
  ∃ f, b.fill isWide start fill n = some f ∧
    if b.bounds.Contains start.1 start.2 ∧ n ≠ 0 then
      let out := flow isWide fill.isAttributes b.size.1.toNat
        (ahead b.size start 0 b.size.2).toNat start.1.toNat none (fill.elements n)
      f.position = out.2 ∧ f.modified = out.1.length ∧ Recelled b f.buffer ∧
        ∀ x y, b.bounds.Contains x y → f.buffer.cell x y =
          (pieceAt out.1 (ahead b.size start x y)).elim (b.cell x y) fun piece =>
            piece.on (b.cell x y)
    else f = ⟨b, 0, 0⟩

/-- The cells from the start of a fill to the end of the buffer. -/
theorem lineOffset_eq_ahead (hstart : b.bounds.Contains start.1 start.2) :
    lineOffset b.size.1.toNat start.1.toNat (b.size.2 - start.2).toNat =
      (ahead b.size start 0 b.size.2).toNat := by
  obtain ⟨hx, hy⟩ := contains_bounds.mp hstart
  have hcast : (lineOffset b.size.1.toNat start.1.toNat (b.size.2 - start.2).toNat : ℤ) =
      if (b.size.2 - start.2).toNat = 0 then 0
      else ((b.size.2 - start.2).toNat : ℤ) * b.size.1 - start.1 :=
    cast_lineOffset (Int.toNat_of_nonneg (by omega)) (Int.toNat_of_nonneg hx.1) (by omega) _
  rw [if_neg (by omega), Int.toNat_of_nonneg (by omega)] at hcast
  rw [ahead, zero_sub, ← sub_eq_add_neg, ← hcast, Int.toNat_natCast]

theorem fillsInOrder (hb : b.Sized) (start : Coord) (fill : Fill) (n : ℕ) :
    FillsInOrder isWide b start fill n := by
  by_cases hgoes : b.bounds.Contains start.1 start.2 ∧ n ≠ 0
  · obtain ⟨hstart, hn⟩ := hgoes
    obtain ⟨hx, hy⟩ := contains_bounds.mp hstart
    -- Line by line, the flow is made as far as the line.
    have hlines : ∀ line ≤ (b.size.2 - start.2).toNat, ∃ f pieces,
        ((List.range line).map Nat.cast).foldlM (fun f (line : ℤ) => fillLine isWide fill (fill.len n)
          f (if line = 0 then start.1 else 0) (start.2 + line)) ⟨b, 0, 0⟩ = some f ∧
        Filled isWide fill n b start (b.size.2 - start.2).toNat line f pieces := by
      intro line
      induction line with
      | zero =>
        intro _
        refine ⟨⟨b, 0, 0⟩, [], rfl, .start .., rfl, .refl b, fun x y _ => ?_⟩
        rw [pieceAt, getElem?_nil, ite_self]
        rfl
      | succ line ih =>
        intro hline
        obtain ⟨f, pieces, hf, hfilled⟩ := ih (Nat.le_of_succ_le hline)
        obtain ⟨f', pieces', hf', hfilled'⟩ := hfilled.step hb hstart hline
        refine ⟨f', pieces', ?_, hfilled'⟩
        simp only [← Nat.cast_eq_zero (R := ℤ)] at hf'
        rw [range_succ, map_append, foldlM_append, Option.bind_eq_bind, hf,
          Option.bind_some, map_singleton, foldlM_cons, Option.bind_eq_bind, hf',
          Option.bind_some]
        rfl
    obtain ⟨f, pieces, hf, hfilled⟩ := hlines _ le_rfl
    have hdone := hfilled.reaches.done
    rw [lineOffset_eq_ahead hstart] at hdone
    refine ⟨f, ?_, ?_⟩
    · rw [ScreenBuffer.fill, if_neg (by omega), bind_eq_flatMap]
      simpa only [pure_def, ← map_eq_flatMap] using hf
    · rw [if_pos ⟨hstart, hn⟩, hdone]
      exact ⟨rfl, hfilled.modified, hfilled.recelled, hfilled.cells⟩
  · refine ⟨⟨b, 0, 0⟩, ?_, (if_neg hgoes).symm ▸ rfl⟩
    rw [contains_bounds] at hgoes
    rw [ScreenBuffer.fill, if_pos (by omega)]

/-! ### On screen -/

/-- What a fill on screen has got to: the cells that are to be drawn, how much of the input was
used and how many cells there are. -/
structure Drawing where
  drawn : List Run
  position : ℕ
  modified : ℕ

variable (isWide) in
/-- One line of a fill on screen. The line is read from the screen as it was before the fill, which
is drawn at the end. -/
def drawLine (b : ScreenBuffer) (fill : Fill) (length : ℕ) (d : Drawing) (first y : ℤ) :
    Option Drawing :=
  if d.position < length then do
    let r : Rect := ⟨first, y, b.size.1 - 1, y⟩
    let cells ← b.readRect r
    let row ← fillRow isWide fill length cells.length ⟨cells, 0, d.position⟩
    let written ← slice row.cells 0 row.columns
    return ⟨d.drawn ++ runs { r with right := first + row.columns - 1 } written, row.position,
      d.modified + row.columns⟩
  else some d

variable (isWide) in
def drawFill (b : ScreenBuffer) (start : Coord) (fill : Fill) (length : ℕ) : Option Drawing :=
  if (start.1 < 0 ∨ start.2 < 0) ∨ (b.size.1 ≤ start.1 ∨ b.size.2 ≤ start.2) ∨ length = 0 then
    some ⟨[], 0, 0⟩
  else
    (List.range (b.size.2 - start.2).toNat).foldlM (fun d (line : ℕ) =>
      drawLine isWide b fill (fill.len length) d (if line = 0 then start.1 else 0) (start.2 + line))
      ⟨[], 0, 0⟩

theorem exists_drawLine_spec {d : Drawing} (hb : b.Sized) (hwidth : (width : ℤ) = b.size.1)
    (hfirst : first < width) (hposition : d.position < fill.len n) :
    ∃ d' cells row more, drawLine isWide b fill (fill.len n) d first y = some d' ∧
      LineFilled isWide fill n width first cells d.position row more ∧
      d'.position = row.position ∧ d'.modified = d.modified + more.length ∧
      ∀ x y' cell, (∃ run ∈ d'.drawn, run.Shows x y' cell) ↔
        (∃ run ∈ d.drawn, run.Shows x y' cell) ∨ (y' = y ∧ (first : ℤ) ≤ x) ∧
          ∃ piece, more[(x - first).toNat]? = some piece ∧ piece.on (b.cell x y') = cell := by
  obtain ⟨cells, row, more, hread, hrow, hline, written, hslice, hlength, hwritten⟩ :=
    exists_line_of_sized isWide (y := y) hb hwidth hfirst hposition
  have hcolumns := hline.columns
  have hgoes : drawLine isWide b fill (fill.len n) d first y =
      some ⟨d.drawn ++ runs (writtenRect first row.columns y) written, row.position,
        d.modified + row.columns⟩ := by
    rw [drawLine, if_pos hposition]
    dsimp only
    rw [← hwidth]
    change (b.readRect (lineRect width first y)).bind _ = _
    rw [hread, Option.bind_some, Option.bind_eq_bind, hrow, Option.bind_some, Option.bind_eq_bind,
      hslice, Option.bind_some]
    rfl
  refine ⟨_, cells, row, more, hgoes, hline, rfl, by rw [hcolumns], fun x y' cell => ?_⟩
  simp only [mem_append, or_and_right, exists_or]
  refine or_congr Iff.rfl ?_
  by_cases hsome : 0 < row.columns
  · have harea : written.length = (writtenRect first row.columns y).area := by
      rw [area_writtenRect, hlength, hcolumns]
    rw [shows_runs_iff (writtenRect_isValid.mpr hsome) harea, contains_writtenRect]
    constructor
    · rintro ⟨⟨rfl, hx, hlt⟩, hcell⟩
      have hback : (first : ℤ) + ((x - first).toNat : ℤ) = x := by omega
      have hpiece := getElem?_eq_getElem (hcolumns ▸ hlt)
      rw [place_writtenRect, hwritten _ (hcolumns ▸ hlt), hback, painted, hpiece] at hcell
      exact ⟨⟨rfl, hx⟩, _, hpiece, Option.some.inj hcell⟩
    · rintro ⟨⟨rfl, hx⟩, piece, hpiece, rfl⟩
      have hback : (first : ℤ) + ((x - first).toNat : ℤ) = x := by omega
      obtain ⟨hlt, -⟩ := List.getElem?_eq_some_iff.mp hpiece
      refine ⟨⟨rfl, hx, hcolumns ▸ hlt⟩, ?_⟩
      rw [place_writtenRect, hwritten _ hlt, hback, painted, hpiece]
      rfl
  · have hnone : more = [] := length_eq_zero_iff.mp (by omega)
    rw [runs, if_neg (mt writtenRect_isValid.mp hsome), hnone]
    simp

variable (isWide) in
/-- **A fill on screen goes in order** in the same way: it draws the cells that the flow has pieces
for, and no others. -/
def DrawsInOrder (b : ScreenBuffer) (start : Coord) (fill : Fill) (n : ℕ) : Prop :=
  ∃ d, drawFill isWide b start fill n = some d ∧
    if b.bounds.Contains start.1 start.2 ∧ n ≠ 0 then
      let out := flow isWide fill.isAttributes b.size.1.toNat
        (ahead b.size start 0 b.size.2).toNat start.1.toNat none (fill.elements n)
      d.position = out.2 ∧ d.modified = out.1.length ∧
        ∀ x y cell, (∃ run ∈ d.drawn, run.Shows x y cell) ↔ b.bounds.Contains x y ∧
          ∃ piece, pieceAt out.1 (ahead b.size start x y) = some piece ∧
            piece.on (b.cell x y) = cell
    else d = ⟨[], 0, 0⟩

/-- A fill on screen, before a line. -/
structure Drawn (isWide : UInt16 → Bool) (fill : Fill) (n : ℕ) (b : ScreenBuffer) (start : Coord)
    (lines line : ℕ) (d : Drawing) (pieces : List Piece) : Prop where
  reaches : Reaches isWide fill n b.size.1.toNat start.1.toNat lines line d.position pieces
  modified : d.modified = pieces.length
  cells : ∀ x y cell, (∃ run ∈ d.drawn, run.Shows x y cell) ↔ b.bounds.Contains x y ∧
    ∃ piece, pieceAt pieces (ahead b.size start x y) = some piece ∧ piece.on (b.cell x y) = cell

theorem Drawn.step {lines line : ℕ} {d : Drawing} {pieces : List Piece} (hb : b.Sized)
    (hstart : b.bounds.Contains start.1 start.2) (hlines : lines = (b.size.2 - start.2).toNat)
    (hline : line < lines) (h : Drawn isWide fill n b start lines line d pieces) :
    ∃ d' pieces', drawLine isWide b fill (fill.len n) d (if line = 0 then start.1 else 0)
      (start.2 + line) = some d' ∧ Drawn isWide fill n b start lines (line + 1) d' pieces' := by
  by_cases hposition : d.position < fill.len n
  · obtain ⟨hx, hy⟩ := contains_bounds.mp hstart
    obtain ⟨hwidth, hfirst, hlt, hbegins, hlt'⟩ := line_begins line hstart
    obtain ⟨d', cells, row, more, hd', hrow, hat, hmodified, hcells⟩ :=
      exists_drawLine_spec (y := start.2 + line) hb hwidth hlt' hposition
    have hreached := h.reaches.ends.resolve_left hposition.ne
    refine ⟨d', pieces ++ more, hbegins ▸ hd', hat ▸ h.reaches.step hlt hline hposition hrow, ?_,
      fun x y cell => ?_⟩
    · rw [hmodified, h.modified, length_append]
    · rw [hcells, h.cells]
      constructor
      · rintro (⟨hxy, piece, hpiece, hcell⟩ | ⟨hinside, piece, hpiece, hcell⟩)
        · obtain ⟨hinline, helse⟩ := pieceAt_line y hwidth hfirst hlt
            (contains_bounds.mp hxy).1 hreached hrow.within
          refine ⟨hxy, piece, ?_, hcell⟩
          rw [helse, hpiece]
          intro hinside
          rw [(hinline hinside).1] at hpiece
          exact absurd hpiece (by simp)
        · obtain ⟨hshort, -⟩ := List.getElem?_eq_some_iff.mp hpiece
          have hwithin := hrow.within
          have hxy : b.bounds.Contains x y := contains_bounds.mpr (by omega)
          obtain ⟨hinline, -⟩ := pieceAt_line y hwidth hfirst hlt
            (contains_bounds.mp hxy).1 hreached hrow.within
          exact ⟨hxy, piece, (hinline hinside).2.trans hpiece, hcell⟩
      · rintro ⟨hxy, piece, hpiece, hcell⟩
        obtain ⟨hinline, helse⟩ := pieceAt_line y hwidth hfirst hlt
          (contains_bounds.mp hxy).1 hreached hrow.within
        by_cases hinside : y = start.2 + line ∧ (lineFirst start.1.toNat line : ℤ) ≤ x
        · exact .inr ⟨hinside, piece, (hinline hinside).2.symm.trans hpiece, hcell⟩
        · exact .inl ⟨hxy, piece, (helse hinside).symm.trans hpiece, hcell⟩
  · exact ⟨d, pieces, if_neg hposition, h.reaches.skip hposition, h.modified, h.cells⟩

theorem drawsInOrder (hb : b.Sized) (start : Coord) (fill : Fill) (n : ℕ) :
    DrawsInOrder isWide b start fill n := by
  by_cases hgoes : b.bounds.Contains start.1 start.2 ∧ n ≠ 0
  · obtain ⟨hstart, hn⟩ := hgoes
    obtain ⟨hx, hy⟩ := contains_bounds.mp hstart
    have hlines : ∀ line ≤ (b.size.2 - start.2).toNat, ∃ d pieces,
        (List.range line).foldlM (fun d (line : ℕ) => drawLine isWide b fill (fill.len n) d
          (if line = 0 then start.1 else 0) (start.2 + line)) ⟨[], 0, 0⟩ = some d ∧
        Drawn isWide fill n b start (b.size.2 - start.2).toNat line d pieces := by
      intro line
      induction line with
      | zero =>
        intro _
        refine ⟨⟨[], 0, 0⟩, [], rfl, .start .., rfl, fun x y cell => ?_⟩
        simp [pieceAt]
      | succ line ih =>
        intro hline
        obtain ⟨d, pieces, hd, hdrawn⟩ := ih (Nat.le_of_succ_le hline)
        obtain ⟨d', pieces', hd', hdrawn'⟩ := hdrawn.step hb hstart rfl hline
        refine ⟨d', pieces', ?_, hdrawn'⟩
        rw [range_succ, foldlM_append, Option.bind_eq_bind, hd, Option.bind_some,
          foldlM_cons, Option.bind_eq_bind, hd', Option.bind_some]
        rfl
    obtain ⟨d, pieces, hd, hdrawn⟩ := hlines _ le_rfl
    have hdone := hdrawn.reaches.done
    rw [lineOffset_eq_ahead hstart] at hdone
    refine ⟨d, ?_, ?_⟩
    · rw [drawFill, if_neg (by omega)]
      exact hd
    · rw [if_pos ⟨hstart, hn⟩, hdone]
      exact ⟨rfl, hdrawn.modified, hdrawn.cells⟩
  · refine ⟨⟨[], 0, 0⟩, ?_, (if_neg hgoes).symm ▸ rfl⟩
    rw [contains_bounds] at hgoes
    rw [drawFill, if_pos (by omega)]

end Fills

end Lines

end Zetta.Console.ScreenBuffer
