import Mathlib

/-!
# Resizing the normal screen

A grid of the emulated terminal is a list of rows of cells. A row that is wrapped continues on
the row below; a wide character takes two cells, the second of which is its continuation.

* `setSize` is the resize by coordinates: rows and columns are cut off or added.
* `setSizeReflow` rebuilds the logical lines for the new width: `reflowRows` reads the cells of
  the old rows one after another (`cellStep`), starts a new row where the next does not fit, and
  notes where the two cursors come to stand. Blank rows below the cursor go first if there are
  too many rows then, and the first rows are evicted if there are still too many.

The display width of a character is a parameter (`charWidth`), the attributes of a cell are any
type with a default. A row has the columns of its grid, so that the cells read and written below
are there.
-/

namespace Zetta.Vt100.Reflow

/-! ### Cells and rows -/

/-- One cell: its characters, the two marks of wide characters, and the attributes. -/
structure Cell (A : Type) where
  contents : List Char
  isWide : Bool
  isWideContinuation : Bool
  attrs : A
  deriving DecidableEq

namespace Cell

variable {A : Type}

/-- An empty cell. -/
def new [Inhabited A] : Cell A := ⟨[], false, false, default⟩

def clear (_ : Cell A) (attrs : A) : Cell A := ⟨[], false, false, attrs⟩

def setWide (c : Cell A) (wide : Bool) : Cell A := { c with isWide := wide }

def setWideContinuation (c : Cell A) (wide : Bool) : Cell A :=
  { c with isWideContinuation := wide }

/-- The columns a cell takes: two if it is marked as wide, or holds a wide character. -/
def width (charWidth : Char → Option ℕ) (c : Cell A) : ℕ :=
  if c.isWide || decide (c.contents.head?.bind charWidth = some 2) then 2 else 1

end Cell

/-- A row of cells, and whether its line continues on the next. -/
structure Row (A : Type) where
  cells : List (Cell A)
  wrapped : Bool

namespace Row

variable {A : Type} [Inhabited A]

def new (cols : ℕ) : Row A := ⟨List.replicate cols .new, false⟩

def cols (row : Row A) : ℕ := row.cells.length

def get (row : Row A) (col : ℕ) : Option (Cell A) := row.cells[col]?

/-- Writes one cell. -/
def put (row : Row A) (col : ℕ) (cell : Cell A) : Row A :=
  { row with cells := row.cells.set col cell }

def wrap (row : Row A) (wrap : Bool) : Row A := { row with wrapped := wrap }

/-- Columns are cut off or added at the right; the row is not wrapped any more. -/
def resize (row : Row A) (len : ℕ) : Row A :=
  ⟨row.cells.take len ++ List.replicate (len - row.cols) .new, false⟩

/-- Nothing is in the row, and it ends its line. -/
def isBlank [DecidableEq A] (row : Row A) : Bool :=
  !row.wrapped && row.cells.all fun cell => cell = .new

end Row

/-! ### Grids -/

structure Size where
  rows : ℕ
  cols : ℕ
  deriving DecidableEq

structure Pos where
  row : ℕ
  col : ℕ
  deriving DecidableEq

/-- The part of a grid that a resize reads: its size, the cursor and the saved one, the rows, and
the scrolling region. -/
structure Grid (A : Type) where
  size : Size
  pos : Pos
  savedPos : Pos
  rows : List (Row A)
  scrollTop : ℕ
  scrollBottom : ℕ

/-- A position in the rows of a reflow, before any is evicted. -/
structure ReflowPosition where
  row : ℕ
  col : ℕ

/-- The position when the first rows are gone. -/
def ReflowPosition.clamped (p : ReflowPosition) (overflow : ℕ) : Pos :=
  ⟨min (p.row - overflow) (2 ^ 16 - 1), p.col⟩

/-- What a reflow has built: complete rows, the row being filled up to a column, and where the
cursors have come to stand. -/
structure Reflowed (A : Type) where
  result : List (Row A)
  row : Row A
  column : ℕ
  pos : ReflowPosition
  savedPos : ReflowPosition

namespace Grid

variable {A : Type} [DecidableEq A] [Inhabited A]

def scrollRegionActive (g : Grid A) : Bool :=
  decide (g.scrollTop ≠ 0) || decide (g.scrollBottom ≠ g.size.rows - 1)

/-- `set_size`: the cells stay at their coordinates. -/
def setSize (g : Grid A) (size : Size) : Grid A :=
  let unwrapped := if size.cols ≠ g.size.cols then g.rows.map (Row.wrap · false) else g.rows
  let resized := unwrapped.map fun row => if row.cols ≠ size.cols then row.resize size.cols else row
  let bottom := if g.scrollBottom = g.size.rows - 1 then size.rows - 1 else g.scrollBottom
  let bottom := if size.rows ≤ bottom then size.rows - 1 else bottom
  { size := size
    pos := ⟨min g.pos.row (size.rows - 1), min g.pos.col (size.cols - 1)⟩
    savedPos := ⟨min g.savedPos.row (size.rows - 1), min g.savedPos.col (size.cols - 1)⟩
    rows := resized.take size.rows ++ List.replicate (size.rows - resized.length) (.new size.cols)
    scrollTop := if bottom < g.scrollTop then 0 else g.scrollTop
    scrollBottom := bottom }

/-! ### Rebuilding the lines -/

/-- The last cell of a wrapped row is empty because a wide character did not fit in it: it is not
part of the logical line. -/
def isPadded (g : Grid A) (y : ℕ) (source : Row A) : Bool :=
  decide (source.get (g.size.cols - 1) = some .new) &&
    (g.rows[y + 1]?).any fun next => (next.get 0).any Cell.isWide

/-- The columns of a row that something is in: all of a wrapped row, and those up to the last
cell that is not empty of another. -/
def contentEnd (g : Grid A) (y : ℕ) (source : Row A) : ℕ :=
  if source.wrapped then g.size.cols - (if g.isPadded y source then 1 else 0)
  else
    ((List.range g.size.cols).reverse.find? fun x =>
      (source.get x).any fun cell => cell ≠ .new).elim 0 (· + 1)

/-- The columns of a row that are read: those that something is in, and those before a cursor. -/
def rowEnd (g : Grid A) (y : ℕ) (source : Row A) : ℕ :=
  max (max (g.contentEnd y source) (if y = g.pos.row then g.pos.col else 0))
    (if y = g.savedPos.row then g.savedPos.col else 0)

variable (charWidth : Char → Option ℕ)

/-- One cell of an old row, or its end. -/
def cellStep (g : Grid A) (cols y : ℕ) (source : Row A) (s : Reflowed A) (x : ℕ) : Reflowed A :=
  let last := g.rowEnd y source
  let cell := source.get x
  let width := (cell.map (Cell.width charWidth)).getD 1
  let continuation := cell.any Cell.isWideContinuation
  -- the cell does not fit in the row any more
  let s :=
    if x < last ∧ continuation = false ∧ 0 < s.column ∧ cols - s.column < width then
      { s with result := s.result ++ [s.row.wrap true], row := .new cols, column := 0 }
    else s
  let mapped : ReflowPosition := ⟨s.result.length, s.column⟩
  let s := if y = g.pos.row ∧ x = g.pos.col then { s with pos := mapped } else s
  let s := if y = g.savedPos.row ∧ x = g.savedPos.col then { s with savedPos := mapped } else s
  if x = last ∨ continuation = true then s
  else
    let row :=
      match cell with
      | none => s.row
      | some cell =>
        let row := s.row.put s.column (cell.setWide (width = 2 && 1 < cols))
        if width = 2 ∧ 1 < cols then
          row.put (s.column + 1) ((Cell.clear .new cell.attrs).setWideContinuation true)
        else row
    { s with row := row, column := s.column + min width cols }

/-- One old row. -/
def rowStep (g : Grid A) (cols : ℕ) (s : Reflowed A) (y : ℕ) (source : Row A) : Reflowed A :=
  let s := (List.range (g.rowEnd y source + 1)).foldl (g.cellStep charWidth cols y source) s
  if source.wrapped then s
  else { s with result := s.result ++ [s.row], row := .new cols, column := 0 }

/-- The old rows at the new width, and where the cursors come to stand. -/
def reflowRows (g : Grid A) (cols : ℕ) : List (Row A) × ReflowPosition × ReflowPosition :=
  let s := g.rows.zipIdx.foldl (fun s x => g.rowStep charWidth cols s x.2 x.1)
    ⟨[], .new cols, 0, ⟨0, 0⟩, ⟨0, 0⟩⟩
  (if g.rows.getLast?.any Row.wrapped then s.result ++ [s.row] else s.result, s.pos, s.savedPos)

/-- Blank rows at the end of a list, given in reverse, are dropped as long as there are more than
`height` rows and the cursor's, which is at `keep`, is not the last one. -/
def dropBlank (height keep : ℕ) : List (Row A) → List (Row A)
  | [] => []
  | row :: above =>
    if height < above.length + 1 ∧ keep + 1 < above.length + 1 ∧ row.isBlank then
      dropBlank height keep above
    else row :: above

/-- `set_size_reflow`: the grid at the new size, and the rows that are evicted from its top. -/
def setSizeReflow (g : Grid A) (size : Size) : Grid A × List (Row A) :=
  if g.size = size then (g, [])
  else if g.scrollRegionActive || g.rows.isEmpty then (g.setSize size, [])
  else
    let (rows, pos, savedPos) := g.reflowRows charWidth size.cols
    let rows := (dropBlank size.rows pos.row rows.reverse).reverse
    let overflow := rows.length - size.rows
    let resized := { g with
      rows := rows.drop overflow
      pos := pos.clamped overflow
      savedPos := savedPos.clamped overflow
      size := { g.size with cols := size.cols } }.setSize size
    ({ resized with pos := { resized.pos with col := min pos.col size.cols } },
      rows.take overflow)

end Grid

end Zetta.Vt100.Reflow
