import Zetta.Console.Integers
import Zetta.Lib.Run

/-!
# A screen buffer that is kept as cells

A buffer that is not on screen is a vector of cells with a size, a window and a cursor. Text,
cells, fills and scrolls are written to it directly, and a window or size change reallocates it.
Indexing outside the vector, slicing outside a row and `i16` or `i32` overflow panic, and here
they are `none`.

* `ScreenBuffer.WellFormed`: both sizes are positive, there are as many cells as the sizes say, the
  cursor is inside the buffer and the window no larger than it.
* `ScreenBuffer.exists_writeText`: text of any kind can be written to a well-formed buffer, and
  leaves it so.
* `ScreenBuffer.Recelled`: reading and writing cells never fails and changes nothing but the cells
  (`exists_writeRect`, `exists_fill`, `exists_writeOutput`, `exists_scrollRegion`).
* `ScreenBuffer.exists_resize`: a buffer can be given any positive size.
-/

namespace Zetta.Console

/-- A column and a row, or a width and a height. -/
abbrev Coord := ℤ × ℤ

/-! ### Rectangles -/

/-- An inclusive rectangle. -/
structure Rect where
  left : ℤ
  top : ℤ
  right : ℤ
  bottom : ℤ

namespace Rect

def fromSize (size : Coord) : Rect := ⟨0, 0, size.1 - 1, size.2 - 1⟩

def IsValid (r : Rect) : Prop := r.left ≤ r.right ∧ r.top ≤ r.bottom

instance (r : Rect) : Decidable r.IsValid := inferInstanceAs (Decidable (_ ∧ _))

def width (r : Rect) : ℤ := r.right - r.left + 1

def height (r : Rect) : ℤ := r.bottom - r.top + 1

/-- The intersection. -/
def clamp (r bounds : Rect) : Rect :=
  ⟨max r.left bounds.left, max r.top bounds.top, min r.right bounds.right,
    min r.bottom bounds.bottom⟩

def offset (r : Rect) (d : Coord) : Rect :=
  ⟨r.left + d.1, r.top + d.2, r.right + d.1, r.bottom + d.2⟩

end Rect

/-! ### Cells -/

structure CharInfo where
  ch : UInt16
  attributes : UInt16
  deriving DecidableEq

def CharInfo.blank (attributes : UInt16) : CharInfo := ⟨32, attributes⟩

def LEADING_BYTE : UInt16 := 0x0100

def TRAILING_BYTE : UInt16 := 0x0200

/-- What marks the halves of a wide character. -/
def DBCS : UInt16 := LEADING_BYTE ||| TRAILING_BYTE

namespace Mode

def PROCESSED_OUTPUT : UInt32 := 0x0001
def WRAP_AT_EOL_OUTPUT : UInt32 := 0x0002
def VIRTUAL_TERMINAL_PROCESSING : UInt32 := 0x0004
def DISABLE_NEWLINE_AUTO_RETURN : UInt32 := 0x0008
def LVB_GRID_WORLDWIDE : UInt32 := 0x0010

def OUTPUT_MODES : UInt32 :=
  PROCESSED_OUTPUT ||| WRAP_AT_EOL_OUTPUT ||| VIRTUAL_TERMINAL_PROCESSING |||
    DISABLE_NEWLINE_AUTO_RETURN ||| LVB_GRID_WORLDWIDE

end Mode

/-- `cells[index] = cell`, which panics outside the vector. -/
def setCell (cells : List CharInfo) (index : ℤ) (cell : CharInfo) : Option (List CharInfo) :=
  if 0 ≤ index ∧ index < cells.length then some (cells.set index.toNat cell) else none

/-- `&list[first..last]`, which panics outside the list. -/
def slice {α : Type} (list : List α) (first last : ℕ) : Option (List α) :=
  if first ≤ last ∧ last ≤ list.length then some ((list.take last).drop first) else none

/-! ### The buffer -/

/-- The settings that belong to whichever buffer is on screen. -/
structure Saved where
  outputMode : UInt32
  cursorSize : ℕ
  attributes : UInt16
  cursorVisible : Bool
  cursor : Coord
  deriving DecidableEq

structure ScreenBuffer where
  size : Coord
  /-- The size of the window; its origin is the buffer's. -/
  window : Coord
  cells : List CharInfo
  saved : Saved
  /-- The open handles. -/
  handles : ℕ
  dirty : Bool
  deriving DecidableEq

/-- How a request ends. -/
inductive Status
  | ok
  | invalidParameter
  | invalidHandle
  | invalidFunction
  deriving DecidableEq

namespace ScreenBuffer

variable (b : ScreenBuffer)

def index (x y : ℤ) : Option ℤ :=
  if (0 ≤ x ∧ x < b.size.1) ∧ (0 ≤ y ∧ y < b.size.2) then some (y * b.size.1 + x) else none

/-- What fits stays where it was; the rest is blank. -/
def resize (size : Coord) : Option ScreenBuffer := do
  let blank := CharInfo.blank b.saved.attributes
  let width := size.1.toNat
  let oldWidth := b.size.1.toNat
  let cells := (List.range (width * size.2.toNat)).map fun i =>
    if i % width < oldWidth ∧ i / width < b.size.2.toNat then
      b.cells.getD (i / width * oldWidth + i % width) blank
    else blank
  let right ← i16 (size.1 - 1)
  let bottom ← i16 (size.2 - 1)
  return { b with
    size := size
    window := (min b.window.1 size.1, min b.window.2 size.2)
    cells := cells
    saved := { b.saved with
      cursor := (max (min b.saved.cursor.1 right) 0, max (min b.saved.cursor.2 bottom) 0) }
    dirty := true }

/-! #### Text -/

/-- What of the text is being passed over. -/
inductive Skip
  | nothing
  /-- The character after an escape. -/
  | escape
  /-- The rest of a control sequence. -/
  | sequence

/-- How far a text has been written. -/
structure Writing where
  skip : Skip
  x : ℤ
  y : ℤ
  cells : List CharInfo

section Text

def newline (w : Writing) : Option Writing :=
  if b.size.2 ≤ w.y + 1 then
    if w.cells.length < b.size.1.toNat then none
    else some { w with
      y := b.size.2 - 1
      cells := w.cells.drop b.size.1.toNat ++
        List.replicate b.size.1.toNat (.blank b.saved.attributes) }
  else some { w with y := w.y + 1 }

/-- A character that is not in the basic plane is a replacement character. -/
def unit (c : Char) : UInt16 := if c.toNat < 65536 then .ofNat c.toNat else 0xfffd

/-- The cursor after a character in its column: a buffer for VT text defers the wrap to the next
character, the others wrap at once or not at all. -/
def advance (w : Writing) : Option Writing :=
  let w := { w with x := w.x + 1 }
  if b.size.1 ≤ w.x ∧ b.saved.outputMode &&& Mode.WRAP_AT_EOL_OUTPUT = 0 then
    some { w with x := b.size.1 - 1 }
  else if b.size.1 ≤ w.x ∧ b.saved.outputMode &&& Mode.VIRTUAL_TERMINAL_PROCESSING = 0 then
    b.newline { w with x := 0 }
  else some w

/-- The wrap that was deferred to this character. -/
def wrap (w : Writing) : Option Writing :=
  if b.size.1 ≤ w.x then b.newline { w with x := 0 } else some w

def put (w : Writing) (c : Char) : Option Writing := do
  let w ← b.wrap w
  let cells ← setCell w.cells (w.y * b.size.1 + w.x) ⟨unit c, b.saved.attributes⟩
  b.advance { w with cells }

def writeChar (w : Writing) (c : Char) : Option Writing :=
  match w.skip with
  | .escape => some { w with skip := if c = '[' then .sequence else .nothing }
  | .sequence => some { w with skip := if '@' ≤ c ∧ c ≤ '~' then .nothing else .sequence }
  | .nothing =>
    if c = '\x1b' then some { w with skip := .escape }
    else if c = '\r' then some { w with x := 0 }
    else if c = '\n' then
      if b.saved.outputMode &&& Mode.DISABLE_NEWLINE_AUTO_RETURN = 0 then
        b.newline { w with x := 0 }
      else b.newline w
    else if c = '\x08' then some { w with x := max (w.x - 1) 0 }
    else if c = '\t' then some { w with x := min (w.x + 8 - w.x.tmod 8) (b.size.1 - 1) }
    else if c.toNat < 0x20 then some w
    else b.put w c

end Text

def writeText (text : List Char) : Option ScreenBuffer :=
  if b.size.1 ≤ 0 ∨ b.size.2 ≤ 0 then some b else do
    let w ← text.foldlM b.writeChar ⟨.nothing, b.saved.cursor.1, b.saved.cursor.2, b.cells⟩
    return { b with
      cells := w.cells
      saved := { b.saved with cursor := (asI16 (min w.x (b.size.1 - 1)), asI16 w.y) } }

/-! #### Cells -/

def cellAt (x y : ℤ) : Option CharInfo :=
  match b.index x y with
  | none => some (.blank b.saved.attributes)
  | some index => b.cells[index.toNat]?

/-- The cells of a rectangle, row by row; what is outside the buffer reads as blank. -/
def readRect (r : Rect) : Option (List CharInfo) :=
  if r.IsValid then
    (List.range (r.width * r.height).toNat).mapM fun k : ℕ =>
      b.cellAt (r.left + k % r.width) (r.top + k / r.width)
  else some []

def setCellAt (cells : List CharInfo) (x y : ℤ) (cell : CharInfo) : Option (List CharInfo) :=
  match b.index x y with
  | none => some cells
  | some index => setCell cells index cell

/-- Writes cells, row by row, into a rectangle; what is outside the buffer is dropped. -/
def writeRect (r : Rect) (input : List CharInfo) : Option ScreenBuffer :=
  if r.IsValid then do
    let cells ← input.zipIdx.foldlM (fun cells entry =>
      b.setCellAt cells (r.left + entry.2 % r.width) (r.top + entry.2 / r.width) entry.1) b.cells
    return { b with cells, dirty := true }
  else some b

/-- A row of the clipped rectangle, in the cells of the request. -/
def requestRow (request clipped : Rect) (all : List CharInfo) (row : ℕ) :
    Option (List CharInfo) :=
  let first := (clipped.top + row - request.top).toNat * request.width.toNat +
    (clipped.left - request.left).toNat
  slice all first (first + clipped.width.toNat)

/-- The cells of a request that are in a buffer of the given size. -/
def clipCells (size : Coord) (request : Rect) (all : List CharInfo) :
    Option (Status × List CharInfo) :=
  if request.IsValid then do
    let area ← i32 (request.width * request.height)
    if all.length < area then return (.invalidParameter, [])
    let clipped := request.clamp (.fromSize size)
    if ¬clipped.IsValid then return (.ok, [])
    let rows ← (List.range clipped.height.toNat).mapM (requestRow request clipped all)
    return (.ok, rows.flatten)
  else some (.invalidParameter, [])

/-- WriteConsoleOutput: what of the request fits the buffer is written. -/
def writeOutput (request : Rect) (all : List CharInfo) : Option (ScreenBuffer × Status) := do
  let (status, cells) ← clipCells b.size request all
  if status = .ok then
    (b.writeRect (request.clamp (.fromSize b.size)) cells).map (·, status)
  else return (b, status)

/-- ReadConsoleOutput: the cells of the request that are in the buffer, where they belong in the
caller's array. -/
def readOutput (request : Rect) (capacity : ℕ) : Option (Status × List CharInfo) :=
  let all := List.replicate (request.width.toNat * request.height.toNat) ⟨0, 0⟩
  if request.IsValid ∧ all.length * 4 ≤ capacity then do
    let clipped := request.clamp (.fromSize b.size)
    if ¬clipped.IsValid then return (.ok, all)
    let cells ← b.readRect clipped
    let all ← cells.zipIdx.foldlM (fun all entry => setCell all
      ((clipped.top - request.top + entry.2 / clipped.width) * request.width +
        (clipped.left - request.left + entry.2 % clipped.width)) entry.1) all
    return (.ok, all)
  else some (.invalidParameter, [])

/-! #### Fills -/

/-- What a fill writes. -/
inductive Fill
  | attributes (input : List UInt16)
  | attribute (value : UInt16)
  | characters (input : List UInt16)
  | character (ch : UInt16)

namespace Fill

def len (fill : Fill) (length : ℕ) : ℕ :=
  match fill with
  | .attributes input | .characters input => input.length
  | .attribute _ | .character _ => length

/-- `input[position]`, or the one unit that is repeated. -/
def unit (fill : Fill) (position : ℕ) : Option UInt16 :=
  match fill with
  | .attributes input | .characters input => input[position]?
  | .attribute value => some value
  | .character ch => some ch

def isAttributes : Fill → Bool
  | .attributes _ | .attribute _ => true
  | .characters _ | .character _ => false

end Fill

/-- A row that is being filled, the columns used of it and the place in the input. -/
structure Row where
  cells : List CharInfo
  columns : ℕ
  position : ℕ

namespace Row

/-- A unit's character in the next column. -/
def put (row : Row) (ch wideHalf : UInt16) : Option Row := do
  let cell ← row.cells[row.columns]?
  return { row with
    cells := row.cells.set row.columns ⟨ch, (cell.attributes &&& ~~~DBCS) ||| wideHalf⟩
    columns := row.columns + 1 }

/-- Attributes for the next column, whose character stays. -/
def paint (row : Row) (attributes : UInt16) : Option Row := do
  let cell ← row.cells[row.columns]?
  return { row with
    cells := row.cells.set row.columns
      ⟨cell.ch, (attributes &&& ~~~DBCS) ||| (cell.attributes &&& DBCS)⟩
    columns := row.columns + 1 }

end Row

section Fill

-- Whether a unit is a character of two columns.
variable (isWide : UInt16 → Bool)

/-- One row of a fill. A wide character that would not fit the last column becomes a space and
ends the row. Every round uses a column, so a row's length bounds the rounds. -/
def fillRow (fill : Fill) (length : ℕ) : ℕ → Row → Option Row
  | 0, row => some row
  | rounds + 1, row =>
    if row.columns < row.cells.length ∧ row.position < length then do
      let unit ← fill.unit row.position
      if fill.isAttributes then
        let row ← row.paint unit
        fillRow fill length rounds { row with position := row.position + 1 }
      else if isWide unit then
        if row.cells.length ≤ row.columns + 1 then row.put 32 0
        else
          let row ← row.put unit LEADING_BYTE
          let row ← row.put unit TRAILING_BYTE
          fillRow fill length rounds { row with position := row.position + 1 }
      else
        let row ← row.put unit 0
        fillRow fill length rounds { row with position := row.position + 1 }
    else some row

/-- What a fill has got to: the buffer, how much of the input was used and how many cells
changed. -/
structure Filling where
  buffer : ScreenBuffer
  position : ℕ
  modified : ℕ

/-- One line of a fill, from the column it begins in. -/
def fillLine (fill : Fill) (length : ℕ) (f : Filling) (first y : ℤ) : Option Filling :=
  if f.position < length then do
    let r : Rect := ⟨first, y, f.buffer.size.1 - 1, y⟩
    let cells ← f.buffer.readRect r
    let row ← fillRow isWide fill length cells.length ⟨cells, 0, f.position⟩
    let written ← slice row.cells 0 row.columns
    let b ← f.buffer.writeRect { r with right := first + row.columns - 1 } written
    return ⟨b, row.position, f.modified + row.columns⟩
  else some f

/-- Fills consecutive rows from `start`. -/
def fill (b : ScreenBuffer) (start : Coord) (fill : Fill) (length : ℕ) : Option Filling :=
  if (start.1 < 0 ∨ start.2 < 0) ∨ (b.size.1 ≤ start.1 ∨ b.size.2 ≤ start.2) ∨ length = 0 then
    some ⟨b, 0, 0⟩
  else
    (List.range (b.size.2 - start.2).toNat).foldlM (fun f line =>
      fillLine isWide fill (fill.len length) f (if line = 0 then start.1 else 0) (start.2 + line))
      ⟨b, 0, 0⟩

end Fill

section Scroll

-- What a control character or an unpaired surrogate is shown as.
variable (sanitize : UInt16 → UInt16)

/-- Moves a rectangle and fills what it leaves. -/
def scrollRegion (b : ScreenBuffer) (current : UInt16) (source : Rect) (clip : Option Rect)
    (target : Coord) (fill : CharInfo) : Option ScreenBuffer :=
  if (source.left = target.1 ∧ source.top = target.2) ∨ ¬source.IsValid then some b else
    let bounds := Rect.fromSize b.size
    let clipRect := (clip.map (·.clamp bounds)).getD bounds
    let fillRect := source.clamp clipRect
    let distance : Coord := (target.1 - source.left, target.2 - source.top)
    let clipAtSource := clipRect.offset (-distance.1, -distance.2)
    let copySource := (source.clamp bounds).clamp clipAtSource
    let copyTarget := copySource.offset distance
    if ¬fillRect.IsValid ∧ ¬copyTarget.IsValid then some b else do
      let attributes := if fill.ch = 0 ∧ fill.attributes = 0 then current else fill.attributes
      let fill : CharInfo := ⟨sanitize fill.ch, attributes⟩
      -- Nothing is read of an empty rectangle.
      let backup ← b.readRect copySource
      let filled ← b.writeRect fillRect
        (List.replicate (fillRect.width * fillRect.height).toNat fill)
      if copyTarget.IsValid ∧ backup.length = (copySource.width * copySource.height).toNat then
        filled.writeRect copyTarget backup
      else some filled

end Scroll

/-! #### Size, window and settings -/

def setCursor (x y : ℤ) : ScreenBuffer × Status :=
  if 0 ≤ x ∧ 0 ≤ y ∧ x < b.size.1 ∧ y < b.size.2 then
    ({ b with saved := { b.saved with cursor := (x, y) }, dirty := true }, .ok)
  else (b, .invalidParameter)

/-- The window a request asks for: as it stands, or relative to the one there is. -/
def windowFor (current : Coord) (window : Rect) (absolute : Bool) : Rect :=
  if absolute then window
  else { window with
    right := window.right + current.1 - 1
    bottom := window.bottom + current.2 - 1 }

/-- The buffer becomes the window's size. -/
def setWindow (window : Rect) (absolute : Bool) : Option (ScreenBuffer × Status) :=
  let window := windowFor b.window window absolute
  if window.IsValid then do
    let size : Coord := (asI16 window.width, asI16 window.height)
    let b ← b.resize size
    return ({ b with window := size }, .ok)
  else some (b, .invalidParameter)

def setSize (size : Coord) : Option (ScreenBuffer × Status) :=
  if size.1 < b.window.1 ∨ size.2 < b.window.2 ∨ size.1 = I16_MAX ∨ size.2 = I16_MAX then
    some (b, .invalidParameter)
  else if size = b.size then some (b, .ok)
  else (b.resize size).map (·, .ok)

def setMode (value : UInt32) : ScreenBuffer × Status :=
  if value &&& ~~~Mode.OUTPUT_MODES = 0 then
    ({ b with saved := { b.saved with outputMode := value } }, .ok)
  else (b, .invalidParameter)

def setAttributes (attributes : UInt16) : ScreenBuffer :=
  { b with saved := { b.saved with attributes } }

def setCursorInfo (size : ℕ) (visible : Bool) : ScreenBuffer :=
  { b with saved := { b.saved with cursorSize := size, cursorVisible := visible } }

/-! ### Well-formed buffers -/

/-- What the operations rely on. -/
structure WellFormed (b : ScreenBuffer) : Prop where
  width : 0 < b.size.1 ∧ b.size.1 ≤ I16_MAX
  height : 0 < b.size.2 ∧ b.size.2 ≤ I16_MAX
  cells : (b.cells.length : ℤ) = b.size.1 * b.size.2
  column : 0 ≤ b.saved.cursor.1 ∧ b.saved.cursor.1 < b.size.1
  row : 0 ≤ b.saved.cursor.2 ∧ b.saved.cursor.2 < b.size.2
  window : (0 < b.window.1 ∧ b.window.1 ≤ b.size.1) ∧ 0 < b.window.2 ∧ b.window.2 ≤ b.size.2

/-- A place inside a rectangle of `w` columns and `h` rows is below its area. -/
theorem place_lt {x y w h : ℤ} (hx : 0 ≤ x ∧ x < w) (hy : 0 ≤ y ∧ y < h) :
    0 ≤ y * w + x ∧ y * w + x < w * h := by
  have hw : 0 ≤ w := hx.1.trans hx.2.le
  have hrow : y * w ≤ (h - 1) * w := mul_le_mul_of_nonneg_right (by omega) hw
  have hstart : 0 ≤ y * w := mul_nonneg hy.1 hw
  have harea : (h - 1) * w + w = w * h := by ring
  omega

theorem index_lt {b : ScreenBuffer} (h : (b.cells.length : ℤ) = b.size.1 * b.size.2) {x y i : ℤ}
    (hi : b.index x y = some i) : 0 ≤ i ∧ i < b.cells.length := by
  rw [index] at hi
  split_ifs at hi with hinside
  rw [← Option.some.inj hi, h]
  exact place_lt hinside.1 hinside.2

theorem setCell_of_lt {cells : List CharInfo} {i : ℤ} (h : 0 ≤ i ∧ i < cells.length)
    (cell : CharInfo) : setCell cells i cell = some (cells.set i.toNat cell) :=
  if_pos h

theorem exists_slice {α : Type} {list : List α} {first last : ℕ} (h : first ≤ last)
    (hlast : last ≤ list.length) : ∃ part, slice list first last = some part :=
  ⟨_, if_pos ⟨h, hlast⟩⟩

/-- Only the cells of a buffer changed, and not how many there are. -/
def Recelled (b t : ScreenBuffer) : Prop :=
  ∃ cells dirty, cells.length = b.cells.length ∧ t = { b with cells := cells, dirty := dirty }

namespace Recelled

variable {b t u : ScreenBuffer}

theorem refl (b : ScreenBuffer) : Recelled b b := ⟨b.cells, b.dirty, rfl, rfl⟩

theorem trans (h : Recelled b t) (h' : Recelled t u) : Recelled b u := by
  obtain ⟨cells, dirty, hlength, rfl⟩ := h
  obtain ⟨cells', dirty', hlength', rfl⟩ := h'
  exact ⟨cells', dirty', hlength'.trans hlength, rfl⟩

theorem size (h : Recelled b t) : t.size = b.size := by
  obtain ⟨cells, dirty, -, rfl⟩ := h
  rfl

theorem handles (h : Recelled b t) : t.handles = b.handles := by
  obtain ⟨cells, dirty, -, rfl⟩ := h
  rfl

theorem wellFormed (h : Recelled b t) (hb : b.WellFormed) : t.WellFormed := by
  obtain ⟨cells, dirty, hlength, rfl⟩ := h
  exact { hb with cells := (congrArg Nat.cast hlength).trans hb.cells }

end Recelled

/-! #### Text -/

section Text

variable {b : ScreenBuffer} {w : Writing}

/-- A text is being written at a place of the buffer, or past the end of a row. -/
structure Inside (b : ScreenBuffer) (w : Writing) : Prop where
  column : 0 ≤ w.x ∧ w.x ≤ b.size.1
  row : 0 ≤ w.y ∧ w.y < b.size.2
  cells : (w.cells.length : ℤ) = b.size.1 * b.size.2

theorem exists_newline (hb : b.WellFormed) (h : Inside b w) :
    ∃ w', b.newline w = some w' ∧ w'.x = w.x ∧ Inside b w' := by
  rw [newline]
  have hheight := hb.height.1
  by_cases hlast : b.size.2 ≤ w.y + 1
  · have hwidth : b.size.1 ≤ b.size.1 * b.size.2 := by
      nlinarith only [hb.width.1, hheight]
    have hdrain : b.size.1.toNat ≤ w.cells.length := by
      have := h.cells
      omega
    rw [if_pos hlast, if_neg (not_lt.mpr hdrain)]
    refine ⟨_, rfl, rfl, h.column, by dsimp only; omega, ?_⟩
    rw [List.length_append, List.length_drop, List.length_replicate, Nat.sub_add_cancel hdrain]
    exact h.cells
  · rw [if_neg hlast]
    have := h.row
    exact ⟨_, rfl, rfl, h.column, by dsimp only; omega, h.cells⟩

theorem Inside.carriageReturn (hb : b.WellFormed) (h : Inside b w) : Inside b { w with x := 0 } :=
  ⟨⟨le_rfl, hb.width.1.le⟩, h.row, h.cells⟩

theorem exists_advance (hb : b.WellFormed) (h : Inside b w) (hx : w.x < b.size.1) :
    ∃ w', b.advance w = some w' ∧ Inside b w' := by
  rw [advance]
  dsimp only
  have hcolumn := h.column
  split_ifs with hstop hwrap
  · exact ⟨_, rfl, by have := hb.width; dsimp only; omega, h.row, h.cells⟩
  · obtain ⟨w', hw, -, hinside⟩ := exists_newline hb (h.carriageReturn hb)
    exact ⟨w', hw, hinside⟩
  · exact ⟨_, rfl, by dsimp only; omega, h.row, h.cells⟩

theorem exists_wrap (hb : b.WellFormed) (h : Inside b w) :
    ∃ w', b.wrap w = some w' ∧ w'.x < b.size.1 ∧ Inside b w' := by
  rw [wrap]
  split_ifs with hx
  · obtain ⟨w', hw, hx', hinside⟩ := exists_newline hb (h.carriageReturn hb)
    exact ⟨w', hw, by rw [hx']; exact hb.width.1, hinside⟩
  · exact ⟨w, rfl, not_le.mp hx, h⟩

theorem exists_put (hb : b.WellFormed) (h : Inside b w) (c : Char) :
    ∃ w', b.put w c = some w' ∧ Inside b w' := by
  obtain ⟨w', hw, hx, hinside⟩ := exists_wrap hb h
  have hplace := place_lt ⟨hinside.column.1, hx⟩ hinside.row
  rw [← hinside.cells] at hplace
  obtain ⟨w'', hw', hinside'⟩ := exists_advance
    (w := { w' with cells := w'.cells.set (w'.y * b.size.1 + w'.x).toNat ⟨unit c, _⟩ }) hb
    ⟨hinside.column, hinside.row, by rw [List.length_set]; exact hinside.cells⟩ hx
  refine ⟨w'', ?_, hinside'⟩
  rw [put, Option.bind_eq_bind, hw, Option.bind_some, setCell_of_lt hplace]
  exact hw'

/-- **One character** can be written wherever the cursor has got to. -/
theorem exists_writeChar (hb : b.WellFormed) (h : Inside b w) (c : Char) :
    ∃ w', b.writeChar w c = some w' ∧ Inside b w' := by
  have hcolumn := h.column
  have hwidth := hb.width.1
  have skip : ∀ skip, ∃ w', some { w with skip := skip } = some w' ∧ Inside b w' :=
    fun skip => ⟨_, rfl, h.column, h.row, h.cells⟩
  have moved : ∀ x, 0 ≤ x → x ≤ b.size.1 → ∃ w', some { w with x := x } = some w' ∧ Inside b w' :=
    fun x hmin hmax => ⟨_, rfl, ⟨hmin, hmax⟩, h.row, h.cells⟩
  rw [writeChar]
  split
  · exact skip _
  · exact skip _
  · split_ifs
    · exact skip _
    · exact moved 0 le_rfl hwidth.le
    · obtain ⟨w', hw, -, hinside⟩ := exists_newline hb (h.carriageReturn hb)
      exact ⟨w', hw, hinside⟩
    · obtain ⟨w', hw, -, hinside⟩ := exists_newline hb h
      exact ⟨w', hw, hinside⟩
    · exact moved _ (le_max_right ..) (max_le (by omega) hwidth.le)
    · -- The next tab stop, or the last column.
      have hstop : w.x.tmod 8 < 8 := Int.tmod_lt_of_pos w.x (by decide)
      exact moved _ (le_min (by omega) (by omega)) (min_le_of_right_le (by omega))
    · exact ⟨w, rfl, h⟩
    · exact exists_put hb h c

/-- **Text** is written to a well-formed buffer without an index out of range. -/
theorem exists_writeText (hb : b.WellFormed) (text : List Char) :
    ∃ t, b.writeText text = some t ∧ t.WellFormed ∧ t.handles = b.handles := by
  have hstart : Inside b ⟨.nothing, b.saved.cursor.1, b.saved.cursor.2, b.cells⟩ :=
    ⟨⟨hb.column.1, hb.column.2.le⟩, hb.row, hb.cells⟩
  obtain ⟨w, hw, hinside⟩ := exists_foldlM (l := text)
    (fun _ c _ h => exists_writeChar hb h c) hstart
  have hcolumn := hinside.column
  have hrow := hinside.row
  have hx : asI16 (min w.x (b.size.1 - 1)) = min w.x (b.size.1 - 1) :=
    asI16_of_le (by have := hb.width; omega) (by have := hb.width; omega)
  have hy : asI16 w.y = w.y := asI16_of_le hrow.1 (by have := hb.height; omega)
  have hpositive : ¬(b.size.1 ≤ 0 ∨ b.size.2 ≤ 0) := by
    have := hb.width.1
    have := hb.height.1
    omega
  rw [writeText, if_neg hpositive, Option.bind_eq_bind, hw, Option.bind_some]
  refine ⟨_, rfl, ⟨hb.width, hb.height, hinside.cells, ?_, ?_, hb.window⟩, rfl⟩
  · have := hb.width.1
    dsimp only
    rw [hx]
    omega
  · dsimp only
    rw [hy]
    exact hrow

end Text

/-! #### Cells -/

section Cells

variable {b : ScreenBuffer}

theorem exists_readRect (hb : b.WellFormed) (r : Rect) :
    ∃ cells, b.readRect r = some cells ∧
      (r.IsValid → cells.length = (r.width * r.height).toNat) := by
  rw [readRect]
  split_ifs with hvalid
  · obtain ⟨cells, hcells, hlength⟩ := exists_mapM (l := List.range (r.width * r.height).toNat)
      (f := fun k : ℕ => b.cellAt (r.left + k % r.width) (r.top + k / r.width)) fun k _ => by
      rw [cellAt]
      split
      next => exact ⟨_, rfl⟩
      next i hi =>
        obtain ⟨hmin, hmax⟩ := index_lt hb.cells hi
        exact ⟨_, List.getElem?_eq_getElem (by omega)⟩
    exact ⟨cells, hcells, fun _ => by rw [hlength, List.length_range]⟩
  · exact ⟨[], rfl, fun h => absurd h hvalid⟩

theorem exists_writeRect (hb : b.WellFormed) (r : Rect) (input : List CharInfo) :
    ∃ t, b.writeRect r input = some t ∧ Recelled b t := by
  rw [writeRect]
  split_ifs with hvalid
  · obtain ⟨cells, hcells, hlength⟩ := exists_foldlM (l := input.zipIdx)
      (f := fun cells entry =>
        b.setCellAt cells (r.left + entry.2 % r.width) (r.top + entry.2 / r.width) entry.1)
      (I := fun cells => cells.length = b.cells.length) (fun cells entry _ hlength => by
        rw [setCellAt]
        split
        next => exact ⟨cells, rfl, hlength⟩
        next i hi =>
          have hlt := index_lt hb.cells hi
          rw [← hlength] at hlt
          exact ⟨_, setCell_of_lt hlt _, by rw [List.length_set, hlength]⟩) rfl
    rw [Option.bind_eq_bind, hcells]
    exact ⟨_, rfl, cells, true, hlength, rfl⟩
  · exact ⟨b, rfl, .refl b⟩

/-- The part of a request that is in the buffer. -/
structure Part (request clipped : Rect) : Prop where
  valid : request.IsValid
  inside : clipped.IsValid
  left : request.left ≤ clipped.left
  right : clipped.right ≤ request.right
  top : request.top ≤ clipped.top
  bottom : clipped.bottom ≤ request.bottom

variable {request : Rect}

theorem part_clamp {bounds : Rect} (h : request.IsValid) (hc : (request.clamp bounds).IsValid) :
    Part request (request.clamp bounds) :=
  ⟨h, hc, le_max_left .., min_le_left .., le_max_left .., min_le_left ..⟩

namespace Part

variable {request clipped : Rect}

theorem width_pos (h : Part request clipped) : 0 < request.width := by
  have := h.valid.1
  rw [Rect.width]
  omega

theorem height_pos (h : Part request clipped) : 0 < request.height := by
  have := h.valid.2
  rw [Rect.height]
  omega

/-- Where a cell of the part is in the request. -/
theorem place_lt (h : Part request clipped) {column row : ℤ}
    (hcolumn : 0 ≤ column ∧ column < clipped.width) (hrow : 0 ≤ row ∧ row < clipped.height) :
    0 ≤ (clipped.top - request.top + row) * request.width +
        (clipped.left - request.left + column) ∧
      (clipped.top - request.top + row) * request.width +
        (clipped.left - request.left + column) < request.width * request.height := by
  obtain ⟨-, -, hleft, hright, htop, hbottom⟩ := h
  refine ScreenBuffer.place_lt ?_ ?_
  · rw [Rect.width] at hcolumn ⊢
    omega
  · rw [Rect.height] at hrow ⊢
    omega

end Part

theorem exists_requestRow {clipped : Rect} (h : Part request clipped) {all : List CharInfo}
    (hall : request.width * request.height ≤ all.length) {row : ℕ} (hrow : row < clipped.height) :
    ∃ cells, requestRow request clipped all row = some cells := by
  refine exists_slice (Nat.le_add_right ..) ?_
  have hcolumns := h.inside.1
  have hcolumn : 0 ≤ clipped.width - 1 ∧ clipped.width - 1 < clipped.width := by
    rw [Rect.width]
    omega
  have hplace : 0 ≤ (row : ℤ) ∧ (row : ℤ) < clipped.height := ⟨Int.natCast_nonneg _, hrow⟩
  have hlast := h.place_lt hcolumn hplace
  have hwidth : clipped.width.toNat = clipped.width :=
    Int.toNat_of_nonneg (by rw [Rect.width]; omega)
  have hleft : ((clipped.left - request.left).toNat : ℤ) = clipped.left - request.left :=
    Int.toNat_of_nonneg (by have := h.left; omega)
  have htop : (((clipped.top + row - request.top).toNat * request.width.toNat : ℕ) : ℤ) =
      (clipped.top - request.top + row) * request.width := by
    have := h.top
    rw [Nat.cast_mul, Int.toNat_of_nonneg (by omega), Int.toNat_of_nonneg h.width_pos.le]
    congr 1
    omega
  omega

theorem exists_clipCells (size : Coord) (all : List CharInfo)
    (harea : request.IsValid → request.width * request.height ≤ I32_MAX) :
    ∃ status cells, clipCells size request all = some (status, cells) := by
  rw [clipCells]
  by_cases hvalid : request.IsValid
  · have hpositive : 0 ≤ request.width * request.height := by
      have := hvalid.1
      have := hvalid.2
      exact mul_nonneg (by rw [Rect.width]; omega) (by rw [Rect.height]; omega)
    rw [if_pos hvalid, Option.bind_eq_bind, i32_of_le (by omega) (harea hvalid), Option.bind_some]
    by_cases hshort : (all.length : ℤ) < request.width * request.height
    · rw [if_pos hshort]
      exact ⟨_, _, rfl⟩
    rw [if_neg hshort]
    by_cases hinside : (request.clamp (.fromSize size)).IsValid
    · have hpart := part_clamp hvalid hinside
      obtain ⟨rows, hrows, -⟩ := exists_mapM
        (l := List.range (request.clamp (.fromSize size)).height.toNat)
        (f := requestRow request (request.clamp (.fromSize size)) all) fun row hrow =>
          exists_requestRow hpart (not_lt.mp hshort) (by have := List.mem_range.mp hrow; omega)
      rw [if_neg (not_not.mpr hinside), hrows]
      exact ⟨_, _, rfl⟩
    · rw [if_pos hinside]
      exact ⟨_, _, rfl⟩
  · rw [if_neg hvalid]
    exact ⟨_, _, rfl⟩

theorem exists_writeOutput (hb : b.WellFormed) (all : List CharInfo)
    (harea : request.IsValid → request.width * request.height ≤ I32_MAX) :
    ∃ t status, b.writeOutput request all = some (t, status) ∧ Recelled b t := by
  obtain ⟨status, cells, hclip⟩ := exists_clipCells b.size all harea
  rw [writeOutput, hclip, Option.bind_eq_bind, Option.bind_some]
  dsimp only
  split_ifs
  · obtain ⟨t, ht, hrecelled⟩ := exists_writeRect hb (request.clamp (.fromSize b.size)) cells
    rw [ht]
    exact ⟨t, _, rfl, hrecelled⟩
  · exact ⟨b, _, rfl, .refl b⟩

theorem exists_readOutput (hb : b.WellFormed) (request : Rect) (capacity : ℕ) :
    ∃ status cells, b.readOutput request capacity = some (status, cells) := by
  rw [readOutput]
  dsimp only
  split_ifs with hvalid hinside
  · have hpart := part_clamp hvalid.1 hinside
    obtain ⟨cells, hcells, hlength⟩ := exists_readRect hb (request.clamp (.fromSize b.size))
    have hlength := hlength hpart.inside
    generalize request.clamp (.fromSize b.size) = clipped at *
    have hwidth : 0 < clipped.width := by
      have := hpart.inside.1
      rw [Rect.width]
      omega
    obtain ⟨all, hall, -⟩ := exists_foldlM (l := cells.zipIdx)
      (f := fun all entry => setCell all
        ((clipped.top - request.top + entry.2 / clipped.width) * request.width +
          (clipped.left - request.left + entry.2 % clipped.width)) entry.1)
      (s := List.replicate (request.width.toNat * request.height.toNat) ⟨0, 0⟩)
      (I := fun all => (all.length : ℤ) = request.width * request.height)
      (fun all entry hentry hall => by
        have hplace := (List.mem_zipIdx hentry).2.1
        rw [Nat.zero_add, hlength] at hplace
        have hrow : (entry.2 : ℤ) / clipped.width < clipped.height :=
          Int.ediv_lt_of_lt_mul hwidth (by rw [mul_comm]; omega)
        have hlt := hpart.place_lt
          ⟨Int.emod_nonneg entry.2 hwidth.ne', Int.emod_lt_of_pos entry.2 hwidth⟩
          ⟨Int.ediv_nonneg (Int.natCast_nonneg entry.2) hwidth.le, hrow⟩
        rw [← hall] at hlt
        exact ⟨_, setCell_of_lt hlt _, by rw [List.length_set, hall]⟩) (by
        rw [List.length_replicate, Nat.cast_mul, Int.toNat_of_nonneg hpart.width_pos.le,
          Int.toNat_of_nonneg hpart.height_pos.le])
    rw [Option.bind_eq_bind, hcells, Option.bind_some, hall]
    exact ⟨_, _, rfl⟩
  · exact ⟨_, _, rfl⟩
  · exact ⟨_, _, rfl⟩

end Cells

/-! #### Fills and scrolls -/

section Fill

variable {b : ScreenBuffer} (isWide : UInt16 → Bool) {n : ℕ}

theorem exists_unit {fill : Fill} {position : ℕ} (h : position < fill.len n) :
    ∃ unit, fill.unit position = some unit := by
  rcases fill with input | value | input | ch
  · exact ⟨_, List.getElem?_eq_getElem h⟩
  · exact ⟨value, rfl⟩
  · exact ⟨_, List.getElem?_eq_getElem h⟩
  · exact ⟨ch, rfl⟩

namespace Row

variable {row : Row}

/-- What one column of a fill does to the row. -/
def Extends (row row' : Row) : Prop :=
  row'.columns = row.columns + 1 ∧ row'.cells.length = row.cells.length

theorem exists_put (h : row.columns < row.cells.length) (ch wideHalf : UInt16) :
    ∃ row', row.put ch wideHalf = some row' ∧ row.Extends row' := by
  rw [put, List.getElem?_eq_getElem h]
  exact ⟨_, rfl, rfl, List.length_set⟩

theorem exists_paint (h : row.columns < row.cells.length) (attributes : UInt16) :
    ∃ row', row.paint attributes = some row' ∧ row.Extends row' := by
  rw [paint, List.getElem?_eq_getElem h]
  exact ⟨_, rfl, rfl, List.length_set⟩

end Row

/-- **A row** is filled within its columns. The induction is on the rounds, each of which begins
inside the row. -/
theorem exists_fillRow {fill : Fill} (rounds : ℕ) {row : Row} (h : row.columns ≤ row.cells.length) :
    ∃ row', fillRow isWide fill (fill.len n) rounds row = some row' ∧
      row'.columns ≤ row'.cells.length := by
  induction rounds generalizing row with
  | zero => exact ⟨row, rfl, h⟩
  | succ rounds ih =>
    rw [fillRow]
    by_cases hmore : row.columns < row.cells.length ∧ row.position < fill.len n
    · obtain ⟨unit, hunit⟩ := exists_unit hmore.2
      rw [if_pos hmore, Option.bind_eq_bind, hunit, Option.bind_some]
      split_ifs with hattributes hwide hlast
      · obtain ⟨painted, hpaint, hcolumns, hcells⟩ := Row.exists_paint hmore.1 unit
        rw [Option.bind_eq_bind, hpaint, Option.bind_some]
        exact ih (by dsimp only; omega)
      · obtain ⟨last, hput, hcolumns, hcells⟩ := Row.exists_put hmore.1 32 0
        exact ⟨last, hput, by omega⟩
      · obtain ⟨leading, hput, hcolumns, hcells⟩ := Row.exists_put hmore.1 unit LEADING_BYTE
        have hroom : leading.columns < leading.cells.length := by omega
        obtain ⟨trailing, hput', hcolumns', hcells'⟩ := Row.exists_put hroom unit TRAILING_BYTE
        rw [Option.bind_eq_bind, hput, Option.bind_some, hput', Option.bind_some]
        exact ih (by dsimp only; omega)
      · obtain ⟨single, hput, hcolumns, hcells⟩ := Row.exists_put hmore.1 unit 0
        rw [Option.bind_eq_bind, hput, Option.bind_some]
        exact ih (by dsimp only; omega)
    · rw [if_neg hmore]
      exact ⟨row, rfl, h⟩

theorem exists_fillLine {fill : Fill} {f : Filling} (hf : f.buffer.WellFormed) (first y : ℤ) :
    ∃ f', fillLine isWide fill (fill.len n) f first y = some f' ∧
      Recelled f.buffer f'.buffer := by
  rw [fillLine]
  dsimp only
  split_ifs
  · obtain ⟨cells, hcells, -⟩ := exists_readRect hf ⟨first, y, f.buffer.size.1 - 1, y⟩
    obtain ⟨row, hrow, hcolumns⟩ : ∃ row, fillRow isWide fill (fill.len n) cells.length
        ⟨cells, 0, f.position⟩ = some row ∧ row.columns ≤ row.cells.length :=
      exists_fillRow isWide cells.length (Nat.zero_le _)
    obtain ⟨written, hwritten⟩ := exists_slice (Nat.zero_le _) hcolumns
    obtain ⟨b, hb, hrecelled⟩ := exists_writeRect hf
      ⟨first, y, first + row.columns - 1, y⟩ written
    rw [Option.bind_eq_bind, hcells, Option.bind_some, Option.bind_eq_bind, hrow,
      Option.bind_some, hwritten, Option.bind_some, hb]
    exact ⟨_, rfl, hrecelled⟩
  · exact ⟨f, rfl, .refl _⟩

theorem exists_fill (hb : b.WellFormed) (start : Coord) (fill : Fill) (length : ℕ) :
    ∃ f, b.fill isWide start fill length = some f ∧ Recelled b f.buffer := by
  rw [ScreenBuffer.fill]
  split_ifs
  · exact ⟨_, rfl, .refl b⟩
  · refine exists_foldlM (I := fun f : Filling => Recelled b f.buffer) (fun f line _ h => ?_) (.refl b)
    obtain ⟨f', hf, hrecelled⟩ := exists_fillLine isWide (n := length) (h.wellFormed hb)
      (if line = 0 then start.1 else 0) (start.2 + line)
    exact ⟨f', hf, h.trans hrecelled⟩

end Fill

theorem exists_scrollRegion {b : ScreenBuffer} (hb : b.WellFormed) (sanitize : UInt16 → UInt16)
    (current : UInt16) (source : Rect) (clip : Option Rect) (target : Coord) (fill : CharInfo) :
    ∃ t, b.scrollRegion sanitize current source clip target fill = some t ∧ Recelled b t := by
  rw [scrollRegion]
  by_cases hstill : (source.left = target.1 ∧ source.top = target.2) ∨ ¬source.IsValid
  · rw [if_pos hstill]
    exact ⟨b, rfl, .refl b⟩
  · rw [if_neg hstill]
    dsimp only
    generalize (⟨sanitize fill.ch, _⟩ : CharInfo) = fill
    generalize (clip.map (·.clamp (Rect.fromSize b.size))).getD (Rect.fromSize b.size) = clipRect
    generalize source.clamp clipRect = fillRect
    generalize (source.clamp (Rect.fromSize b.size)).clamp _ = copySource
    generalize copySource.offset _ = copyTarget
    by_cases hnothing : ¬fillRect.IsValid ∧ ¬copyTarget.IsValid
    · rw [if_pos hnothing]
      exact ⟨b, rfl, .refl b⟩
    · -- What is moved is read before anything is filled.
      obtain ⟨backup, hbackup, -⟩ := exists_readRect hb copySource
      obtain ⟨filled, hfilled, hrecelled⟩ := exists_writeRect hb fillRect
        (List.replicate (fillRect.width * fillRect.height).toNat fill)
      rw [if_neg hnothing, Option.bind_eq_bind, hbackup, Option.bind_some, Option.bind_eq_bind,
        hfilled, Option.bind_some]
      split_ifs
      · obtain ⟨t, ht, hrecelled'⟩ := exists_writeRect (hrecelled.wellFormed hb) copyTarget backup
        exact ⟨t, ht, hrecelled.trans hrecelled'⟩
      · exact ⟨filled, rfl, hrecelled⟩

/-! #### Size, window and settings -/

section Settings

variable {b : ScreenBuffer}

/-- What the operations on one buffer promise. -/
structure Follows (b t : ScreenBuffer) : Prop where
  wellFormed : t.WellFormed
  handles : t.handles = b.handles

theorem Recelled.follows {t : ScreenBuffer} (h : Recelled b t) (hb : b.WellFormed) :
    Follows b t :=
  ⟨h.wellFormed hb, h.handles⟩

theorem exists_resize (hb : b.WellFormed) {size : Coord} (hwidth : 0 < size.1 ∧ size.1 ≤ I16_MAX)
    (hheight : 0 < size.2 ∧ size.2 ≤ I16_MAX) :
    ∃ t, b.resize size = some t ∧ t.size = size ∧ Follows b t := by
  rw [resize, Option.bind_eq_bind, i16_of_le (by omega) (by omega), Option.bind_some,
    i16_of_le (by omega) (by omega), Option.bind_some]
  refine ⟨_, rfl, rfl, ⟨hwidth, hheight, ?_, ?_, ?_, ?_⟩, rfl⟩
  · rw [List.length_map, List.length_range, Nat.cast_mul, Int.toNat_of_nonneg hwidth.1.le,
      Int.toNat_of_nonneg hheight.1.le]
  · dsimp only
    omega
  · dsimp only
    omega
  · have hwindow := hb.window
    dsimp only
    omega

theorem exists_setWindow (hb : b.WellFormed) {window : Rect} {absolute : Bool}
    (hwindow : (windowFor b.window window absolute).IsValid →
      0 < asI16 (windowFor b.window window absolute).width ∧
        0 < asI16 (windowFor b.window window absolute).height) :
    ∃ t status, b.setWindow window absolute = some (t, status) ∧ Follows b t := by
  rw [setWindow]
  generalize windowFor b.window window absolute = final at *
  dsimp only
  split_ifs with hvalid
  · obtain ⟨hwidth, hheight⟩ := hwindow hvalid
    obtain ⟨t, ht, hsize, hfollows⟩ :
        ∃ t, b.resize (asI16 final.width, asI16 final.height) = some t ∧
          t.size = (asI16 final.width, asI16 final.height) ∧ Follows b t :=
      exists_resize hb ⟨hwidth, asI16_le _⟩ ⟨hheight, asI16_le _⟩
    rw [Option.bind_eq_bind, ht]
    refine ⟨_, _, rfl, { hfollows.wellFormed with window := ?_ }, hfollows.handles⟩
    rw [hsize]
    exact ⟨⟨hwidth, le_rfl⟩, hheight, le_rfl⟩
  · exact ⟨b, _, rfl, hb, rfl⟩

theorem exists_setSize (hb : b.WellFormed) {size : Coord}
    (hsize : size.1 ≤ I16_MAX ∧ size.2 ≤ I16_MAX) :
    ∃ t status, b.setSize size = some (t, status) ∧ Follows b t := by
  have hwindow := hb.window
  rw [setSize]
  split_ifs
  · exact ⟨b, _, rfl, hb, rfl⟩
  · exact ⟨b, _, rfl, hb, rfl⟩
  · have hwidth : 0 < size.1 ∧ size.1 ≤ I16_MAX := by omega
    have hheight : 0 < size.2 ∧ size.2 ≤ I16_MAX := by omega
    obtain ⟨t, ht, -, hfollows⟩ := exists_resize hb hwidth hheight
    rw [ht]
    exact ⟨t, _, rfl, hfollows⟩

theorem follows_setCursor (hb : b.WellFormed) (x y : ℤ) : Follows b (b.setCursor x y).1 := by
  rw [setCursor]
  split_ifs with hinside
  · exact ⟨{ hb with
      column := ⟨hinside.1, hinside.2.2.1⟩
      row := ⟨hinside.2.1, hinside.2.2.2⟩ }, rfl⟩
  · exact ⟨hb, rfl⟩

theorem follows_setMode (hb : b.WellFormed) (value : UInt32) : Follows b (b.setMode value).1 := by
  rw [setMode]
  split_ifs
  · exact ⟨{ hb with }, rfl⟩
  · exact ⟨hb, rfl⟩

theorem follows_setAttributes (hb : b.WellFormed) (attributes : UInt16) :
    Follows b (b.setAttributes attributes) :=
  ⟨{ hb with }, rfl⟩

theorem follows_setCursorInfo (hb : b.WellFormed) (size : ℕ) (visible : Bool) :
    Follows b (b.setCursorInfo size visible) :=
  ⟨{ hb with }, rfl⟩

end Settings

end ScreenBuffer

end Zetta.Console
