import Zetta.Console.ScreenBuffer
import Zetta.Lib.OrdMap

/-!
# The screen buffers of a console

One buffer is on screen, where the terminal keeps it; the others are kept as cells. The main
buffer is kept as cells too while another is on screen, and a created buffer goes with its last
handle. Sizes come from the terminal, from the size an application gave the main buffer, and from
the rectangles of requests.

* `Server.consistent_of_run`: in every run that meets `Server.Fair` the buffers are consistent
  (`Server.Consistent`): those that are not on screen are well-formed, the one on screen is the
  main one or exists, and a buffer has a handle for as long as it exists. No request fails, and a
  created buffer is removed exactly by closing its last handle.
* A run is fair when the main buffer is left with the cursor inside the size an application gave
  it, a window has positive sizes once they are narrowed, and the area of a request fits an `i32`.
* `consistent_departs`: leaving the main buffer with the cursor outside its size makes the next
  text written to it index outside its cells.
-/

namespace Zetta.Console

/-- The terminal, as it is found at a request. -/
structure Terminal where
  size : Coord
  cursor : Coord
  cursorVisible : Bool
  /-- The cells that are read from it. -/
  grid : List CharInfo
  columns : 0 < size.1 ∧ size.1 ≤ I16_MAX
  rows : 0 < size.2 ∧ size.2 ≤ I16_MAX
  column : 0 ≤ cursor.1 ∧ cursor.1 < size.1
  row : 0 ≤ cursor.2 ∧ cursor.2 < size.2

/-- What a handle is open to. -/
inductive Object
  | input
  | output (buffer : ℕ)
  deriving DecidableEq

/-- The window and the size an application gave the main buffer, and the size of the terminal
they were given for. -/
structure View where
  terminal : Coord
  window : Coord
  size : Coord

/-- A window that shows part of a buffer. -/
structure View.WellFormed (view : View) : Prop where
  window : 0 < view.window.1 ∧ 0 < view.window.2
  size : view.window.1 ≤ view.size.1 ∧ view.window.2 ≤ view.size.2
  bound : view.size.1 ≤ I16_MAX ∧ view.size.2 ≤ I16_MAX

/-- The main buffer. -/
def MAIN : ℕ := 0

structure Server where
  objects : OrdMap ℕ Object
  nextToken : ℕ
  /-- The created buffers, and the main one while it is not on screen. -/
  buffers : OrdMap ℕ ScreenBuffer
  nextBuffer : ℕ
  /-- The buffer that is on screen. -/
  active : ℕ
  /-- Text for the main buffer while another is on screen. -/
  deferredMain : List (List Char)
  view : Option View
  outputMode : UInt32
  cursorSize : ℕ
  attributes : UInt16

/-- A rectangle as a request carries it. -/
structure SmallRect where
  left : I16
  top : I16
  right : I16
  bottom : I16

def SmallRect.rect (r : SmallRect) : Rect := ⟨r.left, r.top, r.right, r.bottom⟩

/-- A request of a client. The others than the first four name a handle. -/
inductive Request
  | connect
  | openInput
  | openOutput
  | createScreenBuffer
  | close (token : ℕ)
  | activate (token : ℕ)
  | setScreenInfo (token : ℕ) (columns rows : I16) (attributes : UInt16)
  | setBufferSize (token : ℕ) (columns rows : I16)
  | setWindowInfo (token : ℕ) (window : SmallRect) (absolute : Bool)
  | setCursorPosition (token : ℕ) (x y : I16)
  | setCursorInfo (token : ℕ) (size : ℕ) (visible : Bool)
  | setMode (token : ℕ) (value : UInt32)
  | setTextAttribute (token : ℕ) (attributes : UInt16)
  | write (token : ℕ) (text : List Char)
  | writeOutput (token : ℕ) (region : SmallRect) (cells : List CharInfo)
  | readOutput (token : ℕ) (region : SmallRect) (capacity : ℕ)
  | fillOutput (token : ℕ) (x y : I16) (fill : ScreenBuffer.Fill) (length : ℕ)
  | scroll (token : ℕ) (source : SmallRect) (clip : Option SmallRect) (x y : I16)
      (fill : CharInfo)

namespace Server

def new (attributes : UInt16) : Server where
  objects := .empty
  nextToken := 1
  buffers := .empty
  nextBuffer := 1
  active := MAIN
  deferredMain := []
  view := none
  outputMode :=
    Mode.PROCESSED_OUTPUT ||| Mode.WRAP_AT_EOL_OUTPUT ||| Mode.VIRTUAL_TERMINAL_PROCESSING
  cursorSize := 25
  attributes := attributes

/-! ### The main buffer's window and size -/

section

variable (s : Server)

def viewOn (terminal : Coord) : View :=
  (s.view.filter fun view => view.terminal = terminal).getD ⟨terminal, terminal, terminal⟩

def store (view : View) : Server :=
  { s with view :=
      if view.window ≠ view.terminal ∨ view.size ≠ view.terminal then some view else none }

def bufferSize (terminal : Coord) : Coord := (s.viewOn terminal).size

def windowSize (terminal : Coord) : Coord := (s.viewOn terminal).window

/-- The buffer is resized to the window, which then shows all of it. -/
def setWindowSize (terminal window : Coord) : Server :=
  s.store ⟨terminal, window, window⟩

/-- Never smaller than the window, and the largest size is reserved. -/
def setBufferSize (terminal size : Coord) : Server × Status :=
  let window := s.windowSize terminal
  if size.1 < window.1 ∨ size.2 < window.2 ∨ size.1 = I16_MAX ∨ size.2 = I16_MAX then
    (s, .invalidParameter)
  else (s.store ⟨terminal, window, size⟩, .ok)

/-! ### Handles -/

def outputBuffer (token : ℕ) : Option ℕ :=
  match s.objects.get? token with
  | some (.output id) => some id
  | some .input | none => none

def outputOpened (id : ℕ) : Server :=
  if id = MAIN then s
  else
    match s.buffers.get? id with
    | none => s
    | some b => { s with buffers := s.buffers.insert id { b with handles := b.handles + 1 } }

/-- A handle for an object. -/
def object (object : Object) : Server :=
  let opened := { s with
    objects := s.objects.insert s.nextToken object
    nextToken := s.nextToken + 1 }
  match object with
  | .input => opened
  | .output id => opened.outputOpened id

/-- A client gets a token of its own and a handle to the input and to the buffer on screen. -/
def connect : Server :=
  let s := { s with nextToken := s.nextToken + 1 }
  (s.object .input).object (.output s.active)

def activeSize (t : Terminal) : Coord :=
  if s.active = MAIN then s.bufferSize t.size else t.size

/-- A buffer of the size of the one on screen, blank in the current attributes. -/
def createScreenBuffer (t : Terminal) : Option Server := do
  let size := s.activeSize t
  let next ← u32 (s.nextBuffer + 1)
  let created : ScreenBuffer := {
    size := size
    window := size
    cells := List.replicate (size.1 * size.2).toNat (.blank s.attributes)
    saved := {
      outputMode :=
        Mode.PROCESSED_OUTPUT ||| Mode.WRAP_AT_EOL_OUTPUT ||| Mode.VIRTUAL_TERMINAL_PROCESSING
      cursorSize := 25
      attributes := s.attributes
      cursorVisible := true
      cursor := (0, 0) }
    handles := 0
    dirty := false }
  return { s with
    nextBuffer := next
    buffers := s.buffers.insert s.nextBuffer created }.object (.output s.nextBuffer)

/-! ### Activation -/

/-- What the terminal shows, as so many cells. -/
def readScreen (t : Terminal) (size : Coord) : List CharInfo :=
  let area := (size.1 * size.2).toNat
  t.grid.take area ++ List.replicate (area - t.grid.length) (.blank s.attributes)

/-- The settings of the buffer on screen. -/
def leaving (t : Terminal) : Saved :=
  ⟨s.outputMode, s.cursorSize, s.attributes, t.cursorVisible, t.cursor⟩

/-- The buffer on screen is kept as it is shown. -/
def leave (t : Terminal) : Server :=
  if s.active = MAIN then
    let size := s.bufferSize t.size
    { s with buffers := s.buffers.insert MAIN {
        size := size
        window := s.windowSize t.size
        cells := s.readScreen t size
        saved := s.leaving t
        handles := 0
        dirty := false } }
  else
    match s.buffers.get? s.active with
    | none => s
    | some b => { s with buffers := s.buffers.insert s.active { b with
        size := t.size
        window := t.size
        cells := s.readScreen t t.size
        saved := s.leaving t } }

/-- A buffer is put on screen. The main one is the terminal's then, with the view it had. -/
def arrive (t : Terminal) (target : ℕ) : Server :=
  match s.buffers.get? target with
  | none =>
    { s with active := target, deferredMain := if target = MAIN then [] else s.deferredMain }
  | some b =>
    let s := { s with
      active := target
      outputMode := b.saved.outputMode
      cursorSize := b.saved.cursorSize
      attributes := b.saved.attributes }
    if target = MAIN then
      { s with buffers := s.buffers.erase MAIN, deferredMain := [] }.store ⟨t.size, b.window, b.size⟩
    else s

def activate (t : Terminal) (target : ℕ) : Server :=
  if target = s.active then s else (s.leave t).arrive t target

/-- The last handle to a created buffer frees it; if it was on screen the main buffer comes back
first. -/
def outputClosed (t : Terminal) (id : ℕ) : Server :=
  if id = MAIN then s
  else
    match s.buffers.get? id with
    | none => s
    | some b =>
      let closed := { s with buffers := s.buffers.insert id { b with handles := b.handles - 1 } }
      if 0 < b.handles - 1 then closed
      else
        let back := if s.active = id then closed.activate t MAIN else closed
        { back with buffers := back.buffers.erase id }

def close (t : Terminal) (token : ℕ) : Server :=
  let closed := { s with objects := s.objects.erase token }
  match s.objects.get? token with
  | some (.output id) => closed.outputClosed t id
  | some .input | none => closed

/-! ### Requests -/

/-- A request to the buffer of a handle. -/
def onBuffer (token : ℕ) (onScreen : ℕ → Option (Server × Status))
    (offScreen : ScreenBuffer → Option (ScreenBuffer × Status)) : Option (Server × Status) :=
  match s.outputBuffer token with
  | none => some (s, .invalidHandle)
  | some id =>
    if id = s.active then onScreen id
    else
      match s.buffers.get? id with
      | none => some (s, .ok)
      | some b =>
        (offScreen b).map fun (b, status) => ({ s with buffers := s.buffers.insert id b }, status)

/-- What is written to the buffer on screen goes to the terminal. -/
def toTerminal : ℕ → Option (Server × Status) := fun _ => some (s, .ok)

/-- The main buffer's window becomes what is asked for; a created buffer's is the terminal's. -/
def setWindow (t : Terminal) (window : Rect) (absolute : Bool) (id : ℕ) : Server × Status :=
  let current := if id = MAIN then s.windowSize t.size else t.size
  let window := ScreenBuffer.windowFor current window absolute
  if window.IsValid then
    if id = MAIN then
      (s.setWindowSize t.size (asI16 window.width, asI16 window.height), .ok)
    else (s, .ok)
  else (s, .invalidParameter)

/-- A created buffer on screen is the terminal's size. -/
def setSize (t : Terminal) (size : Coord) (id : ℕ) : Server × Status :=
  if id = MAIN then s.setBufferSize t.size size
  else if (t.size.1 ≤ size.1 ∧ t.size.2 ≤ size.2) ∧ size.1 < I16_MAX ∧ size.2 < I16_MAX then
    (s, .ok)
  else (s, .invalidParameter)

/-- The size is given to the main buffer's view, whichever buffer is on screen. -/
def setScreenInfo (t : Terminal) (token : ℕ) (size : Coord) (attributes : UInt16) :
    Option (Server × Status) :=
  if size.1 = 0 ∨ size.2 = 0 ∨ size.1 = I16_MAX ∨ size.2 = I16_MAX then
    some (s, .invalidParameter)
  else s.onBuffer token (fun _ => some ({ (s.setBufferSize t.size size).1 with attributes }, .ok))
    fun b => some (b.setAttributes attributes, .ok)

def write (token : ℕ) (text : List Char) : Option (Server × Status) := do
  let (written, status) ← s.onBuffer token s.toTerminal fun b =>
    (b.writeText text).map (·, .ok)
  if s.outputBuffer token = some MAIN ∧ s.active ≠ MAIN then
    return ({ written with deferredMain := written.deferredMain ++ [text] }, status)
  else return (written, status)

end

section Step

-- Whether a unit is a character of two columns, and what a control character is shown as.
variable (isWide : UInt16 → Bool) (sanitize : UInt16 → UInt16)

def serve (s : Server) (t : Terminal) : Request → Option (Server × Status)
  | .connect => some (s.connect, .ok)
  | .openInput => some (s.object .input, .ok)
  | .openOutput => some (s.object (.output s.active), .ok)
  | .createScreenBuffer => (s.createScreenBuffer t).map (·, .ok)
  | .close token => some (s.close t token, .ok)
  | .activate token =>
    match s.outputBuffer token with
    | none => some (s, .invalidHandle)
    | some id => some (s.activate t id, .ok)
  | .setScreenInfo token columns rows attributes =>
    s.setScreenInfo t token (columns, rows) attributes
  | .setBufferSize token columns rows =>
    s.onBuffer token (fun id => some (s.setSize t (columns, rows) id)) (·.setSize (columns, rows))
  | .setWindowInfo token window absolute =>
    s.onBuffer token (fun id => some (s.setWindow t window.rect absolute id))
      (·.setWindow window.rect absolute)
  | .setCursorPosition token x y =>
    s.onBuffer token (fun _ =>
      let size := s.bufferSize t.size
      if (x : ℤ) < 0 ∨ (y : ℤ) < 0 ∨ size.1 ≤ x ∨ size.2 ≤ y then some (s, .invalidParameter)
      else some (s, .ok)) fun b => some (b.setCursor x y)
  | .setCursorInfo token size visible =>
    if size = 0 ∨ 100 < size then some (s, .invalidParameter)
    else s.onBuffer token (fun _ => some ({ s with cursorSize := size }, .ok))
      fun b => some (b.setCursorInfo size visible, .ok)
  | .setMode token value =>
    s.onBuffer token (fun _ =>
      if value &&& ~~~Mode.OUTPUT_MODES = 0 then some ({ s with outputMode := value }, .ok)
      else some (s, .invalidParameter)) fun b => some (b.setMode value)
  | .setTextAttribute token attributes =>
    -- One bit is reserved.
    if attributes &&& 0x2000 ≠ 0 then some (s, .invalidParameter)
    else s.onBuffer token (fun _ => some ({ s with attributes }, .ok))
      fun b => some (b.setAttributes attributes, .ok)
  | .write token text => s.write token text
  | .writeOutput token region cells =>
    s.onBuffer token
      (fun _ => (ScreenBuffer.clipCells (s.activeSize t) region.rect cells).map fun clipped =>
        (s, clipped.1))
      (·.writeOutput region.rect cells)
  | .readOutput token region capacity =>
    s.onBuffer token s.toTerminal fun b =>
      (b.readOutput region.rect capacity).map fun reply => (b, reply.1)
  | .fillOutput token x y fill length =>
    s.onBuffer token s.toTerminal fun b =>
      (b.fill isWide (x, y) fill length).map fun f => (f.buffer, .ok)
  | .scroll token source clip x y fill =>
    s.onBuffer token s.toTerminal fun b =>
      (b.scrollRegion sanitize s.attributes source.rect (clip.map SmallRect.rect) (x, y) fill).map
        (·, .ok)

/-- A request, with the terminal as it is found then. -/
def Step (s : Server) (request : Terminal × Request) (s' : Server) : Prop :=
  ∃ status, s.serve isWide sanitize request.1 request.2 = some (s', status)

end Step

/-! ### Fair requests -/

/-- The window a request is about, where one is set. -/
def currentWindow (s : Server) (t : Terminal) (token : ℕ) : Option Coord :=
  match s.outputBuffer token with
  | none => none
  | some id =>
    if id = s.active then if id = MAIN then some (s.windowSize t.size) else none
    else (s.buffers.get? id).map ScreenBuffer.window

/-- The requests whose sizes agree: the main buffer is left with the cursor inside its size, the
sizes of a window are positive as 16-bit numbers, the area of a region is within its type, and there
are identifiers left. -/
def Fair (s : Server) (t : Terminal) : Request → Prop
  | .createScreenBuffer => s.nextBuffer + 1 < 4294967296
  | .activate token => s.active = MAIN → ∀ id ∈ s.outputBuffer token, id ≠ MAIN →
      t.cursor.1 < (s.bufferSize t.size).1 ∧ t.cursor.2 < (s.bufferSize t.size).2
  | .setWindowInfo token window absolute => ∀ current ∈ s.currentWindow t token,
      (ScreenBuffer.windowFor current window.rect absolute).IsValid →
        0 < asI16 (ScreenBuffer.windowFor current window.rect absolute).width ∧
          0 < asI16 (ScreenBuffer.windowFor current window.rect absolute).height
  | .writeOutput token region _ => ∀ _id ∈ s.outputBuffer token,
      region.rect.IsValid → region.rect.width * region.rect.height ≤ I32_MAX
  | _ => True

instance (s : Server) (t : Terminal) : DecidablePred (s.Fair t) := fun request =>
  match request with
  | .createScreenBuffer => inferInstanceAs (Decidable (_ < _))
  | .activate _ => inferInstanceAs (Decidable (_ → ∀ _ ∈ _, _ → _ ∧ _))
  | .setWindowInfo .. => inferInstanceAs (Decidable (∀ _ ∈ _, _ → _ < _ ∧ _ < _))
  | .writeOutput .. => inferInstanceAs (Decidable (∀ _ ∈ _, _ → _ ≤ _))
  | .connect | .openInput | .openOutput | .close _ | .setScreenInfo .. | .setBufferSize ..
  | .setCursorPosition .. | .setCursorInfo .. | .setMode .. | .setTextAttribute .. | .write ..
  | .readOutput .. | .fillOutput .. | .scroll .. => .isTrue trivial

/-! ### Consistency -/

/-- The handles to a buffer. -/
def handleCount (s : Server) (id : ℕ) : ℕ :=
  s.objects.sumBy fun object => if object = .output id then 1 else 0

/-- The buffers that are kept as cells are well-formed, the one on screen is the main one or
exists, and created buffers count their handles. -/
structure Sound (s : Server) : Prop where
  buffers : ∀ id b, s.buffers.get? id = some b → b.WellFormed
  active : s.active = MAIN ∨ ∃ b, s.buffers.get? s.active = some b
  main : (∃ b, s.buffers.get? MAIN = some b) ↔ s.active ≠ MAIN
  handles : ∀ id b, s.buffers.get? id = some b → id ≠ MAIN → b.handles = s.handleCount id
  objects : ∀ token id, s.objects.get? token = some (.output id) → id ≠ MAIN →
    ∃ b, s.buffers.get? id = some b
  ids : (∀ id b, s.buffers.get? id = some b → id < s.nextBuffer) ∧ MAIN < s.nextBuffer
  tokens : ∀ token object, s.objects.get? token = some object → token < s.nextToken
  view : ∀ view, s.view = some view → view.WellFormed

/-- Every created buffer has a handle. -/
def Held (s : Server) : Prop :=
  ∀ id b, id ≠ MAIN → s.buffers.get? id = some b → 0 < b.handles

/-- **Consistency**: what holds between requests. -/
structure Consistent (s : Server) : Prop extends Sound s where
  held : s.Held

theorem outputBuffer_eq_some_iff {s : Server} {token id : ℕ} :
    s.outputBuffer token = some id ↔ s.objects.get? token = some (.output id) := by
  rw [outputBuffer]
  split
  next id' h => rw [h, Option.some.injEq, Option.some.injEq, Object.output.injEq]
  next h => simp [h]
  next h => simp [h]

theorem consistent_new (attributes : UInt16) : (new attributes).Consistent where
  buffers := by simp [new, OrdMap.empty, OrdMap.get?]
  active := .inl rfl
  main := by simp [new, OrdMap.empty, OrdMap.get?]
  handles := by simp [new, OrdMap.empty, OrdMap.get?]
  objects := by simp [new, OrdMap.empty, OrdMap.get?]
  ids := ⟨by simp [new, OrdMap.empty, OrdMap.get?], Nat.one_pos⟩
  tokens := by simp [new, OrdMap.empty, OrdMap.get?]
  view := by simp [new]
  held := by simp [Held, new, OrdMap.empty, OrdMap.get?]

section Proofs

variable {s s' : Server} {t : Terminal} {id token : ℕ}

/-! #### The view of the main buffer -/

theorem wellFormed_viewOn (hs : s.Sound) (t : Terminal) :
    (s.viewOn t.size).WellFormed := by
  rw [viewOn]
  cases hview : s.view.filter fun view => view.terminal = t.size with
  | none => exact ⟨⟨t.columns.1, t.rows.1⟩, ⟨le_rfl, le_rfl⟩, t.columns.2, t.rows.2⟩
  | some view => exact hs.view view (Option.filter_eq_some_iff.mp hview).1

theorem wellFormed_of_store {view : View} (hview : view.WellFormed) :
    ∀ v, (s.store view).view = some v → v.WellFormed := by
  intro v hv
  rw [store] at hv
  dsimp only at hv
  split_ifs at hv
  rwa [← Option.some.inj hv]

theorem activeSize_bounds (hs : s.Sound) (t : Terminal) :
    (0 < (s.activeSize t).1 ∧ (s.activeSize t).1 ≤ I16_MAX) ∧
      0 < (s.activeSize t).2 ∧ (s.activeSize t).2 ≤ I16_MAX := by
  have hview := wellFormed_viewOn hs t
  rw [activeSize]
  split_ifs
  · exact ⟨⟨hview.window.1.trans_le hview.size.1, hview.bound.1⟩,
      hview.window.2.trans_le hview.size.2, hview.bound.2⟩
  · exact ⟨t.columns, t.rows⟩

/-! #### Requests that change buffers in place -/

/-- The handles and the buffer on screen stay, and buffers change as their operations do. -/
structure Rewrites (s s' : Server) : Prop where
  objects : s'.objects = s.objects
  nextToken : s'.nextToken = s.nextToken
  nextBuffer : s'.nextBuffer = s.nextBuffer
  active : s'.active = s.active
  buffers : ∀ id b', s'.buffers.get? id = some b' →
    ∃ b, s.buffers.get? id = some b ∧ b.Follows b'
  kept : ∀ id b, s.buffers.get? id = some b → ∃ b', s'.buffers.get? id = some b'
  view : ∀ view, s'.view = some view → view.WellFormed

theorem Sound.rewrites (hs : s.Sound) (h : Rewrites s s') : s'.Sound where
  buffers id b' hb' := by
    obtain ⟨b, -, hfollows⟩ := h.buffers id b' hb'
    exact hfollows.wellFormed
  active := by
    rw [h.active]
    refine hs.active.imp_right ?_
    rintro ⟨b, hb⟩
    exact h.kept _ b hb
  main := by
    rw [h.active, ← hs.main]
    constructor
    · rintro ⟨b', hb'⟩
      obtain ⟨b, hb, -⟩ := h.buffers MAIN b' hb'
      exact ⟨b, hb⟩
    · rintro ⟨b, hb⟩
      exact h.kept MAIN b hb
  handles id b' hb' hid := by
    obtain ⟨b, hb, hfollows⟩ := h.buffers id b' hb'
    rw [handleCount, h.objects, hfollows.handles]
    exact hs.handles id b hb hid
  objects token id htoken hid := by
    rw [h.objects] at htoken
    obtain ⟨b, hb⟩ := hs.objects token id htoken hid
    exact h.kept id b hb
  ids := by
    rw [h.nextBuffer]
    refine ⟨fun id b' hb' => ?_, hs.ids.2⟩
    obtain ⟨b, hb, -⟩ := h.buffers id b' hb'
    exact hs.ids.1 id b hb
  tokens := by
    rw [h.objects, h.nextToken]
    exact hs.tokens
  view := h.view

theorem Held.rewrites (hs : s.Held) (h : Rewrites s s') : s'.Held := by
  intro id b' hid hb'
  obtain ⟨b, hb, hfollows⟩ := h.buffers id b' hb'
  rw [hfollows.handles]
  exact hs id b hid hb

theorem Consistent.rewrites (hs : s.Consistent) (h : Rewrites s s') : s'.Consistent :=
  ⟨hs.toSound.rewrites h, hs.held.rewrites h⟩

/-- Nothing that concerns the buffers changes. -/
theorem Rewrites.of_eq (hs : s.Sound) (hobjects : s'.objects = s.objects)
    (hnextToken : s'.nextToken = s.nextToken) (hnextBuffer : s'.nextBuffer = s.nextBuffer)
    (hactive : s'.active = s.active) (hbuffers : s'.buffers = s.buffers)
    (hview : ∀ view, s'.view = some view → view.WellFormed) : Rewrites s s' where
  objects := hobjects
  nextToken := hnextToken
  nextBuffer := hnextBuffer
  active := hactive
  buffers id b' hb' := ⟨b', hbuffers ▸ hb', hs.buffers id b' (hbuffers ▸ hb'), rfl⟩
  kept _ b hb := ⟨b, hbuffers ▸ hb⟩
  view := hview

theorem Rewrites.refl (hs : s.Sound) : Rewrites s s := .of_eq hs rfl rfl rfl rfl rfl hs.view

variable {b : ScreenBuffer}

/-- One buffer changes as an operation on it does. -/
theorem Rewrites.insert (hs : s.Sound) {b' : ScreenBuffer} (hb : s.buffers.get? id = some b)
    (hfollows : b.Follows b') : Rewrites s { s with buffers := s.buffers.insert id b' } where
  objects := rfl
  nextToken := rfl
  nextBuffer := rfl
  active := rfl
  buffers other c hc := by
    rw [OrdMap.get?_insert] at hc
    split_ifs at hc with hother
    · rw [← Option.some.inj hc, hother]
      exact ⟨b, hb, hfollows⟩
    · exact ⟨c, hc, hs.buffers other c hc, rfl⟩
  kept other c hc := by
    rw [OrdMap.get?_insert]
    split_ifs
    · exact ⟨b', rfl⟩
    · exact ⟨c, hc⟩
  view := hs.view

/-- A request to the buffer of a handle succeeds when it does on screen and on every well-formed
buffer. -/
theorem exists_onBuffer (hs : s.Sound) {onScreen : ℕ → Option (Server × Status)}
    {offScreen : ScreenBuffer → Option (ScreenBuffer × Status)}
    (hon : ∀ id, s.outputBuffer token = some id → id = s.active →
      ∃ s' status, onScreen id = some (s', status) ∧ Rewrites s s')
    (hoff : ∀ id b, s.outputBuffer token = some id → id ≠ s.active →
      s.buffers.get? id = some b → b.WellFormed →
        ∃ b' status, offScreen b = some (b', status) ∧ b.Follows b') :
    ∃ s' status, s.onBuffer token onScreen offScreen = some (s', status) ∧ Rewrites s s' := by
  rw [onBuffer]
  split
  next => exact ⟨s, _, rfl, .refl hs⟩
  next id htoken =>
    split_ifs with hactive
    · exact hon id htoken hactive
    · split
      next => exact ⟨s, _, rfl, .refl hs⟩
      next b hb =>
        obtain ⟨b', status, hb', hfollows⟩ := hoff id b htoken hactive hb (hs.buffers id b hb)
        rw [hb']
        exact ⟨_, _, rfl, .insert hs hb hfollows⟩

/-! #### New handles -/

/-- The buffers other than the main one are still there. -/
def Keeps (s s' : Server) : Prop :=
  ∀ id b, id ≠ MAIN → s.buffers.get? id = some b → ∃ b', s'.buffers.get? id = some b'

theorem Keeps.trans {s'' : Server} (h : Keeps s s') (h' : Keeps s' s'') : Keeps s s'' := by
  intro id b hid hb
  obtain ⟨b', hb'⟩ := h id b hid hb
  exact h' id b' hid hb'

theorem Rewrites.keeps (h : Rewrites s s') : Keeps s s' := fun id b _ hb => h.kept id b hb

/-- A token that was not given out yet. -/
theorem get?_nextToken (hs : s.Sound) : s.objects.get? s.nextToken = none := by
  by_contra hne
  obtain ⟨object, hobject⟩ := Option.ne_none_iff_exists'.mp hne
  exact lt_irrefl _ (hs.tokens _ _ hobject)

/-- A new handle is counted. -/
theorem handleCount_insert (hs : s.Sound) (object : Object) (id : ℕ) :
    (s.objects.insert s.nextToken object).sumBy
        (fun object => if object = .output id then 1 else 0) =
      s.handleCount id + if object = .output id then 1 else 0 := by
  rw [OrdMap.sumBy_insert, OrdMap.erase_of_get?_eq_none (get?_nextToken hs), handleCount]

theorem sound_object_input (hs : s.Sound) : (s.object .input).Sound where
  buffers := hs.buffers
  active := hs.active
  main := hs.main
  handles id b hb hid := by
    have hcount := handleCount_insert hs .input id
    rw [if_neg (by simp), Nat.add_zero] at hcount
    exact (hs.handles id b hb hid).trans hcount.symm
  objects token id htoken hid := by
    change (s.objects.insert s.nextToken .input).get? token = _ at htoken
    rw [OrdMap.get?_insert] at htoken
    split_ifs at htoken
    · simp at htoken
    · exact hs.objects token id htoken hid
  ids := hs.ids
  tokens token object htoken := by
    change (s.objects.insert s.nextToken .input).get? token = _ at htoken
    rw [OrdMap.get?_insert] at htoken
    split_ifs at htoken with hnew
    · exact hnew ▸ Nat.lt_succ_self _
    · exact (hs.tokens token object htoken).trans (Nat.lt_succ_self _)
  view := hs.view

theorem consistent_object_input (hs : s.Consistent) : (s.object .input).Consistent :=
  ⟨sound_object_input hs.toSound, hs.held⟩

/-- The buffers after a buffer is opened. -/
theorem get?_object_output (hid : id ≠ MAIN) (hb : s.buffers.get? id = some b) (other : ℕ) :
    (s.object (.output id)).buffers.get? other =
      if other = id then some { b with handles := b.handles + 1 } else s.buffers.get? other := by
  change (outputOpened _ id).buffers.get? other = _
  rw [outputOpened, if_neg hid]
  dsimp only
  rw [hb]
  exact OrdMap.get?_insert ..

/-- The rest of the state after an object is opened. -/
theorem object_output (s : Server) (id : ℕ) :
    (s.object (.output id)).objects = s.objects.insert s.nextToken (.output id) ∧
      (s.object (.output id)).nextToken = s.nextToken + 1 ∧
      (s.object (.output id)).nextBuffer = s.nextBuffer ∧
      (s.object (.output id)).active = s.active ∧ (s.object (.output id)).view = s.view := by
  change (outputOpened _ id).objects = _ ∧ (outputOpened _ id).nextToken = _ ∧
    (outputOpened _ id).nextBuffer = _ ∧ (outputOpened _ id).active = _ ∧
    (outputOpened _ id).view = _
  rw [outputOpened]
  split_ifs
  · exact ⟨rfl, rfl, rfl, rfl, rfl⟩
  · split <;> exact ⟨rfl, rfl, rfl, rfl, rfl⟩

/-- Opening the main buffer is not counted. -/
theorem object_main_buffers (s : Server) :
    (s.object (.output MAIN)).buffers = s.buffers := rfl

theorem sound_object_output (hs : s.Sound)
    (hid : id = MAIN ∨ ∃ b, s.buffers.get? id = some b) : (s.object (.output id)).Sound := by
  obtain ⟨hobjects, hnextToken, hnextBuffer, hactive, hview⟩ := object_output s id
  have hget : ∀ other b', (s.object (.output id)).buffers.get? other = some b' →
      ∃ b, s.buffers.get? other = some b ∧
        b' = if other = id ∧ id ≠ MAIN then { b with handles := b.handles + 1 } else b := by
    intro other b' hb'
    by_cases hmain : id = MAIN
    · subst hmain
      rw [object_main_buffers] at hb'
      exact ⟨b', hb', by simp⟩
    · obtain ⟨b, hb⟩ := hid.resolve_left hmain
      rw [get?_object_output hmain hb] at hb'
      split_ifs at hb' with hother
      · exact ⟨b, hother ▸ hb, by simp [hother, hmain, ← Option.some.inj hb']⟩
      · exact ⟨b', hb', by simp [hother]⟩
  have hsame : ∀ other, (∃ b, s.buffers.get? other = some b) ↔
      ∃ b, (s.object (.output id)).buffers.get? other = some b := by
    intro other
    by_cases hmain : id = MAIN
    · subst hmain
      rw [object_main_buffers]
    · obtain ⟨b, hb⟩ := hid.resolve_left hmain
      rw [get?_object_output hmain hb]
      split_ifs with hother
      · subst hother
        simp [hb]
      · rfl
  exact {
    buffers := by
      intro other b' hb'
      obtain ⟨b, hb, rfl⟩ := hget other b' hb'
      split_ifs
      · exact { hs.buffers other b hb with }
      · exact hs.buffers other b hb
    active := by
      rw [hactive, ← hsame]
      exact hs.active
    main := by
      rw [hactive, ← hsame]
      exact hs.main
    handles := by
      intro other b' hb' hother
      obtain ⟨b, hb, rfl⟩ := hget other b' hb'
      have hcount := handleCount_insert hs (.output id) other
      rw [handleCount, hobjects, hcount]
      have hhandles := hs.handles other b hb hother
      by_cases heq : other = id
      · have hid : id ≠ MAIN := heq ▸ hother
        rw [if_pos ⟨heq, hid⟩, if_pos (by rw [heq])]
        exact congrArg (· + 1) hhandles
      · rw [if_neg (by simp [heq]), if_neg (by simp [Ne.symm heq])]
        exact hhandles
    objects := by
      intro token other htoken hother
      rw [← hsame]
      rw [hobjects, OrdMap.get?_insert] at htoken
      split_ifs at htoken
      · have heq : id = other := by simpa using htoken
        exact heq ▸ hid.resolve_left (heq ▸ hother)
      · exact hs.objects token other htoken hother
    ids := by
      rw [hnextBuffer]
      refine ⟨fun other b' hb' => ?_, hs.ids.2⟩
      obtain ⟨b, hb, -⟩ := hget other b' hb'
      exact hs.ids.1 other b hb
    tokens := by
      intro token object htoken
      rw [hnextToken]
      rw [hobjects, OrdMap.get?_insert] at htoken
      split_ifs at htoken with hnew
      · exact hnew ▸ Nat.lt_succ_self _
      · exact (hs.tokens token object htoken).trans (Nat.lt_succ_self _)
    view := by
      rw [hview]
      exact hs.view }

/-- An open buffer has a handle. -/
theorem held_object_output (hs : ∀ other b, other ≠ MAIN → other ≠ id →
    s.buffers.get? other = some b → 0 < b.handles)
    (hid : id = MAIN ∨ ∃ b, s.buffers.get? id = some b) : (s.object (.output id)).Held := by
  intro other b' hother hb'
  by_cases hmain : id = MAIN
  · subst hmain
    exact hs other b' hother hother hb'
  · obtain ⟨b, hb⟩ := hid.resolve_left hmain
    rw [get?_object_output hmain hb] at hb'
    split_ifs at hb' with heq
    · rw [← Option.some.inj hb']
      exact Nat.succ_pos _
    · exact hs other b' hother heq hb'

theorem consistent_object_output (hs : s.Consistent)
    (hid : id = MAIN ∨ ∃ b, s.buffers.get? id = some b) : (s.object (.output id)).Consistent :=
  ⟨sound_object_output hs.toSound hid,
    held_object_output (fun other b hother _ hb => hs.held other b hother hb) hid⟩

theorem keeps_object_output (hid : id = MAIN ∨ ∃ b, s.buffers.get? id = some b) :
    Keeps s (s.object (.output id)) := by
  intro other b hother hb
  by_cases hmain : id = MAIN
  · subst hmain
    exact ⟨b, hb⟩
  · obtain ⟨c, hc⟩ := hid.resolve_left hmain
    rw [get?_object_output hmain hc]
    split_ifs
    · exact ⟨_, rfl⟩
    · exact ⟨b, hb⟩

theorem consistent_connect (hs : s.Consistent) : s.connect.Consistent := by
  have hnext : Consistent { s with nextToken := s.nextToken + 1 } := { hs with
    tokens := fun token object htoken =>
      (hs.tokens token object htoken).trans (Nat.lt_succ_self _) }
  exact consistent_object_output (consistent_object_input hnext) hs.active

theorem keeps_connect (hs : s.Consistent) : Keeps s s.connect := by
  have hinput : Keeps s (Server.object { s with nextToken := s.nextToken + 1 } .input) :=
    fun id b _ hb => ⟨b, hb⟩
  exact hinput.trans (keeps_object_output hs.active)

/-- **Creating** a buffer: it has the size of the one on screen, and one handle. -/
theorem exists_createScreenBuffer (hs : s.Consistent) (t : Terminal)
    (hfair : s.nextBuffer + 1 < 4294967296) :
    ∃ s', s.createScreenBuffer t = some s' ∧ s'.Consistent ∧ Keeps s s' := by
  obtain ⟨hwidth, hheight⟩ := activeSize_bounds hs.toSound t
  rw [createScreenBuffer, u32, if_pos hfair, Option.bind_eq_bind, Option.bind_some]
  generalize s.activeSize t = size at *
  -- The new buffer, before its handle is counted.
  generalize hcreated : ScreenBuffer.mk size size _ _ 0 false = created
  have hwell : created.WellFormed := by
    rw [← hcreated]
    refine ⟨hwidth, hheight, ?_, ⟨le_rfl, hwidth.1⟩, ⟨le_rfl, hheight.1⟩,
      ⟨hwidth.1, le_rfl⟩, hheight.1, le_rfl⟩
    rw [List.length_replicate, Int.toNat_of_nonneg (mul_pos hwidth.1 hheight.1).le]
  have hhandles : created.handles = 0 := by rw [← hcreated]
  clear hcreated
  have hfresh : s.buffers.get? s.nextBuffer = none := by
    by_contra hne
    obtain ⟨b, hb⟩ := Option.ne_none_iff_exists'.mp hne
    exact lt_irrefl _ (hs.ids.1 _ b hb)
  have hget : ∀ id, (s.buffers.insert s.nextBuffer created).get? id =
      if id = s.nextBuffer then some created else s.buffers.get? id :=
    fun id => OrdMap.get?_insert ..
  have hnew : s.nextBuffer ≠ MAIN := hs.ids.2.ne'
  have hsound : Sound { s with
      nextBuffer := s.nextBuffer + 1, buffers := s.buffers.insert s.nextBuffer created } := {
    buffers := by
      intro id b hb
      rw [hget] at hb
      split_ifs at hb
      · exact Option.some.inj hb ▸ hwell
      · exact hs.buffers id b hb
    active := by
      refine hs.active.imp_right ?_
      rintro ⟨b, hb⟩
      refine ⟨b, ?_⟩
      rw [hget, if_neg (hs.ids.1 _ b hb).ne]
      exact hb
    main := by
      dsimp only
      rw [hget, if_neg hnew.symm]
      exact hs.main
    handles := by
      intro id b hb hid
      rw [hget] at hb
      split_ifs at hb with heq
      · -- No handle is open to a buffer that did not exist.
        rw [← Option.some.inj hb, hhandles]
        refine ((OrdMap.sumBy_eq_zero_iff _).mpr fun token object htoken => ?_).symm
        refine if_neg fun hobject => ?_
        rw [hobject, heq] at htoken
        obtain ⟨b, hb⟩ := hs.objects token _ htoken hnew
        rw [hfresh] at hb
        simp at hb
      · exact hs.handles id b hb hid
    objects := by
      intro token id htoken hid
      obtain ⟨b, hb⟩ := hs.objects token id htoken hid
      refine ⟨b, ?_⟩
      rw [hget, if_neg (hs.ids.1 _ b hb).ne]
      exact hb
    ids := by
      refine ⟨fun id b hb => ?_, Nat.succ_pos _⟩
      rw [hget] at hb
      split_ifs at hb with heq
      · exact heq ▸ Nat.lt_succ_self _
      · exact (hs.ids.1 id b hb).trans (Nat.lt_succ_self _)
    tokens := hs.tokens
    view := hs.view }
  have hthere : s.nextBuffer = MAIN ∨
      ∃ b, (s.buffers.insert s.nextBuffer created).get? s.nextBuffer = some b :=
    .inr ⟨created, by rw [hget, if_pos rfl]⟩
  refine ⟨_, rfl, ⟨sound_object_output hsound hthere, held_object_output ?_ hthere⟩, ?_⟩
  · intro other b hother hne hb
    dsimp only at hb
    rw [hget, if_neg hne] at hb
    exact hs.held other b hother hb
  · have hinserted : Keeps s { s with
        nextBuffer := s.nextBuffer + 1, buffers := s.buffers.insert s.nextBuffer created } := by
      intro id b hid hb
      refine ⟨b, ?_⟩
      dsimp only
      rw [hget, if_neg (hs.ids.1 _ b hb).ne]
      exact hb
    exact hinserted.trans (keeps_object_output hthere)

/-! #### Activation -/

/-- The cursor is inside the buffer that is left. -/
def Leaves (s : Server) (t : Terminal) : Prop :=
  s.active = MAIN → t.cursor.1 < (s.bufferSize t.size).1 ∧ t.cursor.2 < (s.bufferSize t.size).2

variable {size : Coord}

theorem length_readScreen (s : Server) (t : Terminal) (hwidth : 0 < size.1) (hheight : 0 < size.2) :
    ((s.readScreen t size).length : ℤ) = size.1 * size.2 := by
  have harea := Int.toNat_of_nonneg (mul_pos hwidth hheight).le
  rw [readScreen, List.length_append, List.length_take, List.length_replicate]
  omega

/-- The buffer that is left is kept well-formed, and nothing else changes. -/
theorem exists_leave (hs : s.Sound) (t : Terminal) (hleaves : s.Leaves t) :
    ∃ b, s.leave t = { s with buffers := s.buffers.insert s.active b } ∧ b.WellFormed ∧
      (s.active ≠ MAIN → ∀ c, s.buffers.get? s.active = some c → b.handles = c.handles) := by
  rw [leave]
  by_cases hmain : s.active = MAIN
  · rw [if_pos hmain]
    have hview := wellFormed_viewOn hs t
    have hwidth : 0 < (s.bufferSize t.size).1 := hview.window.1.trans_le hview.size.1
    have hheight : 0 < (s.bufferSize t.size).2 := hview.window.2.trans_le hview.size.2
    obtain ⟨hcolumn, hrow⟩ := hleaves hmain
    refine ⟨_, by rw [hmain], ?_, absurd hmain⟩
    exact {
      width := ⟨hwidth, hview.bound.1⟩
      height := ⟨hheight, hview.bound.2⟩
      cells := length_readScreen s t hwidth hheight
      column := ⟨t.column.1, hcolumn⟩
      row := ⟨t.row.1, hrow⟩
      window := ⟨⟨hview.window.1, hview.size.1⟩, hview.window.2, hview.size.2⟩ }
  · obtain ⟨c, hc⟩ := hs.active.resolve_left hmain
    rw [if_neg hmain, hc]
    refine ⟨_, rfl, ?_, fun _ d hd => by rw [← Option.some.inj hd]⟩
    exact {
      width := t.columns
      height := t.rows
      cells := length_readScreen s t t.columns.1 t.rows.1
      column := t.column
      row := t.row
      window := ⟨⟨t.columns.1, le_rfl⟩, t.rows.1, le_rfl⟩ }

/-- Another buffer has been put on screen. -/
structure Switched (s s' : Server) (target : ℕ) : Prop where
  objects : s'.objects = s.objects
  nextToken : s'.nextToken = s.nextToken
  nextBuffer : s'.nextBuffer = s.nextBuffer
  active : s'.active = target
  buffers : ∀ id b', s'.buffers.get? id = some b' → b'.WellFormed ∧
    (id ≠ MAIN → ∃ b, s.buffers.get? id = some b ∧ b'.handles = b.handles)
  kept : Keeps s s'
  main : (∃ b, s'.buffers.get? MAIN = some b) ↔ target ≠ MAIN
  view : ∀ view, s'.view = some view → view.WellFormed

theorem Switched.sound (h : Switched s s' id) (hs : s.Sound)
    (htarget : id = MAIN ∨ ∃ b, s.buffers.get? id = some b) : s'.Sound where
  buffers other b' hb' := (h.buffers other b' hb').1
  active := by
    rw [h.active]
    by_cases hid : id = MAIN
    · exact .inl hid
    · obtain ⟨b, hb⟩ := htarget.resolve_left hid
      exact .inr (h.kept id b hid hb)
  main := by
    rw [h.active]
    exact h.main
  handles other b' hb' hother := by
    obtain ⟨b, hb, hhandles⟩ := (h.buffers other b' hb').2 hother
    rw [hhandles, handleCount, h.objects]
    exact hs.handles other b hb hother
  objects token other htoken hother := by
    rw [h.objects] at htoken
    obtain ⟨b, hb⟩ := hs.objects token other htoken hother
    exact h.kept other b hother hb
  ids := by
    rw [h.nextBuffer]
    refine ⟨fun other b' hb' => ?_, hs.ids.2⟩
    by_cases hother : other = MAIN
    · exact hother ▸ hs.ids.2
    · obtain ⟨b, hb, -⟩ := (h.buffers other b' hb').2 hother
      exact hs.ids.1 other b hb
  tokens := by
    rw [h.objects, h.nextToken]
    exact hs.tokens
  view := h.view

theorem Switched.held (h : Switched s s' id) (hs : s.Held) : s'.Held := by
  intro other b' hother hb'
  obtain ⟨b, hb, hhandles⟩ := (h.buffers other b' hb').2 hother
  rw [hhandles]
  exact hs other b hother hb

/-- **Activation** keeps the buffer that leaves the screen and every other one. -/
theorem switched_activate (hs : s.Sound) (hleaves : s.Leaves t) (hne : id ≠ s.active)
    (htarget : id = MAIN ∨ ∃ b, s.buffers.get? id = some b) :
    Switched s (s.activate t id) id := by
  obtain ⟨left, hleave, hwell, hhandles⟩ := exists_leave hs t hleaves
  have hget : ∀ other, (s.buffers.insert s.active left).get? other =
      if other = s.active then some left else s.buffers.get? other :=
    fun other => OrdMap.get?_insert ..
  -- The buffers once the one on screen has been kept.
  have hbuffers : ∀ other b', (s.buffers.insert s.active left).get? other = some b' →
      b'.WellFormed ∧ (other ≠ MAIN → ∃ b, s.buffers.get? other = some b ∧
        b'.handles = b.handles) := by
    intro other b' hb'
    rw [hget] at hb'
    split_ifs at hb' with hother
    · rw [← Option.some.inj hb']
      refine ⟨hwell, fun hmain => ?_⟩
      obtain ⟨c, hc⟩ := hs.active.resolve_left (hother ▸ hmain)
      exact ⟨c, hother ▸ hc, hhandles (hother ▸ hmain) c hc⟩
    · exact ⟨hs.buffers other b' hb', fun _ => ⟨b', hb', rfl⟩⟩
  have hkept : ∀ other b, s.buffers.get? other = some b →
      ∃ b', (s.buffers.insert s.active left).get? other = some b' := by
    intro other b hb
    rw [hget]
    split_ifs
    · exact ⟨left, rfl⟩
    · exact ⟨b, hb⟩
  have hincoming : ∃ b, s.buffers.get? id = some b := by
    rcases htarget with rfl | hb
    · exact hs.main.mpr hne.symm
    · exact hb
  obtain ⟨incoming, hincoming⟩ := hincoming
  rw [activate, if_neg hne, hleave, arrive]
  dsimp only
  rw [hget, if_neg hne, hincoming]
  dsimp only
  split_ifs with hmain
  · subst hmain
    have hin := hs.buffers MAIN incoming hincoming
    exact {
      objects := rfl
      nextToken := rfl
      nextBuffer := rfl
      active := rfl
      buffers := by
        intro other b' hb'
        change (OrdMap.erase _ MAIN).get? other = some b' at hb'
        rw [OrdMap.get?_erase] at hb'
        split_ifs at hb'
        exact hbuffers other b' hb'
      kept := by
        intro other b hother hb
        change ∃ b', (OrdMap.erase _ MAIN).get? other = some b'
        rw [OrdMap.get?_erase, if_neg hother]
        exact hkept other b hb
      main := by
        change (∃ b, (OrdMap.erase _ MAIN).get? MAIN = some b) ↔ _
        rw [OrdMap.get?_erase, if_pos rfl]
        simp
      view := wellFormed_of_store ⟨⟨hin.window.1.1, hin.window.2.1⟩,
        ⟨hin.window.1.2, hin.window.2.2⟩, hin.width.2, hin.height.2⟩ }
  · exact {
      objects := rfl
      nextToken := rfl
      nextBuffer := rfl
      active := rfl
      buffers := hbuffers
      kept := fun other b _ hb => hkept other b hb
      main := by
        refine ⟨fun _ => hmain, fun _ => ?_⟩
        by_cases hactive : s.active = MAIN
        · exact ⟨left, by rw [hget, if_pos hactive.symm]⟩
        · obtain ⟨b, hb⟩ := hs.main.mpr hactive
          exact hkept MAIN b hb
      view := hs.view }

/-! #### Closing handles -/

/-- A closed handle is no longer counted. -/
theorem handleCount_erase {object : Object} (htoken : s.objects.get? token = some object)
    (id : ℕ) :
    s.handleCount id = (s.objects.erase token).sumBy
        (fun object => if object = .output id then 1 else 0) +
      if object = .output id then 1 else 0 :=
  OrdMap.sumBy_eq_of_get? _ htoken

/-- What is left of the handles. -/
theorem get?_objects_erase {other : ℕ} {object : Object}
    (h : (s.objects.erase token).get? other = some object) :
    other ≠ token ∧ s.objects.get? other = some object := by
  rw [OrdMap.get?_erase] at h
  split_ifs at h with hother
  exact ⟨hother, h⟩

/-- A handle that is not counted is closed. -/
theorem consistent_erase (hs : s.Consistent)
    (hobject : ∀ id, id ≠ MAIN → s.objects.get? token ≠ some (.output id)) :
    Consistent { s with objects := s.objects.erase token } := { hs with
  handles := by
    intro id b hb hid
    refine (hs.handles id b hb hid).trans ?_
    cases htoken : s.objects.get? token with
    | none =>
      rw [handleCount, handleCount]
      dsimp only
      rw [OrdMap.erase_of_get?_eq_none htoken]
    | some object =>
      rw [handleCount_erase htoken, if_neg fun h : object = .output id => hobject id hid (h ▸ htoken)]
      rfl
  objects := fun other id hother hid => hs.objects other id (get?_objects_erase hother).2 hid
  tokens := fun other object hother => hs.tokens other object (get?_objects_erase hother).2 }

/-- The last handle but one, or the last, to a created buffer is closed. -/
theorem sound_release (hs : s.Sound) (hid : id ≠ MAIN)
    (htoken : s.objects.get? token = some (.output id)) (hb : s.buffers.get? id = some b) :
    Sound { s with
      objects := s.objects.erase token
      buffers := s.buffers.insert id { b with handles := b.handles - 1 } } := by
  have hget : ∀ other, (s.buffers.insert id { b with handles := b.handles - 1 }).get? other =
      if other = id then some { b with handles := b.handles - 1 } else s.buffers.get? other :=
    fun other => OrdMap.get?_insert ..
  have hsame : ∀ other, (∃ c, s.buffers.get? other = some c) →
      ∃ c, (s.buffers.insert id { b with handles := b.handles - 1 }).get? other = some c := by
    rintro other ⟨c, hc⟩
    rw [hget]
    split_ifs
    · exact ⟨_, rfl⟩
    · exact ⟨c, hc⟩
  exact { hs with
    buffers := by
      intro other c hc
      rw [hget] at hc
      split_ifs at hc
      · rw [← Option.some.inj hc]
        exact { hs.buffers id b hb with }
      · exact hs.buffers other c hc
    active := hs.active.imp_right (hsame s.active)
    main := by
      dsimp only
      rw [hget, if_neg hid.symm]
      exact hs.main
    handles := by
      intro other c hc hother
      rw [hget] at hc
      have hcount := handleCount_erase htoken other
      split_ifs at hc with heq
      · subst heq
        rw [if_pos rfl] at hcount
        rw [← Option.some.inj hc]
        exact Nat.sub_eq_of_eq_add ((hs.handles other b hb hother).trans hcount)
      · rw [if_neg (by simp [Ne.symm heq])] at hcount
        exact (hs.handles other c hc hother).trans hcount
    objects := fun other c hother hc => by
      obtain ⟨d, hd⟩ := hs.objects other c (get?_objects_erase hother).2 hc
      exact hsame c ⟨d, hd⟩
    ids := by
      refine ⟨fun other c hc => ?_, hs.ids.2⟩
      rw [hget] at hc
      split_ifs at hc with heq
      · exact hs.ids.1 other b (heq ▸ hb)
      · exact hs.ids.1 other c hc
    tokens := fun other object hother => hs.tokens other object (get?_objects_erase hother).2 }

/-- A buffer without handles, and not on screen, is removed. -/
theorem sound_remove (hs : s.Sound) (hid : id ≠ MAIN) (hactive : s.active ≠ id)
    (hcount : s.handleCount id = 0) : Sound { s with buffers := s.buffers.erase id } := by
  have hget : ∀ other, other ≠ id → (s.buffers.erase id).get? other = s.buffers.get? other :=
    fun other hother => (OrdMap.get?_erase ..).trans (if_neg hother)
  have hmem : ∀ other b, (s.buffers.erase id).get? other = some b →
      s.buffers.get? other = some b := by
    intro other b hb
    rw [OrdMap.get?_erase] at hb
    split_ifs at hb
    exact hb
  exact { hs with
    buffers := fun other b hb => hs.buffers other b (hmem other b hb)
    active := by
      refine hs.active.imp_right ?_
      rintro ⟨b, hb⟩
      exact ⟨b, (hget _ hactive).trans hb⟩
    main := by
      dsimp only
      rw [hget MAIN hid.symm]
      exact hs.main
    handles := fun other b hb hother => hs.handles other b (hmem other b hb) hother
    objects := fun token other htoken hother => by
      obtain ⟨b, hb⟩ := hs.objects token other htoken hother
      refine ⟨b, (hget other ?_).trans hb⟩
      rintro rfl
      have hzero := (OrdMap.sumBy_eq_zero_iff _).mp hcount token _ htoken
      rw [if_pos rfl] at hzero
      exact one_ne_zero hzero
    ids := ⟨fun other b hb => hs.ids.1 other b (hmem other b hb), hs.ids.2⟩ }

/-- The last handle to a buffer. -/
def LastHandle (s : Server) (token id : ℕ) : Prop :=
  s.outputBuffer token = some id ∧ ∀ other, other ≠ token → s.outputBuffer other ≠ some id

/-- **Closing a handle** to a created buffer: the buffer goes with the last one. -/
theorem close_output (hs : s.Consistent) (t : Terminal) (hid : id ≠ MAIN)
    (htoken : s.objects.get? token = some (.output id)) :
    (s.close t token).Consistent ∧ ∀ other b, other ≠ MAIN → s.buffers.get? other = some b →
      ((s.close t token).buffers.get? other = none ↔ other = id ∧ s.LastHandle token id) := by
  obtain ⟨b, hb⟩ := hs.objects token id htoken hid
  have hget : ∀ other, (s.buffers.insert id { b with handles := b.handles - 1 }).get? other =
      if other = id then some { b with handles := b.handles - 1 } else s.buffers.get? other :=
    fun other => OrdMap.get?_insert ..
  have hcount := handleCount_erase htoken id
  rw [if_pos rfl] at hcount
  have hhandles := hs.handles id b hb hid
  have hlast : s.LastHandle token id ↔ b.handles - 1 = 0 := by
    rw [hhandles, hcount, Nat.add_sub_cancel, OrdMap.sumBy_eq_zero_iff, LastHandle,
      and_iff_right (outputBuffer_eq_some_iff.mpr htoken)]
    constructor
    · intro h other object hobject
      obtain ⟨hne, hobject⟩ := get?_objects_erase hobject
      refine if_neg fun heq : object = .output id =>
        h other hne (outputBuffer_eq_some_iff.mpr (heq ▸ hobject))
    · intro h other hne hother
      have hzero := h other (.output id) (by
        rw [OrdMap.get?_erase, if_neg hne]
        exact outputBuffer_eq_some_iff.mp hother)
      rw [if_pos rfl] at hzero
      exact one_ne_zero hzero
  have hreleased := sound_release hs.toSound hid htoken hb
  have hheld : ∀ other c, other ≠ MAIN → other ≠ id →
      (s.buffers.insert id { b with handles := b.handles - 1 }).get? other = some c →
      0 < c.handles := by
    intro other c hother hne hc
    rw [hget, if_neg hne] at hc
    exact hs.held other c hother hc
  rw [close, htoken]
  dsimp only
  rw [outputClosed, if_neg hid]
  dsimp only
  rw [hb]
  dsimp only
  by_cases hmore : 0 < b.handles - 1
  · rw [if_pos hmore]
    refine ⟨⟨hreleased, fun other c hother hc => ?_⟩, fun other c hother hc => ?_⟩
    · by_cases hne : other = id
      · dsimp only at hc
        rw [hget, if_pos hne] at hc
        rw [← Option.some.inj hc]
        exact hmore
      · exact hheld other c hother hne hc
    · rw [hlast]
      dsimp only
      rw [hget]
      split_ifs
      · simpa using fun _ => hmore.ne'
      · simp [*]
  · rw [if_neg hmore]
    have hzero : b.handles - 1 = 0 := Nat.eq_zero_of_not_pos hmore
    generalize hclosed : ({ s with
      objects := s.objects.erase token
      buffers := s.buffers.insert id { b with handles := b.handles - 1 } } : Server) = closed at *
    have hcloseds : closed.handleCount id = 0 ∧ closed.active = s.active := by
      rw [← hclosed]
      exact ⟨by rw [handleCount]; dsimp only; omega, rfl⟩
    -- Once the main buffer is back, if the buffer was on screen.
    have hback : ∃ back, (if s.active = id then closed.activate t MAIN else closed) = back ∧
        back.Sound ∧ back.active ≠ id ∧ back.handleCount id = 0 ∧
        (∀ other c', back.buffers.get? other = some c' → other ≠ MAIN →
          ∃ c, closed.buffers.get? other = some c ∧ c'.handles = c.handles) ∧
        Keeps closed back := by
      refine ⟨_, rfl, ?_⟩
      split_ifs with hactive
      · have hmain : MAIN ≠ closed.active := by
          rw [hcloseds.2, hactive]
          exact hid.symm
        have hswitched := switched_activate (t := t) hreleased (fun h => absurd h hmain.symm) hmain
          (.inl rfl)
        refine ⟨hswitched.sound hreleased (.inl rfl), ?_, ?_, ?_, hswitched.kept⟩
        · rw [hswitched.active]
          exact hid.symm
        · rw [handleCount, hswitched.objects]
          exact hcloseds.1
        · exact fun other c' hc' hother => (hswitched.buffers other c' hc').2 hother
      · refine ⟨hreleased, hcloseds.2 ▸ hactive, hcloseds.1, fun other c' hc' _ => ⟨c', hc', rfl⟩,
          fun other c _ hc => ⟨c, hc⟩⟩
    obtain ⟨back, hback, hsound, hactive, hnone, hbuffers, hkeeps⟩ := hback
    rw [hback]
    refine ⟨⟨sound_remove hsound hid hactive hnone, fun other c' hother hc' => ?_⟩,
      fun other c hother hc => ?_⟩
    · change (back.buffers.erase id).get? other = some c' at hc'
      rw [OrdMap.get?_erase] at hc'
      split_ifs at hc' with hne
      obtain ⟨c, hc, hsame⟩ := hbuffers other c' hc' hother
      rw [hsame]
      rw [← hclosed] at hc
      exact hheld other c hother hne hc
    · change (back.buffers.erase id).get? other = none ↔ _
      rw [OrdMap.get?_erase, hlast]
      split_ifs with hne
      · simp [hne, hzero]
      · obtain ⟨c', hc'⟩ := hkeeps other c hother (by
          rw [← hclosed]
          exact (hget other).trans ((if_neg hne).trans hc))
        simp [hc', hne]

/-- **Closing a handle**, whatever it is open to. -/
theorem close_spec (hs : s.Consistent) (t : Terminal) (token : ℕ) :
    (s.close t token).Consistent ∧ ∀ id b, id ≠ MAIN → s.buffers.get? id = some b →
      ((s.close t token).buffers.get? id = none ↔ s.LastHandle token id) := by
  by_cases hobject : ∃ id, id ≠ MAIN ∧ s.objects.get? token = some (.output id)
  · obtain ⟨id, hid, htoken⟩ := hobject
    obtain ⟨hconsistent, hremoved⟩ := close_output hs t hid htoken
    refine ⟨hconsistent, fun other b hother hb => (hremoved other b hother hb).trans ?_⟩
    constructor
    · rintro ⟨rfl, hlast⟩
      exact hlast
    · intro hlast
      have heq := (outputBuffer_eq_some_iff.mpr htoken).symm.trans hlast.1
      have hid : id = other := Option.some.inj heq
      exact ⟨hid.symm, hid ▸ hlast⟩
  · have hobject : ∀ id, id ≠ MAIN → s.objects.get? token ≠ some (.output id) :=
      fun id hid htoken => hobject ⟨id, hid, htoken⟩
    have hclose : s.close t token = { s with objects := s.objects.erase token } := by
      rw [close]
      split
      next id htoken =>
        have hid : id = MAIN := by
          by_contra hid
          exact hobject id hid htoken
        rw [outputClosed, if_pos hid]
      next => rfl
      next => rfl
    rw [hclose]
    refine ⟨consistent_erase hs hobject, fun id b hid hb => ?_⟩
    constructor
    · intro hnone
      exact nomatch hb.symm.trans hnone
    · intro hlast
      exact absurd (outputBuffer_eq_some_iff.mp hlast.1) (hobject id hid)

/-! #### Requests on screen -/

theorem rewrites_store (hs : s.Sound) {view : View} (hview : view.WellFormed) :
    Rewrites s (s.store view) :=
  .of_eq hs rfl rfl rfl rfl rfl (wellFormed_of_store hview)

theorem rewrites_setBufferSize (hs : s.Sound) (t : Terminal)
    (hsize : size.1 ≤ I16_MAX ∧ size.2 ≤ I16_MAX) : Rewrites s (s.setBufferSize t.size size).1 := by
  have hview := wellFormed_viewOn hs t
  rw [setBufferSize]
  split_ifs with hrefused
  · exact .refl hs
  · obtain ⟨hwidth, hheight, -, -⟩ := by simpa only [not_or, not_lt] using hrefused
    exact rewrites_store hs ⟨hview.window, ⟨hwidth, hheight⟩, hsize⟩

theorem rewrites_setSize (hs : s.Sound) (t : Terminal) (hsize : size.1 ≤ I16_MAX ∧ size.2 ≤ I16_MAX)
    (id : ℕ) : Rewrites s (s.setSize t size id).1 := by
  rw [setSize]
  split_ifs
  · exact rewrites_setBufferSize hs t hsize
  · exact .refl hs
  · exact .refl hs

theorem rewrites_setWindow (hs : s.Sound) (t : Terminal) {window : Rect} {absolute : Bool}
    (hwindow : id = MAIN → (ScreenBuffer.windowFor (s.windowSize t.size) window absolute).IsValid →
      0 < asI16 (ScreenBuffer.windowFor (s.windowSize t.size) window absolute).width ∧
        0 < asI16 (ScreenBuffer.windowFor (s.windowSize t.size) window absolute).height) :
    Rewrites s (s.setWindow t window absolute id).1 := by
  rw [setWindow]
  split_ifs with hmain hvalid hvalid
  · exact rewrites_store hs ⟨hwindow hmain hvalid, ⟨le_rfl, le_rfl⟩, asI16_le _, asI16_le _⟩
  · exact .refl hs
  · exact .refl hs
  · exact .refl hs

/-- What a request comes to: it succeeds, keeps the buffers consistent, and removes a created
buffer exactly if it closes the last handle to it. -/
def Served (s s' : Server) (request : Request) : Prop :=
  s'.Consistent ∧ ∀ id b, id ≠ MAIN → s.buffers.get? id = some b →
    (s'.buffers.get? id = none ↔ ∃ token, request = .close token ∧ s.LastHandle token id)

theorem Keeps.served (h : Keeps s s') (hs : s'.Consistent) {request : Request}
    (hclose : ∀ token, request ≠ .close token) : Served s s' request := by
  refine ⟨hs, fun id b hid hb => ?_⟩
  obtain ⟨b', hb'⟩ := h id b hid hb
  constructor
  · exact fun hnone => nomatch hb'.symm.trans hnone
  · rintro ⟨token, hrequest, -⟩
    exact absurd hrequest (hclose token)

theorem Rewrites.served (h : Rewrites s s') (hs : s.Consistent) {request : Request}
    (hclose : ∀ token, request ≠ .close token) : Served s s' request :=
  h.keeps.served (hs.rewrites h) hclose

variable (isWide : UInt16 → Bool) (sanitize : UInt16 → UInt16)

/-- **One request** that is fair. -/
theorem exists_serve (hs : s.Consistent) (t : Terminal) (request : Request)
    (hfair : s.Fair t request) :
    ∃ s' status, s.serve isWide sanitize t request = some (s', status) ∧ Served s s' request := by
  -- Whatever the request does to buffers in place.
  have inPlace : ∀ reply : Option (Server × Status),
      (∃ s' status, reply = some (s', status) ∧ Rewrites s s') →
      (∀ token, request ≠ .close token) →
      ∃ s' status, reply = some (s', status) ∧ Served s s' request := by
    rintro reply ⟨s', status, hreply, hrewrites⟩ hclose
    exact ⟨s', status, hreply, hrewrites.served hs hclose⟩
  have hrefl := Rewrites.refl hs.toSound
  have onTerminal : ∀ id token, s.outputBuffer token = some id → id = s.active →
      ∃ s' status, s.toTerminal id = some (s', status) ∧ Rewrites s s' :=
    fun _ _ _ _ => ⟨s, _, rfl, hrefl⟩
  cases request with
  | connect =>
    exact ⟨_, _, rfl, (keeps_connect hs).served (consistent_connect hs) (by simp)⟩
  | openInput =>
    have hkeeps : Keeps s (s.object .input) := fun id b _ hb => ⟨b, hb⟩
    exact ⟨_, _, rfl, hkeeps.served (consistent_object_input hs) (by simp)⟩
  | openOutput =>
    exact ⟨_, _, rfl, (keeps_object_output hs.active).served
      (consistent_object_output hs hs.active) (by simp)⟩
  | createScreenBuffer =>
    obtain ⟨s', hcreate, hconsistent, hkeeps⟩ := exists_createScreenBuffer hs t hfair
    refine ⟨s', .ok, ?_, hkeeps.served hconsistent (by simp)⟩
    rw [serve, hcreate]
    rfl
  | close token =>
    obtain ⟨hconsistent, hremoved⟩ := close_spec hs t token
    refine ⟨_, _, rfl, hconsistent, fun id b hid hb => (hremoved id b hid hb).trans ?_⟩
    simp
  | activate token =>
    rw [serve]
    split
    next => exact ⟨s, _, rfl, hrefl.served hs (by simp)⟩
    next id htoken =>
      refine ⟨_, _, rfl, ?_⟩
      by_cases hne : id = s.active
      · rw [activate, if_pos hne]
        exact hrefl.served hs (by simp)
      · have htarget : id = MAIN ∨ ∃ b, s.buffers.get? id = some b := by
          by_cases hid : id = MAIN
          · exact .inl hid
          · exact .inr (hs.objects token id (outputBuffer_eq_some_iff.mp htoken) hid)
        have hleaves : s.Leaves t := fun hmain =>
          hfair hmain id htoken fun hid => hne (hid.trans hmain.symm)
        have hswitched := switched_activate hs.toSound hleaves hne htarget
        exact hswitched.kept.served
          ⟨hswitched.sound hs.toSound htarget, hswitched.held hs.held⟩ (by simp)
  | setScreenInfo token columns rows attributes =>
    refine inPlace _ ?_ (by simp)
    rw [serve, setScreenInfo]
    split_ifs
    · exact ⟨s, _, rfl, hrefl⟩
    · refine exists_onBuffer hs.toSound (fun id _ _ => ⟨_, _, rfl, ?_⟩) fun id b _ _ _ hb =>
        ⟨_, _, rfl, ScreenBuffer.follows_setAttributes hb attributes⟩
      have h : Rewrites s (s.setBufferSize t.size (columns, rows)).1 :=
        rewrites_setBufferSize hs.toSound t ⟨columns.2.2, rows.2.2⟩
      exact { h with }
  | setBufferSize token columns rows =>
    exact inPlace _ (exists_onBuffer hs.toSound
      (fun id _ _ => ⟨_, _, rfl, rewrites_setSize hs.toSound t ⟨columns.2.2, rows.2.2⟩ id⟩)
      fun id b _ _ _ hb => ScreenBuffer.exists_setSize hb ⟨columns.2.2, rows.2.2⟩) (by simp)
  | setWindowInfo token window absolute =>
    refine inPlace _ (exists_onBuffer hs.toSound (fun id htoken hactive => ⟨_, _, rfl, ?_⟩)
      fun id b htoken hactive hb hwell => ?_) (by simp)
    · refine rewrites_setWindow hs.toSound t fun hmain => ?_
      refine hfair _ ?_
      rw [currentWindow, htoken]
      dsimp only
      rw [if_pos hactive, if_pos hmain]
      rfl
    · refine ScreenBuffer.exists_setWindow hwell (hfair _ ?_)
      rw [currentWindow, htoken]
      dsimp only
      rw [if_neg hactive, hb]
      rfl
  | setCursorPosition token x y =>
    refine inPlace _ (exists_onBuffer hs.toSound (fun id _ _ => ?_) fun id b _ _ _ hb =>
      ⟨_, _, rfl, ScreenBuffer.follows_setCursor hb x y⟩) (by simp)
    dsimp only
    split_ifs <;> exact ⟨s, _, rfl, hrefl⟩
  | setCursorInfo token size visible =>
    refine inPlace _ ?_ (by simp)
    rw [serve]
    split_ifs
    · exact ⟨s, _, rfl, hrefl⟩
    · exact exists_onBuffer hs.toSound (fun id _ _ => ⟨_, _, rfl, { hrefl with }⟩)
        fun id b _ _ _ hb => ⟨_, _, rfl, ScreenBuffer.follows_setCursorInfo hb size visible⟩
  | setMode token value =>
    refine inPlace _ (exists_onBuffer hs.toSound (fun id _ _ => ?_) fun id b _ _ _ hb =>
      ⟨_, _, rfl, ScreenBuffer.follows_setMode hb value⟩) (by simp)
    split_ifs
    · exact ⟨_, _, rfl, { hrefl with }⟩
    · exact ⟨s, _, rfl, hrefl⟩
  | setTextAttribute token attributes =>
    refine inPlace _ ?_ (by simp)
    rw [serve]
    split_ifs
    · exact ⟨s, _, rfl, hrefl⟩
    · exact exists_onBuffer hs.toSound (fun id _ _ => ⟨_, _, rfl, { hrefl with }⟩)
        fun id b _ _ _ hb => ⟨_, _, rfl, ScreenBuffer.follows_setAttributes hb attributes⟩
  | write token text =>
    refine inPlace _ ?_ (by simp)
    obtain ⟨s', status, hwrite, hrewrites⟩ : ∃ s' status, s.onBuffer token s.toTerminal
        (fun b => (b.writeText text).map (·, .ok)) = some (s', status) ∧ Rewrites s s' := by
      refine exists_onBuffer hs.toSound
        (fun id htoken hactive => onTerminal id token htoken hactive) fun id b _ _ _ hb => ?_
      obtain ⟨b', hwritten, hwell, hhandles⟩ := ScreenBuffer.exists_writeText hb text
      exact ⟨b', .ok, by rw [hwritten]; rfl, hwell, hhandles⟩
    rw [serve, write, hwrite, Option.bind_eq_bind, Option.bind_some]
    dsimp only
    split_ifs
    · exact ⟨_, _, rfl, { hrewrites with }⟩
    · exact ⟨_, _, rfl, hrewrites⟩
  | writeOutput token region cells =>
    refine inPlace _ (exists_onBuffer hs.toSound (fun id htoken _ => ?_)
      fun id b htoken _ _ hb => ?_) (by simp)
    · obtain ⟨status, clipped, hclip⟩ := ScreenBuffer.exists_clipCells (s.activeSize t) cells
        (hfair id htoken)
      exact ⟨s, status, by rw [hclip]; rfl, hrefl⟩
    · obtain ⟨b', status, hwrite, hrecelled⟩ := ScreenBuffer.exists_writeOutput hb cells
        (hfair id htoken)
      exact ⟨b', status, hwrite, hrecelled.follows hb⟩
  | readOutput token region capacity =>
    refine inPlace _ (exists_onBuffer hs.toSound (fun id htoken hactive =>
      onTerminal id token htoken hactive) fun id b _ _ _ hb => ?_) (by simp)
    obtain ⟨status, cells, hread⟩ := ScreenBuffer.exists_readOutput hb region.rect capacity
    exact ⟨b, status, by rw [hread]; rfl, hb, rfl⟩
  | fillOutput token x y fill length =>
    refine inPlace _ (exists_onBuffer hs.toSound (fun id htoken hactive =>
      onTerminal id token htoken hactive) fun id b _ _ _ hb => ?_) (by simp)
    obtain ⟨f, hfill, hrecelled⟩ := ScreenBuffer.exists_fill isWide hb (x, y) fill length
    exact ⟨f.buffer, .ok, by rw [hfill]; rfl, hrecelled.follows hb⟩
  | scroll token source clip x y fill =>
    refine inPlace _ (exists_onBuffer hs.toSound (fun id htoken hactive =>
      onTerminal id token htoken hactive) fun id b _ _ _ hb => ?_) (by simp)
    obtain ⟨b', hscroll, hrecelled⟩ := ScreenBuffer.exists_scrollRegion hb sanitize s.attributes
      source.rect (clip.map SmallRect.rect) (x, y) fill
    exact ⟨b', .ok, by rw [hscroll]; rfl, hrecelled.follows hb⟩

end Proofs

/-! ### Runs -/

section Run

variable (isWide : UInt16 → Bool) (sanitize : UInt16 → UInt16)

/-- The steps that serve a fair request. -/
abbrev FairStep : Server → Terminal × Request → Server → Prop :=
  Meeting (fun s request => s.Fair request.1 request.2) (Step isWide sanitize)

/-- **In every run of fair requests** the buffers are consistent in every state it reaches: those
off the screen are well-formed and the one on it is the main one or exists. The next fair request
is served, and removes a created buffer exactly if it closes the last handle to it. -/
theorem consistent_of_run {attributes : UInt16} {requests : List (Terminal × Request)}
    {s : Server} (hrun : Run (FairStep isWide sanitize) (new attributes) requests s) :
    s.Consistent ∧ ∀ t request, s.Fair t request →
      ∃ s' status, s.serve isWide sanitize t request = some (s', status) ∧
        Served s s' request := by
  have hconsistent : s.Consistent := by
    refine hrun.invariant (consistent_new attributes) ?_
    rintro s ⟨t, request⟩ s' hs ⟨hfair, status, hstep⟩
    obtain ⟨s'', status', hserve, hserved⟩ := exists_serve isWide sanitize hs t request hfair
    have heq : s'' = s' := by
      have h := hserve.symm.trans hstep
      exact congrArg Prod.fst (Option.some.inj h)
    exact heq ▸ hserved.1
  exact ⟨hconsistent, fun t request hfair => exists_serve isWide sanitize hconsistent t request hfair⟩

end Run

/-- A terminal of the usual size. -/
def usual : Terminal where
  size := (80, 24)
  cursor := (5, 20)
  cursorVisible := true
  grid := []
  columns := by decide
  rows := by decide
  column := by decide
  row := by decide

section Examples

/-- A run on fixed requests, computed. -/
theorem exists_run_of_serve {P : Server → Prop} [DecidablePred P]
    (requests : List (Terminal × Request))
    (h : ((requests.foldlM (fun (s : Server) request =>
        if s.Fair request.1 request.2 then
          (s.serve (fun _ => false) id request.1 request.2).map Prod.fst
        else none) (new 7)).any fun s => decide (P s)) = true) :
    ∃ s, Run (FairStep (fun _ => false) id) (new 7) requests s ∧ P s := by
  obtain ⟨s, hrun, hP⟩ := exists_run_of_foldlM requests h
  refine ⟨s, hrun.mono fun s request s' hstep => ?_, hP⟩
  split_ifs at hstep with hfair
  obtain ⟨reply, hserve, rfl⟩ := Option.map_eq_some_iff.mp hstep
  exact ⟨hfair, reply.2, hserve⟩

/-- Text is written to the main buffer while a created one is on screen, which is closed then. -/
theorem consistent_of_close : ∃ s, Run (FairStep (fun _ => false) id) (new 7)
    ([.connect, .createScreenBuffer, .activate 4, .write 3 ['x', '\n'], .close 4].map (usual, ·)) s ∧
    s.buffers = .empty ∧ s.Consistent := by
  obtain ⟨s, hrun, hempty⟩ := exists_run_of_serve (P := fun s => s.buffers = .empty)
    ([.connect, .createScreenBuffer, .activate 4, .write 3 ['x', '\n'], .close 4].map (usual, ·))
    (by decide +kernel)
  exact ⟨s, hrun, hempty, (consistent_of_run _ _ hrun).1⟩

/-- An application that makes the main buffer's window small and then opens a buffer of its own. -/
def shrinks : List Request :=
  [.connect,
    .setWindowInfo 3 ⟨⟨0, by decide⟩, ⟨0, by decide⟩, ⟨9, by decide⟩, ⟨4, by decide⟩⟩ true,
    .createScreenBuffer, .activate 4]

/-- The cursor is in a row of the terminal that the main buffer no longer has: the buffer is kept
with its cursor outside it, and writing a character to it panics. -/
theorem consistent_departs : ∃ s, Run (Step (fun _ => false) id) (new 7) (shrinks.map (usual, ·)) s ∧
    s.active ≠ MAIN ∧
    (∃ b, s.buffers.get? MAIN = some b ∧ b.size = (10, 5) ∧ b.saved.cursor = (5, 20)) ∧
    s.serve (fun _ => false) id usual (.write 3 ['x']) = none := by
  obtain ⟨s, hrun, hactive, hmain, hwrite⟩ := exists_run_of_foldlM
    (f := fun (s : Server) (request : Terminal × Request) =>
      (s.serve (fun _ => false) id request.1 request.2).map Prod.fst)
    (P := fun s => s.active ≠ MAIN ∧
      (s.buffers.get? MAIN).map (fun b => (b.size, b.saved.cursor)) = some ((10, 5), (5, 20)) ∧
      (s.serve (fun _ => false) id usual (.write 3 ['x'])).isNone = true)
    (s := new 7) (shrinks.map (usual, ·)) (by decide +kernel)
  refine ⟨s, hrun.mono fun s request s' hstep => ?_, hactive, ?_, Option.isNone_iff_eq_none.mp hwrite⟩
  · obtain ⟨reply, hserve, rfl⟩ := Option.map_eq_some_iff.mp hstep
    exact ⟨reply.2, hserve⟩
  · obtain ⟨b, hb, heq⟩ := Option.map_eq_some_iff.mp hmain
    exact ⟨b, hb, congrArg Prod.fst heq, congrArg Prod.snd heq⟩

end Examples

end Server

end Zetta.Console
