import Zetta.Lib.Run
import Zetta.Zmux.Transport

/-!
# The reader of a shared pane

A shared pane's connection carries messages, and after each message of output its raw bytes.
`SharedReader::read` gives the terminal the bytes. A size stops it until the holder of the pane has
put the terminal on that grid. A connection that fails is replaced by one that is queued.

The reader, the holder and whoever replaces the connection take turns: `advance` is the reader's
next step within a call, `hold` the holder's, `forward` the next of a replacement. What the sockets
return is part of the connections, so that a run is any interleaving with any cuts and time-outs.
-/

namespace Zetta.Zmux.SharedReader

open Transport (Serde takeFrame MAX_MESSAGE_BYTES READ_BUFFER RAW_READ_CHUNK)

/-- A grid: columns and lines. -/
abbrev Grid := ℕ × ℕ

structure PaneSize where
  revision : ℕ
  columns : ℕ
  lines : ℕ
  deriving DecidableEq

def PaneSize.grid (size : PaneSize) : Grid := (size.columns, size.lines)

/-- The messages, with what the reader looks at. -/
inductive Event
  | output (length : ℕ)
  | size (size : PaneSize)
  | sharedClosed
  | other
  deriving DecidableEq

/-- What the daemon puts on a connection. -/
inductive Item
  | output (payload : List UInt8)
  | size (size : PaneSize)
  | sharedClosed
  | other

namespace Item

def event : Item → Event
  | output payload => .output payload.length
  | size paneSize => .size paneSize
  | sharedClosed => .sharedClosed
  | other => .other

def payload : Item → List UInt8
  | output payload => payload
  | _ => []

def size? : Item → Option PaneSize
  | size paneSize => some paneSize
  | _ => none

def bytes (serde : Serde Event) (item : Item) : Option (List UInt8) :=
  (Transport.encodeMessage serde item.event).toOption.map (· ++ item.payload)

end Item

/-- The bytes of a connection, if every message can be sent. -/
def wire (serde : Serde Event) : List Item → Option (List UInt8)
  | [] => some []
  | item :: items => do
    let bytes ← item.bytes serde
    let rest ← wire serde items
    some (bytes ++ rest)

inductive SocketRead
  | data (bytes : List UInt8)
  | timedOut
  deriving DecidableEq

/-- What was read and not used, and what the socket will return before it fails. -/
structure Connection where
  leftover : List UInt8
  reads : List SocketRead

namespace Connection

/-- What the reads return, up to one that returns nothing. -/
def arriving : List SocketRead → List UInt8
  | [] => []
  | .timedOut :: reads => arriving reads
  | .data bytes :: reads => if bytes = [] then [] else bytes ++ arriving reads

def coming (c : Connection) : List UInt8 := arriving c.reads

inductive ReadResult
  | read (bytes : List UInt8)
  | timedOut
  | failed

/-- One read of the socket. One that returns nothing is the end. -/
def readSome (c : Connection) (limit : ℕ) : ReadResult × Connection :=
  match c.reads with
  | [] => (.failed, c)
  | .timedOut :: reads => (.timedOut, { c with reads := reads })
  | .data bytes :: reads =>
    if bytes = [] then (.failed, c)
    else if bytes.length ≤ limit then (.read bytes, { c with reads := reads })
    else (.read (bytes.take limit), { c with reads := .data (bytes.drop limit) :: reads })

end Connection

/-- A connection, as the daemon answers an attach with it: what it replays, the grid that it
advertises, and what it puts on the connection. The socket may fail before all of it came. -/
structure Source (serde : Serde Event) where
  replay : List UInt8
  viewport : Option Grid
  items : List Item
  connection : Connection
  carries : ∃ bytes, wire serde items = some bytes ∧
    connection.leftover ++ connection.coming <+: bytes

/-- Where the reader is in a call. -/
inductive Phase
  | idle
  | looping (room : ℕ)
  | receiving (room : ℕ)
  | payload (room length : ℕ) (bytes : List UInt8)
  /-- `size_application_pending` is set. -/
  | barrier (size : PaneSize)
  /-- `pending_size_frame` is set. -/
  | framed (size : PaneSize)
  /-- The size is in the list. -/
  | recorded
  deriving DecidableEq

/-- Where the holder is in its loop. -/
inductive HolderPhase
  | taking
  | taken
  | top
  | applied (size : PaneSize)
  | waiting
  | gone
  deriving DecidableEq

structure Holder where
  phase : HolderPhase
  viewport : Option Grid
  size : Option PaneSize

/-- What is left of a replacement that is under way. -/
inductive Forwarding
  | idle
  | sizes (sizes : List PaneSize) (viewport : Option Grid)
  | viewport (viewport : Option Grid)
  deriving DecidableEq

/-- A connection that was given up: how many of its items were taken, and what had come of the
next. -/
structure Ended (serde : Serde Event) where
  source : Source serde
  taken : ℕ
  rest : List UInt8

structure Pane (serde : Serde Event) where
  connection : Connection
  pending : List UInt8
  reconnectReplay : List UInt8
  phase : Phase
  sizeApplicationPending : Bool
  pendingSizeFrame : Option PaneSize
  sizes : List PaneSize
  sizeSignal : Bool
  initialViewport : Option Grid
  readerHandoffs : List (Source serde)
  streamLost : Bool
  forwarding : Forwarding
  holder : Holder
  /-- The grid that the holder applied last. -/
  grid : Option Grid
  /-- The sizes that the holder applied. -/
  applied : List PaneSize
  /-- What the calls returned. -/
  returned : List UInt8
  source : Source serde
  /-- How many items of the source were taken. -/
  taken : ℕ
  earlier : List (Ended serde)

namespace Pane

variable {serde : Serde Event} (s : Pane serde)

/-- A pane whose reader was just made, and whose holder starts. -/
def start (source : Source serde) : Pane serde where
  connection := source.connection
  pending := []
  reconnectReplay := []
  phase := .idle
  sizeApplicationPending := false
  pendingSizeFrame := none
  sizes := []
  sizeSignal := false
  initialViewport := source.viewport
  readerHandoffs := []
  streamLost := false
  forwarding := .idle
  holder := ⟨.taking, none, none⟩
  grid := none
  applied := []
  returned := []
  -- What the first connection replays does not come through the reader.
  source := { source with replay := [] }
  taken := 0
  earlier := []

/-! ### The reader -/

/-- A call begins. Nothing is asked for with no room, and nothing is given behind a size. -/
def call (room : ℕ) : Pane serde :=
  if room = 0 ∨ s.sizeApplicationPending then s else { s with phase := .looping room }

/-- `install_next_handoff`, or the call ends. -/
def install (room : ℕ) (rest : List UInt8) (lost : Bool) : Pane serde :=
  match s.readerHandoffs with
  | [] => { s with phase := .idle, streamLost := s.streamLost || lost }
  | source :: readerHandoffs => { s with
    readerHandoffs := readerHandoffs
    connection := source.connection
    reconnectReplay := s.reconnectReplay ++ source.replay
    streamLost := false
    phase := .looping room
    source := source
    taken := 0
    earlier := s.earlier ++ [⟨s.source, s.taken, rest⟩] }

/-- What is there already is given first. -/
def loop (room : ℕ) : Pane serde :=
  if s.pending ≠ [] then { s with
    pending := s.pending.drop room
    returned := s.returned ++ s.pending.take room
    phase := .idle }
  else if s.reconnectReplay ≠ [] then { s with
    reconnectReplay := s.reconnectReplay.drop room
    returned := s.returned ++ s.reconnectReplay.take room
    phase := .idle }
  else { s with phase := .receiving room }

/-- What a message makes of the call, and of the bytes that came with it. -/
def dispatch (room : ℕ) (rest : List UInt8) : Event → Pane serde
  | .output length => { s with
    connection := { s.connection with leftover := rest.drop length }
    phase := .payload room length (rest.take length) }
  | .size size => { s with
    connection := { s.connection with leftover := rest }
    taken := s.taken + 1
    sizeApplicationPending := true
    phase := .barrier size }
  | .sharedClosed =>
    { s with connection := { s.connection with leftover := rest }, taken := s.taken + 1 }.install
      room rest false
  | .other => { s with
    connection := { s.connection with leftover := rest }
    taken := s.taken + 1
    phase := .looping room }

/-- One turn of `receive_until`: a message that is whole, or one more read of the socket. -/
def receive (room : ℕ) : Pane serde :=
  match takeFrame s.connection.leftover with
  | .error _ => s.install room s.connection.leftover true
  | .ok (some (frame, rest)) =>
    match serde.fromSlice frame with
    | none => { s with connection := { s.connection with leftover := rest } }.install room rest true
    | some event => s.dispatch room rest event
  | .ok none =>
    if MAX_MESSAGE_BYTES + 4 < s.connection.leftover.length then
      s.install room s.connection.leftover true
    else
      match s.connection.readSome READ_BUFFER with
      | (.read bytes, connection) =>
        { s with connection := { connection with leftover := connection.leftover ++ bytes } }
      | (.timedOut, connection) =>
        { s with connection := connection }.install room s.connection.leftover false
      | (.failed, _) => s.install room s.connection.leftover true

/-- One turn of `read_exact_until`: all bytes are there, or one more read of the socket. The bytes
that were read are lost if that fails. -/
def readPayload (room length : ℕ) (bytes : List UInt8) : Pane serde :=
  if length ≤ bytes.length then { s with
    returned := s.returned ++ bytes.take room
    pending := bytes.drop room
    taken := s.taken + 1
    phase := .idle }
  else
    match s.connection.readSome (min (length - bytes.length) RAW_READ_CHUNK) with
    | (.read more, connection) =>
      { s with connection := connection, phase := .payload room length (bytes ++ more) }
    | (.timedOut, connection) => { s with connection := connection }.install room bytes false
    | (.failed, _) => s.install room bytes true

/-- The reader's next step within a call. -/
def advance : Option (Pane serde) :=
  match s.phase with
  | .idle => none
  | .looping room => some (s.loop room)
  | .receiving room => some (s.receive room)
  | .payload room length bytes => some (s.readPayload room length bytes)
  | .barrier size => some { s with pendingSizeFrame := some size, phase := .framed size }
  | .framed size => some { s with sizes := s.sizes ++ [size], phase := .recorded }
  | .recorded => some { s with sizeSignal := true, phase := .idle }

/-! ### The holder -/

def finishSizeApplication (size : PaneSize) : Pane serde :=
  if s.pendingSizeFrame = some size then
    { s with pendingSizeFrame := none, sizeApplicationPending := false }
  else s

/-- The holder's next step. A grid is applied unless the tab has not been laid out yet. -/
def hold (laidOut : Bool) : Option (Pane serde) :=
  match s.holder.phase with
  | .taking => some { s with
    initialViewport := none
    holder := { s.holder with viewport := s.initialViewport, phase := .taken } }
  | .taken => some { s with
    sizes := []
    holder := { s.holder with size := s.sizes.getLast?, phase := .top } }
  | .top =>
    match s.holder.viewport with
    | some viewport =>
      if laidOut then
        some { s with grid := some viewport, holder := { s.holder with viewport := none } }
      else some s
    | none =>
      match s.holder.size with
      | some size =>
        if laidOut then some { s with
          grid := some size.grid
          applied := s.applied ++ [size]
          holder := { s.holder with size := none, phase := .applied size } }
        else some s
      | none => some { s with holder := { s.holder with phase := .waiting } }
  | .applied size =>
    let s := s.finishSizeApplication size
    some { s with holder := { s.holder with phase := .waiting } }
  | .waiting =>
    if s.sizeSignal then
      some { s with sizeSignal := false, holder := { s.holder with phase := .taking } }
    else none
  | .gone => none

/-! ### A replacement -/

/-- `replace_connection_from`, up to the queue. The replacement may have recorded sizes. -/
def replace (source : Source serde) (sizes : List PaneSize) : Option (Pane serde) :=
  if s.forwarding = .idle then some { s with
    readerHandoffs := s.readerHandoffs ++ [source]
    forwarding := .sizes sizes source.viewport }
  else none

/-- The rest of it: the sizes, then the grid that was advertised. -/
def forward : Option (Pane serde) :=
  match s.forwarding with
  | .idle => none
  | .sizes sizes viewport => some { s with
    sizes := s.sizes ++ sizes
    sizeSignal := s.sizeSignal || !sizes.isEmpty
    forwarding := .viewport viewport }
  | .viewport none => some { s with forwarding := .idle }
  | .viewport (some viewport) => some { s with
    initialViewport := some viewport, sizeSignal := true, forwarding := .idle }

/-! ### What happens -/

inductive Op (serde : Serde Event)
  | call (room : ℕ)
  | advance
  | hold (laidOut : Bool)
  /-- The pane's process has ended, and the holder with it. -/
  | exit
  | replace (source : Source serde) (sizes : List PaneSize)
  | forward

def step : Op serde → Option (Pane serde)
  | .call room => if s.phase = .idle then some (s.call room) else none
  | .advance => s.advance
  | .hold laidOut => s.hold laidOut
  | .exit =>
    if s.holder.phase = .waiting then some { s with holder := { s.holder with phase := .gone } }
    else none
  | .replace source sizes => s.replace source sizes
  | .forward => s.forward

end Pane

end Zetta.Zmux.SharedReader
