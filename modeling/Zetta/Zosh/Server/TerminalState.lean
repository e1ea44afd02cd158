import Mathlib
import Zetta.Lib.Base64
import Zetta.Lib.CountedQueue
import Zetta.Lib.Decimal
import Zetta.Lib.OrdMap
import Zetta.Vt100.Eviction
import Zetta.Zosh.Server.Scanners

/-!
# The server's terminal state

`TerminalState` is the authoritative terminal of a session, with what the session keeps so
that it can tell a client about it: the screen of the newest acknowledged state (`baseScreen`),
the snapshots of the states sent since, the rows that have scrolled off the screen and the
queries relayed to the client, both held until a state that carries them is acknowledged.

* Every operation that subtracts from a byte count is checked: `Fault.underflow` is a
  subtraction that goes below zero, so that "no subtraction underflows" is a theorem about
  runs and not a convention of the model.
* `frameFrom` is the frame a state is sent with: the screen diff from a base, preceded by the
  title, the clear marker and the scrollback marker where they have moved.
* Counters that the program only ever increments (`evictedTotal`, the clear count) are natural
  numbers.
-/

namespace Zetta.Zosh.Server

open Vt100

universe u

/-! ### Constants -/

/-- The largest scrollback budget a client may ask for. -/
def SCROLLBACK_BUDGET_MAX : ℕ := 2048 * 1024

/-- What is collected before a client has said whether it wants any. -/
def SCROLLBACK_BUDGET_PROVISIONAL : ℕ := SCROLLBACK_BUDGET_MAX

/-- How many bytes of queries may be pending. -/
def MAX_PENDING_QUERY_BYTES : ℕ := 2 * 1024 * 1024

/-- How many queries may be pending. -/
def MAX_PENDING_QUERIES : ℕ := 128

/-- The flags byte and the big-endian `u32` length ahead of each row. -/
def SCROLLBACK_ROW_HEADER : ℕ := 5

/-- The flag of a row whose logical line continues below. -/
def SCROLLBACK_FLAG_WRAPPED : UInt8 := 1

/-- `max_snapshots`, as `TerminalState::new` sets it. -/
def MAX_SNAPSHOTS : ℕ := 64

/-! ### Data -/

/-- One row that has scrolled off the top, waiting to be acknowledged. -/
structure PendingRow where
  /-- Its absolute index in the session's output. -/
  index : ℕ
  /-- Its contents and whether it is wrapped. -/
  row : EvictedRow

/-- The row and the header it is framed with. -/
def PendingRow.cost (r : PendingRow) : ℕ := r.row.contents.length + SCROLLBACK_ROW_HEADER

/-- One escape relayed to the displaying terminal. -/
structure TerminalQuery where
  id : ℕ
  bytes : List UInt8
  deriving DecidableEq

/-- What a query counts against `MAX_PENDING_QUERY_BYTES`. -/
def TerminalQuery.cost (q : TerminalQuery) : ℕ := q.bytes.length

/-- The terminal as it was when a state was sent. -/
structure TerminalSnapshot (Screen : Type u) where
  screen : Screen
  scrollbackClearCount : ℕ
  /-- How many rows had scrolled off the top. -/
  evictedTotal : ℕ
  title : Option (List UInt8)
  /-- How many of the pending queries the state carried. -/
  queryCount : ℕ

/-- What a frame is diffed from. -/
structure Base (Screen : Type u) where
  screen : Screen
  scrollbackClearCount : ℕ
  evictedTotal : ℕ
  title : Option (List UInt8)
  /-- How many of the pending queries the base already carried. -/
  queryCount : ℕ
  deriving DecidableEq

/-- What a frame from some base carries for the terminal. -/
structure TerminalFrame where
  /-- The size to tell the peer about first, when it differs from the base's. -/
  resize : Option (ℕ × ℕ)
  hostBytes : List UInt8
  /-- Queries the base did not already carry. -/
  queries : List TerminalQuery

/-- What stops the server: a byte count subtracted below zero, or query ids used up. -/
inductive Fault where
  | underflow
  | queryIdExhausted

/-- The server's terminal and what is kept of it for the client. -/
structure TerminalState (Screen : Type u) where
  parser : Parser Screen
  /-- The screen of the newest acknowledged state. -/
  baseScreen : Screen
  baseNum : ℕ
  /-- The screen of the newest snapshot, while the parser's has not changed since. -/
  unchangedScreen : Option Screen
  scrollbackDetector : ScrollbackClearDetector
  scrollbackClearCount : ℕ
  baseScrollbackClearCount : ℕ
  titleScanner : TitleScanner
  baseTitle : Option (List UInt8)
  /-- How much history may be held unacknowledged, in bytes; zero if nobody wants any. -/
  scrollbackBudget : ℕ
  /-- Whether a client has asked for history. -/
  scrollbackAnnounced : Bool
  /-- `pending_scrollback` and `pending_scrollback_bytes`. -/
  pendingScrollback : CountedQueue PendingRow
  baseEvictedTotal : ℕ
  snapshots : OrdMap ℕ (TerminalSnapshot Screen)
  /-- `pending_queries` and `pending_query_bytes`. -/
  pendingQueries : CountedQueue TerminalQuery
  nextQueryId : ℕ

/-! ### Markers -/

/-- `title_escape`: `ESC ] 0 ; title BEL`. -/
def titleEscape (title : List UInt8) : List UInt8 :=
  [0x1b, 0x5d, 0x30, 0x3b] ++ title ++ [0x07]

/-- `777;zosh-clear-scrollback;` after `ESC ]`. -/
def CLEAR_SCROLLBACK_MARKER_PREFIX : List UInt8 :=
  [0x1b, 0x5d, 0x37, 0x37, 0x37, 0x3b, 0x7a, 0x6f, 0x73, 0x68, 0x2d, 0x63, 0x6c, 0x65, 0x61,
    0x72, 0x2d, 0x73, 0x63, 0x72, 0x6f, 0x6c, 0x6c, 0x62, 0x61, 0x63, 0x6b, 0x3b]

/-- `777;zosh-scrollback;` after `ESC ]`. -/
def SCROLLBACK_MARKER_PREFIX : List UInt8 :=
  [0x1b, 0x5d, 0x37, 0x37, 0x37, 0x3b, 0x7a, 0x6f, 0x73, 0x68, 0x2d, 0x73, 0x63, 0x72, 0x6f,
    0x6c, 0x6c, 0x62, 0x61, 0x63, 0x6b, 0x3b]

/-- The four bytes of a `u32`, most significant first. -/
def toBeBytes (n : ℕ) : List UInt8 :=
  [UInt8.ofNat (n / 2 ^ 24), UInt8.ofNat (n / 2 ^ 16), UInt8.ofNat (n / 2 ^ 8), UInt8.ofNat n]

/-- The frame of one row: flags, length, contents. -/
def PendingRow.frame (r : PendingRow) : List UInt8 :=
  (if r.row.wrapped then SCROLLBACK_FLAG_WRAPPED else 0) ::
    toBeBytes r.row.contents.length ++ r.row.contents

/-- The payload of a marker, before Base64. -/
def markerPayload (rows : List PendingRow) : List UInt8 := rows.flatMap PendingRow.frame

/-- The absolute index a marker names: that of the first row carried, or the total. -/
def markerFirst (rows : List PendingRow) (total : ℕ) : ℕ :=
  (rows.head?.map PendingRow.index).getD total

/-- `scrollback_marker`: `ESC ] 777 ; zosh-scrollback ; first ; Base64 rows BEL`. -/
def scrollbackMarker [Base64] (rows : List PendingRow) (total : ℕ) : List UInt8 :=
  SCROLLBACK_MARKER_PREFIX ++ Decimal.decimal (markerFirst rows total) ++ [0x3b] ++
    Base64.encode (markerPayload rows) ++ [0x07]

/-- `scrollback_clear_marker`: `ESC ] 777 ; zosh-clear-scrollback ; generation BEL`. -/
def scrollbackClearMarker (generation : ℕ) : List UInt8 :=
  CLEAR_SCROLLBACK_MARKER_PREFIX ++ Decimal.decimal generation ++ [0x07]

namespace TerminalState

variable {Screen : Type u} (em : Emulator Screen) (s : TerminalState Screen)

/-! ### Operations -/

/-- A session's terminal before any output; rows are captured from the first byte. -/
def new (rows cols : ℕ) : TerminalState Screen where
  parser := ⟨em.new rows cols, Grid.new.setCaptureEvicted true⟩
  baseScreen := em.new rows cols
  baseNum := 0
  unchangedScreen := none
  scrollbackDetector := .new
  scrollbackClearCount := 0
  baseScrollbackClearCount := 0
  titleScanner := .new
  baseTitle := none
  scrollbackBudget := SCROLLBACK_BUDGET_PROVISIONAL
  scrollbackAnnounced := false
  pendingScrollback := .empty
  baseEvictedTotal := 0
  snapshots := .empty
  pendingQueries := .empty
  nextQueryId := 1

/-- How many rows have scrolled off the top. -/
def evictedTotal : ℕ := s.parser.grid.evictedTotal

/-- A queue after checked removals: `none` is an underflow. -/
def checked {α : Type u} : Option α → Except Fault α
  | some a => .ok a
  | none => .error .underflow

/-- Drops the oldest unacknowledged rows back to the budget. -/
def dropScrollbackOverBudget : Except Fault (TerminalState Screen) :=
  (checked <| s.pendingScrollback.popWhile PendingRow.cost
    fun bytes _ => decide (s.scrollbackBudget < bytes)).map
      fun pending => { s with pendingScrollback := pending }

/-- Drops the rows below an index: the peer has them. -/
def retireScrollbackBelow (index : ℕ) : Except Fault (TerminalState Screen) :=
  (checked <| s.pendingScrollback.popWhile PendingRow.cost
    fun _ row => decide (row.index < index)).map
      fun pending => { s with pendingScrollback := pending }

/-- The rows taken from the emulator, with their absolute indices. -/
def indexRows (first : ℕ) (rows : List EvictedRow) : List PendingRow :=
  rows.mapIdx fun offset row => ⟨first + offset, row⟩

/-- The rows captured since the last call become pending. -/
def takeEvictedRows : TerminalState Screen :=
  { s with
    unchangedScreen := none
    parser := { s.parser with grid := s.parser.grid.takeEvicted.2 }
    pendingScrollback := s.pendingScrollback.pushAll PendingRow.cost
      (indexRows s.parser.grid.takeEvicted.1.1 s.parser.grid.takeEvicted.1.2) }

/-- Collects the rows that have scrolled off; before a client has asked for them, the oldest
give way to the budget. -/
def collectScrollback : Except Fault (TerminalState Screen) :=
  if s.scrollbackBudget = 0 then .ok s
  else if s.scrollbackAnnounced then .ok s.takeEvictedRows
  else s.takeEvictedRows.dropScrollbackOverBudget

/-- The part of `process` before rows are collected: the bytes reach the scanners and the
emulator, and a clear throws the pending rows away. -/
def feed (bytes : List UInt8) : TerminalState Screen :=
  { s with
    scrollbackDetector := (s.scrollbackDetector.feed bytes).1
    scrollbackClearCount := s.scrollbackClearCount + (s.scrollbackDetector.feed bytes).2
    titleScanner := s.titleScanner.feed bytes
    unchangedScreen := if bytes = [] then s.unchangedScreen else none
    parser := s.parser.process em bytes
    pendingScrollback :=
      if 0 < (s.scrollbackDetector.feed bytes).2 then .empty else s.pendingScrollback }

/-- A chunk of program output. -/
def process (bytes : List UInt8) : Except Fault (TerminalState Screen) :=
  (s.feed em bytes).collectScrollback

/-- The terminal at a new size, before rows are collected. -/
def reflow (rows cols : ℕ) : TerminalState Screen :=
  { s with
    unchangedScreen := none
    parser := s.parser.setSizeReflow em rows cols }

/-- A resize that rewraps the screen. -/
def resize (rows cols : ℕ) : Except Fault (TerminalState Screen) :=
  (s.reflow em rows cols).collectScrollback

/-- Whether a query of this many bytes still fits. -/
def acceptsQuery (bytes : List UInt8) : Bool :=
  s.pendingQueries.items.length < MAX_PENDING_QUERIES &&
    s.pendingQueries.total + bytes.length ≤ MAX_PENDING_QUERY_BYTES

/-- A query that fits becomes pending under the next id. -/
def pushQuery (bytes : List UInt8) : TerminalState Screen :=
  { s with
    nextQueryId := s.nextQueryId + 1
    pendingQueries := s.pendingQueries.push TerminalQuery.cost ⟨s.nextQueryId, bytes⟩ }

/-- Records a query and returns its id, `0` for one that does not fit. -/
def addQuery (bytes : List UInt8) : Except Fault (ℕ × TerminalState Screen) :=
  if s.acceptsQuery bytes then
    if s.nextQueryId + 1 < 2 ^ 64 then .ok (s.nextQueryId, s.pushQuery bytes)
    else .error .queryIdExhausted
  else .ok (0, s)

/-- The terminal as it is now. -/
def snapshot : TerminalSnapshot Screen where
  screen := s.unchangedScreen.getD s.parser.screen
  scrollbackClearCount := s.scrollbackClearCount
  evictedTotal := s.evictedTotal
  title := s.titleScanner.title
  queryCount := s.pendingQueries.items.length

/-- Remembers the terminal as the state that was just sent; the smallest state number gives
way once more than `MAX_SNAPSHOTS` are held. -/
def snapshotForState (stateNum : ℕ) : TerminalState Screen :=
  { s with
    unchangedScreen := some (s.unchangedScreen.getD s.parser.screen)
    snapshots := (s.snapshots.insert stateNum s.snapshot).keepLast MAX_SNAPSHOTS }

/-- A snapshot becomes the base: its screen, title and clear count, and the rows below its
count need no longer be kept. -/
def setBase (snapshot : TerminalSnapshot Screen) : Except Fault (TerminalState Screen) :=
  { s with
    baseScreen := snapshot.screen
    baseScrollbackClearCount := snapshot.scrollbackClearCount
    baseTitle := snapshot.title
    baseEvictedTotal := snapshot.evictedTotal }.retireScrollbackBelow snapshot.evictedTotal

/-- The first `count` queries are delivered: every snapshot carries that many fewer of those
still pending. -/
def retireQueries (count : ℕ) : Except Fault (TerminalState Screen) :=
  if 0 < count then
    (checked <| s.pendingQueries.dropFirst TerminalQuery.cost
      (min count s.pendingQueries.items.length)).map fun queries =>
        { s with
          pendingQueries := queries
          snapshots := s.snapshots.mapValues fun snapshot =>
            { snapshot with queryCount := snapshot.queryCount - count } }
  else .ok s

/-- Moves the base to an acknowledged state: the newest snapshot at or below it. -/
def acknowledge (ackNum : ℕ) : Except Fault (TerminalState Screen) :=
  if ackNum ≤ s.baseNum then .ok s
  else do
    let s' ← match s.snapshots.floor? ackNum with
      | some (_, snapshot) => (s.setBase snapshot).bind (retireQueries · snapshot.queryCount)
      | none => .ok s
    .ok { s' with baseNum := ackNum, snapshots := s'.snapshots.above ackNum }

/-! ### Frames -/

/-- What the peer holds if it holds `base`: the acknowledged state for `none`. -/
def base : Option ℕ → Option (Base Screen)
  | none => some ⟨s.baseScreen, s.baseScrollbackClearCount, s.baseEvictedTotal, s.baseTitle, 0⟩
  | some state => (s.snapshots.get? state).map fun snapshot =>
    ⟨snapshot.screen, snapshot.scrollbackClearCount, snapshot.evictedTotal, snapshot.title,
      min snapshot.queryCount s.pendingQueries.items.length⟩

/-- The bytes that turn the base's screen into the current one. -/
def screenDiff (b : Base Screen) : List UInt8 :=
  if em.size s.parser.screen = em.size b.screen then em.stateDiff s.parser.screen b.screen
  else em.stateFormatted s.parser.screen

/-- The pending rows the base has not been sent. -/
def rowsFrom (evictedTotal : ℕ) : List PendingRow :=
  s.pendingScrollback.items.dropWhile fun row => decide (row.index < evictedTotal)

/-- The scrollback marker of a frame, when the count of rows has moved. -/
def scrollbackPart [Base64] (b : Base Screen) : List UInt8 :=
  if s.scrollbackAnnounced ∧ s.evictedTotal ≠ b.evictedTotal then
    scrollbackMarker (s.rowsFrom b.evictedTotal) s.evictedTotal
  else []

/-- The clear marker of a frame, when the program has cleared its history. -/
def clearPart (b : Base Screen) : List UInt8 :=
  if s.scrollbackClearCount ≠ b.scrollbackClearCount then
    scrollbackClearMarker s.scrollbackClearCount
  else []

/-- The title of a frame, when it is set and not the one the base shows. -/
def titlePart (b : Base Screen) : List UInt8 :=
  match s.titleScanner.title with
  | some title => if s.titleScanner.title ≠ b.title then titleEscape title else []
  | none => []

/-- The frame that turns a base into the terminal as it is now. -/
def frameOf [Base64] (b : Base Screen) : TerminalFrame where
  resize :=
    if em.size s.parser.screen = em.size b.screen then none else some (em.size s.parser.screen)
  hostBytes := s.titlePart b ++ s.clearPart b ++ s.scrollbackPart b ++ s.screenDiff em b
  queries := s.pendingQueries.items.drop b.queryCount

/-- `frame_from`: the frame from a base, `none` when there is no snapshot of it. -/
def frameFrom [Base64] (base : Option ℕ) : Option TerminalFrame :=
  (s.base base).map (s.frameOf em)

end TerminalState

end Zetta.Zosh.Server
