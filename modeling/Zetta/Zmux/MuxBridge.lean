import Zetta.Zmux.Frames
import Zetta.Lib.Run

/-!
# The two sides of the bridge

Each side has one reader of the link, and for each stream a pump that reads the local socket
and one that writes it. What they share is the link's writer, the open streams and, for each
stream, a `Channel`: the credit of the outbound pump and the queue of the inbound pump.

`System.step` lets one of them go on: a read or write of a local socket, with its outcome; what
a pump does up to its next wait or its next use of the link; one frame that a reader handles;
an `open` and its second half; and what ends a link. A frame is written as a whole, and so the
link is a list of bytes for each direction.

A channel also keeps what was read from its socket and what was done to it (`input` and
`output`), a side which frames it sent and received: these decide nothing.
-/

namespace Zetta.Zmux

/-- What the link reader hands to the inbound pump. -/
inductive Inbound where
  | data (bytes : List UInt8)
  | eof

/-- What goes through a socket in one direction: bytes, and the end. -/
inductive Token where
  | byte (b : UInt8)
  | eof
  deriving DecidableEq

/-- Where the outbound pump is. -/
inductive Outbound where
  /-- It reads the local socket. -/
  | reading
  /-- It waits for credit for the rest of what it has read. -/
  | sending (rest : List UInt8)
  /-- It has the credit for some of the rest. -/
  | granted (now rest : List UInt8)
  | sendEof
  | sendClose
  /-- It has failed, and will reset the stream. -/
  | resetting
  | returned
  | finished
  deriving DecidableEq

/-- Where the inbound pump is. -/
inductive Writer where
  | receiving
  | writing (bytes : List UInt8)
  /-- It has written, and will give credit back. -/
  | crediting (count : ℕ)
  | sendClose
  /-- It has failed, and will remove the stream. -/
  | removing
  | returned
  | finished

/-- Who has the other end of the local socket. -/
inductive Peer where
  /-- Nobody yet: an `open` is under way. -/
  | opening
  | holding
  /-- Nobody: the `open` failed. -/
  | refused
  deriving DecidableEq

structure Channel where
  available : ℕ := WINDOW
  closed : Bool := false
  /-- Whether the link reader still has the sending end of the queue. -/
  inbound : Bool := true
  queue : List Inbound := []
  pumps : ℕ := 2
  /-- Whether it is one of the streams of the link. -/
  mapped : Bool := true
  outbound : Outbound := .reading
  writer : Writer := .receiving
  peer : Peer := .holding
  input : List Token := []
  output : List Token := []

/-- What a read of the local socket brings. -/
inductive LocalRead where
  | data (bytes : List UInt8)
  | eof
  | error
  deriving DecidableEq

/-- What a write to the local socket brings. A failing one has written some of the bytes. -/
inductive LocalWrite where
  | ok
  | error (count : ℕ)
  deriving DecidableEq

def tokens (bytes : List UInt8) : List Token := bytes.map .byte

/-- `send`: the frame, unless the link is closed. -/
def send (alive : Bool) (frame : Frame) : List Frame := if alive then [frame] else []

namespace Channel

def grant (c : Channel) (bytes : ℕ) : Channel :=
  { c with available := min (c.available + bytes) (2 ^ 32 - 1) }

def deliver (c : Channel) (message : Inbound) : Channel :=
  if c.inbound then { c with queue := c.queue ++ [message] } else c

/-- Ends the stream in both directions, without waiting for either pump. -/
def reset (c : Channel) : Channel := { c with closed := true, inbound := false }

/-- Takes the stream off the link and ends it. -/
def remove (c : Channel) : Channel := if c.mapped then { c.reset with mapped := false } else c

/-- The last pump that ends takes the stream off the link. -/
def pumpFinished (c : Channel) : Channel :=
  { c with pumps := c.pumps - 1, mapped := c.mapped && c.pumps != 1 }

/-- A read of the local socket. As long as nobody holds its other end there is nothing to read,
but for the end once the stream is reset. -/
def readLocal (c : Channel) : LocalRead → Option Channel
  | .data bytes =>
    if c.outbound = .reading ∧ c.peer = .holding ∧ bytes ≠ [] ∧ bytes.length ≤ MAX_PAYLOAD then
      some { c with outbound := .sending bytes, input := c.input ++ tokens bytes }
    else none
  | .eof =>
    if c.outbound = .reading ∧ (c.peer = .holding ∨ c.closed) then
      some { c with outbound := .sendEof, input := c.input ++ [.eof] }
    else none
  | .error =>
    if c.outbound = .reading ∧ (c.peer = .holding ∨ c.closed) then
      some { c with outbound := .sendClose }
    else none

/-- `pump_outbound` outside a read: the channel and what is sent. -/
def pumpOutbound (stream : UInt32) (alive : Bool) (c : Channel) :
    Option (Channel × List Frame) :=
  match c.outbound with
  | .sending rest =>
    if c.closed then some ({ c with outbound := .returned }, [])
    else if 0 < c.available then
      let taken := min rest.length c.available
      some ({ c with
        available := c.available - taken
        outbound := .granted (rest.take taken) (rest.drop taken) }, [])
    else none
  | .granted now rest =>
    let next : Outbound :=
      if alive then if rest = [] then .reading else .sending rest else .resetting
    some ({ c with outbound := next }, send alive ⟨stream, .data, now⟩)
  | .sendEof => some ({ c with outbound := .returned }, send alive ⟨stream, .eof, []⟩)
  | .sendClose => some ({ c with outbound := .resetting }, send alive ⟨stream, .close, []⟩)
  | .resetting => some ({ c.reset with outbound := .returned }, [])
  | .returned => some ({ c.pumpFinished with outbound := .finished }, [])
  | .reading | .finished => none

/-- A write to the local socket. -/
def writeLocal (c : Channel) (result : LocalWrite) : Option Channel :=
  match c.writer, result with
  | .writing bytes, .ok =>
    some { c with writer := .crediting bytes.length, output := c.output ++ tokens bytes }
  | .writing bytes, .error count =>
    some { c with writer := .sendClose, output := c.output ++ tokens (bytes.take count) }
  | _, _ => none

/-- `pump_inbound` outside a write: the channel and what is sent. -/
def pumpInbound (stream : UInt32) (alive : Bool) (c : Channel) :
    Option (Channel × List Frame) :=
  match c.writer with
  | .receiving =>
    match c.queue with
    | .data bytes :: queue => some ({ c with queue := queue, writer := .writing bytes }, [])
    | .eof :: queue =>
      some ({ c with queue := queue, writer := .returned, output := c.output ++ [.eof] }, [])
    | [] => if c.inbound then none else some ({ c with writer := .returned }, [])
  | .crediting count =>
    some ({ c with writer := .receiving }, send alive ⟨stream, .credit, beBytes 4 count⟩)
  | .sendClose => some ({ c with writer := .removing }, send alive ⟨stream, .close, []⟩)
  | .removing => some ({ c.remove with writer := .returned }, [])
  | .returned => some ({ c.pumpFinished with writer := .finished }, [])
  | .writing _ | .finished => none

/-- What a frame does to its channel. -/
def dispatch (frame : Frame) (c : Channel) : Channel :=
  if c.mapped then
    match frame.kind with
    | .open | .info => c
    | .data => c.deliver (.data frame.payload)
    | .eof => { c.deliver .eof with inbound := false }
    | .close => c.remove
    | .credit => if frame.payload.length = 4 then c.grant (ofBeBytes frame.payload) else c
  else c

end Channel

inductive Party where
  | near
  | far
  deriving DecidableEq

def Party.other : Party → Party
  | near => far
  | far => near

@[simp]
theorem Party.other_other (p : Party) : p.other.other = p := by cases p <;> rfl

@[simp]
theorem Party.other_ne (p : Party) : p.other ≠ p := by cases p <;> decide

/-- One side of the link. -/
structure Side where
  closed : Bool := false
  /-- Whether the reader of the link still runs. -/
  reading : Bool := true
  /-- Every stream there was, also those that are no longer on the link. -/
  streams : UInt32 → Option Channel := fun _ => none
  /-- What was written to the link and not yet read on the other side. -/
  wire : List UInt8 := []
  /-- Frames that threads of their own will send. -/
  detached : List Frame := []
  sent : List Frame := []
  received : List Frame := []

namespace Side

def put (side : Side) (stream : UInt32) (c : Channel) : Side :=
  { side with streams := Function.update side.streams stream (some c) }

def write (side : Side) (frames : List Frame) : Side :=
  { side with
    wire := side.wire ++ frames.flatMap encodeFrame
    sent := side.sent ++ frames }

/-- Whether a stream is on the link. -/
def onLink (side : Side) (stream : UInt32) : Bool := (side.streams stream).any Channel.mapped

/-- The link has ended: every stream on it has too. -/
def shutDown (side : Side) : Side :=
  { side with
    closed := true
    streams := fun stream => (side.streams stream).map Channel.remove }

/-- Whether a send for a channel is written. It looks at the flag first, so one that is late
may be written to a link that has been closed since; but not if it only began then, as do all
of a stream whose socket nobody holds. -/
def alive (side : Side) (late : Bool) (c : Channel) : Bool :=
  !side.closed || (late && c.peer = .holding)

/-- Lets a pump of a stream go on. -/
def pump (side : Side) (stream : UInt32) (late : Bool)
    (f : UInt32 → Bool → Channel → Option (Channel × List Frame)) : Option Side := do
  let c ← side.streams stream
  let (c, frames) ← f stream (side.alive late c) c
  pure ((side.put stream c).write frames)

/-- Reads or writes the local socket of a stream. -/
def socket (side : Side) (stream : UInt32) (f : Channel → Option Channel) : Option Side := do
  let c ← side.streams stream
  let c ← f c
  pure (side.put stream c)

/-- `dispatch` -/
def dispatch (side : Side) (frame : Frame) : Side :=
  match side.streams frame.stream with
  | none => side
  | some c => side.put frame.stream (c.dispatch frame)

/-- What the far side does with a frame: it also connects, and answers. -/
def serve (side : Side) (frame : Frame) (connects : Bool) (info : List UInt8) : Side :=
  match frame.kind with
  | .open =>
    if frame.stream = LINK_STREAM ∨ side.onLink frame.stream then side
    else if connects then side.put frame.stream {}
    else { side with detached := side.detached ++ [⟨frame.stream, .close, []⟩] }
  | .info =>
    if frame.stream = LINK_STREAM then
      { side with detached := side.detached ++ [⟨LINK_STREAM, .info, info⟩] }
    else side
  | _ => side.dispatch frame

end Side

/-- Both sides, and the next id of the near one. -/
structure System where
  side : Party → Side := fun _ => {}
  nextStream : UInt32 := LINK_STREAM + 1

inductive Action where
  /-- The first half of `open`: an id, and a stream on the link. -/
  | «open» (late : Bool)
  /-- Its second half: the far side hears of it, and the caller gets its end. -/
  | sendOpen (stream : UInt32) (late : Bool)
  | read (p : Party) (stream : UInt32) (result : LocalRead)
  | outbound (p : Party) (stream : UInt32) (late : Bool)
  | write (p : Party) (stream : UInt32) (result : LocalWrite)
  | inbound (p : Party) (stream : UInt32) (late : Bool)
  /-- A reader handles a frame; a daemon that is to be connected to answers or not. -/
  | receive (p : Party) (connects : Bool) (info : List UInt8)
  /-- A thread of its own sends its frame. -/
  | reply (p : Party) (index : ℕ) (late : Bool)
  | queryInfo (late : Bool)
  /-- A write to the link fails. -/
  | breakLink (p : Party)
  /-- The reader of the link finds its end. -/
  | linkEnds (p : Party)
  /-- The near side is given up. -/
  | drop

namespace System

def set (t : System) (p : Party) (side : Side) : System :=
  { t with side := Function.update t.side p side }

/-- The reader ends: the link's streams end with it. -/
def endReader (t : System) (p : Party) : System :=
  t.set p { (t.side p).shutDown with reading := false }

/-- `open` up to its `send`. -/
def openStream (t : System) (late : Bool) : Option System :=
  if ((t.side .near).closed ∧ ¬ late) ∨ t.nextStream.toNat + 1 = 2 ^ 32 then none
  else some { (t.set .near ((t.side .near).put t.nextStream { peer := .opening })) with
    nextStream := t.nextStream + 1 }

/-- The `send` of `open`, and what comes of it. -/
def sendOpen (t : System) (stream : UInt32) (late : Bool) : Option System := do
  let c ← (t.side .near).streams stream
  if c.peer ≠ .opening then none
  else if !(t.side .near).closed || late then
    pure (t.set .near (((t.side .near).put stream { c with peer := .holding }).write
      [⟨stream, .open, []⟩]))
  else pure (t.set .near ((t.side .near).put stream { c.remove with peer := .refused }))

/-- One turn of a reader. It waits if no frame has arrived as a whole. -/
def receive (t : System) (p : Party) (connects : Bool) (info : List UInt8) : Option System :=
  if (t.side p).reading then
    match readFrame (t.side p.other).wire with
    | none => none
    | some (.error _) => some (t.endReader p)
    | some (.ok (frame, rest)) =>
      let t := t.set p.other { t.side p.other with wire := rest }
      let side := { t.side p with received := (t.side p).received ++ [frame] }
      match p with
      | .near => some (t.set p (side.dispatch frame))
      | .far => some (t.set p (side.serve frame connects info))
  else none

/-- A detached send. One whose payload does not fit its field is a panic of its thread. -/
def reply (t : System) (p : Party) (index : ℕ) (late : Bool) : Option System := do
  let frame ← (t.side p).detached[index]?
  let side := { t.side p with detached := (t.side p).detached.eraseIdx index }
  if (!side.closed || late) ∧ frame.payload.length < 2 ^ 32 then
    pure (t.set p (side.write [frame]))
  else pure (t.set p side)

def step (t : System) : Action → Option System
  | .open late => t.openStream late
  | .sendOpen stream late => t.sendOpen stream late
  | .read p stream result => ((t.side p).socket stream fun c => c.readLocal result).map (t.set p)
  | .outbound p stream late => ((t.side p).pump stream late Channel.pumpOutbound).map (t.set p)
  | .write p stream result => ((t.side p).socket stream fun c => c.writeLocal result).map (t.set p)
  | .inbound p stream late => ((t.side p).pump stream late Channel.pumpInbound).map (t.set p)
  | .receive p connects info => t.receive p connects info
  | .reply p index late => t.reply p index late
  | .queryInfo late =>
    if (t.side .near).closed ∧ ¬ late then none
    else some (t.set .near ((t.side .near).write [⟨LINK_STREAM, .info, []⟩]))
  | .breakLink p => some (t.set p { t.side p with closed := true })
  | .linkEnds p => some (t.endReader p)
  | .drop => some (t.set .near (t.side .near).shutDown)

/-- The steps of the bridge. -/
def Next (t : System) (a : Action) (t' : System) : Prop := t.step a = some t'

end System

end Zetta.Zmux
