import Zetta.Lib.OrdMap
import Zetta.Moshcatty.Transport
import Zetta.Zosh.Server.Protocol

/-!
# The server half of agent forwarding

`AgentServer` moves complete frames between the local connections of the forwarded agent and
the host records of the session. Records are numbered and stay pending until a state that
carries them is acknowledged; `states` remembers the last record that a state was sent with.

A connection's replies travel through a channel of its own, which is named here by the id of
the connection: an operation returns the replies it sends, each with its channel. Whether the
thread behind a connection still receives is an argument where the operation depends on it.
Ids are `u64`s that saturate.
-/

namespace Zetta.Zosh.Server

open Moshcatty (nextNum)

def MAX_FRAME : ℕ := 256 * 1024
def MAX_CONNECTIONS : ℕ := 16
def MAX_OUTSTANDING : ℕ := 64
def EVENT_QUEUE_DEPTH : ℕ := 64

/-- What a connection or the listener tells the session loop. Texts are their bytes. -/
inductive LocalEvent where
  | request (connectionId : ℕ) (frame : List UInt8)
  | closed (connectionId : ℕ) (error : Option (List UInt8))
  | connected

/-- What a connection's thread is told. -/
structure Reply where
  frame : List UInt8
  closed : Bool

/-- The reply that ends a connection. -/
def Reply.close : Reply := ⟨[], true⟩

/-- The state of one negotiated agent socket. -/
structure AgentServer where
  connections : List ℕ
  outstanding : List (ℕ × ℕ)
  pending : List (ℕ × AgentHostRecord)
  states : OrdMap ℕ ℕ
  nextConnectionId : ℕ
  nextRecordId : ℕ

/-- The length a frame announces, as a big-endian `u32`. -/
def announcedLength : List UInt8 → ℕ
  | a :: b :: c :: d :: _ =>
    ((a.toNat * 256 + b.toNat) * 256 + c.toNat) * 256 + d.toNat
  | _ => 0

/-- A frame within the limit that is as long as it says. -/
def validFrame (frame : List UInt8) : Bool :=
  4 ≤ frame.length && frame.length ≤ MAX_FRAME && announcedLength frame == frame.length - 4

/-- What an operation comes to: whether it did something, the server after it and the replies
it has sent. -/
structure AgentStep where
  acted : Bool
  server : AgentServer
  replies : List (ℕ × Reply) := []

namespace AgentServer

/-- Queues a record, which is made for its id. -/
def queue (s : AgentServer) (record : ℕ → AgentHostRecord) : AgentServer :=
  { s with
    nextRecordId := nextNum s.nextRecordId
    pending := s.pending ++ [(s.nextRecordId, record s.nextRecordId)] }

/-- A new socket, or the reason there is none. -/
def new (error : Option (List UInt8)) : AgentServer :=
  { connections := []
    outstanding := []
    pending := []
    states := .empty
    nextConnectionId := 1
    nextRecordId := 1 : AgentServer }.queue fun _ => .ready error.isNone error

/-! ### Local connections -/

/-- A frame from a connection: its request is queued, unless the frame is malformed or too
many requests are waiting. -/
def queueRequest (s : AgentServer) (connectionId : ℕ) (frame : List UInt8) : AgentStep :=
  if connectionId ∉ s.connections then ⟨false, s, []⟩
  else if !validFrame frame || decide (MAX_OUTSTANDING ≤ s.outstanding.length) then
    ⟨true, s, [(connectionId, .close)]⟩
  else
    ⟨true, { s with outstanding := s.outstanding ++ [(connectionId, s.nextRecordId)] }.queue
      fun id => .request id connectionId frame, []⟩

/-- The end of a connection: its requests get the reply that ends it. -/
def closeConnection (s : AgentServer) (connectionId : ℕ) (error : Option (List UInt8)) :
    AgentStep :=
  let mine := s.outstanding.filter fun key => key.1 = connectionId
  let closed := { s with
    connections := s.connections.filter fun c => c ≠ connectionId
    outstanding := s.outstanding.filter fun key => key.1 ≠ connectionId }
  let replies := mine.map fun _ => (connectionId, Reply.close)
  if connectionId ∉ s.connections ∧ mine = [] then ⟨false, closed, replies⟩
  else ⟨true, closed.queue fun id => .close id connectionId error, replies⟩

/-- A new connection, which gets the next id unless there are too many. -/
def connect (s : AgentServer) : AgentStep :=
  if MAX_CONNECTIONS ≤ s.connections.length then ⟨false, s, []⟩
  else
    ⟨false, { s with
      connections := s.connections ++ [s.nextConnectionId]
      nextConnectionId := nextNum s.nextConnectionId }, []⟩

/-- One local event. -/
def handle (s : AgentServer) : LocalEvent → AgentStep
  | .connected => s.connect
  | .request connectionId frame => s.queueRequest connectionId frame
  | .closed connectionId error => s.closeConnection connectionId error

/-- `local agent connection closed`. -/
def LOCAL_CONNECTION_CLOSED : List UInt8 :=
  [0x6c, 0x6f, 0x63, 0x61, 0x6c, 0x20, 0x61, 0x67, 0x65, 0x6e, 0x74, 0x20, 0x63, 0x6f, 0x6e,
    0x6e, 0x65, 0x63, 0x74, 0x69, 0x6f, 0x6e, 0x20, 0x63, 0x6c, 0x6f, 0x73, 0x65, 0x64]

/-- A response of the client, for the request it names; `receiving` says that the thread of
the connection still takes replies. -/
def applyResponse (s : AgentServer) (connectionId requestId : ℕ) (frame : List UInt8)
    (closed receiving : Bool) : AgentStep :=
  if (connectionId, requestId) ∉ s.outstanding then ⟨false, s, []⟩
  else
    let s := { s with outstanding := s.outstanding.erase (connectionId, requestId) }
    if !closed && !validFrame frame then
      ⟨true, s, if receiving then [(connectionId, .close)] else []⟩
    else if receiving then ⟨true, s, [(connectionId, ⟨frame, closed⟩)]⟩
    else { s.closeConnection connectionId (some LOCAL_CONNECTION_CLOSED) with acted := true }

/-! ### Records in frames -/

/-- The records a frame diffed from a base has to carry: those after the last one that a state
at or before the base carried, or all of them for the acknowledged state. -/
def recordsAfter (s : AgentServer) (base : Option ℕ) : List AgentHostRecord :=
  let carried := (base.bind s.states.floor?).map Prod.snd
  (s.pending.filter fun x => carried.all fun carried => carried < x.1).map Prod.snd

/-- The state just sent carried everything pending. -/
def snapshotForState (s : AgentServer) (state : ℕ) : AgentServer :=
  match s.pending.getLast? with
  | some (last, _) => { s with states := s.states.insert state last }
  | none => s

/-- A state is acknowledged: what it carried is delivered. -/
def acknowledge (s : AgentServer) (state : ℕ) : AgentServer :=
  match s.states.floor? state with
  | some (_, lastRecord) =>
    { s with
      pending := s.pending.filter fun x => lastRecord < x.1
      states := s.states.above state }
  | none => s

end AgentServer

end Zetta.Zosh.Server
