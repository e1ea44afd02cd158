import Zetta.Lib.Run
import Zetta.Wslx.Protocol

/-!
# The relay and the bridge

The relay accepts the clients of a socket and gives each a connection of its own, which it carries
to the bridge over one stream and back over another. For a connection the bridge runs a worker, and
the worker an agent.

What a half has of a connection is `Connection` at the relay and `AgentConnection` at the bridge:
where its thread is (`Client`, `Worker`), its entry in the table, the channel from the thread that
reads the stream, and the client or the agent itself (`Peer`). The acceptor's and the reader's own
work for a connection are phases of that connection. A step is what one thread does between two
points at which another one can be seen, or what a client or an agent does.
-/

namespace Zetta.Wslx

/-! ### Clients and agents -/

/-- A client or an agent, at the other end of a byte stream. -/
structure Peer where
  /-- What it wrote. -/
  given : Bytes
  /-- How much of that was read. -/
  taken : ℕ
  /-- What was written to it. -/
  received : Bytes

/-- What a read or a write comes to. -/
inductive Transfer
  | some (n : ℕ)
  /-- The other end is gone, or the stream fails. -/
  | fail

/-- What `read_agent_frame` has after a read. -/
inductive FrameRead
  | part (buffer : Bytes)
  | frame (frame : Bytes)
  /-- No message, or a malformed one. -/
  | ended

namespace Peer

def silent : Peer := ⟨[], 0, []⟩

variable (peer : Peer)

def give (bytes : Bytes) : Peer := { peer with given := peer.given ++ bytes }

/-- What there is after a read, with what was read of the message. -/
def readTo (buffer : Bytes) : Peer × FrameRead :=
  match parseAgentFrame buffer with
  | none => (peer, .part buffer)
  | some (.ok frame) => (peer, .frame frame)
  | some (.error _) => (peer, .ended)

def readFrame (buffer : Bytes) : Transfer → Option (Peer × FrameRead)
  | .fail => some (peer, .ended)
  | .some n =>
    if 0 < n ∧ n ≤ wantedOfFrame buffer ∧ peer.taken + n ≤ peer.given.length then
      some ({ peer with taken := peer.taken + n }.readTo
        (buffer ++ (peer.given.drop peer.taken).take n))
    else none

/-- Writes some of what is left. -/
def write (left : Bytes) (n : ℕ) : Peer := { peer with received := peer.received ++ left.take n }

end Peer

/-! ### Connections -/

/-- Where the relay is with a connection. -/
inductive Client
  /-- The client has not come yet. -/
  | unknown
  /-- `Open` is to be sent. -/
  | opening
  /-- The thread is to be started. -/
  | starting
  | reading (buffer : Bytes)
  | sending (request : Bytes)
  | waiting
  | writing (left : Bytes)
  /-- The entry is to be removed. -/
  | leaving
  | closing
  | gone
  deriving DecidableEq

/-- Where the bridge is with a connection. -/
inductive Worker
  | unknown
  | connecting
  | receiving
  | writing (left : Bytes)
  | reading (buffer : Bytes)
  | sending (reply : Bytes)
  /-- `Close` is to be sent, by the worker or in place of one that was not started. -/
  | closing
  | gone
  deriving DecidableEq

/-- The message that the relay is about to send. -/
def Client.outgoing (id : UInt32) : Client → Option Message
  | opening => some (.open id)
  | sending request => some (.request id request)
  | closing => some (.close id)
  | _ => none

/-- The message that the bridge is about to send. -/
def Worker.outgoing (id : UInt32) : Worker → Option Message
  | sending reply => some (.reply id reply)
  | closing => some (.close id)
  | _ => none

def Client.sent : Client → Client
  | opening => starting
  | sending _ => waiting
  | closing => gone
  | client => client

/-- After a message that could not be written. -/
def Client.unsent : Client → Client
  | sending _ => leaving
  | opening | closing => gone
  | client => client

def Worker.sent : Worker → Worker
  | sending _ => receiving
  | closing => gone
  | worker => worker

def Worker.unsent : Worker → Worker
  | sending _ | closing => gone
  | worker => worker

structure Connection where
  peer : Peer
  client : Client
  /-- Whether it is in the table, and so the sender of `replies` there. -/
  entry : Bool
  replies : List Bytes
  /-- The dispatcher has shut the client's stream down. -/
  shutDown : Bool

namespace Connection

def unknown : Connection := ⟨.silent, .unknown, false, [], false⟩

variable (c : Connection)

def read (transfer : Transfer) : Option Connection :=
  match c.client with
  | .reading buffer => (c.peer.readFrame buffer transfer).map fun
    | (peer, .part buffer) => { c with peer := peer, client := .reading buffer }
    | (peer, .frame request) => { c with peer := peer, client := .sending request }
    | (peer, .ended) => { c with peer := peer, client := .leaving }
  | _ => none

/-- Takes a reply. Without one it waits, unless there can be none. -/
def receiveReply : Option Connection :=
  match c.client, c.replies with
  | .waiting, reply :: replies => some { c with replies := replies, client := .writing reply }
  | .waiting, [] => if c.entry then none else some { c with client := .leaving }
  | _, _ => none

def write (transfer : Transfer) : Option Connection :=
  match c.client, transfer with
  | .writing _, .fail => some { c with client := .leaving }
  | .writing left, .some n =>
    if c.shutDown then none
    else some { c with
      peer := c.peer.write left n
      client := if left.drop n = [] then .reading [] else .writing (left.drop n) }
  | _, _ => none

/-- Who removes the entry reports the end. -/
def removeEntry : Option Connection :=
  match c.client with
  | .leaving => some { c with
    entry := false
    client := if c.entry then .closing else .gone }
  | _ => none

/-- A reply goes to the client that is in the table. -/
def deliverReply (reply : Bytes) : Connection :=
  if c.entry then { c with replies := c.replies ++ [reply] } else c

def close : Connection := if c.entry then { c with entry := false, shutDown := true } else c

end Connection

structure AgentConnection where
  peer : Peer
  worker : Worker
  /-- Whether it is in the table, and so the sender of `requests` there. -/
  registered : Bool
  requests : List Bytes

namespace AgentConnection

def unknown : AgentConnection := ⟨.silent, .unknown, false, []⟩

variable (c : AgentConnection)

def connect (connected : Bool) : Option AgentConnection :=
  match c.worker with
  | .connecting => some { c with worker := if connected then .receiving else .closing }
  | _ => none

/-- Takes a request. If there can be none the relay has closed the connection, and is not told. -/
def receiveRequest : Option AgentConnection :=
  match c.worker, c.requests with
  | .receiving, request :: requests =>
    some { c with requests := requests, worker := .writing request }
  | .receiving, [] => if c.registered then none else some { c with worker := .gone }
  | _, _ => none

/-- Writes some of a request; when there is nothing left, flushes it. -/
def write (transfer : Transfer) : Option AgentConnection :=
  match c.worker, transfer with
  | .writing _, .fail => some { c with worker := .closing }
  | .writing left, .some n => some { c with
    peer := c.peer.write left n
    worker := if left = [] then .reading [] else .writing (left.drop n) }
  | _, _ => none

def read (transfer : Transfer) : Option AgentConnection :=
  match c.worker with
  | .reading buffer => (c.peer.readFrame buffer transfer).map fun
    | (peer, .part buffer) => { c with peer := peer, worker := .reading buffer }
    | (peer, .frame reply) => { c with peer := peer, worker := .sending reply }
    | (peer, .ended) => { c with peer := peer, worker := .closing }
  | _ => none

/-- The worker is started, or is closed in its place. -/
def «open» (started : Bool) : AgentConnection :=
  { c with worker := if started then .connecting else .closing, registered := started }

/-- A request goes to the worker that is in the table. One that has gone is taken out. -/
def deliverRequest (request : Bytes) : AgentConnection :=
  if c.registered then
    if c.worker = .gone then { c with registered := false }
    else { c with requests := c.requests ++ [request] }
  else c

def close : AgentConnection := { c with registered := false }

end AgentConnection

/-! ### Both halves -/

/-- A thread that reads a stream. -/
inductive Reader
  | reading
  /-- The stream has ended. -/
  | ended
  | failed (e : Error)
  deriving DecidableEq

/-- A stream, on which a message is written on behalf of a connection. -/
abbrev Stream := Pipe UInt32 Message UInt8

structure State where
  connections : UInt32 → Connection
  agents : UInt32 → AgentConnection
  nextId : UInt32
  /-- The connection that the acceptor works on, while it does. -/
  acceptor : Option UInt32
  dispatcher : Reader
  bridge : Reader
  /-- The connection for which the bridge could not start a worker, until it has said so. -/
  refusing : Option UInt32
  /-- What the relay sends to the bridge. -/
  up : Stream
  down : Stream
  /-- The acceptor has returned. -/
  stopped : Bool

inductive Event
  | accept
  /-- The acceptor starts the thread of a client, or cannot. -/
  | start (started : Bool)
  /-- The lock of a stream is taken for a message of a connection. -/
  | lockUp (id : UInt32)
  | lockDown (id : UInt32)
  | writeUp (n : ℕ)
  | writeDown (n : ℕ)
  /-- The dispatcher gets some bytes. -/
  | dispatch (n : ℕ)
  /-- The bridge gets some bytes; a worker that it wants starts, or does not. -/
  | readBridge (n : ℕ) (started : Bool)
  | readClient (id : UInt32) (transfer : Transfer)
  | receiveReply (id : UInt32)
  | writeClient (id : UInt32) (transfer : Transfer)
  | removeEntry (id : UInt32)
  | connect (id : UInt32) (connected : Bool)
  | receiveRequest (id : UInt32)
  | writeAgent (id : UInt32) (transfer : Transfer)
  | readAgent (id : UInt32) (transfer : Transfer)
  /-- A client writes. -/
  | clientGives (id : UInt32) (bytes : Bytes)
  | agentGives (id : UInt32) (bytes : Bytes)
  /-- What the dispatcher reads, or the bridge, ends. -/
  | endDown
  | endUp
  /-- The relay waits for its acceptor, and shuts the clients down that are left. -/
  | stop

namespace State

def initial : State where
  connections _ := .unknown
  agents _ := .unknown
  nextId := 0
  acceptor := none
  dispatcher := .reading
  bridge := .reading
  refusing := none
  up := .empty
  down := .empty
  stopped := false

variable (s : State)

def set (id : UInt32) (c : Connection) : State :=
  { s with connections := Function.update s.connections id c }

def setAgent (id : UInt32) (c : AgentConnection) : State :=
  { s with agents := Function.update s.agents id c }

/-- A step of one connection. -/
def update (id : UInt32) (f : Connection → Option Connection) : Option State :=
  (f (s.connections id)).map (s.set id)

def updateAgent (id : UInt32) (f : AgentConnection → Option AgentConnection) : Option State :=
  (f (s.agents id)).map (s.setAgent id)

/-- The acceptor goes on once it is done with a connection. -/
def release (id : UInt32) : State :=
  if s.acceptor = some id ∧ (s.connections id).client = .gone then { s with acceptor := none }
  else s

/-- A client comes. There are fewer than `2 ^ 32` of them. -/
def accept : Option State :=
  if s.acceptor = none ∧ s.stopped = false ∧ s.nextId.toNat + 1 < 2 ^ 32 then
    let id := s.nextId + 1
    some { s.set id { s.connections id with client := .opening, entry := true, replies := [] } with
      nextId := id
      acceptor := some id }
  else none

def start (started : Bool) : Option State :=
  match s.acceptor with
  | none => none
  | some id =>
    match (s.connections id).client with
    | .starting =>
      if started then
        some { s.set id { s.connections id with client := .reading [] } with acceptor := none }
      else some (s.set id { s.connections id with client := .leaving })
    | _ => none

/-- `send`: the lock is taken, and kept until the message is written. -/
def lockUp (id : UInt32) : Option State :=
  let c := s.connections id
  match c.client.outgoing id with
  | none => none
  | some m =>
    match s.up.acquire messageCodec id m, m.writeTo with
    | none, _ => none
    | some up, .ok _ => some { s with up := up }
    | some _, .error _ => some (s.set id { c with client := c.client.unsent })

def lockDown (id : UInt32) : Option State :=
  let c := s.agents id
  match c.worker.outgoing id with
  | none => none
  | some m =>
    match s.down.acquire messageCodec id m, m.writeTo with
    | none, _ => none
    | some down, .ok _ => some { s with down := down }
    | some _, .error _ => some (s.setAgent id { c with worker := c.worker.unsent })

def writeUp (n : ℕ) : Option State :=
  match s.up.write n with
  | none => none
  | some (up, none) => some { s with up := up }
  | some (up, some (id, _)) =>
    let c := s.connections id
    some ({ s.set id { c with client := c.client.sent } with up := up }.release id)

def writeDown (n : ℕ) : Option State :=
  match s.down.write n with
  | none => none
  | some (down, none) => some { s with down := down }
  | some (down, some (id, _)) =>
    let c := s.agents id
    some { s.setAgent id { c with worker := c.worker.sent } with
      down := down
      refusing := if s.refusing = some id then none else s.refusing }

/-- What the dispatcher does with a message. -/
def dispatchMessage : Message → State
  | .reply id frame => s.set id ((s.connections id).deliverReply frame)
  | .close id => s.set id (s.connections id).close
  | .open _ | .request _ _ =>
    { s with dispatcher := .failed (.invalidData "wslx.exe sent a message only the relay sends") }

def dispatch (n : ℕ) : Option State :=
  if s.dispatcher = .reading then
    match s.down.read messageCodec n with
    | none => none
    | some (down, none) => some { s with down := down }
    | some (down, some (.ok m)) => some ({ s with down := down }.dispatchMessage m)
    | some (down, some (.error e)) => some { s with down := down, dispatcher := .failed e }
  else none

/-- What the bridge does with a message. -/
def bridgeMessage (started : Bool) : Message → State
  | .open id =>
    { s.setAgent id ((s.agents id).open started) with
      refusing := if started then s.refusing else some id }
  | .request id frame => s.setAgent id ((s.agents id).deliverRequest frame)
  | .close id => s.setAgent id (s.agents id).close
  | .reply _ _ =>
    { s with bridge := .failed (.invalidData "the relay sent a message only wslx.exe sends") }

def readBridge (n : ℕ) (started : Bool) : Option State :=
  if s.bridge = .reading ∧ s.refusing = none then
    match s.up.read messageCodec n with
    | none => none
    | some (up, none) => some { s with up := up }
    | some (up, some (.ok m)) => some ({ s with up := up }.bridgeMessage started m)
    | some (up, some (.error e)) => some { s with up := up, bridge := .failed e }
  else none

def endDown : Option State :=
  if s.dispatcher = .reading then some { s with dispatcher := .ended } else none

/-- No worker gets another request. -/
def endUp : Option State :=
  if s.bridge = .reading ∧ s.refusing = none then
    some { s with bridge := .ended, agents := fun id => (s.agents id).close }
  else none

def stop : Option State :=
  if s.dispatcher ≠ .reading ∧ s.acceptor = none then
    some { s with stopped := true, connections := fun id => (s.connections id).close }
  else none

def step : Event → Option State
  | .accept => s.accept
  | .start started => s.start started
  | .lockUp id => s.lockUp id
  | .lockDown id => s.lockDown id
  | .writeUp n => s.writeUp n
  | .writeDown n => s.writeDown n
  | .dispatch n => s.dispatch n
  | .readBridge n started => s.readBridge n started
  | .readClient id transfer => s.update id (·.read transfer)
  | .receiveReply id => s.update id (·.receiveReply)
  | .writeClient id transfer => s.update id (·.write transfer)
  | .removeEntry id => (s.update id (·.removeEntry)).map (·.release id)
  | .connect id connected => s.updateAgent id (·.connect connected)
  | .receiveRequest id => s.updateAgent id (·.receiveRequest)
  | .writeAgent id transfer => s.updateAgent id (·.write transfer)
  | .readAgent id transfer => s.updateAgent id (·.read transfer)
  | .clientGives id bytes =>
    s.update id fun c => some { c with peer := c.peer.give bytes }
  | .agentGives id bytes =>
    s.updateAgent id fun c => some { c with peer := c.peer.give bytes }
  | .endDown => s.endDown
  | .endUp => s.endUp
  | .stop => s.stop

end State

end Zetta.Wslx
