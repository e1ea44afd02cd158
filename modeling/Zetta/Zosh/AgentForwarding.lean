import Zetta.Lib.Run
import Zetta.MoshRs.Receiver
import Zetta.Moshcatty.Outbound
import Zetta.Zosh.Server.Agent

/-!
# Agent forwarding from a local connection to the client's bridge

Local programs talk to `AgentServer` through threads, one for each connection; its records
travel in the frames of the session, which the transport numbers, sends, repeats and drops; the
client applies the states it can build and hands the records to its bridge, each id once.

`AgentForwarding.step` lets these parts take turns in any order: a thread reads, writes or
fails, the session loop handles a local event or a response, queues a frame from the
acknowledged state or from one that was sent, ticks or receives, and the network delivers any
instruction that was ever sent, any number of times, or never. The last fields of the state
only record what has happened, so that a claim about the order of things can be stated.
-/

namespace Zetta.Zosh

open Moshcatty MoshRs Server

/-- Where the thread of a connection is. -/
inductive ConnectionThread where
  | absent
  | reading
  | waiting
  | stopped
  deriving DecidableEq

/-- The way of a record: the server that queues it, the transport that sends it and the client
that hands it out. -/
structure RecordLink where
  agent : AgentServer
  transport : Transport
  /-- Everything the transport has put on the wire. -/
  sent : List Instruction
  receiver : TransportReceiver
  seenAgentRecords : List ℕ
  /-- The events the client has handed to its bridge. -/
  handed : List MoshRs.HostEvent
  /-- The states the client has held at some time. -/
  everHeld : List ℕ
  /-- The instructions that brought the client a new state. -/
  applied : List Instruction
  /-- The records the server has queued. -/
  queued : List (ℕ × AgentHostRecord)

/-- Agent forwarding: the way of the records, and the local connections. -/
structure AgentForwarding extends RecordLink where
  /-- The channel from the threads and the listener to the session loop. -/
  events : List LocalEvent
  thread : ℕ → ConnectionThread
  /-- The channel of one reply to each thread. -/
  channel : ℕ → Option Reply
  /-- How many requests a thread has read. -/
  asked : ℕ → ℕ
  /-- Which request of which connection a record is: connection, count and id. -/
  numbered : List ((ℕ × ℕ) × ℕ)
  /-- The responses taken for a request that was waiting: connection, id and frame. -/
  answered : List ((ℕ × ℕ) × List UInt8)
  /-- The frames written to local connections: connection, count and frame. -/
  written : List ((ℕ × ℕ) × List UInt8)

/-- What happens next. -/
inductive ForwardingAction where
  | accept
  | read (connection : ℕ) (frame : List UInt8)
  | readFails (connection : ℕ) (error : Option (List UInt8))
  | takeReply (connection : ℕ) (writes : Bool)
  | poll
  | response (connection request : ℕ) (frame : List UInt8) (closed : Bool)
  | frame (base : Option ℕ) (instructions : List HostInstruction) (queries : List TerminalQuery)
  | tick (wire : Wire) (now : ℕ)
  | force
  | updateRtt (rttMs : ℕ)
  | startShutdown (now : ℕ)
  | receive (now : ℕ) (instruction : Instruction)
  | acknowledge
  | deliver (now index : ℕ)

/-- Why a step cannot be taken. -/
inductive Impossible where
  | threadBusy
  | channelFull
  | nothingThere
  | notAcknowledged

/-- `agent forwarding connection closed`. -/
def FORWARDING_CLOSED : List UInt8 :=
  [0x61, 0x67, 0x65, 0x6e, 0x74, 0x20, 0x66, 0x6f, 0x72, 0x77, 0x61, 0x72, 0x64, 0x69, 0x6e,
    0x67, 0x20, 0x63, 0x6f, 0x6e, 0x6e, 0x65, 0x63, 0x74, 0x69, 0x6f, 0x6e, 0x20, 0x63, 0x6c,
    0x6f, 0x73, 0x65, 0x64]

/-- `writing the local SSH-agent response failed`. -/
def WRITING_FAILED : List UInt8 :=
  [0x77, 0x72, 0x69, 0x74, 0x69, 0x6e, 0x67, 0x20, 0x74, 0x68, 0x65, 0x20, 0x6c, 0x6f, 0x63,
    0x61, 0x6c, 0x20, 0x53, 0x53, 0x48, 0x2d, 0x61, 0x67, 0x65, 0x6e, 0x74, 0x20, 0x72, 0x65,
    0x73, 0x70, 0x6f, 0x6e, 0x73, 0x65, 0x20, 0x66, 0x61, 0x69, 0x6c, 0x65, 0x64]

/-- The agent records among the events of a diff. -/
def agentRecords (diff : List UInt8) : List MoshRs.HostEvent :=
  match parseHostDiff diff with
  | .ok events => events.filter fun event =>
      event.agentRecordId.isSome || (match event with | .agentReady .. => true | _ => false)
  | .error _ => []

namespace RecordLink

/-- A session in which the socket was opened, or could not be. -/
def new (error : Option (List UInt8)) (now : ℕ) : RecordLink where
  agent := .new error
  transport := .newServer now
  sent := []
  receiver := .new
  seenAgentRecords := []
  handed := []
  everHeld := [0]
  applied := []
  queued := (AgentServer.new error).pending

/-- The server goes on after an operation that may have queued records. -/
def withAgent (l : RecordLink) (agent : AgentServer) : RecordLink :=
  { l with
    agent := agent
    queued := l.queued ++ agent.pending.drop l.agent.pending.length }

/-- A frame from the acknowledged state or from one that was sent, with the records that its
base has not carried. An update without content is no frame. -/
def frame (l : RecordLink) (base : Option ℕ) (instructions : List HostInstruction)
    (queries : List TerminalQuery) : RecordLink :=
  let update := encodeHostMessageWithAgent instructions queries (l.agent.recordsAfter base)
  if update = [] then l
  else
    match l.transport.setPendingOn (base.getD l.transport.ackedByRemote) update with
    | some (state, transport) =>
      { l with transport := transport, agent := l.agent.snapshotForState state }
    | none => l

/-- The transport sends what is due. -/
def tick (l : RecordLink) (wire : Wire) (now : ℕ) : RecordLink :=
  { l with
    transport := (l.transport.tick wire now).2
    sent := match (l.transport.tick wire now).1 with
      | .sent ti => l.sent ++ [ti]
      | _ => l.sent }

/-- The client takes an instruction, and hands out the records it has not handed out. -/
def deliver (l : RecordLink) (now : ℕ) (ti : Instruction) : RecordLink :=
  let l' := { l with receiver := (l.receiver.process now ti).2 }
  match (l.receiver.process now ti).1.state with
  | none => l'
  | some (num, diff) =>
    let records := deduplicate MoshRs.HostEvent.agentRecordId l.seenAgentRecords (agentRecords diff)
    { l' with
      everHeld := l.everHeld ++ [num]
      applied := l.applied ++ [ti]
      handed := l.handed ++ records.1
      seenAgentRecords := records.2 }

/-- The transport changes without sending anything. -/
def setTransport (l : RecordLink) (transport : Transport) : RecordLink :=
  { l with transport := transport }

/-- What the peer has acknowledged is delivered. -/
def acknowledge (l : RecordLink) : RecordLink :=
  { l with agent := l.agent.acknowledge l.transport.ackedByRemote }

end RecordLink

namespace AgentForwarding

/-- A session without local connections. -/
def new (error : Option (List UInt8)) (now : ℕ) : AgentForwarding where
  toRecordLink := .new error now
  events := []
  thread := fun _ => .absent
  channel := fun _ => none
  asked := fun _ => 0
  numbered := []
  answered := []
  written := []

/-- An event of a thread or of the listener, while the channel has room. -/
def send (s : AgentForwarding) (event : LocalEvent) : Except Impossible AgentForwarding :=
  if s.events.length < EVENT_QUEUE_DEPTH then .ok { s with events := s.events ++ [event] }
  else .error .channelFull

/-- A thread goes on in another state. -/
def setThread (s : AgentForwarding) (connection : ℕ) (thread : ConnectionThread) :
    AgentForwarding :=
  { s with thread := fun c => if c = connection then thread else s.thread c }

/-- A reply for a thread; one that does not fit is dropped. -/
def deliverReply (s : AgentForwarding) (reply : ℕ × Reply) : AgentForwarding :=
  { s with
    channel := fun c =>
      if c = reply.1 then (s.channel c).or (some reply.2) else s.channel c }

/-- What an operation of the server does to the rest. -/
def applyStep (s : AgentForwarding) (step : AgentStep) : AgentForwarding :=
  step.replies.foldl deliverReply { s with toRecordLink := s.withAgent step.server }

/-- A thread reads a frame and waits for the reply. -/
def read (s : AgentForwarding) (connection : ℕ) (frame : List UInt8) :
    Except Impossible AgentForwarding :=
  if s.thread connection = .reading ∧ Server.validFrame frame then
    { s.setThread connection .waiting with
      asked := fun c => if c = connection then s.asked c + 1 else s.asked c }.send
        (.request connection frame)
  else .error .threadBusy

/-- A thread takes the reply it waits for. -/
def takeReply (s : AgentForwarding) (connection : ℕ) (writes : Bool) :
    Except Impossible AgentForwarding :=
  if s.thread connection = .waiting then
    match s.channel connection with
    | none => .error .nothingThere
    | some reply =>
      let s := { s with channel := fun c => if c = connection then none else s.channel c }
      if reply.closed then
        (s.setThread connection .stopped).send (.closed connection (some FORWARDING_CLOSED))
      else if writes then
        .ok { s.setThread connection .reading with
          written := s.written ++ [((connection, s.asked connection), reply.frame)] }
      else (s.setThread connection .stopped).send (.closed connection (some WRITING_FAILED))
  else .error .threadBusy

/-- The session loop handles one local event. -/
def pollEvent (s : AgentForwarding) : Except Impossible AgentForwarding :=
  match s.events with
  | [] => .error .nothingThere
  | event :: events =>
    let s' := { s with events := events }.applyStep (s.agent.handle event)
    match event with
    | .connected =>
      .ok (if (s.agent.handle event).server.connections = s.agent.connections then s'
        else s'.setThread s.agent.nextConnectionId .reading)
    | .request connection _ =>
      .ok { s' with
        numbered :=
          if (s.agent.handle event).server.outstanding = s.agent.outstanding then s'.numbered
          else s'.numbered ++ [((connection, s.asked connection), s.agent.nextRecordId)] }
    | .closed _ _ => .ok s'

/-- A response of the client; a thread that has stopped takes none. -/
def response (s : AgentForwarding) (connection request : ℕ) (frame : List UInt8)
    (closed : Bool) : AgentForwarding :=
  let receiving := decide (s.thread connection = .reading ∨ s.thread connection = .waiting)
  let s' := s.applyStep (s.agent.applyResponse connection request frame closed receiving)
  { s' with
    answered :=
      if s.agent.outstanding.any fun key => key = (connection, request) then
        s'.answered ++ [((connection, request), frame)]
      else s'.answered }

/-- One step. -/
def step (s : AgentForwarding) : ForwardingAction → Except Impossible AgentForwarding
  | .accept => s.send .connected
  | .read connection frame => s.read connection frame
  | .readFails connection error =>
    if s.thread connection = .reading then
      (s.setThread connection .stopped).send (.closed connection error)
    else .error .threadBusy
  | .takeReply connection writes => s.takeReply connection writes
  | .poll => s.pollEvent
  | .response connection request frame closed => .ok (s.response connection request frame closed)
  | .frame base instructions queries =>
    .ok { s with toRecordLink := s.frame base instructions queries }
  | .tick wire now => .ok { s with toRecordLink := s.tick wire now }
  | .force => .ok { s with toRecordLink := s.setTransport s.transport.forceNextSend }
  | .updateRtt rttMs => .ok { s with toRecordLink := s.setTransport (s.transport.updateRtt rttMs) }
  | .startShutdown now =>
    .ok { s with toRecordLink := s.setTransport (s.transport.startShutdown now) }
  -- The client acknowledges a state that it has held.
  | .receive now ti =>
    if ti.ackNum ∈ s.everHeld then
      .ok { s with toRecordLink := s.setTransport (s.transport.receive now ti).2 }
    else .error .notAcknowledged
  | .acknowledge => .ok { s with toRecordLink := s.acknowledge }
  | .deliver now index =>
    match s.sent[index]? with
    | some ti => .ok { s with toRecordLink := s.deliver now ti }
    | none => .error .nothingThere

end AgentForwarding

end Zetta.Zosh
