import Mathlib
import Zetta.Lib.OrdMap
import Zetta.Lib.Run

/-!
# The client's agent bridge

`AgentBridge` forwards the requests of remote agent connections to the local SSH agent. Each
connection has a worker that takes its requests from a bounded queue and sends a result for
each through one bounded channel; the bridge counts the requests it has not seen a result for,
in all and per connection.

* **The system** is the bridge, its workers and the results on their way (`AgentSystem`). A
  worker outlives its connection: one whose connection is dropped goes on with the requests
  it was sent. Workers are named by the place at which they were spawned.
* **Steps** (`AgentAction`) are one host event, one result drained, and the steps of a worker:
  a request taken, a reply sent, a failure.
* A worker that fails takes the requests of its queue with it; an `Outcome` keeps them beside
  the result that reports the failure, for the accounts.
-/

namespace Zetta.Zosh

/-! ### Constants -/

/-- The largest agent frame, its length prefix included. -/
def AGENT_MAX_FRAME : ℕ := 256 * 1024

/-- How many connections are forwarded at once. -/
def MAX_CONNECTIONS : ℕ := 16

/-- How many requests may be outstanding, over all connections; also the depth of the
results channel. -/
def MAX_OUTSTANDING : ℕ := 64

/-- The depth of the queue of one worker. -/
def WORK_QUEUE_DEPTH : ℕ := 16

/-- How long the bridge waits for the peer to negotiate, in milliseconds. -/
def NEGOTIATION_TIMEOUT : ℕ := 3000

/-! ### Data -/

/-- The agent events a host state carries. -/
inductive HostEvent where
  | agentReady (supported : Bool) (error : Option String)
  | agentRequest (id connectionId : ℕ) (frame : List UInt8)
  | agentClose (id connectionId : ℕ) (error : Option String)

/-- What the bridge tells the session: the reply to a request, or that its connection is
closed. -/
structure AgentResponse where
  connectionId : ℕ
  requestId : ℕ
  frame : List UInt8
  closed : Bool

/-- A request on its way to a worker. -/
structure Work where
  requestId : ℕ
  frame : List UInt8

/-- What a worker reports. -/
inductive WorkerResult where
  | response (connectionId requestId : ℕ) (frame : List UInt8)
  | closed (connectionId requestId : ℕ) (error : String)

/-- A worker between two steps: waiting on its queue, or with a request at the agent. -/
inductive WorkerState where
  | running (current : Option Work) (queue : List Work)
  | stopped

/-- The worker of one connection. -/
structure Worker where
  connectionId : ℕ
  state : WorkerState

/-- A result in the channel, with the requests that were lost with the worker that sent it. -/
structure Outcome where
  result : WorkerResult
  lost : List Work

/-- What the bridge keeps of a connection: where its sender leads, and its requests without a
result. -/
structure Connection where
  worker : ℕ
  outstanding : ℕ

/-- The bridge itself. `warned` is the one warning it has printed. -/
structure AgentBridge where
  path : Option String
  connections : OrdMap ℕ Connection
  outstanding : ℕ
  negotiated : Bool
  waitingSince : Option ℕ
  warned : Option String

/-- The bridge, the workers it has spawned, the results channel and what the bridge has told
the session. -/
structure AgentSystem where
  bridge : AgentBridge
  workers : List Worker
  results : List Outcome
  commands : List AgentResponse

/-! ### The bridge -/

/-- The length an agent frame announces. -/
def frameLength : List UInt8 → ℕ
  | a :: b :: c :: d :: _ =>
    ((a.toNat * 256 + b.toNat) * 256 + c.toNat) * 256 + d.toNat
  | _ => 0

/-- A frame within the limit that is as long as it says. -/
def validFrame (frame : List UInt8) : Bool :=
  4 ≤ frame.length && frame.length ≤ AGENT_MAX_FRAME && frameLength frame == frame.length - 4

namespace AgentBridge

/-- `with_agent`: forwarding is wanted, and `path` leads to a usable agent if there is one. -/
def withAgent (requested : Bool) (path : Option String) (now : ℕ) : AgentBridge where
  path := if requested then path else none
  connections := .empty
  outstanding := 0
  negotiated := false
  waitingSince := if requested && path.isSome then some now else none
  warned :=
    if requested && path.isNone then
      some "no usable local SSH agent was found; agent forwarding is disabled"
    else none

/-- Forwarding was requested and an agent was found. -/
def enabled (b : AgentBridge) : Bool := b.path.isSome

/-- One warning per session. -/
def warn (b : AgentBridge) (message : String) : AgentBridge :=
  { b with warned := b.warned <|> some message }

/-- Gives up on a peer that does not negotiate. -/
def negotiationTimedOut (b : AgentBridge) (now : ℕ) : AgentBridge :=
  match b.negotiated, b.waitingSince with
  | false, some started =>
    if NEGOTIATION_TIMEOUT ≤ now - started then
      { b.warn "the remote peer did not negotiate agent forwarding; terminal continues without it"
        with waitingSince := none }
    else b
  | _, _ => b

/-- The answer to forwarding of the peer. -/
def agentReady (b : AgentBridge) (supported : Bool) (error : Option String) : AgentBridge :=
  match supported, error with
  | true, none => { b with waitingSince := none, negotiated := true }
  | _, some error =>
    { b with waitingSince := none }.warn s!"remote agent forwarding unavailable: {error}"
  | _, none =>
    { b with waitingSince := none }.warn
      "remote agent forwarding unavailable; terminal continues normally"

/-- Drops a connection and takes its requests off the count. -/
def abortConnection (b : AgentBridge) (connectionId : ℕ) : AgentBridge :=
  match b.connections.get? connectionId with
  | none => b
  | some connection =>
    { b with
      connections := b.connections.erase connectionId
      outstanding := b.outstanding - connection.outstanding }

/-- A request has gone to its worker. -/
def queued (b : AgentBridge) (connectionId : ℕ) : AgentBridge :=
  match b.connections.get? connectionId with
  | none => { b with outstanding := b.outstanding + 1 }
  | some connection =>
    { b with
      connections := b.connections.insert connectionId
        { connection with outstanding := connection.outstanding + 1 }
      outstanding := b.outstanding + 1 }

/-- A request was answered. -/
def answered (b : AgentBridge) (connectionId : ℕ) : AgentBridge :=
  match b.connections.get? connectionId with
  | none => { b with outstanding := b.outstanding - 1 }
  | some connection =>
    { b with
      connections := b.connections.insert connectionId
        { connection with outstanding := connection.outstanding - 1 }
      outstanding := b.outstanding - 1 }

/-- A worker has failed: its connection goes, with all its requests. -/
def closed (b : AgentBridge) (connectionId : ℕ) (error : String) : AgentBridge :=
  let remaining := ((b.connections.get? connectionId).map fun c => c.outstanding - 1).getD 0
  { b with
    connections := b.connections.erase connectionId
    outstanding := b.outstanding - 1 - remaining }.warn s!"local SSH agent failed: {error}"

end AgentBridge

/-! ### The workers -/

namespace Worker

/-- `try_send` on the queue of a worker: `none` where its channel is closed, `some none` where
it is full. -/
def trySend (w : Worker) (work : Work) : Option (Option Worker) :=
  match w.state with
  | .stopped => none
  | .running current queue =>
    if queue.length < WORK_QUEUE_DEPTH then
      some (some { w with state := .running current (queue ++ [work]) })
    else some none

/-- The requests a worker has been sent and has not reported on. -/
def inFlight (w : Worker) : ℕ :=
  match w.state with
  | .stopped => 0
  | .running current queue => current.toList.length + queue.length

end Worker

namespace AgentSystem

/-- The session starts with a bridge and no worker. -/
def new (bridge : AgentBridge) : AgentSystem := ⟨bridge, [], [], []⟩

/-- Tells the session that a connection is closed, and why. -/
def refuse (s : AgentSystem) (connectionId id : ℕ) (message : Option String) : AgentSystem :=
  { s with
    bridge := (message.map s.bridge.warn).getD s.bridge
    commands := s.commands ++ [⟨connectionId, id, [], true⟩] }

/-- `spawn_worker`, and the connection that sends to it. A thread that does not start drops its
end of the queue. -/
def connect (s : AgentSystem) (connectionId : ℕ) (spawned : Bool) : AgentSystem :=
  { s with
    bridge.connections := s.bridge.connections.insert connectionId ⟨s.workers.length, 0⟩
    workers := s.workers ++
      [⟨connectionId, if spawned then .running none [] else .stopped⟩] }

/-- Sends a request to its worker, or drops the connection. -/
def send (s : AgentSystem) (connectionId worker : ℕ) (work : Work) : AgentSystem :=
  match s.workers[worker]?.bind (Worker.trySend · work) with
  | some (some w) =>
    { s with bridge := s.bridge.queued connectionId, workers := s.workers.set worker w }
  | some none =>
    { s with bridge := s.bridge.abortConnection connectionId }.refuse connectionId work.requestId
      (some "one forwarded SSH-agent connection is busy")
  | none =>
    { s with bridge := s.bridge.abortConnection connectionId }.refuse connectionId work.requestId
      none

/-- A request of a remote connection. -/
def agentRequest (s : AgentSystem) (id connectionId : ℕ) (frame : List UInt8) (spawned : Bool) :
    AgentSystem :=
  if s.bridge.negotiated = false then s
  else if validFrame frame = false then
    s.refuse connectionId id
      (some "remote agent request exceeded the frame limit or was malformed")
  else if MAX_OUTSTANDING ≤ s.bridge.outstanding then
    s.refuse connectionId id
      (some "SSH-agent forwarding is busy; the remote connection was closed")
  else
    match s.bridge.connections.get? connectionId with
    | some connection => s.send connectionId connection.worker ⟨id, frame⟩
    | none =>
      if MAX_CONNECTIONS ≤ s.bridge.connections.size then
        s.refuse connectionId id (some "too many forwarded SSH-agent connections")
      else if s.bridge.path = none then
        s.refuse connectionId id (some "remote agent request arrived with no local agent")
      else (s.connect connectionId spawned).send connectionId s.workers.length ⟨id, frame⟩

/-- `process_events` on one event; `spawned` says whether a worker it needs can start. -/
def processEvent (s : AgentSystem) (spawned : Bool) : HostEvent → AgentSystem
  | .agentReady supported error => { s with bridge := s.bridge.agentReady supported error }
  | .agentRequest id connectionId frame => s.agentRequest id connectionId frame spawned
  | .agentClose _ connectionId _ => { s with bridge := s.bridge.abortConnection connectionId }

/-- `drain_results` on one result. -/
def receive (s : AgentSystem) : WorkerResult → AgentSystem
  | .response connectionId requestId frame =>
    { s with
      bridge := s.bridge.answered connectionId
      commands := s.commands ++ [⟨connectionId, requestId, frame, false⟩] }
  | .closed connectionId requestId error =>
    { s with
      bridge := s.bridge.closed connectionId error
      commands := s.commands ++ [⟨connectionId, requestId, [], true⟩] }

end AgentSystem

/-! ### Steps -/

/-- What happens next: a host event, the clock, a result drained, or a step of a worker. -/
inductive AgentAction where
  | event (event : HostEvent) (spawned : Bool)
  | clock (now : ℕ)
  | drain
  | take (worker : ℕ)
  | reply (worker : ℕ) (frame : List UInt8)
  | fail (worker : ℕ) (error : String)

/-- Why a step cannot be taken. -/
inductive Blocked where
  | noResult
  | noWork
  | channelFull

namespace AgentSystem

/-- A worker that is on a request sends a result for it, and goes on in another state. -/
def report (s : AgentSystem) (worker : ℕ) (w : Worker) (outcome : Outcome) :
    Except Blocked AgentSystem :=
  if s.results.length < MAX_OUTSTANDING then
    .ok { s with workers := s.workers.set worker w, results := s.results ++ [outcome] }
  else .error .channelFull

/-- One step of the system. -/
def step (s : AgentSystem) : AgentAction → Except Blocked AgentSystem
  | .event event spawned => .ok (if s.bridge.enabled then s.processEvent spawned event else s)
  | .clock now => .ok { s with bridge := s.bridge.negotiationTimedOut now }
  | .drain =>
    match s.results with
    | [] => .error .noResult
    | outcome :: rest => .ok ({ s with results := rest }.receive outcome.result)
  | .take worker =>
    match s.workers[worker]? with
    | some ⟨c, .running none (work :: queue)⟩ =>
      .ok { s with workers := s.workers.set worker ⟨c, .running (some work) queue⟩ }
    | _ => .error .noWork
  | .reply worker frame =>
    match s.workers[worker]? with
    | some ⟨c, .running (some work) queue⟩ =>
      s.report worker ⟨c, .running none queue⟩ ⟨.response c work.requestId frame, []⟩
    | _ => .error .noWork
  | .fail worker error =>
    match s.workers[worker]? with
    | some ⟨c, .running (some work) queue⟩ =>
      s.report worker ⟨c, .stopped⟩ ⟨.closed c work.requestId error, queue⟩
    | _ => .error .noWork

end AgentSystem

end Zetta.Zosh
