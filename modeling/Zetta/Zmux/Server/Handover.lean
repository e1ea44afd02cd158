import Zetta.Lib.Run
import Zetta.Zmux.Server.Pane

/-!
# Handing a pane from one client to another

Attach requests, answers to revokes, grants, departures, deaths and the daemon's own sweeps act on
one pane in any order. A step is what one thread does between taking the sessions lock and
releasing it; what happens outside the lock (the wait of an attach, the flush of a grant, the
reply that carries the descriptor) is a step of its own. Each request is at one place of its
handler, its `Task`.

The state also records what the daemon cannot see: which processes live, and which of them have
been handed the descriptor and have not given it back.
-/

namespace Zetta.Zmux.Server

open Function

/-- Who is attaching. -/
structure Attacher where
  /-- The process the request names. -/
  clientProcessId : ℕ
  /-- What the transport vouched for. -/
  peerProcessId : Option ℕ
  clientId : String
  streamOnly : Bool
  relayingFor : Option String
  deriving DecidableEq

/-- The process a request names, where the transport confirmed it is the one asking. -/
def verifiedProcessId (clientProcessId : ℕ) (peerProcessId : Option ℕ) : Option ℕ :=
  peerProcessId.filter (· = clientProcessId)

def Attacher.verifiedProcessId (attacher : Attacher) : Option ℕ :=
  Server.verifiedProcessId attacher.clientProcessId attacher.peerProcessId

namespace Handover

/-- Where the handler of one request stands. -/
inductive Task
  | idle
  /-- In `await_handover`, asleep or woken. -/
  | waiting (attacher : Attacher) (woken : Bool)
  /-- The pane has been marked exclusive, and the reply with the descriptor is about to be sent;
  it answers an attach or a grant. -/
  | replying (processId : ℕ) (clientId : String) (grant : Bool)
  /-- In `serve_shared`. -/
  | serving (attachment : ℕ)
  /-- Between the two critical sections of `take_exclusive`. -/
  | flushing (processId : ℕ) (clientId : String)
  deriving DecidableEq

/-- The process a reply with the descriptor is about to be sent to. -/
def Task.replyingTo : Task → Option ℕ
  | .replying processId _ _ => some processId
  | _ => none

/-- What fails in a request, if anything. -/
inductive Fault
  | none
  /-- The reader cannot be paused. -/
  | pause
  /-- The descriptor cannot be prepared. -/
  | handles
  /-- The relay cannot be started. -/
  | relay
  /-- The reply cannot be sent. -/
  | send
  deriving DecidableEq

/-- A live subscription, and the revokes queued on it so far. -/
structure Subscriber where
  clientId : String
  processId : ℕ
  revokes : List ℕ
  deriving DecidableEq

structure State (ι : Type) where
  /-- None once the pane is gone. -/
  pane : Option Pane
  task : ι → Task
  subscribers : List Subscriber
  /-- How often a holder has been asked to hand the pane over. -/
  round : ℕ
  revision : ℕ
  nextAttachment : ℕ
  /-- The platform's reader can be paused. -/
  windows : Bool
  /-- The processes that live. -/
  alive : ℕ → Bool
  /-- The processes that have been handed the descriptor and have not given it back. -/
  holds : ℕ → Bool

variable {ι : Type}

/-! ### The pieces of the handlers -/

/-- `sessions_condvar.notify_all()`. -/
def Task.wake : Task → Task
  | .waiting attacher _ => .waiting attacher true
  | task => task

def State.notifyAll (s : State ι) : State ι := { s with task := fun i => (s.task i).wake }

/-- A revoke is queued for the first subscription of the holder's process; a subscription whose
queue is full is closed. -/
def enqueueRevoke (holder round : ℕ) (full : Bool) : List Subscriber → List Subscriber
  | [] => []
  | subscriber :: rest =>
    if subscriber.processId = holder then
      if full then rest else { subscriber with revokes := subscriber.revokes ++ [round] } :: rest
    else
      subscriber :: enqueueRevoke holder round full rest

/-- The holder is asked to hand the pane over. -/
def State.revoke (s : State ι) (holder : ℕ) (full : Bool) : State ι :=
  { s with
    round := s.round + 1
    subscribers := enqueueRevoke holder (s.round + 1) full s.subscribers }

section Fields

variable (s : State ι) (i : ι) (holder : ℕ) (full : Bool)

@[simp] theorem notifyAll_pane : s.notifyAll.pane = s.pane := rfl

@[simp] theorem notifyAll_task : s.notifyAll.task i = (s.task i).wake := rfl

@[simp] theorem notifyAll_alive : s.notifyAll.alive = s.alive := rfl

@[simp] theorem notifyAll_holds : s.notifyAll.holds = s.holds := rfl

@[simp] theorem replyingTo_wake (task : Task) : task.wake.replyingTo = task.replyingTo := by
  cases task <;> rfl

@[simp] theorem revoke_task : (s.revoke holder full).task = s.task := rfl

@[simp] theorem revoke_alive : (s.revoke holder full).alive = s.alive := rfl

@[simp] theorem revoke_holds : (s.revoke holder full).holds = s.holds := rfl

end Fields

variable [DecidableEq ι]

/-- The pane and one request's place. -/
def State.set (s : State ι) (pane : Pane) (i : ι) (task : Task) : State ι :=
  { s with pane := some pane, task := update s.task i task }

@[simp] theorem set_pane (s : State ι) (pane : Pane) (i : ι) (task : Task) :
    (s.set pane i task).pane = some pane := rfl

@[simp] theorem set_task (s : State ι) (pane : Pane) (i : ι) (task : Task) :
    (s.set pane i task).task = update s.task i task := rfl

/-- The client takes the descriptor: the pane is marked before the reply is sent. -/
def attachExclusive (s : State ι) (i : ι) (pane : Pane) (attacher : Attacher) (fault : Fault) :
    State ι :=
  if fault = .pause then
    s.set pane i .idle
  else
    let pane := { pausePaneReader s.windows pane with
      attachment := exclusiveAttachment attacher.clientProcessId
      attachmentClientId :=
        if attacher.clientProcessId = 0 then none else some attacher.clientId
      retained := [] }
    if fault = .handles then
      s.set pane i .idle
    else
      s.set pane i (.replying attacher.clientProcessId attacher.clientId false)

/-- A viewer that has just joined: it is unmeasured until it reports. -/
def newViewer (attacher : Attacher) (attachment : ℕ) : SharedClient where
  processId := attacher.clientProcessId
  peerProcessId := attacher.peerProcessId
  clientId := attacher.clientId
  attachment := attachment
  streamOnly := attacher.streamOnly
  relayingFor := attacher.relayingFor
  relay := ⟨[], 0, false⟩
  size := none
  reportedAt := 0

/-- The client joins the pane's shared set, and is served until its connection ends. -/
def attachShared (s : State ι) (i : ι) (pane : Pane) (attacher : Attacher) (fault : Fault) :
    State ι :=
  match pane.attachment with
  | .shared clients =>
    if fault = .relay then
      s.set pane i .idle
    else
      let pane := { pane with
        attachment := .shared (clients ++ [newViewer attacher s.nextAttachment])
        -- The client that handed the pane over gets what it has missed.
        handedOver := pane.handedOver.filter fun handover =>
          some handover.clientProcessId ≠ attacher.verifiedProcessId }
      { s with nextAttachment := s.nextAttachment + 1 }.set pane i
        (if fault = Fault.send then .idle else .serving s.nextAttachment)
  | _ => s.set pane i .idle

/-- Puts a pane back under the drain after a handover that did not complete. -/
def releaseFailedHandover (s : State ι) (clientId : String) : State ι :=
  match s.pane with
  | some pane =>
    if pane.attachmentClientId = none ∨ pane.attachmentClientId = some clientId then
      { s with pane := some pane.unhold.resumeReader }.notifyAll
    else
      s.notifyAll
  | none => s.notifyAll

/-- The first critical section of `attach`. -/
def attach (s : State ι) (i : ι) (pane : Pane) (attacher : Attacher) (forceShared : Bool)
    (fault : Fault) (full : Bool) : State ι :=
  if pane.exited then
    s.set pane i .idle
  else if attacher.streamOnly ∨ forceShared then
    match pane.attachment with
    | .none =>
      attachShared s i { pane with attachment := .shared [], attachmentClientId := none } attacher
        fault
    | .shared _ => attachShared s i pane attacher fault
    | attachment =>
      if forceShared then
        s.set pane i .idle
      else
        match attachment with
        | .exclusive holder => wait (s.revoke holder full) { pane with attachment := .revoking holder }
        | _ => wait s pane
  else
    match pane.attachment with
    | .none => attachExclusive s i pane attacher fault
    | .shared _ => attachShared s i pane attacher fault
    | .exclusive holder =>
      if some holder = attacher.verifiedProcessId then
        attachExclusive s i pane attacher fault
      else
        wait (s.revoke holder full) { pane with attachment := .revoking holder }
    | _ => wait s pane
where
  /-- The request is counted, and waits. -/
  wait (s : State ι) (pane : Pane) : State ι :=
    s.set { pane with handoverWaiters := pane.handoverWaiters + 1 } i (.waiting attacher false)

/-- One wake-up in `await_handover`; `expired` when the deadline has passed by the time the pane
is found to be still held. -/
def awaken (s : State ι) (i : ι) (pane : Pane) (attacher : Attacher) (expired : Bool)
    (fault : Fault) (full : Bool) : State ι :=
  if pane.exited then
    s.set (finishHandoverWaiter pane true) i .idle
  else
    match pane.attachment with
    | .shared _ => attachShared s i (finishHandoverWaiter pane false) attacher fault
    | .none =>
      let pane := finishHandoverWaiter pane true
      if attacher.streamOnly then
        attachShared s i { pane with attachment := .shared [], attachmentClientId := none } attacher
          fault
      else
        attachExclusive s i pane attacher fault
    | .exclusive holder =>
      if !attacher.streamOnly ∧ some holder = attacher.verifiedProcessId then
        attachExclusive s i (finishHandoverWaiter pane true) attacher fault
      else
        again (s.revoke holder full) { pane with attachment := .revoking holder }
    | .granting holder | .revoking holder =>
      if s.alive holder then
        again s pane
      else
        attachExclusive s i (finishHandoverWaiter pane.unhold true) attacher fault
where
  /-- Back to the top of the loop. -/
  again (s : State ι) (pane : Pane) : State ι :=
    if expired then
      s.set (finishHandoverWaiter pane true) i .idle
    else
      s.set pane i (.waiting attacher false)

/-- Whether `clients` is a single local viewer whose attach was vouched for as coming from
`caller`. -/
def isSoleViewer (clients : List SharedClient) (caller : ℕ) : Bool :=
  match clients with
  | [client] => !client.streamOnly && client.peerProcessId = some caller
  | _ => false

/-- The process that has the terminal, as the pane records it. -/
def holderOf : Attachment → Option ℕ
  | .exclusive holder => some holder
  | .revoking holder => some holder
  | _ => none

theorem holderOf_exclusiveAttachment {processId : ℕ} (h : processId ≠ 0) :
    holderOf (exclusiveAttachment processId) = some processId := by
  rw [exclusiveAttachment_of_ne_zero h]
  rfl

/-- The daemon reads no terminal that a client has. -/
theorem holderOf_of_drainReads {attachment : Attachment} (h : drainReads attachment = true) :
    holderOf attachment = none := by
  cases attachment <;> first | rfl | cases h

/-- What a drain pass does with visible output it has read. -/
def drainOutput (pane : Pane) (revision : ℕ) (bytes : List UInt8) : Pane :=
  let relayed := relayOutput
    (recordHandoverOutput { pane with retained := pane.retained ++ bytes } bytes) bytes
  if relayed.2 then settleSharedDeparture relayed.1 revision true else relayed.1

/-- The relay threads that serve attachment `attachment` end. -/
def closeRelay (attachment : ℕ) (pane : Pane) : Pane :=
  match pane.attachment with
  | .shared clients =>
    { pane with
      attachment := .shared (clients.map fun client =>
        if client.attachment = attachment then
          { client with relay := { client.relay with closed := true } }
        else client) }
  | _ => pane

@[simp]
theorem holderOf_finishHandoverWaiter (pane : Pane) (collapse : Bool) :
    holderOf (finishHandoverWaiter pane collapse).attachment = holderOf pane.attachment := by
  simp only [finishHandoverWaiter]
  split_ifs with h
  · rw [h.2.2]
    rfl
  · rfl

/-! ### The steps -/

inductive Action (ι : Type)
  | attach (i : ι) (attacher : Attacher) (forceShared : Bool) (fault : Fault) (full : Bool)
  /-- An attach that waits wakes up, whatever woke it. -/
  | awaken (i : ι) (expired : Bool) (fault : Fault) (full : Bool)
  /-- The reply with the descriptor is sent, or cannot be. -/
  | send (i : ι) (sent : Bool)
  | snapshot (caller : ℕ) (screen : List UInt8)
  | takeExclusive (i : ι) (caller : ℕ) (clientId : String) (fault : Fault)
  /-- The flush of a grant has ended. -/
  | resume (i : ι) (flushed : Bool) (fault : Fault)
  | releaseExclusive (caller : ℕ) (clientId : String)
  | detach (caller : ℕ) (screen : Option (List UInt8))
  | closePane (caller : ℕ)
  | leaveShared (clientId : String)
  /-- The connection of a viewer ends. -/
  | disconnect (i : ι)
  | evict (stalled : List ℕ)
  | output (bytes : List UInt8)
  /-- A size event is queued for the viewers. -/
  | announce
  | closeRelay (attachment : ℕ)
  | die (processId : ℕ)
  /-- The sweep that takes panes back from clients that are gone. -/
  | sweep
  /-- The pane's program ends. -/
  | exit
  /-- The pane is removed. -/
  | remove
  | subscribe (clientId : String) (processId : ℕ)
  | unsubscribe (clientId : String)

/-- A step on the pane that concerns no request. -/
def State.onPane (s : State ι) (f : Pane → Pane) : State ι := { s with pane := s.pane.map f }

/-- A process gives the descriptor back. -/
def State.giveBack (s : State ι) (processId : ℕ) : State ι :=
  { s with holds := update s.holds processId false }

/-- The second critical section of `take_exclusive`. -/
def resumeGrant (s : State ι) (i : ι) (pane : Pane) (processId : ℕ) (clientId : String)
    (flushed : Bool) (fault : Fault) : State ι :=
  if flushed then
    let pane := { pane with
      attachment := exclusiveAttachment processId
      attachmentClientId := some clientId
      retained := []
      handedOver := none }
    if fault = .handles then
      releaseFailedHandover (s.set pane i .idle) clientId
    else
      s.set pane i (.replying processId clientId true)
  else
    (s.set pane.unhold.resumeReader i .idle).notifyAll

def State.step (s : State ι) : Action ι → Option (State ι)
  | .attach i attacher forceShared fault full =>
    match s.task i, s.pane with
    | .idle, some pane => some (Handover.attach s i pane attacher forceShared fault full)
    | .idle, none => some s
    | _, _ => none
  | .awaken i expired fault full =>
    match s.task i, s.pane with
    | .waiting attacher _, some pane => some (Handover.awaken s i pane attacher expired fault full)
    | .waiting _ _, none => some { s with task := update s.task i .idle }
    | _, _ => none
  | .send i sent =>
    match s.task i with
    | .replying processId clientId grant =>
      let s := { s with task := update s.task i .idle }
      if sent then
        let s := { s with holds := update s.holds processId true }
        some (if grant then s.notifyAll else s)
      else
        some (releaseFailedHandover s clientId)
    | _ => none
  | .snapshot caller screen =>
    match s.pane with
    | some pane =>
      if pane.attachment = .revoking caller then
        some ({ s.giveBack caller with
          pane := some { pane with
            attachment := .shared []
            attachmentClientId := none
            retained := screen
            handedOver := some ⟨caller, []⟩ } }).notifyAll
      else if pane.attachment = .exclusive caller then
        some { s with pane := some { pane with retained := screen } }
      else
        some s
    | none => some s
  | .takeExclusive i caller clientId fault =>
    match s.task i, s.pane with
    | .idle, some pane =>
      match pane.attachment with
      | .shared clients =>
        if isSoleViewer clients caller ∧ fault ≠ .pause then
          some (s.set { pausePaneReader s.windows pane with
            attachment := .granting caller
            attachmentClientId := some clientId } i (.flushing caller clientId))
        else
          some s
      | _ => some s
    | .idle, none => some s
    | _, _ => none
  | .resume i flushed fault =>
    match s.task i, s.pane with
    | .flushing processId clientId, some pane =>
      some (resumeGrant s i pane processId clientId flushed fault)
    | .flushing _ _, none => some { s with task := update s.task i .idle }
    | _, _ => none
  | .releaseExclusive caller clientId =>
    match s.pane with
    | some pane =>
      if (holderOf pane.attachment = some caller ∨ pane.attachment = .granting caller) ∧
          (pane.attachmentClientId = none ∨ pane.attachmentClientId = some clientId) then
        some (releaseFailedHandover (s.giveBack caller) clientId)
      else
        some s
    | none => some s
  | .detach caller screen =>
    match s.pane with
    | some pane =>
      if holderOf pane.attachment = some caller then
        let pane := pane.unhold.resumeReader
        some { s.giveBack caller with
          pane := some { pane with retained := screen.getD pane.retained } }
      else if pane.attachment = .none then
        some { s with pane := some { pane with retained := screen.getD pane.retained } }
      else
        some s
    | none => some s
  | .closePane caller =>
    match s.pane with
    | some pane =>
      if holderOf pane.attachment = some caller then
        some { s.giveBack caller with pane := some pane.unhold }.notifyAll
      else
        some s
    | none => some s
  | .leaveShared clientId =>
    some (s.onPane (Server.leaveShared · s.revision clientId)).notifyAll
  | .disconnect i =>
    match s.task i with
    | .serving attachment =>
      some { s.onPane (removeSharedAttachment · s.revision attachment) with
        task := update s.task i .idle }
    | _ => none
  | .evict stalled =>
    some (s.onPane fun pane =>
      let evicted := relayBackpressure pane stalled
      if evicted.2 then settleSharedDeparture evicted.1 s.revision true else evicted.1)
  | .output bytes =>
    some (s.onPane fun pane =>
      if drainReads pane.attachment then drainOutput pane s.revision bytes else pane)
  | .announce => some (s.onPane fun pane => broadcastSize pane s.revision pane.size)
  | .closeRelay attachment => some (s.onPane (Handover.closeRelay attachment))
  | .die processId => some { s with alive := update s.alive processId false }
  | .sweep =>
    match s.pane with
    | some pane =>
      match holderOf pane.attachment with
      | some holder =>
        if s.alive holder then
          some s
        else
          some { s with pane := some pane.unhold.resumeReader }.notifyAll
      | none => some s
    | none => some s
  | .exit => some (s.onPane fun pane => { pane with exited := true })
  | .remove => some { s with pane := none }
  | .subscribe clientId processId =>
    some { s with
      subscribers := ⟨clientId, processId, []⟩ :: s.subscribers.filter (·.clientId ≠ clientId) }
  | .unsubscribe clientId =>
    some { s with subscribers := s.subscribers.filter (·.clientId ≠ clientId) }

/-! ### What a step can do -/

/-- The effects of the steps; a request that is refused has none. -/
inductive Moves (s : State ι) : Action ι → State ι → Prop
  | refused {action : Action ι} : Moves s action s
  /-- The pane is gone when a request looks at it again. -/
  | gone {action : Action ι} (i : ι) (hpane : s.pane = none) (htask : (s.task i).replyingTo = none) :
    Moves s action { s with task := update s.task i .idle }
  | attach {i : ι} {pane : Pane} {attacher : Attacher} {forceShared : Bool} {fault : Fault}
      {full : Bool} (htask : s.task i = .idle) (hpane : s.pane = some pane) :
    Moves s (.attach i attacher forceShared fault full)
      (Handover.attach s i pane attacher forceShared fault full)
  | awaken {i : ι} {pane : Pane} {attacher : Attacher} {woken expired : Bool} {fault : Fault}
      {full : Bool} (htask : s.task i = .waiting attacher woken) (hpane : s.pane = some pane) :
    Moves s (.awaken i expired fault full) (Handover.awaken s i pane attacher expired fault full)
  | sent {i : ι} {processId : ℕ} {clientId : String} {grant : Bool}
      (htask : s.task i = .replying processId clientId grant) :
    Moves s (.send i true)
      (if grant then
        State.notifyAll { s with
          task := update s.task i .idle
          holds := update s.holds processId true }
      else
        { s with
          task := update s.task i .idle
          holds := update s.holds processId true })
  | unsent {i : ι} {processId : ℕ} {clientId : String} {grant : Bool}
      (htask : s.task i = .replying processId clientId grant) :
    Moves s (.send i false)
      (releaseFailedHandover { s with task := update s.task i .idle } clientId)
  | snapshot {pane : Pane} {caller : ℕ} {screen : List UInt8} (hpane : s.pane = some pane)
      (hrevoking : pane.attachment = .revoking caller) :
    Moves s (.snapshot caller screen)
      (State.notifyAll { s.giveBack caller with
        pane := some { pane with
          attachment := .shared []
          attachmentClientId := none
          retained := screen
          handedOver := some ⟨caller, []⟩ } })
  /-- A client checkpoints what it shows, or leaves it behind. -/
  | seeded {action : Action ι} {pane : Pane} (screen : List UInt8) (hpane : s.pane = some pane) :
    Moves s action { s with pane := some { pane with retained := screen } }
  | takeExclusive {i : ι} {pane : Pane} {clients : List SharedClient} {caller : ℕ}
      {clientId : String} {fault : Fault} (htask : s.task i = .idle) (hpane : s.pane = some pane)
      (hshared : pane.attachment = .shared clients) (hsole : isSoleViewer clients caller = true) :
    Moves s (.takeExclusive i caller clientId fault)
      (s.set { pausePaneReader s.windows pane with
        attachment := .granting caller
        attachmentClientId := some clientId } i (.flushing caller clientId))
  | resume {i : ι} {pane : Pane} {processId : ℕ} {clientId : String} {flushed : Bool}
      {fault : Fault} (htask : s.task i = .flushing processId clientId)
      (hpane : s.pane = some pane) :
    Moves s (.resume i flushed fault) (resumeGrant s i pane processId clientId flushed fault)
  | releaseExclusive {pane : Pane} {caller : ℕ} {clientId : String} (hpane : s.pane = some pane)
      (hheld : holderOf pane.attachment = some caller ∨ pane.attachment = .granting caller)
      (hclient : pane.attachmentClientId = none ∨ pane.attachmentClientId = some clientId) :
    Moves s (.releaseExclusive caller clientId)
      (State.notifyAll { s.giveBack caller with pane := some pane.unhold.resumeReader })
  | detach {pane : Pane} {caller : ℕ} {screen : Option (List UInt8)} (hpane : s.pane = some pane)
      (hheld : holderOf pane.attachment = some caller) :
    Moves s (.detach caller screen) { s.giveBack caller with
      pane := some { pane.unhold.resumeReader with retained := screen.getD pane.retained } }
  | closePane {pane : Pane} {caller : ℕ} (hpane : s.pane = some pane)
      (hheld : holderOf pane.attachment = some caller) :
    Moves s (.closePane caller)
      (State.notifyAll { s.giveBack caller with pane := some pane.unhold })
  | leaveShared {clientId : String} :
    Moves s (.leaveShared clientId) (s.onPane (Server.leaveShared · s.revision clientId)).notifyAll
  | disconnect {i : ι} {attachment : ℕ} (htask : s.task i = .serving attachment) :
    Moves s (.disconnect i) { s.onPane (removeSharedAttachment · s.revision attachment) with
      task := update s.task i .idle }
  | evict {stalled : List ℕ} :
    Moves s (.evict stalled) (s.onPane fun pane =>
      if (relayBackpressure pane stalled).2 then
        settleSharedDeparture (relayBackpressure pane stalled).1 s.revision true
      else (relayBackpressure pane stalled).1)
  | output {pane : Pane} {bytes : List UInt8} (hpane : s.pane = some pane)
      (hdrain : drainReads pane.attachment = true) :
    Moves s (.output bytes) { s with pane := some (drainOutput pane s.revision bytes) }
  | announce : Moves s .announce (s.onPane fun pane => broadcastSize pane s.revision pane.size)
  | closeRelay {attachment : ℕ} :
    Moves s (.closeRelay attachment) (s.onPane (Handover.closeRelay attachment))
  | die {processId : ℕ} :
    Moves s (.die processId) { s with alive := update s.alive processId false }
  | sweep {pane : Pane} {holder : ℕ} (hpane : s.pane = some pane)
      (hholder : holderOf pane.attachment = some holder) (hdead : s.alive holder = false) :
    Moves s .sweep (State.notifyAll { s with pane := some pane.unhold.resumeReader })
  | exit : Moves s .exit (s.onPane fun pane => { pane with exited := true })
  | remove : Moves s .remove { s with pane := none }
  | subscribe {clientId : String} {processId : ℕ} :
    Moves s (.subscribe clientId processId) { s with
      subscribers := ⟨clientId, processId, []⟩ :: s.subscribers.filter (·.clientId ≠ clientId) }
  | unsubscribe {clientId : String} :
    Moves s (.unsubscribe clientId) { s with
      subscribers := s.subscribers.filter (·.clientId ≠ clientId) }

theorem moves_of_step {s t : State ι} {action : Action ι} (hstep : s.step action = some t) :
    Moves s action t := by
  cases action with
  | attach i attacher forceShared fault full =>
    rw [State.step] at hstep
    split at hstep
    next pane htask hpane =>
      cases hstep
      exact .attach htask hpane
    · cases hstep
      exact .refused
    · cases hstep
  | awaken i expired fault full =>
    rw [State.step] at hstep
    split at hstep
    next attacher woken pane htask hpane =>
      cases hstep
      exact .awaken htask hpane
    next attacher woken htask hpane =>
      cases hstep
      exact .gone i hpane (by rw [htask]; rfl)
    · cases hstep
  | send i sent =>
    rw [State.step] at hstep
    split at hstep
    next processId clientId grant htask =>
      cases sent with
      | true =>
        cases hstep
        exact .sent htask
      | false =>
        cases hstep
        exact .unsent htask
    · cases hstep
  | snapshot caller screen =>
    rw [State.step] at hstep
    split at hstep
    next pane hpane =>
      split at hstep
      next hrevoking =>
        cases hstep
        exact .snapshot hpane hrevoking
      · split at hstep
        · cases hstep
          exact .seeded screen hpane
        · cases hstep
          exact .refused
    · cases hstep
      exact .refused
  | takeExclusive i caller clientId fault =>
    rw [State.step] at hstep
    split at hstep
    next pane htask hpane =>
      split at hstep
      next clients hshared =>
        split at hstep
        next hsole =>
          cases hstep
          exact .takeExclusive htask hpane hshared hsole.1
        · cases hstep
          exact .refused
      · cases hstep
        exact .refused
    · cases hstep
      exact .refused
    · cases hstep
  | resume i flushed fault =>
    rw [State.step] at hstep
    split at hstep
    next processId clientId pane htask hpane =>
      cases hstep
      exact .resume htask hpane
    next processId clientId htask hpane =>
      cases hstep
      exact .gone i hpane (by rw [htask]; rfl)
    · cases hstep
  | releaseExclusive caller clientId =>
    rw [State.step] at hstep
    split at hstep
    next pane hpane =>
      split at hstep
      next hheld =>
        cases hstep
        have hreleased : releaseFailedHandover (s.giveBack caller) clientId =
            State.notifyAll { s.giveBack caller with pane := some pane.unhold.resumeReader } := by
          simp only [releaseFailedHandover, State.giveBack, hpane, if_pos hheld.2]
        rw [hreleased]
        exact .releaseExclusive hpane hheld.1 hheld.2
      · cases hstep
        exact .refused
    · cases hstep
      exact .refused
  | detach caller screen =>
    rw [State.step] at hstep
    split at hstep
    next pane hpane =>
      split at hstep
      next hheld =>
        cases hstep
        exact .detach hpane hheld
      · split at hstep
        · cases hstep
          exact .seeded (screen.getD pane.retained) hpane
        · cases hstep
          exact .refused
    · cases hstep
      exact .refused
  | closePane caller =>
    rw [State.step] at hstep
    split at hstep
    next pane hpane =>
      split at hstep
      next hheld =>
        cases hstep
        exact .closePane hpane hheld
      · cases hstep
        exact .refused
    · cases hstep
      exact .refused
  | leaveShared clientId =>
    cases hstep
    exact .leaveShared
  | disconnect i =>
    rw [State.step] at hstep
    split at hstep
    next attachment htask =>
      cases hstep
      exact .disconnect htask
    · cases hstep
  | evict stalled =>
    cases hstep
    exact .evict
  | output bytes =>
    simp only [State.step, State.onPane] at hstep
    cases hstep
    cases hpane : s.pane with
    | none =>
      have hsame : ({ s with pane := none } : State ι) = s := by rw [← hpane]
      rw [Option.map_none, hsame]
      exact .refused
    | some pane =>
      rw [Option.map_some]
      split
      next hdrain => exact .output hpane hdrain
      · have hsame : ({ s with pane := some pane } : State ι) = s := by rw [← hpane]
        rw [hsame]
        exact .refused
  | announce =>
    cases hstep
    exact .announce
  | closeRelay attachment =>
    cases hstep
    exact .closeRelay
  | die processId =>
    cases hstep
    exact .die
  | sweep =>
    rw [State.step] at hstep
    split at hstep
    next pane hpane =>
      split at hstep
      next holder hholder =>
        split at hstep
        · cases hstep
          exact .refused
        next hdead =>
          cases hstep
          exact .sweep hpane hholder (by simpa using hdead)
      · cases hstep
        exact .refused
    · cases hstep
      exact .refused
  | exit =>
    cases hstep
    exact .exit
  | remove =>
    cases hstep
    exact .remove
  | subscribe clientId processId =>
    cases hstep
    exact .subscribe
  | unsubscribe clientId =>
    cases hstep
    exact .unsubscribe

end Handover
end Zetta.Zmux.Server
