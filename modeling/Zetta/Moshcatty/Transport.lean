import Mathlib

/-!
# The state synchronization transport

`Transport` is one end of a Mosh session below the terminal: numbered states waiting to be
sent or acknowledged, the states received from the peer, and the timers that decide when the
next instruction goes out. Its operations are those of the program: queueing a diff
(`setPending`, `setPendingOn`), producing the next instruction (`tick`), receiving one
(`receive`), and the shutdown handshake.

* Time is in **nanoseconds** since some origin, and the current time is an argument.
* Encryption, fragments and compression are left out, apart from the two ways they stop an
  instruction: it is too large, or the key is used up (`Wire`).
* State numbers are `u64`s whose greatest value announces the shutdown; the counter of states
  sent saturates there.
-/

namespace Zetta.Moshcatty

/-! ### Constants -/

/-- A duration in milliseconds. -/
def millis (n : ℕ) : ℕ := n * 1000000

/-- A duration in seconds. -/
def seconds (n : ℕ) : ℕ := n * 1000000000

def INITIAL_RTO : ℕ := millis 1000
def MIN_RTO : ℕ := millis 50
def MAX_RTO : ℕ := millis 1000
def HEARTBEAT_INTERVAL : ℕ := seconds 3
def ACK_DELAY : ℕ := millis 100
def ACTIVE_RETRY_TIMEOUT : ℕ := seconds 10
def SHUTDOWN_RETRIES : ℕ := 16
def SENT_STATE_CAP : ℕ := 32
def RECEIVED_STATE_CAP : ℕ := 1024
def RECEIVER_QUENCH_INTERVAL : ℕ := seconds 15

/-- `u64::MAX`, the state that announces a shutdown. -/
def MAX : ℕ := 2 ^ 64 - 1

/-- `saturating_add(1)` on a state number. -/
def nextNum (n : ℕ) : ℕ := min (n + 1) MAX

/-! ### Data -/

/-- `TransportInstruction`, without version and padding. -/
structure Instruction where
  oldNum : ℕ
  newNum : ℕ
  ackNum : ℕ
  throwawayNum : ℕ
  diff : List UInt8

/-- A state queued for the peer. -/
structure OutboundState where
  oldNum : ℕ
  newNum : ℕ
  diff : List UInt8
  lastSent : Option ℕ
  deriving DecidableEq

/-- A complete remote state that was accepted. -/
structure ReceivedStateDiff where
  oldNum : ℕ
  newNum : ℕ
  ackNum : ℕ
  throwawayNum : ℕ
  diff : List UInt8

/-- What keeps an instruction off the wire. -/
structure Wire where
  /-- It exceeds the size limit, encoded or compressed. -/
  tooLarge : Instruction → Bool
  /-- The key has been used for as many blocks as it may be. -/
  exhausted : Instruction → Bool

/-- One end of a session. -/
structure Transport where
  sentNum : ℕ
  ackedByRemote : ℕ
  outboundStates : List OutboundState
  sentStateTimes : List (ℕ × ℕ)
  outboundInstructionTooLarge : Bool
  outboundOverflowed : Bool
  rebaseRequired : Bool
  pacingEnabled : Bool
  allowImmediateNewState : Bool
  pendingDataAck : Bool
  pendingAckSince : Option ℕ
  localThrowaway : ℕ
  receivedNums : List ℕ
  ackNum : ℕ
  sentAckNum : ℕ
  throwawayNum : ℕ
  cryptoExhausted : Bool
  lastSend : ℕ
  lastRecv : ℕ
  lastRemoteState : ℕ
  receivedAuthenticated : Bool
  lastRoundtripSuccess : ℕ
  srtt : ℕ
  rttvar : ℕ
  rto : ℕ
  rttInit : Bool
  forceSend : Bool
  shutdownInProgress : Bool
  shutdownStarted : Option ℕ
  shutdownTries : ℕ
  counterpartyShutdownAckSent : Bool
  receiverQuenchUntil : Option ℕ
  deriving DecidableEq

namespace Transport

/-- A new end, with its clocks at `now`. -/
def new (isServer : Bool) (now : ℕ) : Transport where
  sentNum := 0
  ackedByRemote := 0
  outboundStates := []
  sentStateTimes := [(0, now)]
  outboundInstructionTooLarge := false
  outboundOverflowed := false
  rebaseRequired := false
  pacingEnabled := !isServer
  allowImmediateNewState := true
  pendingDataAck := false
  pendingAckSince := none
  localThrowaway := 0
  receivedNums := [0]
  ackNum := 0
  sentAckNum := 0
  throwawayNum := 0
  cryptoExhausted := false
  lastSend := now
  lastRecv := now
  lastRemoteState := now
  receivedAuthenticated := false
  lastRoundtripSuccess := now
  srtt := 0
  rttvar := 0
  rto := INITIAL_RTO
  rttInit := false
  forceSend := false
  shutdownInProgress := false
  shutdownStarted := none
  shutdownTries := 0
  counterpartyShutdownAckSent := false
  receiverQuenchUntil := none

def newServer (now : ℕ) : Transport := new true now

variable (t : Transport)

def forceNextSend : Transport := { t with forceSend := true }

/-! ### Queueing states -/

/-- `old_num` if the peer may hold it, else the acknowledged state. -/
def queueBase (oldNum : ℕ) : ℕ :=
  if oldNum = t.ackedByRemote ∨ ∃ state ∈ t.outboundStates, state.newNum = oldNum then oldNum
  else t.ackedByRemote

/-- Appends a state and removes one from the middle of a list that exceeds its cap. -/
def pushCapped {α : Type} (xs : List α) (x : α) : List α :=
  if SENT_STATE_CAP < xs.length + 1 then (xs ++ [x]).eraseIdx (xs.length + 1 - 16)
  else xs ++ [x]

/-- Queues a diff from a state, or from the acknowledged one if that is not known. -/
def setPendingFrom (oldNum : ℕ) (diff : List UInt8) : ℕ × Transport :=
  if t.shutdownInProgress then (t.sentNum, t)
  else
    (nextNum t.sentNum,
      { t with
        sentNum := nextNum t.sentNum
        outboundStates :=
          pushCapped t.outboundStates ⟨t.queueBase oldNum, nextNum t.sentNum, diff, none⟩
        outboundOverflowed :=
          t.outboundOverflowed || decide (SENT_STATE_CAP < t.outboundStates.length + 1) })

/-- Queues a diff from the acknowledged state. -/
def setPending (diff : List UInt8) : ℕ × Transport :=
  t.setPendingFrom t.ackedByRemote diff

/-- The state is acknowledged, or has been sent and not been given up. -/
def baseKnown (oldNum : ℕ) : Bool :=
  decide (oldNum = t.ackedByRemote) ||
    t.outboundStates.any fun state => state.newNum = oldNum && state.lastSent.isSome

/-- Queues a diff from a state and only from it. -/
def setPendingOn (oldNum : ℕ) (diff : List UInt8) : Option (ℕ × Transport) :=
  if t.baseKnown oldNum && !t.shutdownInProgress then some (t.setPendingFrom oldNum diff)
  else none

/-! ### Shutdown -/

def startShutdown (now : ℕ) : Transport :=
  if t.shutdownInProgress then t
  else { t with shutdownInProgress := true, shutdownStarted := some now, forceSend := true }

def shutdownAcknowledged : Bool :=
  t.shutdownInProgress && decide (t.ackedByRemote = MAX)

def shutdownTimedOut (now : ℕ) : Bool :=
  t.shutdownInProgress &&
    (decide (SHUTDOWN_RETRIES ≤ t.shutdownTries) ||
      t.shutdownStarted.any fun started => ACTIVE_RETRY_TIMEOUT ≤ now - started)

/-! ### Timers -/

/-- Half the smoothed round trip, between 20 and 250 ms. -/
def sendInterval : ℕ :=
  millis (max 20 (min (if t.rttInit then (t.srtt + 1999999) / 2000000 else 250) 250))

/-- Something is to be acknowledged that the peer has not been told of. -/
def ackChanged : Bool := t.sentAckNum < t.ackNum

/-- How long after its last transmission a state is retransmitted. -/
def retransmitAfter (now : ℕ) : ℕ :=
  if now - t.lastRemoteState < ACTIVE_RETRY_TIMEOUT then t.rto + ACK_DELAY
  else HEARTBEAT_INTERVAL

/-- When a state sent at `sent` is retransmitted, as `next_deadline` has it. -/
def retransmitDeadline (sent : ℕ) : ℕ :=
  let activeUntil := t.lastRemoteState + ACTIVE_RETRY_TIMEOUT
  let activeRetry := sent + t.rto + ACK_DELAY
  if activeRetry < activeUntil then activeRetry
  else max (sent + HEARTBEAT_INTERVAL) activeUntil

/-- The deadline of a shutdown in progress. -/
def shutdownDeadline (now : ℕ) : Option ℕ :=
  if t.shutdownAcknowledged || t.shutdownTimedOut now then none
  else
    let send := if t.forceSend then now else t.lastSend + t.sendInterval
    some ((t.shutdownStarted.map fun started => min send (started + ACTIVE_RETRY_TIMEOUT)).getD
      send)

/-- The instants at which something may be due, of a session not shutting down. -/
def deadlines (now : ℕ) : List ℕ :=
  (if t.outboundStates.any fun state => state.lastSent.isNone then
    [if !t.pacingEnabled || t.allowImmediateNewState then now else t.lastSend + t.sendInterval]
  else []) ++
  (t.outboundStates.filterMap OutboundState.lastSent).map t.retransmitDeadline ++
  (if t.outboundStates.isEmpty || t.ackChanged then [t.lastSend + HEARTBEAT_INTERVAL] else []) ++
  (if t.pendingDataAck then (t.pendingAckSince.map fun since => since + ACK_DELAY).toList else [])

/-- `next_deadline`: the earliest instant at which `tick` may have something to send. -/
def nextDeadline (now : ℕ) : Option ℕ :=
  if t.shutdownInProgress then t.shutdownDeadline now
  else if t.forceSend || (t.ackChanged && decide (t.ackNum = MAX)) then some now
  else (t.deadlines now).min?

/-! ### Sending -/

/-- Only the newest of the unsent states is kept. -/
def dropStaleUnsent : Transport :=
  match (t.outboundStates.filter fun state => state.lastSent.isNone).getLast? with
  | none => t
  | some latest =>
    { t with
      outboundStates := t.outboundStates.filter fun state =>
        state.lastSent.isSome || state.newNum = latest.newNum }

def unsentIndex : Option ℕ :=
  t.outboundStates.findIdx? fun state => state.lastSent.isNone

def unsentDue (now : ℕ) : Bool :=
  t.unsentIndex.isSome &&
    (!t.pacingEnabled || t.allowImmediateNewState || decide (t.sendInterval ≤ now - t.lastSend))

/-- The last index at which a list meets a test. -/
def rposition {α : Type} (p : α → Bool) (xs : List α) : Option ℕ :=
  (xs.reverse.findIdx? p).map fun i => xs.length - 1 - i

def retransmitIndex (now : ℕ) : Option ℕ :=
  rposition (fun state => state.lastSent.any fun sent => t.retransmitAfter now ≤ now - sent)
    t.outboundStates

def heartbeatDue (now : ℕ) : Bool :=
  t.outboundStates.isEmpty && decide (HEARTBEAT_INTERVAL ≤ now - t.lastSend)

def delayedAckDue (now : ℕ) : Bool :=
  t.pendingDataAck && t.pendingAckSince.any fun since => ACK_DELAY ≤ now - since

def periodicAckDue (now : ℕ) : Bool :=
  t.ackChanged && decide (HEARTBEAT_INTERVAL ≤ now - t.lastSend)

def urgentShutdownAck : Bool := t.ackChanged && decide (t.ackNum = MAX)

def ackDue (now : ℕ) : Bool :=
  t.delayedAckDue now || t.periodicAckDue now || t.urgentShutdownAck

def shutdownDue (now : ℕ) : Bool :=
  t.shutdownInProgress && !t.shutdownAcknowledged && !t.shutdownTimedOut now &&
    (t.forceSend || decide (t.sendInterval ≤ now - t.lastSend))

/-- Whether `tick` has something to send, once stale unsent states are gone. -/
def tickDue (now : ℕ) : Bool :=
  (t.unsentDue now || t.ackDue now || (t.retransmitIndex now).isSome || t.heartbeatDue now ||
    t.forceSend || t.shutdownDue now) &&
  !(t.shutdownInProgress && !t.shutdownDue now)

/-- The index of the queued state that `tick` sends, if it sends one. -/
def sendIndex (now : ℕ) : Option ℕ :=
  (if t.unsentDue now || t.ackDue now || t.forceSend then t.unsentIndex else none).or
    (t.retransmitIndex now)

/-- The queued state at an index is marked as sent. -/
def markSent (now index : ℕ) : Transport :=
  { t with
    allowImmediateNewState :=
      t.allowImmediateNewState &&
        (t.outboundStates[index]?.any fun state => state.lastSent.isSome)
    outboundStates :=
      t.outboundStates.modify index fun state => { state with lastSent := some now } }

/-- What `tick` sends: the numbers and the diff of the instruction. -/
def chooseSend (now : ℕ) : (ℕ × ℕ × List UInt8) × Transport :=
  if t.shutdownInProgress then
    ((t.outboundStates.getLast?.map fun state => (state.oldNum, MAX, state.diff)).getD
        (t.ackedByRemote, MAX, []),
      { t with sentNum := MAX, shutdownTries := min (t.shutdownTries + 1) 255 })
  else
    match (t.sendIndex now).bind fun index => (t.outboundStates[index]?).map (index, ·) with
    | some (index, state) => ((state.oldNum, state.newNum, state.diff), t.markSent now index)
    | none =>
      (((t.outboundStates.getLast?.map OutboundState.newNum).getD t.ackedByRemote,
          nextNum t.sentNum, []),
        { t with sentNum := nextNum t.sentNum })

/-- What the peer may discard: nothing a queued state is built on. -/
def throwaway : ℕ :=
  ((t.outboundStates.map OutboundState.oldNum).min?.map (min t.localThrowaway)).getD
    t.localThrowaway

/-- Notes when a state was last sent. -/
def recordSentStateTime (stateNum sentAt : ℕ) : Transport :=
  { t with
    sentStateTimes :=
      if t.sentStateTimes.any fun x => x.1 = stateNum then
        t.sentStateTimes.map fun x => if x.1 = stateNum then (x.1, sentAt) else x
      else pushCapped t.sentStateTimes (stateNum, sentAt) }

/-- What a `tick` came to. -/
inductive TickResult where
  /-- Nothing was due. -/
  | idle
  /-- The instruction was too large to send. -/
  | tooLarge
  /-- The key was used up. -/
  | exhausted
  /-- The instruction went out. -/
  | sent (instruction : Instruction)

/-- The instruction that carries what was chosen; acknowledgements go with it. -/
def instruct (choice : ℕ × ℕ × List UInt8) : Instruction × Transport :=
  (⟨choice.1, choice.2.1, t.ackNum, t.throwaway, choice.2.2⟩,
    { t with
      pendingDataAck := false
      pendingAckSince := none
      counterpartyShutdownAckSent :=
        t.counterpartyShutdownAckSent || decide (t.ackNum = MAX)
      sentAckNum := t.ackNum })

/-- Puts an instruction on the wire, if it can be. -/
def transmit (wire : Wire) (now : ℕ) (ti : Instruction) : TickResult × Transport :=
  if wire.tooLarge ti then
    (.tooLarge, { t with outboundInstructionTooLarge := true, lastSend := now })
  else if wire.exhausted ti then (.exhausted, { t with cryptoExhausted := true, lastSend := now })
  else (.sent ti, { t.recordSentStateTime ti.newNum now with lastSend := now })

/-- `tick`: the next instruction, if something is due. -/
def tick (wire : Wire) (now : ℕ) : TickResult × Transport :=
  let t := t.dropStaleUnsent
  if t.tickDue now then
    let (choice, t') := chooseSend t now
    let (ti, t'') := { t' with forceSend := false }.instruct choice
    t''.transmit wire now ti
  else (.idle, t)

/-! ### Receiving -/

/-- A datagram that opened in order: contact with the peer. -/
def contact (now : ℕ) : Transport := { t with lastRecv := now }

/-- A round-trip sample from a timestamp reply. -/
def updateRtt (rttMs : ℕ) : Transport :=
  if 5000 ≤ rttMs then t
  else
    let rtt := millis rttMs
    let rttvar :=
      if t.rttInit then (t.rttvar * 3 + (max t.srtt rtt - min t.srtt rtt)) / 4 else rtt / 2
    let srtt := if t.rttInit then (t.srtt * 7 + rtt) / 8 else rtt
    { t with
      srtt := srtt
      rttvar := rttvar
      rttInit := true
      rto := max MIN_RTO (min (srtt + rttvar * 4) MAX_RTO) }

/-- Looks up an acknowledged state among those sent; older ones are forgotten. -/
def processRoundtripAck (ackNum : ℕ) : Bool × Transport :=
  let matched := t.sentStateTimes.findIdx? fun x => x.1 = ackNum
  let times := t.sentStateTimes.drop (matched.getD 0)
  (matched.isSome,
    { t with
      sentStateTimes := times
      lastRoundtripSuccess := (times.head?.map Prod.snd).getD t.lastRoundtripSuccess })

/-- The peer acknowledges a state: it is the base now, and what is older is dropped. After an
overflow of the queue, so is everything built on an older base. -/
def advanceAck (ackNum : ℕ) : Transport :=
  let rest := t.outboundStates.filter fun state => ackNum < state.newNum
  let t := { t with
    ackedByRemote := ackNum
    localThrowaway := ackNum
    outboundStates := rest
    allowImmediateNewState := t.allowImmediateNewState || rest.isEmpty }
  if t.outboundOverflowed then
    let kept := rest.filter fun state => ackNum ≤ state.oldNum
    { t with
      outboundStates := kept
      rebaseRequired := decide (kept.length < rest.length)
      outboundOverflowed := false }
  else t

/-- The acknowledgement an instruction carries. -/
def processAck (ackNum : ℕ) : Transport :=
  let (known, t') := t.processRoundtripAck ackNum
  if known && decide (t'.ackedByRemote < ackNum) && decide (ackNum ≤ t'.sentNum) then
    t'.advanceAck ackNum
  else t'

/-- The peer no longer needs states below a watermark. -/
def processThrowaway (throwawayNum : ℕ) : Transport :=
  if t.throwawayNum < throwawayNum then
    { t with
      throwawayNum := throwawayNum
      receivedNums := t.receivedNums.filter fun n => throwawayNum ≤ n }
  else t

/-- A state received becomes known, and is acknowledged if it is the newest. -/
def acceptState (now : ℕ) (ti : Instruction) : ReceivedStateDiff × Transport :=
  (⟨ti.oldNum, ti.newNum, ti.ackNum, t.throwawayNum, ti.diff⟩,
    { t with
      receivedNums := t.receivedNums ++ [ti.newNum]
      receivedAuthenticated := true
      ackNum := max t.ackNum ti.newNum
      lastRemoteState := if t.ackNum < ti.newNum then now else t.lastRemoteState
      pendingAckSince :=
        if ti.diff ≠ [] ∨ ti.newNum = MAX then some (t.pendingAckSince.getD now)
        else t.pendingAckSince
      pendingDataAck := t.pendingDataAck || decide (ti.diff ≠ [] ∨ ti.newNum = MAX) })

/-- A complete instruction from the peer: the state it brings, if that is new, can be built
and is not held off. -/
def receive (now : ℕ) (ti : Instruction) : Option ReceivedStateDiff × Transport :=
  let t := t.processAck ti.ackNum
  if ti.newNum ∈ t.receivedNums then (none, t)
  else if ti.oldNum ∉ t.receivedNums then (none, t)
  else
    let t := t.processThrowaway ti.throwawayNum
    if RECEIVED_STATE_CAP < t.receivedNums.length then
      if t.receiverQuenchUntil.any fun deadline => now < deadline then (none, t)
      else
        let (state, t') :=
          { t with receiverQuenchUntil := some (now + RECEIVER_QUENCH_INTERVAL) }.acceptState
            now ti
        (some state, t')
    else
      let (state, t') := t.acceptState now ti
      (some state, t')

/-! ### What receiving does to the states received -/

variable (ackNum : ℕ)

private theorem advanceAck_received :
    (t.advanceAck ackNum).receivedNums = t.receivedNums ∧
      (t.advanceAck ackNum).throwawayNum = t.throwawayNum := by
  unfold advanceAck
  dsimp only
  split <;> exact ⟨rfl, rfl⟩

private theorem processAck_received :
    (t.processAck ackNum).receivedNums = t.receivedNums ∧
      (t.processAck ackNum).throwawayNum = t.throwawayNum := by
  unfold processAck processRoundtripAck
  dsimp only
  split
  · exact advanceAck_received _ ackNum
  · exact ⟨rfl, rfl⟩

@[simp] theorem processAck_receivedNums : (t.processAck ackNum).receivedNums = t.receivedNums :=
  (t.processAck_received ackNum).1

@[simp] theorem processAck_throwawayNum : (t.processAck ackNum).throwawayNum = t.throwawayNum :=
  (t.processAck_received ackNum).2

theorem processThrowaway_throwawayNum (n : ℕ) :
    (t.processThrowaway n).throwawayNum = max t.throwawayNum n := by
  rw [processThrowaway]
  split
  · next h => exact (Nat.max_eq_right (Nat.le_of_lt h)).symm
  · next h => exact (Nat.max_eq_left (Nat.le_of_not_lt h)).symm

theorem mem_processThrowaway {t : Transport} {throwaway n : ℕ}
    (h : n ∈ (t.processThrowaway throwaway).receivedNums) : n ∈ t.receivedNums := by
  rw [processThrowaway] at h
  split at h
  · exact List.mem_of_mem_filter h
  · exact h

/-- No state below the watermark is kept. -/
theorem le_of_mem_processThrowaway {t : Transport} {throwaway n : ℕ}
    (hkept : ∀ n ∈ t.receivedNums, t.throwawayNum ≤ n)
    (h : n ∈ (t.processThrowaway throwaway).receivedNums) :
    (t.processThrowaway throwaway).throwawayNum ≤ n := by
  rw [processThrowaway_throwawayNum]
  refine Nat.max_le.mpr ⟨hkept n (mem_processThrowaway h), ?_⟩
  rw [processThrowaway] at h
  split at h
  · simpa using (List.mem_filter.mp h).2
  · next hlt => exact (Nat.le_of_not_lt hlt).trans (hkept n h)

private theorem acceptState_spec (now : ℕ) (ti : Instruction) :
    (t.acceptState now ti).1 =
        ⟨ti.oldNum, ti.newNum, ti.ackNum, (t.acceptState now ti).2.throwawayNum, ti.diff⟩ ∧
      (t.acceptState now ti).2.receivedNums = t.receivedNums ++ [ti.newNum] ∧
      (t.acceptState now ti).2.throwawayNum = t.throwawayNum :=
  ⟨rfl, rfl, rfl⟩

/-- An instruction is refused, or the state it brings is built on one received before. -/
theorem receive_cases (now : ℕ) (ti : Instruction) :
    t.receive now ti = (none, t.processAck ti.ackNum) ∨
    t.receive now ti = (none, (t.processAck ti.ackNum).processThrowaway ti.throwawayNum) ∨
    ∃ t', ti.oldNum ∈ t.receivedNums ∧
      t.receive now ti =
        (some ⟨ti.oldNum, ti.newNum, ti.ackNum, t'.throwawayNum, ti.diff⟩, t') ∧
      t'.receivedNums =
        ((t.processAck ti.ackNum).processThrowaway ti.throwawayNum).receivedNums ++ [ti.newNum] ∧
      t'.throwawayNum =
        ((t.processAck ti.ackNum).processThrowaway ti.throwawayNum).throwawayNum := by
  unfold receive
  simp only
  split
  · exact .inl rfl
  split
  · exact .inl rfl
  next hnew hold =>
  have hold' : ti.oldNum ∈ t.receivedNums := by simpa using hold
  split
  · split
    · exact .inr (.inl rfl)
    · obtain ⟨hstate, hnums, hthrow⟩ := acceptState_spec
        { (t.processAck ti.ackNum).processThrowaway ti.throwawayNum with
          receiverQuenchUntil := some (now + RECEIVER_QUENCH_INTERVAL) } now ti
      exact .inr (.inr ⟨_, hold', Prod.ext (congrArg some hstate) rfl, hnums, hthrow⟩)
  · obtain ⟨hstate, hnums, hthrow⟩ := acceptState_spec
      ((t.processAck ti.ackNum).processThrowaway ti.throwawayNum) now ti
    exact .inr (.inr ⟨_, hold', Prod.ext (congrArg some hstate) rfl, hnums, hthrow⟩)

end Transport

end Zetta.Moshcatty
