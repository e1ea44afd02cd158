import Zetta.Lib.OrdMap
import Zetta.MoshRs.UserStream
import Zetta.Moshcatty.Transport

/-!
# The server's view of the user stream

A diff of the client is relative to a state that may be far behind what the program has been
given; `UserStreamTracker` keeps, for every state that may still serve as a base, how many
events its log has, and hands out only events beyond those handed out before.

* **Decoding** (`decodeEvents`): one pass over the diff that is strict about malformed input.
  Keystrokes take precedence over a resize in one instruction; the terminal response and the
  agent extension follow.
* **Announcements** (`announcements`): a second, lenient pass over the same bytes for the
  settings that are no input.
* **Tracking** (`accept`): the events of a state that are past the committed prefix, if it is
  the newest state so far.
-/

namespace Zetta.Zosh.Server

open Wire Moshcatty

/-! ### Fields -/

/-- `UserMessage.instruction`. -/
def INSTRUCTION_FIELD : ℕ := 1
def KEEP_ALIVE_FIELD : ℕ := 20
def TERMINAL_RESPONSE_FIELD : ℕ := 21
def SCROLLBACK_FIELD : ℕ := 22
def AGENT_FIELD : ℕ := 23
def CLIPBOARD_FIELD : ℕ := 24

/-- The largest agent frame a response may carry. -/
def MAX_AGENT_FRAME : ℕ := 256 * 1024

/-! ### Events -/

/-- A response of the agent extension. -/
structure AgentResponse where
  connectionId : ℕ
  requestId : ℕ
  frame : List UInt8
  closed : Bool
  deriving DecidableEq

/-- One event the session acts on. -/
inductive UserEvent where
  | byte (b : UInt8)
  | resize (cols rows : ℕ)
  | terminalResponse (bytes : List UInt8)
  | agentHello (version : ℕ)
  | agentResponse (response : AgentResponse)
  deriving DecidableEq

/-! ### Decoding -/

/-- A nested message: its bytes, read with a step of their own. -/
def nested {β : Type} (step : β → ℕ × ℕ → List UInt8 → Except String (β × List UInt8)) (b : β)
    (rest : List UInt8) : Except String (β × List UInt8) := do
  let (bytes, rest) ← readBytes rest
  let b ← decodeFields step bytes b
  .ok (b, rest)

/-- A field that means nothing here. -/
def skipped {β : Type} (b : β) (wire : ℕ) (rest : List UInt8) : Except String (β × List UInt8) :=
  (skipField rest wire).map (b, ·)

/-- The keys of a keystroke are appended to those before. -/
def decodeKeystroke : List UInt8 → List UInt8 → Except String (List UInt8 × List UInt8) :=
  nested fun keys tag rest =>
    if tag = (4, WIRE_BYTES) then (readBytes rest).map fun x => (keys ++ x.1, x.2)
    else skipped keys tag.2 rest

/-- A number cast to 32 bits. -/
def toInt32 (n : ℕ) : ℤ := (n : ℤ).bmod (2 ^ 32)

/-- Width and height of a resize. -/
def decodeResize : ℤ × ℤ → List UInt8 → Except String ((ℤ × ℤ) × List UInt8) :=
  nested fun size tag rest =>
    if tag = (5, WIRE_VARINT) then (readVarint rest).map fun x => ((toInt32 x.1, size.2), x.2)
    else if tag = (6, WIRE_VARINT) then (readVarint rest).map fun x => ((size.1, toInt32 x.1), x.2)
    else skipped size tag.2 rest

/-- What has been read of an agent response. -/
structure AgentResponseFields where
  connectionId : Option ℕ := none
  requestId : Option ℕ := none
  frame : List UInt8 := []
  closed : Bool := false

/-- One field of an agent response. -/
def agentResponseField (r : AgentResponseFields) (tag : ℕ × ℕ) (rest : List UInt8) :
    Except String (AgentResponseFields × List UInt8) :=
  if tag = (1, WIRE_VARINT) then
    (readVarint rest).map fun x => ({ r with connectionId := some x.1 }, x.2)
  else if tag = (2, WIRE_VARINT) then
    (readVarint rest).map fun x => ({ r with requestId := some x.1 }, x.2)
  else if tag = (3, WIRE_BYTES) then
    (readBytes rest).bind fun x =>
      if MAX_AGENT_FRAME < x.1.length then
        .error s!"SSH-agent response exceeds {MAX_AGENT_FRAME} bytes"
      else .ok ({ r with frame := x.1 }, x.2)
  else if tag = (4, WIRE_VARINT) then
    (readVarint rest).map fun x => ({ r with closed := x.1 != 0 }, x.2)
  else skipped r tag.2 rest

/-- An agent response, which names its connection and its request. -/
def decodeAgentResponse (bytes : List UInt8) : Except String AgentResponse := do
  let r ← decodeFields agentResponseField bytes {}
  match r.connectionId, r.requestId with
  | none, _ => .error "agent response lacks connection ID"
  | some _, none => .error "agent response lacks request ID"
  | some connectionId, some requestId => .ok ⟨connectionId, requestId, r.frame, r.closed⟩

/-- The version of an agent hello, if it has one. -/
def decodeAgentHello (bytes : List UInt8) : Except String (Option ℕ) :=
  decodeFields (fun version tag rest =>
    if tag = (1, WIRE_VARINT) then
      (readVarint rest).bind fun x =>
        if x.1 < 2 ^ 32 then .ok (some x.1, x.2)
        else .error "out of range integral type conversion attempted"
    else skipped version tag.2 rest) bytes none

/-- The agent extension: hello and response. -/
def decodeAgent (bytes : List UInt8) : Except String (Option ℕ × Option AgentResponse) :=
  decodeFields (fun agent tag rest =>
    if tag = (1, WIRE_BYTES) then do
      let (hello, rest) ← readBytes rest
      let version ← decodeAgentHello hello
      .ok ((version, agent.2), rest)
    else if tag = (2, WIRE_BYTES) then do
      let (bytes, rest) ← readBytes rest
      let response ← decodeAgentResponse bytes
      .ok ((agent.1, some response), rest)
    else skipped agent tag.2 rest) bytes (none, none)

/-- What has been read of an instruction. -/
structure DecodedInstruction where
  keys : List UInt8 := []
  size : ℤ × ℤ := (0, 0)
  terminalResponse : Option (List UInt8) := none
  agentHello : Option ℕ := none
  agentResponse : Option AgentResponse := none

/-- One field of an instruction. -/
def instructionField (d : DecodedInstruction) (tag : ℕ × ℕ) (rest : List UInt8) :
    Except String (DecodedInstruction × List UInt8) :=
  if tag = (2, WIRE_BYTES) then
    (decodeKeystroke d.keys rest).map fun x => ({ d with keys := x.1 }, x.2)
  else if tag = (3, WIRE_BYTES) then
    (decodeResize d.size rest).map fun x => ({ d with size := x.1 }, x.2)
  else if tag = (TERMINAL_RESPONSE_FIELD, WIRE_BYTES) then
    (readBytes rest).map fun x => ({ d with terminalResponse := some x.1 }, x.2)
  else if tag = (AGENT_FIELD, WIRE_BYTES) then do
    let (bytes, rest) ← readBytes rest
    let agent ← decodeAgent bytes
    .ok ({ d with agentHello := agent.1, agentResponse := agent.2 }, rest)
  else skipped d tag.2 rest

/-- One instruction. -/
def decodeInstruction (bytes : List UInt8) : Except String DecodedInstruction :=
  decodeFields instructionField bytes {}

/-- A dimension as the 16 bits a terminal has. -/
def dimension (name : String) (n : ℤ) : Except String ℕ :=
  if n < 2 ^ 16 then .ok n.toNat else .error s!"invalid terminal {name} {n}"

namespace DecodedInstruction

/-- The keystrokes of an instruction, or else its resize. -/
def input (d : DecodedInstruction) : Except String (List UserEvent) :=
  if d.keys ≠ [] then .ok (d.keys.map .byte)
  else if 0 < d.size.1 ∧ 0 < d.size.2 then do
    let cols ← dimension "width" d.size.1
    let rows ← dimension "height" d.size.2
    .ok [.resize cols rows]
  else .ok []

/-- The events of an instruction. -/
def events (d : DecodedInstruction) : Except String (List UserEvent) := do
  let input ← d.input
  .ok (input ++ ((d.terminalResponse.filter (· ≠ [])).map .terminalResponse).toList ++
    (d.agentHello.map .agentHello).toList ++ (d.agentResponse.map .agentResponse).toList)

end DecodedInstruction

/-- The events of a diff. -/
def decodeEvents (diff : List UInt8) : Except String (List UserEvent) :=
  decodeFields (fun events tag rest =>
    if tag = (INSTRUCTION_FIELD, WIRE_BYTES) then do
      let (bytes, rest) ← readBytes rest
      let decoded ← decodeInstruction bytes
      let more ← decoded.events
      .ok (events ++ more, rest)
    else skipped events tag.2 rest) diff []

/-! ### Announcements -/

/-- The settings a diff announces. -/
structure Announcements where
  keepAliveMs : Option ℕ := none
  scrollbackKib : Option ℕ := none
  clipboardVersion : Option ℕ := none

/-- Reads a number without asking that it fits: higher bits are dropped. -/
def readVarintLenientFrom (index value : ℕ) : List UInt8 → Option (ℕ × List UInt8)
  | [] => none
  | b :: rest =>
    if 10 ≤ index then none
    else
      let value := (value + b.toNat % 128 * 128 ^ index) % 2 ^ 64
      if b.toNat < 128 then some (value, rest) else readVarintLenientFrom (index + 1) value rest

def readVarintLenient (bytes : List UInt8) : Option (ℕ × List UInt8) :=
  readVarintLenientFrom 0 0 bytes

def readTagLenient (bytes : List UInt8) : Option ((ℕ × ℕ) × List UInt8) :=
  (readVarintLenient bytes).map fun x => ((x.1 / 8, x.1 % 8), x.2)

def readBytesLenient (bytes : List UInt8) : Option (List UInt8 × List UInt8) :=
  (readVarintLenient bytes).bind fun x =>
    if x.1 ≤ x.2.length then some (x.2.take x.1, x.2.drop x.1) else none

def advanceLenient (bytes : List UInt8) (count : ℕ) : Option (List UInt8) :=
  if count ≤ bytes.length then some (bytes.drop count) else none

def skipFieldLenient (bytes : List UInt8) (wire : ℕ) : Option (List UInt8) :=
  if wire = WIRE_VARINT then (readVarintLenient bytes).map Prod.snd
  else if wire = WIRE_FIXED64 then advanceLenient bytes 8
  else if wire = WIRE_BYTES then (readBytesLenient bytes).map Prod.snd
  else if wire = WIRE_FIXED32 then advanceLenient bytes 4
  else none

/-- Reads tags until one cannot be read; `step` reads what follows a tag, or stops. -/
def walk {β : Type} (step : β → ℕ × ℕ → List UInt8 → β × Option (List UInt8)) :
    ℕ → List UInt8 → β → β
  | 0, _, b => b
  | fuel + 1, bytes, b =>
    match readTagLenient bytes with
    | none => b
    | some (tag, rest) =>
      match step b tag rest with
      | (b, none) => b
      | (b, some rest) => walk step fuel rest b

/-- A setting of 32 bits; one that cannot be read takes back what was announced before. -/
def readSetting (rest : List UInt8) : Option ℕ × Option (List UInt8) :=
  match readVarintLenient rest with
  | none => (none, some rest)
  | some (n, rest) => (if n < 2 ^ 32 then some n else none, some rest)

/-- The settings one instruction announces. -/
def instructionAnnouncements (bytes : List UInt8) : Announcements :=
  walk (fun found tag rest =>
    if tag = (KEEP_ALIVE_FIELD, WIRE_VARINT) then
      ({ found with keepAliveMs := (readSetting rest).1 }, (readSetting rest).2)
    else if tag = (SCROLLBACK_FIELD, WIRE_VARINT) then
      ({ found with scrollbackKib := (readSetting rest).1 }, (readSetting rest).2)
    else if tag = (CLIPBOARD_FIELD, WIRE_VARINT) then
      ({ found with clipboardVersion := (readSetting rest).1 }, (readSetting rest).2)
    else (found, skipFieldLenient rest tag.2)) bytes.length bytes {}

/-- The settings a diff announces, the newest of each. -/
def announcements (diff : List UInt8) : Announcements :=
  walk (fun found tag rest =>
    if tag = (INSTRUCTION_FIELD, WIRE_BYTES) then
      match readBytesLenient rest with
      | none => (found, none)
      | some (instruction, rest) =>
        let announced := instructionAnnouncements instruction
        (⟨announced.keepAliveMs <|> found.keepAliveMs,
          announced.scrollbackKib <|> found.scrollbackKib,
          announced.clipboardVersion <|> found.clipboardVersion⟩, some rest)
    else (found, skipFieldLenient rest tag.2)) diff.length diff {}

/-! ### Tracking -/

/-- What an accepted state brings. -/
structure AcceptedInput where
  frame : ℕ
  events : List UserEvent
  announced : Announcements

/-- What is kept of a state: how many events its log has, and those not committed yet. -/
structure StreamMeta where
  totalEvents : ℕ
  pending : List UserEvent

/-- The states that may serve as a base, the newest state, and how many events are committed. -/
structure UserStreamTracker where
  states : OrdMap ℕ StreamMeta
  latestState : ℕ
  committedEvents : ℕ

namespace UserStreamTracker

def new : UserStreamTracker where
  states := .insert .empty 0 ⟨0, []⟩
  latestState := 0
  committedEvents := 0

/-- The events of a state that are not committed yet. -/
def uncommitted (t : UserStreamTracker) (base : StreamMeta) (delta : List UserEvent) :
    Except String (List UserEvent) :=
  if t.committedEvents ≤ base.totalEvents then
    if base.pending.length = base.totalEvents - t.committedEvents then .ok (base.pending ++ delta)
    else .error "Mosh UserStream state cache lost its uncommitted prefix"
  else .ok (delta.drop (t.committedEvents - base.totalEvents))

/-- A state is remembered, and those the peer has retired are forgotten. -/
def remember (t : UserStreamTracker) (newNum throwawayNum : ℕ) (entry : StreamMeta) :
    UserStreamTracker :=
  { t with
    states := (t.states.insert newNum entry).retain fun num =>
      throwawayNum ≤ num || num = newNum }

/-- The newest state is committed: what every state holds beyond the committed prefix shrinks. -/
def commit (t : UserStreamTracker) (newNum totalEvents : ℕ) : UserStreamTracker where
  states := t.states.mapValues fun entry =>
    if entry.totalEvents ≤ totalEvents then { entry with pending := [] }
    else { entry with pending := entry.pending.drop (totalEvents - t.committedEvents) }
  latestState := newNum
  committedEvents := totalEvents

/-- `accept`: one complete state. -/
def accept (t : UserStreamTracker) (state : ReceivedStateDiff) :
    Except String (AcceptedInput × UserStreamTracker) :=
  if state.newNum = MAX then .ok (⟨state.newNum, [], {}⟩, t)
  else
    match t.states.get? state.oldNum with
    | none => .error s!"Mosh UserStream references unknown base state {state.oldNum}"
    | some base => do
      let delta ← (decodeEvents state.diff).mapError ("decoding Mosh UserStream diff: " ++ ·)
      let totalEvents := base.totalEvents + delta.length
      if 2 ^ 64 ≤ totalEvents then .error "Mosh UserStream event count overflow"
      let pending ← t.uncommitted base delta
      let remembered := t.remember state.newNum state.throwawayNum ⟨totalEvents, pending⟩
      if state.newNum ≤ t.latestState then
        .ok (⟨state.newNum, [], announcements state.diff⟩, remembered)
      else if totalEvents < t.committedEvents then
        .error (s!"newer Mosh UserStream state {state.newNum} regressed from " ++
          s!"{t.committedEvents} committed events to {totalEvents}")
      else
        .ok (⟨state.newNum, pending, announcements state.diff⟩,
          remembered.commit state.newNum totalEvents)

end UserStreamTracker

end Zetta.Zosh.Server
