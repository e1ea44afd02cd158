import Mathlib
import Zetta.Lib.Wire

/-!
# The user stream

What the client has to tell the server is an append-only log of events. A diff between two of
its states is the suffix the older one lacks, as a protobuf message of one instruction per
event; adjacent bytes share an instruction.

* `UserInstruction.fields` lists the fields of an instruction in the order they are written.
* `pushEvent` adds one event to the instructions of a diff; `instructions` is the fold of it.
* Every instruction of a diff carries one thing (`Carried`): a run of bytes, or one event of
  another kind. That is what a decoder of the diff needs to know (`instructions_carried`).
-/

namespace Zetta.MoshRs

open Wire

/-! ### Events -/

/-- One thing the user did, or one thing the client announces. -/
inductive UserEvent where
  | byte (b : UInt8)
  | resize (width height : Int32)
  | keepAlive (intervalMs : UInt32)
  | terminalResponse (bytes : List UInt8)
  | scrollbackRequest (budgetKib : UInt32)
  | clipboardVersion (version : UInt32)
  | agentHello (version : UInt32)
  | agentResponse (connectionId requestId : UInt64) (frame : List UInt8) (closed : Bool)
  deriving DecidableEq

/-! ### Messages -/

/-- A response of the agent extension. -/
structure AgentResponseMessage where
  connectionId : Option UInt64
  requestId : Option UInt64
  frame : Option (List UInt8)
  closed : Option Bool

/-- The agent extension of a user instruction: a hello, or a response. -/
structure AgentUserInstruction where
  hello : Option (Option UInt32)
  response : Option AgentResponseMessage

/-- One user instruction. -/
structure UserInstruction where
  keystroke : Option (Option (List UInt8)) := none
  resize : Option (Option Int32 × Option Int32) := none
  zoshKeepaliveMs : Option UInt32 := none
  terminalResponse : Option (List UInt8) := none
  zoshScrollbackKib : Option UInt32 := none
  agent : Option AgentUserInstruction := none
  clipboardVersion : Option UInt32 := none

/-- A field that is written if its value is there. -/
def optional {α : Type} (field : ℕ) (payload : α → Payload) (value : Option α) : List Field :=
  (value.map fun a => (field, payload a)).toList

/-- A nested message. -/
def message (fields : List Field) : Payload := .bytes (encodeFields fields)

def uint32 (n : UInt32) : Payload := .varint n.toNat
def uint64 (n : UInt64) : Payload := .varint n.toNat
def bool (b : Bool) : Payload := .varint b.toNat

/-- A signed number is written as the 64-bit number with the same low bits. -/
def int32 (n : Int32) : Payload := .varint (n.toInt % 2 ^ 64).toNat

def AgentResponseMessage.fields (m : AgentResponseMessage) : List Field :=
  optional 1 uint64 m.connectionId ++ optional 2 uint64 m.requestId ++
    optional 3 .bytes m.frame ++ optional 4 bool m.closed

def AgentUserInstruction.fields (m : AgentUserInstruction) : List Field :=
  optional 1 (fun version => message (optional 1 uint32 version)) m.hello ++
    optional 2 (fun response => message response.fields) m.response

def UserInstruction.fields (i : UserInstruction) : List Field :=
  optional 2 (fun keys => message (optional 4 .bytes keys)) i.keystroke ++
    optional 3 (fun size => message (optional 5 int32 size.1 ++ optional 6 int32 size.2)) i.resize ++
    optional 20 uint32 i.zoshKeepaliveMs ++ optional 21 .bytes i.terminalResponse ++
    optional 22 uint32 i.zoshScrollbackKib ++
    optional 23 (fun agent => message agent.fields) i.agent ++
    optional 24 uint32 i.clipboardVersion

/-- `UserMessage`: the instructions, each in field 1. -/
def encodeMessage (instructions : List UserInstruction) : List UInt8 :=
  encodeFields (instructions.map fun i => (1, message i.fields))

/-! ### Diffs -/

/-- The instruction of a run of bytes. -/
def keystrokes (keys : List UInt8) : UserInstruction := { keystroke := some (some keys) }

/-- The run that the next byte joins. -/
def lastKeys (instructions : List UserInstruction) : Option (UserInstruction × List UInt8) :=
  instructions.getLast?.bind fun last => last.keystroke.join.map (last, ·)

/-- Adds one event to the instructions of a diff. -/
def pushEvent (instructions : List UserInstruction) : UserEvent → List UserInstruction
  | .byte b =>
    match lastKeys instructions with
    | some (last, keys) =>
      instructions.dropLast ++ [{ last with keystroke := some (some (keys ++ [b])) }]
    | none => instructions ++ [keystrokes [b]]
  | .resize width height => instructions ++ [{ resize := some (some width, some height) }]
  | .keepAlive intervalMs => instructions ++ [{ zoshKeepaliveMs := some intervalMs }]
  | .terminalResponse bytes => instructions ++ [{ terminalResponse := some bytes }]
  | .scrollbackRequest budgetKib => instructions ++ [{ zoshScrollbackKib := some budgetKib }]
  | .clipboardVersion version => instructions ++ [{ clipboardVersion := some version }]
  | .agentHello version => instructions ++ [{ agent := some ⟨some (some version), none⟩ }]
  | .agentResponse connectionId requestId frame closed =>
    instructions ++
      [{ agent := some ⟨none, some ⟨some connectionId, some requestId, some frame, some closed⟩⟩ }]

/-- The instructions of a diff with the given events. -/
def instructions (events : List UserEvent) : List UserInstruction := events.foldl pushEvent []

/-- The events on the wire. -/
def encodeEvents (events : List UserEvent) : List UInt8 := encodeMessage (instructions events)

/-- `diff_from`: the events the older log does not have, if it is a prefix. -/
def diffFrom (events existing : List UserEvent) : Option (List UInt8) :=
  if existing <+: events then some (encodeEvents (events.drop existing.length)) else none

/-! ### What an instruction carries -/

/-- What one instruction of a diff carries: a run of bytes, or an event of another kind. -/
inductive Carried where
  | keys (keys : List UInt8) (nonempty : keys ≠ [])
  | event (event : UserEvent) (other : ∀ b, event ≠ .byte b)

namespace Carried

/-- The instruction that carries it. -/
def instruction : Carried → UserInstruction
  | keys ks _ => keystrokes ks
  | event e _ => (pushEvent [] e).headD {}

/-- The events it stands for. -/
def events : Carried → List UserEvent
  | keys ks _ => ks.map .byte
  | event e _ => [e]

end Carried

variable {e : UserEvent}

private theorem lastKeys_event (h : ∀ b, e ≠ .byte b) (instructions : List UserInstruction) :
    lastKeys (instructions ++ [(Carried.event e h).instruction]) = none := by
  cases e with
  | byte b => exact absurd rfl (h b)
  | _ => simp [lastKeys, Carried.instruction, pushEvent]

private theorem pushEvent_event (h : ∀ b, e ≠ .byte b) (instructions : List UserInstruction) :
    pushEvent instructions e = instructions ++ [(Carried.event e h).instruction] := by
  cases e with
  | byte b => exact absurd rfl (h b)
  | _ => rfl

/-- **The instructions of a diff** carry its events, in order, each instruction one run of bytes
or one event. -/
theorem instructions_carried (events : List UserEvent) :
    ∃ cs : List Carried, instructions events = cs.map Carried.instruction ∧
      cs.flatMap Carried.events = events := by
  induction events using List.reverseRecOn with
  | nil => exact ⟨[], rfl, rfl⟩
  | append_singleton events e ih =>
    obtain ⟨cs, hcs, hevents⟩ := ih
    rw [instructions, List.foldl_append, List.foldl_cons, List.foldl_nil, ← instructions, hcs]
    by_cases hbyte : ∃ b, e = .byte b
    · obtain ⟨b, rfl⟩ := hbyte
      rcases List.eq_nil_or_concat cs with rfl | ⟨cs, c, rfl⟩
      · exact ⟨[.keys [b] (by simp)], rfl, by simp [Carried.events, ← hevents]⟩
      · cases c with
        | keys ks hne =>
          refine ⟨cs ++ [.keys (ks ++ [b]) (by simp)], ?_, ?_⟩
          · simp [pushEvent, lastKeys, Carried.instruction, keystrokes]
          · simp [Carried.events, ← hevents]
        | event e h =>
          refine ⟨cs ++ [.event e h] ++ [.keys [b] (by simp)], ?_, ?_⟩
          · rw [List.concat_eq_append, List.map_append, List.map_singleton, pushEvent,
              lastKeys_event]
            simp [Carried.instruction]
          · simp [Carried.events, ← hevents]
    · have hother : ∀ b, e ≠ .byte b := fun b heq => hbyte ⟨b, heq⟩
      refine ⟨cs ++ [.event e hother], ?_, by simp [Carried.events, hevents]⟩
      rw [pushEvent_event hother, List.map_append, List.map_singleton]

end Zetta.MoshRs
