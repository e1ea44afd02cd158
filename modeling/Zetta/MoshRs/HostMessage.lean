import Mathlib
import Zetta.MoshRs.UserStream

/-!
# Host messages, as the client reads them

A diff of the server is a protobuf message of instructions. `parseHostDiff` flattens it into
the events it carries, in the order of the instructions: in each, the echo acknowledgement,
the resize, the terminal bytes, the query and the agent record.

A field that occurs more than once is merged as protobuf has it: the last number or bytes
count, and nested messages are read as one.
-/

namespace Zetta.MoshRs

open Wire

/-- What one host diff asks the client to do. Texts are their bytes. -/
inductive HostEvent where
  | bytes (bytes : List UInt8)
  | resize (width height : ℤ)
  | echoAck (num : ℕ)
  | terminalQuery (id : ℕ) (bytes : List UInt8)
  | agentReady (supported : Bool) (error : Option (List UInt8))
  | agentRequest (id connectionId : ℕ) (frame : List UInt8)
  | agentClose (id connectionId : ℕ) (error : Option (List UInt8))
  deriving DecidableEq

/-! ### Fields of a message -/

/-- The fields of a message; a field the message declares has the wire type it declares. -/
def declared (types : List Field) (fs : List Field) : Bool :=
  fs.all fun f => (types.lookup f.1).all fun type => type.wireType = f.2.wireType

/-- Reads a message with the declared fields. -/
def readMessage (types : List Field) (bytes : List UInt8) : Except String (List Field) :=
  (readFields bytes).bind fun fs =>
    if declared types fs then .ok fs else .error "invalid wire type"

/-- Declares a number, or bytes. -/
def number (field : ℕ) : Field := (field, .varint 0)
def text (field : ℕ) : Field := (field, .bytes [])

/-- The number in a field. -/
def numberOf (fs : List Field) (field : ℕ) : Option ℕ :=
  (fs.filterMap fun
    | (n, .varint v) => if n = field then some v else none
    | (_, .bytes _) => none).getLast?

/-- The byte strings in a field, in order. -/
def textsOf (fs : List Field) (field : ℕ) : List (List UInt8) :=
  fs.filterMap fun
    | (n, .bytes bs) => if n = field then some bs else none
    | (_, .varint _) => none

/-- The bytes in a field. -/
def textOf (fs : List Field) (field : ℕ) : Option (List UInt8) := (textsOf fs field).getLast?

/-- The events of a nested message, if it is there. -/
def nestedEvents (fs : List Field) (field : ℕ)
    (read : List UInt8 → Except String (List HostEvent)) : Except String (List HostEvent) :=
  if textsOf fs field = [] then .ok [] else read (textsOf fs field).flatten

/-! ### Instructions -/

def echoAckEvents (bytes : List UInt8) : Except String (List HostEvent) :=
  (readMessage [number 8] bytes).map fun fs => ((numberOf fs 8).map .echoAck).toList

/-- A 64-bit number cast to 32 bits with a sign. -/
def asInt32 (n : ℕ) : ℤ := (n : ℤ).bmod (2 ^ 32)

def resizeEvents (bytes : List UInt8) : Except String (List HostEvent) :=
  (readMessage [number 5, number 6] bytes).map fun fs =>
    match numberOf fs 5, numberOf fs 6 with
    | some width, some height => [.resize (asInt32 width) (asInt32 height)]
    | _, _ => []

def hostbytesEvents (bytes : List UInt8) : Except String (List HostEvent) :=
  (readMessage [text 4] bytes).map fun fs =>
    (((textOf fs 4).filter (· ≠ [])).map .bytes).toList

def terminalQueryEvents (bytes : List UInt8) : Except String (List HostEvent) :=
  (readMessage [number 1, text 2] bytes).map fun fs =>
    match numberOf fs 1, (textOf fs 2).filter (· ≠ []) with
    | some id, some bytes => [.terminalQuery id bytes]
    | _, _ => []

def readyEvents (bytes : List UInt8) : Except String (List HostEvent) :=
  (readMessage [number 1, text 2] bytes).map fun fs =>
    [.agentReady (((numberOf fs 1).map fun n => n != 0).getD false) (textOf fs 2)]

def requestEvents (bytes : List UInt8) : Except String (List HostEvent) :=
  (readMessage [number 1, number 2, text 3] bytes).map fun fs =>
    match numberOf fs 1, numberOf fs 2, textOf fs 3 with
    | some id, some connectionId, some frame => [.agentRequest id connectionId frame]
    | _, _, _ => []

def closeEvents (bytes : List UInt8) : Except String (List HostEvent) :=
  (readMessage [number 1, number 2, text 3] bytes).map fun fs =>
    match numberOf fs 1, numberOf fs 2 with
    | some id, some connectionId => [.agentClose id connectionId (textOf fs 3)]
    | _, _ => []

def agentEvents (bytes : List UInt8) : Except String (List HostEvent) := do
  let fs ← readMessage [text 1, text 2, text 3] bytes
  let ready ← nestedEvents fs 1 readyEvents
  let request ← nestedEvents fs 2 requestEvents
  let close ← nestedEvents fs 3 closeEvents
  .ok (ready ++ request ++ close)

/-- The events of one instruction. -/
def instructionEvents (bytes : List UInt8) : Except String (List HostEvent) := do
  let fs ← readMessage [text 2, text 3, text 7, text 20, text 21] bytes
  let echo ← nestedEvents fs 7 echoAckEvents
  let size ← nestedEvents fs 3 resizeEvents
  let host ← nestedEvents fs 2 hostbytesEvents
  let query ← nestedEvents fs 20 terminalQueryEvents
  let agent ← nestedEvents fs 21 agentEvents
  .ok (echo ++ size ++ host ++ query ++ agent)

/-- `parse_host_diff`: the events of a diff. -/
def parseHostDiff (diff : List UInt8) : Except String (List HostEvent) := do
  let fs ← readMessage [text 1] diff
  let events ← (textsOf fs 1).mapM instructionEvents
  .ok events.flatten

/-! ### Messages that were written are read -/

/-- A message that was written is read as the fields it was written from. -/
theorem readMessage_encodeFields {types fs : List Field}
    (hlen : (encodeFields fs).length < 2 ^ 64) (hnum : ∀ f ∈ fs, f.1 < 2 ^ 61)
    (hval : ∀ n v, (n, Payload.varint v) ∈ fs → v < 2 ^ 64) (htypes : declared types fs = true) :
    readMessage types (encodeFields fs) = .ok fs := by
  rw [readMessage, readFields_encodeFields (valid_of_length hlen hnum hval)]
  exact if_pos htypes

/-- Steps that all succeed succeed as a whole. -/
theorem mapM_eq_ok {α β : Type} {f : α → Except String β} {as : List α} {bs : List β}
    (h : as.map f = bs.map Except.ok) : as.mapM f = .ok bs := by
  induction as generalizing bs with
  | nil =>
    obtain rfl : bs = [] := List.map_eq_nil_iff.mp h.symm
    rfl
  | cons a as ih =>
    obtain ⟨b, bs, rfl, hb, hbs⟩ := List.map_eq_cons_iff.mp h.symm
    rw [List.mapM_cons, ← hb, ih hbs.symm]
    rfl

end Zetta.MoshRs
