import Zetta.Lib.BigEndian
import Zetta.Lib.MessagePipe

/-!
# Messages between the two halves of the relay

A message is a header (kind, connection and length of the payload) and a payload, which for a
request or a reply is one agent message with its own length. Both are read in as many parts as the
stream is cut into: `Message.parse` and `parseAgentFrame` say what was read so far, `wanted` how
much is asked for next.

* `lawful_messageCodec`: a message is read as it was written.
* `prefix_agentFrames`: whole agent messages are the first ones of the bytes that begin with them.
-/

namespace Zetta.Wslx

open List

abbrev Bytes := List UInt8

def MAX_AGENT_FRAME : ℕ := 256 * 1024
def HEADER_LEN : ℕ := 9

def OPEN : UInt8 := 1
def REQUEST : UInt8 := 2
def REPLY : UInt8 := 3
def CLOSE : UInt8 := 4

inductive Error
  | invalidData (message : String)
  | invalidInput (message : String)
  deriving DecidableEq

inductive Message
  /-- A client connected to the socket. -/
  | «open» (id : UInt32)
  | request (id : UInt32) (frame : Bytes)
  | reply (id : UInt32) (frame : Bytes)
  /-- The sender is done with the connection. -/
  | close (id : UInt32)

/-- Exactly one agent message that is not empty. -/
def isAgentFrame (frame : Bytes) : Bool :=
  4 < frame.length && frame.length ≤ MAX_AGENT_FRAME &&
    ofBeBytes (frame.take 4) = frame.length - 4

namespace Message

def id : Message → UInt32
  | «open» id | request id _ | reply id _ | close id => id

def kind : Message → UInt8
  | «open» _ => OPEN
  | request _ _ => REQUEST
  | reply _ _ => REPLY
  | close _ => CLOSE

def payload : Message → Bytes
  | «open» _ | close _ => []
  | request _ frame | reply _ frame => frame

/-- The bytes of a message. -/
def encode (m : Message) : Bytes :=
  m.kind :: (beBytes 4 m.id.toNat ++ (beBytes 4 m.payload.length ++ m.payload))

/-- The bytes that are written, if the payload is not too long. -/
def writeTo (m : Message) : Except Error Bytes :=
  if m.payload.length ≤ MAX_AGENT_FRAME then .ok m.encode
  else .error (.invalidInput "agent message exceeds the frame limit")

def ofParts (kind : UInt8) (id : UInt32) (payload : Bytes) : Except Error Message :=
  if kind = OPEN then .ok («open» id)
  else if kind = REQUEST then .ok (request id payload)
  else if kind = REPLY then .ok (reply id payload)
  else if kind = CLOSE then .ok (close id)
  else .error (.invalidData "unknown message kind")

/-- The length that a header announces. -/
def announced (bytes : Bytes) : ℕ := ofBeBytes ((bytes.drop 5).take 4)

/-- What was read of a message so far. -/
def parse (bytes : Bytes) : Option (Except Error Message) :=
  if bytes.length < HEADER_LEN then none
  else
    let kind := bytes.headD 0
    let id := UInt32.ofNat (ofBeBytes ((bytes.drop 1).take 4))
    let carriesFrame := kind = REQUEST ∨ kind = REPLY
    if ¬carriesFrame ∧ announced bytes ≠ 0 then
      some (.error (.invalidData "a connection message carried a payload"))
    else if MAX_AGENT_FRAME < announced bytes then
      some (.error (.invalidData "agent message exceeds the frame limit"))
    else if bytes.length < HEADER_LEN + announced bytes then none
    else
      let payload := bytes.drop HEADER_LEN
      if carriesFrame ∧ ¬isAgentFrame payload then
        some (.error (.invalidData "payload is not one agent message"))
      else some (ofParts kind id payload)

/-- The header is asked for first, then the payload. -/
def wanted (bytes : Bytes) : ℕ :=
  if bytes.length < HEADER_LEN then HEADER_LEN - bytes.length
  else HEADER_LEN + announced bytes - bytes.length

/-- A message that carries an agent message if it should. -/
def Framed : Message → Prop
  | «open» _ | close _ => True
  | request _ frame | reply _ frame => isAgentFrame frame

end Message

def messageCodec : Codec Message UInt8 Error where
  encode := Message.encode
  parse := Message.parse
  wanted := Message.wanted

/-! ### Agent messages -/

/-- What was read of an agent message so far, its length included. -/
def parseAgentFrame (bytes : Bytes) : Option (Except Error Bytes) :=
  if bytes.length < 4 then none
  else
    let body := ofBeBytes (bytes.take 4)
    if body = 0 ∨ MAX_AGENT_FRAME - 4 < body then
      some (.error (.invalidData "agent message exceeds the frame limit"))
    else if bytes.length < body + 4 then none
    else some (.ok bytes)

/-- The length is asked for first, then the rest. -/
def wantedOfFrame (bytes : Bytes) : ℕ :=
  if bytes.length < 4 then 4 - bytes.length
  else ofBeBytes (bytes.take 4) + 4 - bytes.length

/-- The agent messages that some bytes begin with. -/
def agentFramesUpTo : ℕ → Bytes → List Bytes
  | 0, _ => []
  | n + 1, bytes =>
    let frame := bytes.take (ofBeBytes (bytes.take 4) + 4)
    if isAgentFrame frame then frame :: agentFramesUpTo n (bytes.drop frame.length) else []

def agentFrames (bytes : Bytes) : List Bytes := agentFramesUpTo bytes.length bytes

/-! ### What is read of an agent message -/

theorem isAgentFrame_iff {frame : Bytes} : isAgentFrame frame = true ↔
    4 < frame.length ∧ frame.length ≤ MAX_AGENT_FRAME ∧
      ofBeBytes (frame.take 4) = frame.length - 4 := by
  rw [isAgentFrame, Bool.and_eq_true, Bool.and_eq_true, decide_eq_true_iff, decide_eq_true_iff,
    decide_eq_true_iff, and_assoc]

/-- A reader that never asks for more than is missing ends with exactly one agent message. -/
theorem isAgentFrame_of_parse {buffer chunk frame : Bytes} (hpos : 0 < chunk.length)
    (hwanted : chunk.length ≤ wantedOfFrame buffer)
    (h : parseAgentFrame (buffer ++ chunk) = some (.ok frame)) :
    frame = buffer ++ chunk ∧ isAgentFrame frame = true := by
  rw [parseAgentFrame] at h
  dsimp only at h
  split_ifs at h with hshort hbody hpart
  · cases h
  cases Option.some.inj h
  rw [not_or, not_lt] at hbody
  rw [length_append] at hshort hpart
  refine ⟨rfl, isAgentFrame_iff.mpr ?_⟩
  rw [length_append]
  rw [wantedOfFrame] at hwanted
  have hmax : 4 ≤ MAX_AGENT_FRAME := by decide
  split_ifs at hwanted with hheader
  · -- A length alone is no message.
    omega
  · rw [take_append_of_le_length (by omega)] at hbody hpart ⊢
    omega

/-- Whole agent messages come first. -/
theorem prefix_agentFramesUpTo {frames : List Bytes} (hframes : ∀ f ∈ frames, isAgentFrame f)
    {bytes : Bytes} (hstarts : frames.flatten <+: bytes) {n : ℕ} (hn : bytes.length ≤ n) :
    frames <+: agentFramesUpTo n bytes := by
  induction frames generalizing bytes n with
  | nil => exact List.nil_prefix
  | cons f frames ih =>
    obtain ⟨rest, rfl⟩ := hstarts
    have hf := hframes f mem_cons_self
    obtain ⟨hlong, -, hlength⟩ := isAgentFrame_iff.mp hf
    rw [flatten_cons, append_assoc] at hn ⊢
    rw [length_append] at hn
    obtain ⟨n, rfl⟩ : ∃ n', n = n' + 1 := ⟨n - 1, by omega⟩
    have htake : (f ++ (frames.flatten ++ rest)).take
        (ofBeBytes ((f ++ (frames.flatten ++ rest)).take 4) + 4) = f := by
      rw [take_append_of_le_length (i := 4) (by omega), hlength]
      exact take_left' (by omega)
    rw [agentFramesUpTo, htake, if_pos hf, cons_prefix_cons, drop_left]
    exact ⟨rfl, ih (fun f' hf' => hframes f' (mem_cons_of_mem f hf')) (prefix_append ..)
      (by omega)⟩

theorem prefix_agentFrames {frames : List Bytes} (hframes : ∀ f ∈ frames, isAgentFrame f)
    {bytes : Bytes} (hstarts : frames.flatten <+: bytes) : frames <+: agentFrames bytes :=
  prefix_agentFramesUpTo hframes hstarts (le_refl _)

/-! ### What is read of a message -/

namespace Message

variable {m : Message}

theorem length_payload (h : m.Framed) : m.payload.length ≤ MAX_AGENT_FRAME := by
  cases m with
  | «open» id => exact Nat.zero_le _
  | close id => exact Nat.zero_le _
  | request id frame => exact (isAgentFrame_iff.mp h).2.1
  | reply id frame => exact (isAgentFrame_iff.mp h).2.1

theorem writeTo_of_framed (h : m.Framed) : m.writeTo = .ok m.encode := if_pos (length_payload h)

theorem length_encode (m : Message) : m.encode.length = HEADER_LEN + m.payload.length := by
  rw [encode, length_cons, length_append, length_append, length_beBytes,
    length_beBytes, HEADER_LEN]
  omega

variable {part : Bytes}

/-- The length is read before the payload. -/
theorem announced_part (h : m.Framed) (hpart : part <+: m.encode)
    (hlength : HEADER_LEN ≤ part.length) : announced part = m.payload.length := by
  obtain ⟨rest, hrest⟩ := hpart
  have hfits : m.payload.length < 256 ^ 4 := lt_of_le_of_lt (length_payload h) (by decide)
  have hfield : (part.drop 5).take 4 = (m.encode.drop 5).take 4 := by
    rw [← hrest, drop_append_of_le_length (by rw [HEADER_LEN] at hlength; omega),
      take_append_of_le_length (by rw [length_drop]; rw [HEADER_LEN] at hlength; omega)]
  have hdrop : m.encode.drop 5 = beBytes 4 m.payload.length ++ m.payload := by
    rw [encode, show 5 = 4 + 1 from rfl, drop_succ_cons,
      drop_left' (length_beBytes 4 _)]
  rw [announced, hfield, hdrop, take_left' (length_beBytes 4 _),
    ofBeBytes_beBytes_of_lt hfits]

theorem headD_part (hpart : part <+: m.encode) (hlength : HEADER_LEN ≤ part.length) :
    part.headD 0 = m.kind := by
  cases part with
  | nil => exact absurd hlength (by decide)
  | cons kind part => exact (cons_prefix_cons.mp hpart).1

/-- Only a message that carries one has a payload. -/
theorem payload_eq_nil (h : ¬(m.kind = REQUEST ∨ m.kind = REPLY)) : m.payload.length = 0 := by
  cases m with
  | «open» id => rfl
  | close id => rfl
  | request id frame => exact absurd (.inl rfl) h
  | reply id frame => exact absurd (.inr rfl) h

theorem isAgentFrame_payload (h : m.Framed) (hkind : m.kind = REQUEST ∨ m.kind = REPLY) :
    isAgentFrame m.payload = true := by
  cases m with
  | «open» id => exact absurd hkind (of_decide_eq_true (by rfl))
  | close id => exact absurd hkind (of_decide_eq_true (by rfl))
  | request id frame => exact h
  | reply id frame => exact h

theorem ofParts_kind (m : Message) : ofParts m.kind m.id m.payload = .ok m := by
  cases m <;> rfl

/-- What is read before the end of a message. -/
theorem parse_part (h : m.Framed) (hpart : part <+: m.encode) (hlength : HEADER_LEN ≤ part.length) :
    parse part =
      if part.length < HEADER_LEN + m.payload.length then none
      else if (m.kind = REQUEST ∨ m.kind = REPLY) ∧ ¬isAgentFrame (part.drop HEADER_LEN) then
        some (.error (.invalidData "payload is not one agent message"))
      else some (ofParts m.kind (UInt32.ofNat (ofBeBytes ((part.drop 1).take 4)))
        (part.drop HEADER_LEN)) := by
  rw [parse, if_neg (not_lt.mpr hlength)]
  dsimp only
  rw [headD_part hpart hlength, announced_part h hpart hlength,
    if_neg fun hno => hno.2 (payload_eq_nil hno.1), if_neg (not_lt.mpr (length_payload h))]

theorem parse_encode (h : m.Framed) : parse m.encode = some (.ok m) := by
  have hdrop : m.encode.drop HEADER_LEN = m.payload := by
    rw [encode, HEADER_LEN, show 9 = 4 + 4 + 1 from rfl, drop_succ_cons, ← drop_drop,
      drop_left' (length_beBytes 4 _), drop_left' (length_beBytes 4 _)]
  have hid : UInt32.ofNat (ofBeBytes ((m.encode.drop 1).take 4)) = m.id := by
    rw [encode, drop_succ_cons, drop_zero, take_left' (length_beBytes 4 _),
      ofBeBytes_beBytes_of_lt m.id.toNat_lt, UInt32.ofNat_toNat]
  rw [parse_part h (prefix_refl _) (by rw [length_encode]; exact Nat.le_add_right ..),
    length_encode, if_neg (lt_irrefl _), hdrop, hid,
    if_neg fun hno => hno.2 (isAgentFrame_payload h hno.1), ofParts_kind]

end Message

/-- **Round trip**: a message is read as it was written, and not before its end. -/
theorem lawful_messageCodec : messageCodec.Lawful Message.Framed where
  encode_ne_nil _ h := by cases h
  parse_encode h := Message.parse_encode h
  parse_part {m part} h hpart hne := by
    have hlt : part.length < (Message.encode m).length :=
      lt_of_le_of_ne hpart.length_le fun heq => hne (hpart.eq_of_length heq)
    rw [Message.length_encode] at hlt
    by_cases hheader : part.length < HEADER_LEN
    · exact if_pos hheader
    · exact (Message.parse_part h hpart (not_lt.mp hheader)).trans (if_pos hlt)
  wanted_le {m part} h hpart hne := by
    have hle := hpart.length_le
    change part.length + Message.wanted part ≤ (Message.encode m).length
    change part.length ≤ (Message.encode m).length at hle
    rw [Message.length_encode] at hle ⊢
    rw [Message.wanted]
    split_ifs with hheader
    · omega
    · rw [Message.announced_part h hpart (not_lt.mp hheader)]
      omega

end Zetta.Wslx
