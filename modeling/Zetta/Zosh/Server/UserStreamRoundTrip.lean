import Mathlib
import Zetta.Zosh.Server.UserStream

/-!
# What the server reads of what the client writes

The server decodes a diff of the client into the events of its suffix, each as the server
understands it (`decodedEvents`): a byte is itself however bytes are coalesced, a resize is one
if both dimensions are positive, and an announcement is no event.

* `decodeEvents_encodeEvents` is the round trip, for events the server accepts (`Fits`) in a
  diff that fits in memory.
* `length_decoded_le`: an event takes at least a byte of the diff.
-/

namespace Zetta.Zosh.Server

open List Wire MoshRs

/-- The server's events for one of the client's. -/
def decodedEvent : MoshRs.UserEvent → List UserEvent
  | .byte b => [.byte b]
  | .resize width height =>
    if 0 < width.toInt ∧ 0 < height.toInt then [.resize width.toInt.toNat height.toInt.toNat]
    else []
  | .keepAlive _ => []
  | .terminalResponse bytes => if bytes = [] then [] else [.terminalResponse bytes]
  | .scrollbackRequest _ => []
  | .clipboardVersion _ => []
  | .agentHello version => [.agentHello version.toNat]
  | .agentResponse connectionId requestId frame closed =>
    [.agentResponse ⟨connectionId.toNat, requestId.toNat, frame, closed⟩]

/-- The server's events for a log. -/
def decodedEvents (events : List MoshRs.UserEvent) : List UserEvent := events.flatMap decodedEvent

/-- An event the server takes: a terminal of 16-bit dimensions, an agent frame within the
limit. -/
def Fits : MoshRs.UserEvent → Prop
  | .resize width height =>
    0 < width.toInt → 0 < height.toInt → width.toInt < 2 ^ 16 ∧ height.toInt < 2 ^ 16
  | .agentResponse _ _ frame _ => frame.length ≤ MAX_AGENT_FRAME
  | _ => True

/-! ### Messages inside messages -/

variable {fs : List Field}

private theorem nested_message {β : Type}
    {step : β → ℕ × ℕ → List UInt8 → Except String (β × List UInt8)} {b b' : β}
    (hlen : (encodeFields fs).length < 2 ^ 64)
    (hdecode : decodeFields step (encodeFields fs) b = .ok b') (rest : List UInt8) :
    nested step b ((message fs).encode ++ rest) = .ok (b', rest) := by
  simp only [nested, message, Payload.encode, append_assoc, readBytes_varint hlen, bind,
    Except.bind, hdecode]

private theorem encodeFields_singleton (f : Field) : encodeFields [f] = f.encode := by
  simp [encodeFields]

variable {field : ℕ}

private theorem length_message_lt (h : (encodeFields [(field, message fs)]).length < 2 ^ 64) :
    (encodeFields fs).length < 2 ^ 64 := by
  have := Field.length_lt_encode field (encodeFields fs)
  rw [encodeFields_singleton, message] at h
  omega

variable {bs : List UInt8}

private theorem length_bytes_lt (h : (encodeFields [(field, .bytes bs)]).length < 2 ^ 64) :
    bs.length < 2 ^ 64 := by
  have := Field.length_lt_encode field bs
  rw [encodeFields_singleton] at h
  omega

/-! ### One instruction -/

private theorem bmod_emod {z : ℤ} (hlo : -2 ^ 31 ≤ z) (hhi : z < 2 ^ 31) :
    (z % 2 ^ 64).bmod (2 ^ 32) = z := by
  rw [Int.bmod_def]
  norm_num
  split <;> omega

/-- A signed number written with 64 bits is cast back to itself. -/
theorem toInt32_int32 (n : Int32) : toInt32 (n.toInt % 2 ^ 64).toNat = n.toInt := by
  have hbmod := bmod_emod n.le_toInt n.toInt_lt
  have hmod : 0 ≤ n.toInt % 2 ^ 64 := by omega
  unfold toInt32
  rwa [Int.toNat_of_nonneg hmod]

private theorem int32_valid (n : Int32) : (n.toInt % 2 ^ 64).toNat < 2 ^ 64 := by
  omega

private theorem decode_keys {ks : List UInt8}
    (hlen : (encodeFields [(2, message [(4, .bytes ks)])]).length < 2 ^ 64) :
    decodeInstruction (encodeFields [(2, message [(4, .bytes ks)])]) = .ok { keys := ks } := by
  have hnested := length_message_lt hlen
  refine decodeFields_singleton (show 2 < 2 ^ 61 by decide) fun rest => ?_
  have hkeys : decodeKeystroke [] ((message [(4, .bytes ks)]).encode ++ rest) = .ok (ks, rest) := by
    refine nested_message hnested (decodeFields_singleton (show 4 < 2 ^ 61 by decide)
      fun rest => ?_) rest
    show (readBytes ((varint ks.length ++ ks) ++ rest)).map _ = _
    rw [append_assoc, readBytes_varint (length_bytes_lt hnested)]
    rfl
  show (decodeKeystroke [] _).map _ = _
  rw [hkeys]
  rfl

private theorem decode_resize {width height : Int32}
    (hlen : (encodeFields [(3, message [(5, int32 width), (6, int32 height)])]).length < 2 ^ 64) :
    decodeInstruction (encodeFields [(3, message [(5, int32 width), (6, int32 height)])]) =
      .ok { size := (width.toInt, height.toInt) } := by
  have hnested := length_message_lt hlen
  refine decodeFields_singleton (show 3 < 2 ^ 61 by decide) fun rest => ?_
  have hsize : decodeResize (0, 0)
      ((message [(5, int32 width), (6, int32 height)]).encode ++ rest) =
        .ok ((width.toInt, height.toInt), rest) := by
    refine nested_message hnested (decodeFields_encodeFields (fun size f =>
      if f.1 = 5 then (width.toInt, size.2) else (size.1, height.toInt)) ?_ ?_ _) rest
    · simp
    · simp only [mem_cons, not_mem_nil, or_false, forall_eq_or_imp, forall_eq]
      constructor <;> intro b rest <;> simp only [int32, Payload.wireType, Payload.encode]
      · show (readVarint _).map _ = _
        rw [readVarint_varint (int32_valid _)]
        simp only [Except.map, toInt32_int32]
        rfl
      · show (readVarint _).map _ = _
        rw [readVarint_varint (int32_valid _)]
        simp only [Except.map, toInt32_int32]
        rfl
  show (decodeResize (0, 0) _).map _ = _
  rw [hsize]
  rfl

/-- A setting is no event. -/
private theorem decode_setting {n : UInt32} (hfield : field < 2 ^ 61) :
    decodeInstruction (encodeFields [(field, uint32 n)]) = .ok {} := by
  have hn : n.toNat < 2 ^ 64 := n.toNat_lt.trans (by decide)
  refine decodeFields_singleton hfield fun rest => ?_
  have hskip := skipField_encode (p := uint32 n) hn rest
  simp [instructionField, uint32, Payload.wireType, WIRE_VARINT, WIRE_BYTES, skipped] at hskip ⊢
  rw [hskip]
  rfl

private theorem decode_terminalResponse (hlen : (encodeFields [(21, .bytes bs)]).length < 2 ^ 64) :
    decodeInstruction (encodeFields [(21, .bytes bs)]) =
      .ok { terminalResponse := some bs } := by
  refine decodeFields_singleton (show 21 < 2 ^ 61 by decide) fun rest => ?_
  show (readBytes ((varint bs.length ++ bs) ++ rest)).map _ = _
  rw [append_assoc, readBytes_varint (length_bytes_lt hlen)]
  rfl

private theorem decode_agent {agent : Option ℕ × Option AgentResponse}
    (hlen : (encodeFields [(23, message fs)]).length < 2 ^ 64)
    (hdecode : decodeAgent (encodeFields fs) = .ok agent) :
    decodeInstruction (encodeFields [(23, message fs)]) =
      .ok { agentHello := agent.1, agentResponse := agent.2 } := by
  refine decodeFields_singleton (show 23 < 2 ^ 61 by decide) fun rest => ?_
  show (readBytes ((varint _ ++ encodeFields fs) ++ rest) >>= _) = _
  rw [append_assoc, readBytes_varint (length_message_lt hlen)]
  simp only [bind, Except.bind, hdecode]

private theorem decode_hello {version : UInt32}
    (hlen : (encodeFields [(1, message [(1, uint32 version)])]).length < 2 ^ 64) :
    decodeAgent (encodeFields [(1, message [(1, uint32 version)])]) =
      .ok (some version.toNat, none) := by
  have hversion : decodeAgentHello (encodeFields [(1, uint32 version)]) =
      .ok (some version.toNat) := by
    refine decodeFields_singleton (show 1 < 2 ^ 61 by decide) fun rest => ?_
    show (readVarint (varint version.toNat ++ rest)).bind _ = _
    rw [readVarint_varint (version.toNat_lt.trans (by decide))]
    simp only [Except.bind]
    rw [if_pos version.toNat_lt]
  refine decodeFields_singleton (show 1 < 2 ^ 61 by decide) fun rest => ?_
  show (readBytes ((varint _ ++ encodeFields _) ++ rest) >>= _) = _
  rw [append_assoc, readBytes_varint (length_message_lt hlen)]
  simp only [bind, Except.bind, hversion]

/-- The fields of an agent response, as the decoder takes them. -/
private def agentResponseNext (r : AgentResponseFields) : Field → AgentResponseFields
  | (1, .varint n) => { r with connectionId := some n }
  | (2, .varint n) => { r with requestId := some n }
  | (3, .bytes bs) => { r with frame := bs }
  | (_, .varint n) => { r with closed := n != 0 }
  | _ => r

private theorem reads_uint64 (hfield : field = 1 ∨ field = 2) (n : UInt64) :
    Reads agentResponseField agentResponseNext (field, uint64 n) := by
  intro r rest
  rcases hfield with rfl | rfl
  · show (readVarint (varint n.toNat ++ rest)).map _ = _
    rw [readVarint_varint n.toNat_lt]
    rfl
  · show (readVarint (varint n.toNat ++ rest)).map _ = _
    rw [readVarint_varint n.toNat_lt]
    rfl

private theorem reads_closed (closed : Bool) :
    Reads agentResponseField agentResponseNext (4, bool closed) := by
  intro r rest
  show (readVarint (varint closed.toNat ++ rest)).map _ = _
  rw [readVarint_varint (lt_of_le_of_lt (Bool.toNat_le closed) (by decide))]
  rfl

variable {frame : List UInt8}

private theorem reads_frame (hframe : frame.length ≤ MAX_AGENT_FRAME) :
    Reads agentResponseField agentResponseNext (3, .bytes frame) := by
  intro r rest
  show (readBytes ((varint frame.length ++ frame) ++ rest)).bind _ = _
  rw [append_assoc, readBytes_varint (lt_of_le_of_lt hframe (by decide))]
  simp only [Except.bind]
  rw [if_neg (not_lt.mpr hframe)]
  rfl

private theorem fails_frame (hframe : MAX_AGENT_FRAME < frame.length) (hlen : frame.length < 2 ^ 64) :
    Fails agentResponseField (3, .bytes frame) := by
  intro r rest
  refine ⟨s!"SSH-agent response exceeds {MAX_AGENT_FRAME} bytes", ?_⟩
  show (readBytes ((varint frame.length ++ frame) ++ rest)).bind _ = _
  rw [append_assoc, readBytes_varint hlen]
  simp only [Except.bind]
  rw [if_pos hframe]

variable {connectionId requestId : UInt64} {closed : Bool}

private theorem decode_response (hframe : frame.length ≤ MAX_AGENT_FRAME)
    (hlen : (encodeFields [(2, message [(1, uint64 connectionId), (2, uint64 requestId),
      (3, .bytes frame), (4, bool closed)])]).length < 2 ^ 64) :
    decodeAgent (encodeFields [(2, message [(1, uint64 connectionId), (2, uint64 requestId),
      (3, .bytes frame), (4, bool closed)])]) =
      .ok (none, some ⟨connectionId.toNat, requestId.toNat, frame, closed⟩) := by
  have hfields : decodeFields agentResponseField (encodeFields [(1, uint64 connectionId),
      (2, uint64 requestId), (3, .bytes frame), (4, bool closed)]) {} =
        .ok ⟨some connectionId.toNat, some requestId.toNat, frame, closed⟩ := by
    rw [decodeFields_encodeFields agentResponseNext]
    · cases closed <;> rfl
    · simp
    · simp only [mem_cons, not_mem_nil, or_false, forall_eq_or_imp, forall_eq]
      exact ⟨reads_uint64 (.inl rfl) _, reads_uint64 (.inr rfl) _, reads_frame hframe,
        reads_closed closed⟩
  have hresponse : decodeAgentResponse (encodeFields [(1, uint64 connectionId),
      (2, uint64 requestId), (3, .bytes frame), (4, bool closed)]) =
        .ok ⟨connectionId.toNat, requestId.toNat, frame, closed⟩ := by
    simp only [decodeAgentResponse, hfields, bind, Except.bind]
  refine decodeFields_singleton (show 2 < 2 ^ 61 by decide) fun rest => ?_
  show (readBytes ((varint _ ++ encodeFields _) ++ rest) >>= _) = _
  rw [append_assoc, readBytes_varint (length_message_lt hlen)]
  simp only [bind, Except.bind, hresponse]

/-! ### A whole diff -/

private theorem decodedEvents_bytes (ks : List UInt8) :
    decodedEvents (ks.map .byte) = ks.map .byte := by
  induction ks with
  | nil => rfl
  | cons k ks ih =>
    rw [map_cons, decodedEvents, flatMap_cons, ← decodedEvents, ih]
    rfl

private theorem dimension_of_lt {name : String} {n : ℤ} (h : n < 2 ^ 16) :
    dimension name n = .ok n.toNat :=
  if_pos h

/-- An instruction is decoded to the events it carries. -/
theorem decodeInstruction_carried (c : Carried) (hfits : ∀ e ∈ c.events, Fits e)
    (hlen : (encodeFields c.instruction.fields).length < 2 ^ 64) :
    ∃ d, decodeInstruction (encodeFields c.instruction.fields) = .ok d ∧
      d.events = .ok (decodedEvents c.events) := by
  cases c with
  | keys ks hne =>
    refine ⟨_, decode_keys hlen, ?_⟩
    simp [DecodedInstruction.events, DecodedInstruction.input, hne, Carried.events,
      decodedEvents_bytes, bind, Except.bind]
  | event e hother =>
    have hfit := hfits e (by simp [Carried.events])
    cases e with
    | byte b => exact absurd rfl (hother b)
    | resize width height =>
      refine ⟨_, decode_resize hlen, ?_⟩
      by_cases hpos : 0 < width.toInt ∧ 0 < height.toInt
      · obtain ⟨hw, hh⟩ := hfit hpos.1 hpos.2
        simp only [DecodedInstruction.events, DecodedInstruction.input, ne_eq, not_true_eq_false,
          if_false, hpos, and_self, if_true, bind, Except.bind, dimension_of_lt hw,
          dimension_of_lt hh, Carried.events, decodedEvents, decodedEvent, flatMap_cons,
          flatMap_nil]
        rfl
      · simp [DecodedInstruction.events, DecodedInstruction.input, hpos, Carried.events,
          decodedEvents, decodedEvent, bind, Except.bind]
    | keepAlive n => exact ⟨_, decode_setting (show 20 < 2 ^ 61 by decide), rfl⟩
    | scrollbackRequest n => exact ⟨_, decode_setting (show 22 < 2 ^ 61 by decide), rfl⟩
    | clipboardVersion n => exact ⟨_, decode_setting (show 24 < 2 ^ 61 by decide), rfl⟩
    | terminalResponse bs =>
      refine ⟨_, decode_terminalResponse hlen, ?_⟩
      by_cases hbs : bs = [] <;>
        simp [DecodedInstruction.events, DecodedInstruction.input, hbs, Carried.events,
          decodedEvents, decodedEvent, bind, Except.bind]
    | agentHello version =>
      exact ⟨_, decode_agent hlen (decode_hello (length_message_lt hlen)), rfl⟩
    | agentResponse c r frame closed =>
      exact ⟨_, decode_agent hlen (decode_response hfit (length_message_lt hlen)), rfl⟩

/-- A message of one field that is refused. -/
private theorem decode_fails {β : Type}
    {step : β → ℕ × ℕ → List UInt8 → Except String (β × List UInt8)} {f : Field}
    (hvalid : f.1 < 2 ^ 61) (hfails : Fails step f) (b : β) :
    ∃ error, decodeFields step (encodeFields [f]) b = .error error := by
  refine decodeFields_error (fun b _ => b) ?_ ?_ ⟨f, mem_singleton_self f, hfails⟩ b
  · rw [forall_mem_singleton]
    exact hvalid
  · rw [forall_mem_singleton]
    exact .inr hfails

private theorem decode_response_fails (hframe : MAX_AGENT_FRAME < frame.length)
    (hlen : (encodeFields [(23, message [(2, message [(1, uint64 connectionId),
      (2, uint64 requestId), (3, .bytes frame), (4, bool closed)])])]).length < 2 ^ 64) :
    ∃ error, decodeInstruction (encodeFields [(23, message [(2, message [(1, uint64 connectionId),
      (2, uint64 requestId), (3, .bytes frame), (4, bool closed)])])]) = .error error := by
  have hagent := length_message_lt hlen
  have hresponse := length_message_lt hagent
  have hbytes : frame.length < 2 ^ 64 := by
    have hmem : ((3, .bytes frame) : Field) ∈ ([(1, uint64 connectionId), (2, uint64 requestId),
        (3, .bytes frame), (4, bool closed)] : List Field) := by simp
    have hle := length_encode_le_of_mem hmem
    have hlt := Field.length_lt_encode 3 frame
    omega
  obtain ⟨error, hfields⟩ : ∃ error, decodeFields agentResponseField (encodeFields
      [(1, uint64 connectionId), (2, uint64 requestId), (3, .bytes frame), (4, bool closed)]) {} =
        .error error := by
    refine decodeFields_error agentResponseNext (by simp) ?_
      ⟨(3, .bytes frame), by simp, fails_frame hframe hbytes⟩ {}
    simp only [mem_cons, not_mem_nil, or_false, forall_eq_or_imp, forall_eq]
    exact ⟨.inl (reads_uint64 (.inl rfl) _), .inl (reads_uint64 (.inr rfl) _),
      .inr (fails_frame hframe hbytes), .inl (reads_closed closed)⟩
  obtain ⟨error, hdecode⟩ : ∃ error, decodeAgent (encodeFields [(2, message [(1, uint64 connectionId),
      (2, uint64 requestId), (3, .bytes frame), (4, bool closed)])]) = .error error := by
    refine decode_fails (f := (2, message _)) (show 2 < 2 ^ 61 by decide) (fun agent rest => ⟨error, ?_⟩) _
    show (readBytes ((varint _ ++ encodeFields _) ++ rest) >>= _) = _
    rw [append_assoc, readBytes_varint hresponse]
    simp only [bind, Except.bind, decodeAgentResponse, hfields]
  refine decode_fails (f := (23, message [_])) (show 23 < 2 ^ 61 by decide) (fun d rest => ⟨error, ?_⟩) _
  show (readBytes ((varint _ ++ encodeFields _) ++ rest) >>= _) = _
  rw [append_assoc, readBytes_varint hagent]
  simp only [bind, Except.bind, hdecode]

/-- An instruction with an event that the server does not take is refused. -/
theorem decodeInstruction_unfit (c : Carried) (hunfit : ¬ ∀ e ∈ c.events, Fits e)
    (hlen : (encodeFields c.instruction.fields).length < 2 ^ 64) :
    ∃ error, (decodeInstruction (encodeFields c.instruction.fields)).bind
      DecodedInstruction.events = .error error := by
  cases c with
  | keys ks hne =>
    refine absurd (fun e he => ?_) hunfit
    obtain ⟨b, -, rfl⟩ := mem_map.mp he
    trivial
  | event e hother =>
    have hfit : ¬ Fits e := fun h => hunfit fun e' he' => by
      rwa [mem_singleton.mp he']
    cases e with
    | resize width height =>
      simp only [Fits, Classical.not_imp, not_and, not_lt] at hfit
      obtain ⟨hw, hh, hlarge⟩ := hfit
      show ∃ error, (decodeInstruction (encodeFields [(3, message [(5, int32 width),
        (6, int32 height)])])).bind _ = .error error
      rw [decode_resize hlen]
      simp only [Except.bind, DecodedInstruction.events, DecodedInstruction.input, ne_eq,
        not_true_eq_false, if_false, hw, hh, and_self, if_true, bind]
      by_cases hwidth : width.toInt < 2 ^ 16
      · refine ⟨s!"invalid terminal height {height.toInt}", ?_⟩
        rw [dimension_of_lt hwidth, dimension, if_neg (not_lt.mpr (hlarge hwidth))]
        rfl
      · refine ⟨s!"invalid terminal width {width.toInt}", ?_⟩
        rw [dimension, if_neg hwidth]
        rfl
    | agentResponse c r frame closed =>
      obtain ⟨error, hdecode⟩ := decode_response_fails (not_le.mp hfit) hlen
      exact ⟨error, congrArg (Except.bind · DecodedInstruction.events) hdecode⟩
    | _ => exact absurd trivial hfit

variable {c : Carried} {cs : List Carried}

/-- The instruction is no longer than the message it is part of. -/
private theorem length_fields_lt (hc : c ∈ cs) :
    (encodeFields c.instruction.fields).length + 2 ≤
      (encodeMessage (cs.map Carried.instruction)).length := by
  have hmem : (1, message c.instruction.fields) ∈
      (cs.map Carried.instruction).map fun i => ((1, message i.fields) : Field) :=
    mem_map.mpr ⟨_, mem_map_of_mem hc, rfl⟩
  exact (Field.length_lt_encode 1 _).trans (length_encode_le_of_mem hmem)

/-- One field of a diff. -/
def messageField (events : List UserEvent) (tag : ℕ × ℕ) (rest : List UInt8) :
    Except String (List UserEvent × List UInt8) :=
  if tag = (INSTRUCTION_FIELD, WIRE_BYTES) then do
    let (bytes, rest) ← readBytes rest
    let decoded ← decodeInstruction bytes
    let more ← decoded.events
    .ok (events ++ more, rest)
  else skipped events tag.2 rest

theorem decodeEvents_eq (diff : List UInt8) : decodeEvents diff = decodeFields messageField diff [] :=
  rfl

/-- What the events of an encoded instruction are, in the loop over a diff. -/
private def instructionEvents (bytes : List UInt8) : List UserEvent :=
  ((decodeInstruction bytes).bind DecodedInstruction.events).toOption.getD []

/-- The events of a field of a diff follow those before it. -/
private def messageNext (events : List UserEvent) (f : Field) : List UserEvent :=
  match f.2 with
  | .bytes bs => events ++ instructionEvents bs
  | .varint _ => events

private theorem reads_messageField (hfits : ∀ e ∈ c.events, Fits e)
    (hlen : (encodeFields c.instruction.fields).length < 2 ^ 64) :
    Reads messageField messageNext (1, message c.instruction.fields) := by
  obtain ⟨d, hd, hevents⟩ := decodeInstruction_carried c hfits hlen
  intro events rest
  show (readBytes ((varint _ ++ encodeFields _) ++ rest) >>= _) = _
  rw [append_assoc, readBytes_varint hlen]
  simp [bind, Except.bind, hd, hevents, message, messageNext, instructionEvents, Except.toOption]

private theorem fails_messageField (hunfit : ¬ ∀ e ∈ c.events, Fits e)
    (hlen : (encodeFields c.instruction.fields).length < 2 ^ 64) :
    Fails messageField (1, message c.instruction.fields) := by
  obtain ⟨error, herror⟩ := decodeInstruction_unfit c hunfit hlen
  intro events rest
  refine ⟨error, ?_⟩
  show (readBytes ((varint _ ++ encodeFields _) ++ rest) >>= _) = _
  rw [append_assoc, readBytes_varint hlen]
  simp only [bind, Except.bind] at herror ⊢
  cases hd : decodeInstruction (encodeFields c.instruction.fields) with
  | error e =>
    rw [hd] at herror
    cases herror
    rfl
  | ok d =>
    rw [hd] at herror
    dsimp only at herror ⊢
    rw [herror]

private theorem foldl_messageNext (cs : List Carried) {events : List UserEvent}
    (hfits : ∀ c ∈ cs, ∀ e ∈ c.events, Fits e)
    (hlen : ∀ c ∈ cs, (encodeFields c.instruction.fields).length < 2 ^ 64) :
    ((cs.map Carried.instruction).map fun i => ((1, message i.fields) : Field)).foldl
        messageNext events = events ++ decodedEvents (cs.flatMap Carried.events) := by
  induction cs generalizing events with
  | nil => simp [decodedEvents]
  | cons c cs ih =>
    obtain ⟨d, hd, hevents⟩ := decodeInstruction_carried c (hfits c (by simp)) (hlen c (by simp))
    have hc : messageNext events (1, message c.instruction.fields) =
        events ++ decodedEvents c.events := by
      simp [messageNext, message, instructionEvents, hd, Except.bind, hevents, Except.toOption]
    rw [map_cons, map_cons, foldl_cons, hc, ih (fun c hc => hfits c (by simp [hc]))
      fun c hc => hlen c (by simp [hc])]
    simp only [flatMap_cons, decodedEvents, flatMap_append, append_assoc]

/-- Every instruction of a diff fits in memory when the diff does. -/
theorem length_instruction_lt (hlen : (encodeMessage (cs.map Carried.instruction)).length < 2 ^ 64) :
    ∀ c ∈ cs, (encodeFields c.instruction.fields).length < 2 ^ 64 := fun c hc => by
  have hle := length_fields_lt hc
  omega

variable {events : List MoshRs.UserEvent}

/-- **Round trip.** The server decodes the client's events into those they stand for. -/
theorem decodeEvents_encodeEvents (hfits : ∀ e ∈ events, Fits e)
    (hlen : (encodeEvents events).length < 2 ^ 64) :
    decodeEvents (encodeEvents events) = .ok (decodedEvents events) := by
  obtain ⟨cs, hcs, hevents⟩ := instructions_carried events
  rw [encodeEvents, hcs] at hlen ⊢
  have hcfits : ∀ c ∈ cs, ∀ e ∈ c.events, Fits e := fun c hc e he =>
    hfits e (hevents ▸ mem_flatMap_of_mem hc he)
  have hclen := length_instruction_lt hlen
  rw [decodeEvents_eq, encodeMessage, decodeFields_encodeFields messageNext,
    foldl_messageNext cs hcfits hclen, hevents, nil_append]
  · simp
  · intro f hf
    obtain ⟨i, hi, rfl⟩ := mem_map.mp hf
    obtain ⟨c, hc, rfl⟩ := mem_map.mp hi
    exact reads_messageField (hcfits c hc) (hclen c hc)

/-- A diff with an event that the server does not take is refused. -/
theorem decodeEvents_unfit (hunfit : ¬ ∀ e ∈ events, Fits e)
    (hlen : (encodeEvents events).length < 2 ^ 64) :
    ∃ error, decodeEvents (encodeEvents events) = .error error := by
  obtain ⟨cs, hcs, hevents⟩ := instructions_carried events
  rw [encodeEvents, hcs] at hlen ⊢
  have hclen := length_instruction_lt hlen
  obtain ⟨c, hc, hcunfit⟩ : ∃ c ∈ cs, ¬ ∀ e ∈ c.events, Fits e := by
    by_contra hall
    push Not at hall
    refine hunfit fun e he => ?_
    rw [← hevents] at he
    obtain ⟨c, hc, hmem⟩ := mem_flatMap.mp he
    exact hall c hc e hmem
  have hmem : ((1, message c.instruction.fields) : Field) ∈
      (cs.map Carried.instruction).map fun i => ((1, message i.fields) : Field) :=
    mem_map.mpr ⟨_, mem_map_of_mem hc, rfl⟩
  rw [decodeEvents_eq, encodeMessage]
  refine decodeFields_error messageNext (by simp) (fun f hf => ?_)
    ⟨_, hmem, fails_messageField hcunfit (hclen c hc)⟩ []
  obtain ⟨i, hi, rfl⟩ := mem_map.mp hf
  obtain ⟨c, hc, rfl⟩ := mem_map.mp hi
  by_cases hfits : ∀ e ∈ c.events, Fits e
  · exact .inl (reads_messageField hfits (hclen c hc))
  · exact .inr (fails_messageField hfits (hclen c hc))

/-- An event takes at least a byte of the diff it is in. -/
theorem length_decodedEvents_le (events : List MoshRs.UserEvent) :
    (decodedEvents events).length ≤ (encodeEvents events).length := by
  obtain ⟨cs, hcs, hevents⟩ := instructions_carried events
  rw [encodeEvents, hcs, ← hevents]
  clear hcs hevents
  induction cs with
  | nil => simp [decodedEvents]
  | cons c cs ih =>
    have hone : (decodedEvents c.events).length ≤ (encodeFields c.instruction.fields).length := by
      cases c with
      | keys ks hne =>
        have hkeys := Field.length_lt_encode 4 ks
        have hmessage := Field.length_lt_encode 2 (encodeFields [(4, .bytes ks)])
        rw [encodeFields_singleton] at hmessage
        show (decodedEvents (ks.map .byte)).length ≤
          (encodeFields [(2, message [(4, .bytes ks)])]).length
        rw [decodedEvents_bytes, length_map, encodeFields_singleton, message,
          encodeFields_singleton]
        omega
      | event e hother =>
        have hle : (decodedEvents [e]).length ≤ 1 := by
          cases e <;> simp [decodedEvents, decodedEvent] <;> split <;> simp
        refine hle.trans ?_
        cases e with
        | byte b => exact absurd rfl (hother b)
        | _ => exact (Field.length_encode_pos _).trans_eq (by
            rw [← encodeFields_singleton]; rfl)
    have hfield := Field.length_lt_encode 1 (encodeFields c.instruction.fields)
    simp only [flatMap_cons, map_cons, encodeMessage, encodeFields, decodedEvents,
      flatMap_append, length_append, message] at ih hone hfield ⊢
    omega

end Zetta.Zosh.Server
