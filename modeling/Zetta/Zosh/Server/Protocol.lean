import Mathlib
import Zetta.MoshRs.HostMessage
import Zetta.Zosh.Server.TerminalState

/-!
# Host messages, as the server writes them

The payload of a frame is a stock host message of at most three instructions (echo
acknowledgement, resize, terminal bytes), followed by an instruction for each query and for
each record of the agent extension.

**Round trip** (`parseHostDiff_encodeHostMessageWithAgent`): the client reads the events that
the instructions, queries and records stand for, in their order.
-/

namespace Zetta.Zosh.Server

open List Wire MoshRs

/-- One stock instruction; an acknowledgement of `-1` is none. -/
structure HostInstruction where
  hoststring : List UInt8 := []
  width : ℤ := 0
  height : ℤ := 0
  echoAckNum : ℤ := -1

/-- One record of the agent extension. -/
inductive AgentHostRecord where
  | ready (supported : Bool) (error : Option (List UInt8))
  | request (id connectionId : ℕ) (frame : List UInt8)
  | close (id connectionId : ℕ) (error : Option (List UInt8))
  deriving DecidableEq

/-! ### Writing -/

/-- A positive dimension as it is cast before it is written. -/
def dimensionField (n : ℤ) : Payload := .varint (n % 2 ^ 32).toNat

def HostInstruction.fields (i : HostInstruction) : List Field :=
  (if i.hoststring ≠ [] then [(2, message [(4, .bytes i.hoststring)])] else []) ++
  (if 0 < i.width ∨ 0 < i.height then
    [(3, message [(5, dimensionField i.width), (6, dimensionField i.height)])]
  else []) ++
  (if 0 ≤ i.echoAckNum then [(7, message [(8, .varint i.echoAckNum.toNat)])] else [])

def TerminalQuery.fields (q : TerminalQuery) : List Field :=
  [(20, message [(1, .varint q.id), (2, .bytes q.bytes)])]

def AgentHostRecord.fields : AgentHostRecord → List Field
  | ready supported error =>
    [(21, message [(1, message ((1, .varint supported.toNat) :: optional 2 .bytes error))])]
  | request id connectionId frame =>
    [(21, message [(2, message [(1, .varint id), (2, .varint connectionId), (3, .bytes frame)])])]
  | close id connectionId error =>
    [(21, message [(3, message
      ((1, .varint id) :: (2, .varint connectionId) :: optional 3 .bytes error))])]

/-- The instructions of a message, as fields each. -/
def hostMessageFields (instructions : List HostInstruction) (queries : List TerminalQuery)
    (records : List AgentHostRecord) : List (List Field) :=
  instructions.map HostInstruction.fields ++ queries.map TerminalQuery.fields ++
    records.map AgentHostRecord.fields

/-- `encode_host_message_with_agent`. -/
def encodeHostMessageWithAgent (instructions : List HostInstruction)
    (queries : List TerminalQuery) (records : List AgentHostRecord) : List UInt8 :=
  encodeFields ((hostMessageFields instructions queries records).map fun fs => (1, message fs))

/-! ### What the client reads -/

/-- The numbers of an instruction fit the integers they are stored in. -/
def HostInstruction.Fits (i : HostInstruction) : Prop :=
  (0 ≤ i.width ∧ i.width < 2 ^ 31) ∧ (0 ≤ i.height ∧ i.height < 2 ^ 31) ∧ i.echoAckNum < 2 ^ 63

/-- The numbers of a record fit. -/
def AgentHostRecord.Fits : AgentHostRecord → Prop
  | ready _ _ => True
  | request id connectionId _ => id < 2 ^ 64 ∧ connectionId < 2 ^ 64
  | close id connectionId _ => id < 2 ^ 64 ∧ connectionId < 2 ^ 64

def HostInstruction.hostEvents (i : HostInstruction) : List MoshRs.HostEvent :=
  (if 0 ≤ i.echoAckNum then [.echoAck i.echoAckNum.toNat] else []) ++
  (if 0 < i.width ∨ 0 < i.height then [.resize i.width i.height] else []) ++
  (if i.hoststring ≠ [] then [.bytes i.hoststring] else [])

def TerminalQuery.hostEvents (q : TerminalQuery) : List MoshRs.HostEvent :=
  if q.bytes ≠ [] then [.terminalQuery q.id q.bytes] else []

def AgentHostRecord.hostEvent : AgentHostRecord → MoshRs.HostEvent
  | ready supported error => .agentReady supported error
  | request id connectionId frame => .agentRequest id connectionId frame
  | close id connectionId error => .agentClose id connectionId error

/-! ### Round trip -/

variable {n : ℕ} {fs : List Field}

private theorem length_nested_lt {gs : List Field} (h : (encodeFields fs).length < 2 ^ 64)
    (hmem : (n, message gs) ∈ fs) :
    (encodeFields gs).length < 2 ^ 64 := by
  have hlt := Field.length_lt_encode n (encodeFields gs)
  have hle := length_encode_le_of_mem hmem
  rw [message] at hle
  omega

private theorem textsOf_append (fs gs : List Field) (n : ℕ) :
    textsOf (fs ++ gs) n = textsOf fs n ++ textsOf gs n :=
  filterMap_append

private theorem textsOf_message (m n : ℕ) (fs : List Field) :
    textsOf [(m, message fs)] n = if m = n then [encodeFields fs] else [] := by
  by_cases h : m = n <;> simp [textsOf, message, h]

private theorem textsOf_ite (c : Prop) [Decidable c] (m n : ℕ) (fs : List Field) :
    textsOf (if c then [(m, message fs)] else []) n =
      if c ∧ m = n then [encodeFields fs] else [] := by
  by_cases hc : c
  · simp [hc, textsOf_message]
  · simp [hc, textsOf]

private theorem nestedEvents_message (n : ℕ) (fs : List Field)
    (read : List UInt8 → Except String (List MoshRs.HostEvent)) :
    nestedEvents [(n, message fs)] n read = read (encodeFields fs) := by
  simp [nestedEvents, textsOf_message]

private theorem nestedEvents_of_ne {m : ℕ} (h : m ≠ n) (fs : List Field)
    (read : List UInt8 → Except String (List MoshRs.HostEvent)) :
    nestedEvents [(m, message fs)] n read = .ok [] := by
  simp [nestedEvents, textsOf_message, h]

/-- A nested message is read if it is there. -/
private theorem nestedEvents_ite {c : Prop} [Decidable c] {bytes : List UInt8}
    {read : List UInt8 → Except String (List MoshRs.HostEvent)} {events : List MoshRs.HostEvent}
    (htexts : textsOf fs n = if c then [bytes] else []) (hread : c → read bytes = .ok events) :
    nestedEvents fs n read = .ok (if c then events else []) := by
  by_cases hc : c
  · simp [nestedEvents, htexts, hc, hread hc]
  · simp [nestedEvents, htexts, hc]

private theorem toNat_dimension {n : ℤ} (hlo : 0 ≤ n) (hhi : n < 2 ^ 31) :
    (n % 2 ^ 32).toNat = n.toNat := by
  rw [Int.emod_eq_of_lt hlo (by omega)]

private theorem asInt32_dimension {n : ℤ} (hlo : 0 ≤ n) (hhi : n < 2 ^ 31) :
    asInt32 n.toNat = n := by
  unfold asInt32
  rw [Int.toNat_of_nonneg hlo, Int.bmod_def]
  norm_num
  split <;> omega

private theorem read_echoAck (hn : n < 2 ^ 64) (h : (encodeFields [(8, .varint n)]).length < 2 ^ 64) :
    echoAckEvents (encodeFields [(8, .varint n)]) = .ok [.echoAck n] := by
  rw [echoAckEvents, readMessage_encodeFields h (by simp) (by simpa using hn) rfl]
  simp [numberOf, Except.map]

private theorem read_resize {width height : ℤ} (hwidth : 0 ≤ width ∧ width < 2 ^ 31)
    (hheight : 0 ≤ height ∧ height < 2 ^ 31)
    (h : (encodeFields [(5, dimensionField width), (6, dimensionField height)]).length < 2 ^ 64) :
    resizeEvents (encodeFields [(5, dimensionField width), (6, dimensionField height)]) =
      .ok [.resize width height] := by
  rw [dimensionField, dimensionField, toNat_dimension hwidth.1 hwidth.2,
    toNat_dimension hheight.1 hheight.2] at h ⊢
  rw [resizeEvents, readMessage_encodeFields h (by simp) (by simp; omega) rfl]
  simp [numberOf, Except.map, asInt32_dimension hwidth.1 hwidth.2,
    asInt32_dimension hheight.1 hheight.2]

private theorem read_hostbytes {bytes : List UInt8} (hne : bytes ≠ [])
    (h : (encodeFields [(4, .bytes bytes)]).length < 2 ^ 64) :
    hostbytesEvents (encodeFields [(4, .bytes bytes)]) = .ok [.bytes bytes] := by
  rw [hostbytesEvents, readMessage_encodeFields h (by simp) (by simp) rfl]
  simp [textOf, textsOf, Except.map, hne]

/-- The nested messages an instruction may have. -/
private def instructionTypes : List Field := [text 2, text 3, text 7, text 20, text 21]

private theorem lookup_instructionTypes {type : Payload} (h : instructionTypes.lookup n = some type) :
    type.wireType = WIRE_BYTES := by
  simp only [instructionTypes, text, lookup_cons, lookup_nil] at h
  repeat' split at h
  all_goals first | cases h; rfl | cases h

/-- An instruction whose fields are nested messages is read from these. -/
private theorem instructionEvents_of_messages (h : (encodeFields fs).length < 2 ^ 64)
    (hfs : ∀ f ∈ fs, f.1 < 2 ^ 61 ∧ ∃ gs, f.2 = message gs) {e s b q a : List MoshRs.HostEvent}
    (hecho : nestedEvents fs 7 echoAckEvents = .ok e)
    (hsize : nestedEvents fs 3 resizeEvents = .ok s)
    (hhost : nestedEvents fs 2 hostbytesEvents = .ok b)
    (hquery : nestedEvents fs 20 terminalQueryEvents = .ok q)
    (hagent : nestedEvents fs 21 agentEvents = .ok a) :
    instructionEvents (encodeFields fs) = .ok (e ++ s ++ b ++ q ++ a) := by
  have hval : ∀ n v, (n, Payload.varint v) ∈ fs → v < 2 ^ 64 := by
    intro n v hmem
    obtain ⟨gs, hgs⟩ := (hfs _ hmem).2
    simp [message] at hgs
  have htypes : declared instructionTypes fs = true := by
    rw [declared, all_eq_true]
    intro f hf
    obtain ⟨gs, hgs⟩ := (hfs f hf).2
    rw [Option.all_eq_true]
    intro type htype
    rw [lookup_instructionTypes htype, hgs]
    rfl
  rw [instructionEvents, show [text 2, text 3, text 7, text 20, text 21] = instructionTypes from rfl,
    readMessage_encodeFields h (fun f hf => (hfs f hf).1) hval htypes]
  simp only [bind, Except.bind, hecho, hsize, hhost, hquery, hagent]

/-- An instruction is read as what it asks for. -/
private theorem read_instruction {i : HostInstruction} (hfits : i.Fits)
    (h : (encodeFields i.fields).length < 2 ^ 64) :
    instructionEvents (encodeFields i.fields) = .ok i.hostEvents := by
  obtain ⟨hwidth, hheight, hecho⟩ := hfits
  have hfs : ∀ f ∈ i.fields, f.1 < 2 ^ 61 ∧ ∃ gs, f.2 = message gs := by
    intro f hf
    simp only [HostInstruction.fields, mem_append, mem_ite_nil_right,
      mem_singleton] at hf
    obtain (⟨-, rfl⟩ | ⟨-, rfl⟩) | ⟨-, rfl⟩ := hf <;> exact ⟨by norm_num, _, rfl⟩
  have htexts : ∀ n, textsOf i.fields n =
      (if i.hoststring ≠ [] ∧ 2 = n then [encodeFields [(4, .bytes i.hoststring)]] else []) ++
      (if (0 < i.width ∨ 0 < i.height) ∧ 3 = n then
        [encodeFields [(5, dimensionField i.width), (6, dimensionField i.height)]] else []) ++
      (if 0 ≤ i.echoAckNum ∧ 7 = n then [encodeFields [(8, .varint i.echoAckNum.toNat)]]
        else []) := by
    intro n
    simp only [HostInstruction.fields, textsOf_append, textsOf_ite]
  have hecho' : nestedEvents i.fields 7 echoAckEvents =
      .ok (if 0 ≤ i.echoAckNum then [.echoAck i.echoAckNum.toNat] else []) :=
    nestedEvents_ite (by simp [htexts]) fun hc => read_echoAck (by omega)
      (length_nested_lt (n := 7) h (by simp [HostInstruction.fields, hc]))
  have hsize : nestedEvents i.fields 3 resizeEvents =
      .ok (if 0 < i.width ∨ 0 < i.height then [.resize i.width i.height] else []) :=
    nestedEvents_ite (by simp [htexts]) fun hc => read_resize hwidth hheight
      (length_nested_lt (n := 3) h (by simp [HostInstruction.fields, hc]))
  have hhost : nestedEvents i.fields 2 hostbytesEvents =
      .ok (if i.hoststring ≠ [] then [.bytes i.hoststring] else []) :=
    nestedEvents_ite (by simp [htexts]) fun hc => read_hostbytes hc
      (length_nested_lt (n := 2) h (by simp [HostInstruction.fields, hc]))
  rw [instructionEvents_of_messages h hfs hecho' hsize hhost (q := []) (a := [])
    (by simp [nestedEvents, htexts]) (by simp [nestedEvents, htexts])]
  simp [HostInstruction.hostEvents]

/-- An extension instruction is read as its one nested message. -/
private theorem read_query {q : TerminalQuery} (hid : q.id < 2 ^ 64)
    (h : (encodeFields q.fields).length < 2 ^ 64) :
    instructionEvents (encodeFields q.fields) = .ok q.hostEvents := by
  have hnested := length_nested_lt (n := 20) h (mem_singleton.mpr rfl)
  have hquery : nestedEvents q.fields 20 terminalQueryEvents = .ok q.hostEvents := by
    rw [TerminalQuery.fields, nestedEvents_message, terminalQueryEvents,
      readMessage_encodeFields hnested (by simp) (by simpa using hid) rfl]
    by_cases hne : q.bytes = [] <;>
      simp [numberOf, textOf, textsOf, Except.map, TerminalQuery.hostEvents, hne, Option.filter]
  rw [instructionEvents_of_messages h (by simp [TerminalQuery.fields])
    (e := []) (s := []) (b := []) (a := []) (by rfl) (by rfl) (by rfl) hquery (by rfl)]
  simp

private theorem read_request {id connectionId : ℕ} {frame : List UInt8} (hid : id < 2 ^ 64)
    (hconnection : connectionId < 2 ^ 64)
    (h : (encodeFields [(1, .varint id), (2, .varint connectionId), (3, .bytes frame)]).length <
      2 ^ 64) :
    requestEvents (encodeFields [(1, .varint id), (2, .varint connectionId), (3, .bytes frame)]) =
      .ok [.agentRequest id connectionId frame] := by
  rw [requestEvents, readMessage_encodeFields h (by simp) (by simp; omega) rfl]
  simp [numberOf, textOf, textsOf, Except.map]

variable {error : Option (List UInt8)}

private theorem read_close {id connectionId : ℕ} (hid : id < 2 ^ 64)
    (hconnection : connectionId < 2 ^ 64)
    (h : (encodeFields ((1, .varint id) :: (2, .varint connectionId) ::
      optional 3 .bytes error)).length < 2 ^ 64) :
    closeEvents (encodeFields ((1, .varint id) :: (2, .varint connectionId) ::
      optional 3 .bytes error)) = .ok [.agentClose id connectionId error] := by
  cases error with
  | none =>
    rw [closeEvents, readMessage_encodeFields h (by simp [MoshRs.optional])
      (by simp [MoshRs.optional]; omega) rfl]
    simp [numberOf, textOf, textsOf, Except.map, MoshRs.optional]
  | some error =>
    rw [closeEvents, readMessage_encodeFields h (by simp [MoshRs.optional])
      (by simp [MoshRs.optional]; omega) rfl]
    simp [numberOf, textOf, textsOf, Except.map, MoshRs.optional]

private theorem read_ready {supported : Bool}
    (h : (encodeFields ((1, .varint supported.toNat) :: optional 2 .bytes error)).length <
      2 ^ 64) :
    readyEvents (encodeFields ((1, .varint supported.toNat) :: optional 2 .bytes error)) =
      .ok [.agentReady supported error] := by
  have hbool : supported.toNat < 2 ^ 64 := Nat.lt_of_le_of_lt supported.toNat_le (by norm_num)
  cases error with
  | none =>
    rw [readyEvents, readMessage_encodeFields h (by simp [MoshRs.optional])
      (by simpa [MoshRs.optional] using hbool) rfl]
    cases supported <;> simp [numberOf, textOf, textsOf, Except.map, MoshRs.optional]
  | some error =>
    rw [readyEvents, readMessage_encodeFields h (by simp [MoshRs.optional])
      (by simpa [MoshRs.optional] using hbool) rfl]
    cases supported <;> simp [numberOf, textOf, textsOf, Except.map, MoshRs.optional]

private theorem readMessage_agent (hn : n = 1 ∨ n = 2 ∨ n = 3)
    (h : (encodeFields [(n, message fs)]).length < 2 ^ 64) :
    readMessage [text 1, text 2, text 3] (encodeFields [(n, message fs)]) =
      .ok [(n, message fs)] := by
  refine readMessage_encodeFields h (by simp; omega) (by simp [message]) ?_
  rcases hn with rfl | rfl | rfl <;> rfl

/-- A record is read as the event it stands for. -/
private theorem read_record {r : AgentHostRecord} (hfits : r.Fits)
    (h : (encodeFields r.fields).length < 2 ^ 64) :
    instructionEvents (encodeFields r.fields) = .ok [r.hostEvent] := by
  have hagent : ∀ {fs : List Field}, r.fields = [(21, message fs)] →
      agentEvents (encodeFields fs) = .ok [r.hostEvent] →
      instructionEvents (encodeFields r.fields) = .ok [r.hostEvent] := by
    intro fs hr hread
    rw [hr] at h ⊢
    rw [instructionEvents_of_messages h (by simp) (e := []) (s := []) (b := [])
      (q := []) (by simp [nestedEvents_of_ne]) (by simp [nestedEvents_of_ne])
      (by simp [nestedEvents_of_ne]) (by simp [nestedEvents_of_ne])
      (by rw [nestedEvents_message, hread])]
    rfl
  cases r with
  | ready supported error =>
    have hlen := length_nested_lt (n := 21) h (mem_singleton.mpr rfl)
    refine hagent rfl ?_
    rw [agentEvents, readMessage_agent (.inl rfl) hlen]
    simp only [bind, Except.bind, nestedEvents_message,
      read_ready (length_nested_lt (n := 1) hlen (mem_singleton.mpr rfl)),
      nestedEvents_of_ne (show 1 ≠ 2 by decide), nestedEvents_of_ne (show 1 ≠ 3 by decide)]
    rfl
  | request id connectionId frame =>
    have hlen := length_nested_lt (n := 21) h (mem_singleton.mpr rfl)
    refine hagent rfl ?_
    rw [agentEvents, readMessage_agent (.inr (.inl rfl)) hlen]
    simp only [bind, Except.bind, nestedEvents_message, read_request hfits.1 hfits.2
        (length_nested_lt (n := 2) hlen (mem_singleton.mpr rfl)),
      nestedEvents_of_ne (show 2 ≠ 1 by decide), nestedEvents_of_ne (show 2 ≠ 3 by decide)]
    rfl
  | close id connectionId error =>
    have hlen := length_nested_lt (n := 21) h (mem_singleton.mpr rfl)
    refine hagent rfl ?_
    rw [agentEvents, readMessage_agent (.inr (.inr rfl)) hlen]
    simp only [bind, Except.bind, nestedEvents_message, read_close hfits.1 hfits.2
        (length_nested_lt (n := 3) hlen (mem_singleton.mpr rfl)),
      nestedEvents_of_ne (show 3 ≠ 1 by decide), nestedEvents_of_ne (show 3 ≠ 2 by decide)]
    rfl

private theorem textsOf_messages (fss : List (List Field)) :
    textsOf (fss.map fun fs => (1, message fs)) 1 = fss.map encodeFields := by
  induction fss with
  | nil => rfl
  | cons fs fss ih =>
    rw [map_cons, ← singleton_append, textsOf_append, textsOf_message, ih, if_pos rfl]
    rfl

/-- **Round trip**: the client reads what the server wrote. -/
theorem parseHostDiff_encodeHostMessageWithAgent {instructions : List HostInstruction}
    {queries : List TerminalQuery} {records : List AgentHostRecord}
    (hlen : (encodeHostMessageWithAgent instructions queries records).length < 2 ^ 64)
    (hinstructions : ∀ i ∈ instructions, i.Fits) (hqueries : ∀ q ∈ queries, q.id < 2 ^ 64)
    (hrecords : ∀ r ∈ records, r.Fits) :
    parseHostDiff (encodeHostMessageWithAgent instructions queries records) =
      .ok (instructions.flatMap HostInstruction.hostEvents ++
        queries.flatMap TerminalQuery.hostEvents ++ records.map AgentHostRecord.hostEvent) := by
  have hnested : ∀ fs ∈ hostMessageFields instructions queries records,
      (encodeFields fs).length < 2 ^ 64 := fun fs hfs =>
    length_nested_lt (n := 1) hlen (mem_map.mpr ⟨fs, hfs, rfl⟩)
  have hread : readMessage [text 1] (encodeHostMessageWithAgent instructions queries records) =
      .ok ((hostMessageFields instructions queries records).map fun fs => (1, message fs)) := by
    refine readMessage_encodeFields hlen (by simp) (by simp [message]) ?_
    simp [declared, message, text, Payload.wireType]
  have hevents : (hostMessageFields instructions queries records).map
      (instructionEvents ∘ encodeFields) =
      (instructions.map HostInstruction.hostEvents ++ queries.map TerminalQuery.hostEvents ++
        records.map fun r => [r.hostEvent]).map Except.ok := by
    simp only [hostMessageFields, mem_append, mem_map] at hnested
    simp only [hostMessageFields, map_append, map_map]
    congr 1
    · congr 1
      · exact map_congr_left fun i hi =>
          read_instruction (hinstructions i hi) (hnested _ (.inl (.inl ⟨i, hi, rfl⟩)))
      · exact map_congr_left fun q hq =>
          read_query (hqueries q hq) (hnested _ (.inl (.inr ⟨q, hq, rfl⟩)))
    · exact map_congr_left fun r hr =>
        read_record (hrecords r hr) (hnested _ (.inr ⟨r, hr, rfl⟩))
  rw [parseHostDiff, hread]
  simp only [bind, Except.bind, textsOf_messages]
  rw [mapM_eq_ok (by rw [map_map]; exact hevents)]
  simp only [flatten_append, ← flatMap_def]
  rw [← map_eq_flatMap]

end Zetta.Zosh.Server
