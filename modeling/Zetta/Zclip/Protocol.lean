import Zetta.Lib.Base64
import Zetta.Lib.Decimal
import Zetta.Lib.Text

/-!
# Clipboard messages

Clipboard requests travel inside terminal output, as operating system commands of their own
kind: a request id, the kind of message, and fields for its data, all printable. `Frame.encode`
writes a message, `Frame.parse` reads one from a whole command.

* `Frame.parse_encode`: what is written is read back, for data and error texts that are within
  their limits.
* `Frame.length_encode_le`, `Frame.body_printable`: no such command is longer than a scanner
  will hold, and nothing inside it ends it.
-/

namespace Zetta.Zclip

open List

def CHUNK_SIZE : ℕ := 32 * 1024
/-- The longest error text. -/
def MAX_ERROR : ℕ := 1024
def MAX_SEQUENCE : ℕ := 46 * 1024

/-- `ESC ] 777;zclip;1;` -/
def PREFIX : List UInt8 :=
  [0x1b, 0x5d] ++ ascii ['7', '7', '7', ';', 'z', 'c', 'l', 'i', 'p', ';', '1', ';']

def BEL : UInt8 := 0x07
def ESC : UInt8 := 0x1b
def SEMICOLON : UInt8 := 0x3b

/-- The string terminator. -/
def ST : List UInt8 := [0x1b, 0x5c]

/-- The id of a request: sixteen bytes. -/
abbrev RequestId : Type := { bytes : List UInt8 // bytes.length = 16 }

inductive Message where
  | probe
  | ready
  | copy
  | paste
  | data (sequence : UInt64) (bytes : List UInt8)
  | ack (nextSequence : UInt64)
  | «end»
  | done
  | error (text : String)
  deriving DecidableEq

structure Frame where
  id : RequestId
  message : Message

/-! ### Writing -/

/-- The digit of a value below sixteen. -/
def hexDigit (n : ℕ) : UInt8 := UInt8.ofNat (if n < 10 then 0x30 + n else 0x61 + (n - 10))

/-- Two hexadecimal digits. -/
def hexByte (byte : UInt8) : List UInt8 := [hexDigit (byte.toNat / 16), hexDigit (byte.toNat % 16)]

namespace Message

/-- The fields of a message: its kind, then its data. -/
def fields [Base64] : Message → List (List UInt8)
  | probe => [ascii ['p', 'r', 'o', 'b', 'e']]
  | ready => [ascii ['r', 'e', 'a', 'd', 'y']]
  | copy => [ascii ['c', 'o', 'p', 'y']]
  | paste => [ascii ['p', 'a', 's', 't', 'e']]
  | data sequence bytes =>
    [ascii ['d', 'a', 't', 'a'], Decimal.decimal sequence.toNat, Base64.encode bytes]
  | ack nextSequence => [ascii ['a', 'c', 'k'], Decimal.decimal nextSequence.toNat]
  | «end» => [ascii ['e', 'n', 'd']]
  | done => [ascii ['d', 'o', 'n', 'e']]
  | error text => [ascii ['e', 'r', 'r', 'o', 'r'], Base64.encode (textBytes text)]

end Message

namespace Frame

/-- What stands between the prefix and the terminator. -/
def body [Base64] (frame : Frame) : List UInt8 :=
  frame.id.val.flatMap hexByte ++ frame.message.fields.flatMap fun field => SEMICOLON :: field

def encode [Base64] (frame : Frame) : List UInt8 := PREFIX ++ frame.body ++ [BEL]

end Frame

/-! ### Reading -/

def stripPrefix (start bytes : List UInt8) : Option (List UInt8) :=
  if start.isPrefixOf bytes then some (bytes.drop start.length) else none

def stripSuffix (finish bytes : List UInt8) : Option (List UInt8) :=
  if finish.isSuffixOf bytes then some (bytes.take (bytes.length - finish.length)) else none

/-- `hex_digit` -/
def hexValue (byte : UInt8) : Option ℕ :=
  if 0x30 ≤ byte ∧ byte ≤ 0x39 then some (byte.toNat - 0x30)
  else if 0x61 ≤ byte ∧ byte ≤ 0x66 then some (byte.toNat - 0x61 + 10)
  else if 0x41 ≤ byte ∧ byte ≤ 0x46 then some (byte.toNat - 0x41 + 10)
  else none

/-- The bytes that pairs of hexadecimal digits spell. -/
def hexBytes : List UInt8 → Option (List UInt8)
  | high :: low :: rest => do
    let h ← hexValue high
    let l ← hexValue low
    let bytes ← hexBytes rest
    pure (UInt8.ofNat (h * 16 + l) :: bytes)
  | _ => some []

theorem length_hexBytes {text bytes : List UInt8} (h : hexBytes text = some bytes) :
    bytes.length = text.length / 2 := by
  induction text using hexBytes.induct generalizing bytes with
  | case1 high low rest ih =>
    simp only [hexBytes, Option.bind_eq_bind, Option.bind_eq_some_iff, Option.pure_def,
      Option.some.injEq] at h
    obtain ⟨-, -, -, -, bytes', hrest, rfl⟩ := h
    simp only [length_cons, ih hrest]
    omega
  | case2 text hshort =>
    match text with
    | [] => obtain rfl := Option.some.inj h; rfl
    | [_] => obtain rfl := Option.some.inj h; simp
    | high :: low :: rest => exact absurd rfl (hshort high low rest)

/-- `parse_id` -/
def parseId (text : List UInt8) : Option RequestId :=
  if htext : text.length = 32 then
    match hbytes : hexBytes text with
    | some bytes => some ⟨bytes, by rw [length_hexBytes hbytes, htext]⟩
    | none => none
  else none

/-- A number of 64 bits. -/
def parseU64 (text : List UInt8) : Option UInt64 :=
  (Decimal.parseUnsigned (2 ^ 64) text).map UInt64.ofNat

namespace Message

/-- The message of a kind, and the fields behind it. -/
def parse [Base64] (kind : List UInt8) (fields : List (List UInt8)) :
    Option (Message × List (List UInt8)) :=
  if kind = ascii ['p', 'r', 'o', 'b', 'e'] then some (probe, fields)
  else if kind = ascii ['r', 'e', 'a', 'd', 'y'] then some (ready, fields)
  else if kind = ascii ['c', 'o', 'p', 'y'] then some (copy, fields)
  else if kind = ascii ['p', 'a', 's', 't', 'e'] then some (paste, fields)
  else if kind = ascii ['e', 'n', 'd'] then some («end», fields)
  else if kind = ascii ['d', 'o', 'n', 'e'] then some (done, fields)
  else if kind = ascii ['a', 'c', 'k'] then
    match fields with
    | next :: fields => (parseU64 next).map fun next => (ack next, fields)
    | [] => none
  else if kind = ascii ['d', 'a', 't', 'a'] then
    match fields with
    | sequence :: payload :: fields => do
      let sequence ← parseU64 sequence
      let bytes ← Base64.decode payload
      if CHUNK_SIZE < bytes.length then none else some (data sequence bytes, fields)
    | _ => none
  else if kind = ascii ['e', 'r', 'r', 'o', 'r'] then
    match fields with
    | payload :: fields => do
      let bytes ← Base64.decode payload
      if MAX_ERROR < bytes.length then none
      else (parseText bytes).map fun text => (error text, fields)
    | [] => none
  else none

/-- The message is within its limit. -/
def Fits : Message → Prop
  | data _ bytes => bytes.length ≤ CHUNK_SIZE
  | error text => (textBytes text).length ≤ MAX_ERROR
  | _ => True

instance : DecidablePred Fits
  | data _ _ | error _ => Nat.decLe _ _
  | probe | ready | copy | paste | ack _ | «end» | done => isTrue trivial

end Message

namespace Frame

/-- Reads a whole command. -/
def parse [Base64] (sequence : List UInt8) : Option Frame := do
  let rest ← stripPrefix PREFIX sequence
  let body ← (stripSuffix [BEL] rest).or (stripSuffix ST rest)
  if body.toByteArray.IsValidUTF8 then
    match body.splitOn SEMICOLON with
    | id :: kind :: fields => do
      let id ← parseId id
      let (message, fields) ← Message.parse kind fields
      if fields = [] then some ⟨id, message⟩ else none
    | _ => none
  else none

end Frame

/-! ### Printable bytes -/

/-- Bytes that end no command: printable ASCII. -/
def Printable (bytes : List UInt8) : Prop := ∀ b ∈ bytes, 0x20 ≤ b ∧ b < 0x7f

theorem Printable.append {a b : List UInt8} (ha : Printable a) (hb : Printable b) :
    Printable (a ++ b) := fun x hx => (mem_append.mp hx).elim (ha x) (hb x)

/-- A field: printable, and no semicolon in it. -/
def IsField (bytes : List UInt8) : Prop := Printable bytes ∧ SEMICOLON ∉ bytes

theorem isField_decimal (n : ℕ) : IsField (Decimal.decimal n) := by
  have hdigit : ∀ b ∈ Decimal.decimal n, 0x30 ≤ b ∧ b ≤ 0x39 := fun b hb =>
    Decimal.isDigit_of_mem_decimal hb
  constructor
  · intro b hb
    obtain ⟨hlow, hhigh⟩ := hdigit b hb
    exact ⟨UInt8.le_trans (by decide) hlow, UInt8.lt_of_le_of_lt hhigh (by decide)⟩
  · intro hmem
    exact absurd (hdigit _ hmem).2 (by decide)

variable (bytes : List UInt8)

theorem isField_base64 [Base64] : IsField (Base64.encode bytes) := by
  constructor
  · intro b hb
    obtain ⟨hlow, hhigh, -⟩ := Base64.mem_encode hb
    exact ⟨UInt8.le_trans (by decide) hlow, UInt8.lt_of_le_of_lt hhigh (by decide)⟩
  · intro hmem
    exact (Base64.mem_encode hmem).2.2 rfl

theorem hexDigit_spec {n : ℕ} (h : n < 16) :
    hexValue (hexDigit n) = some n ∧ 0x20 ≤ hexDigit n ∧ hexDigit n < 0x7f ∧
      hexDigit n ≠ SEMICOLON := by
  interval_cases n <;> decide

theorem isField_hexBytes : IsField (bytes.flatMap hexByte) := by
  have hdigit : ∀ b ∈ bytes.flatMap hexByte, ∃ n < 16, b = hexDigit n := by
    intro b hb
    obtain ⟨byte, -, hb⟩ := mem_flatMap.mp hb
    have hlt := byte.toNat_lt
    rcases mem_cons.mp hb with rfl | hb
    · exact ⟨_, by omega, rfl⟩
    · obtain rfl := mem_singleton.mp hb
      exact ⟨_, by omega, rfl⟩
  constructor
  · intro b hb
    obtain ⟨n, hn, rfl⟩ := hdigit b hb
    exact ⟨(hexDigit_spec hn).2.1, (hexDigit_spec hn).2.2.1⟩
  · intro hmem
    obtain ⟨n, hn, heq⟩ := hdigit _ hmem
    exact (hexDigit_spec hn).2.2.2 heq.symm

theorem Message.isField_of_mem_fields [Base64] {message : Message} {field : List UInt8}
    (h : field ∈ message.fields) : IsField field := by
  have hkind : ∀ kind : List UInt8, kind.all (fun b => 0x20 ≤ b && b < 0x7f && b != SEMICOLON) →
      IsField kind := by
    intro kind hkind
    have hall : ∀ b ∈ kind, (0x20 ≤ b ∧ b < 0x7f) ∧ b ≠ SEMICOLON := by
      simpa using hkind
    exact ⟨fun b hb => (hall b hb).1, fun hmem => (hall _ hmem).2 rfl⟩
  cases message <;> simp only [Message.fields, mem_cons, not_mem_nil, or_false] at h
  case data sequence bytes =>
    rcases h with rfl | rfl | rfl
    · exact hkind _ (by decide)
    · exact isField_decimal _
    · exact isField_base64 _
  case ack next =>
    rcases h with rfl | rfl
    · exact hkind _ (by decide)
    · exact isField_decimal _
  case error text =>
    rcases h with rfl | rfl
    · exact hkind _ (by decide)
    · exact isField_base64 _
  all_goals
    subst h
    exact hkind _ (by decide)

namespace Frame

/-- The fields of a command. -/
def allFields [Base64] (frame : Frame) : List (List UInt8) :=
  frame.id.val.flatMap hexByte :: frame.message.fields

theorem body_eq [Base64] (frame : Frame) : frame.body = [SEMICOLON].intercalate frame.allFields := by
  have hjoin : ∀ (first : List UInt8) (rest : List (List UInt8)),
      [SEMICOLON].intercalate (first :: rest) =
        first ++ rest.flatMap fun field => SEMICOLON :: field := by
    intro first rest
    induction rest generalizing first with
    | nil => simp
    | cons second rest ih => simp [intercalate_cons_cons, ih]
  exact (hjoin _ _).symm

theorem isField_of_mem_allFields [Base64] {frame : Frame} {field : List UInt8}
    (h : field ∈ frame.allFields) : IsField field := by
  rcases mem_cons.mp h with rfl | h
  · exact isField_hexBytes _
  · exact Message.isField_of_mem_fields h

/-- **Nothing inside a command ends it.** -/
theorem body_printable [Base64] (frame : Frame) : Printable frame.body := by
  refine (isField_hexBytes _).1.append fun b hb => ?_
  obtain ⟨field, hfield, hb⟩ := mem_flatMap.mp hb
  rcases mem_cons.mp hb with rfl | hb
  · decide
  · exact (Message.isField_of_mem_fields hfield).1 b hb

end Frame

/-! ### Reading what was written -/

theorem hexBytes_flatMap : hexBytes (bytes.flatMap hexByte) = some bytes := by
  induction bytes with
  | nil => rfl
  | cons byte bytes ih =>
    have hlt := byte.toNat_lt
    have hhigh := (hexDigit_spec (show byte.toNat / 16 < 16 by omega)).1
    have hlow := (hexDigit_spec (show byte.toNat % 16 < 16 by omega)).1
    have hbyte : byte.toNat / 16 * 16 + byte.toNat % 16 = byte.toNat := by omega
    rw [flatMap_cons, hexByte, cons_append, cons_append, nil_append, hexBytes,
      hhigh, hlow, ih]
    simp only [Option.bind_eq_bind, Option.bind_some, Option.pure_def, hbyte, UInt8.ofNat_toNat]

theorem length_hexId (id : RequestId) : (id.val.flatMap hexByte).length = 32 := by
  have hbyte : (fun b : UInt8 => (hexByte b).length) = fun _ => 2 := by
    funext b
    rfl
  have hsum : (id.val.map fun b => (hexByte b).length).sum = id.val.length * 2 := by
    rw [hbyte]
    simp
  rw [length_flatMap, hsum, id.property]

theorem parseId_hexBytes (id : RequestId) : parseId (id.val.flatMap hexByte) = some id := by
  rw [parseId, dif_pos (length_hexId id)]
  split
  · next bytes hbytes =>
    rw [hexBytes_flatMap] at hbytes
    exact congrArg some (Subtype.ext (Option.some.inj hbytes).symm)
  · next hnone =>
    rw [hexBytes_flatMap] at hnone
    cases hnone

theorem parseU64_decimal (n : UInt64) : parseU64 (Decimal.decimal n.toNat) = some n := by
  rw [parseU64, Decimal.parseUnsigned_decimal n.toNat_lt, Option.map_some, UInt64.ofNat_toNat]

/-- Printable bytes are a text. -/
theorem Printable.isValidUTF8 {bytes : List UInt8} (h : Printable bytes) :
    bytes.toByteArray.IsValidUTF8 :=
  isValidUTF8_of_isAscii fun b hb => UInt8.lt_trans (h b hb).2 (by decide)

namespace Message

theorem parse_fields [Base64] {message : Message} (h : message.Fits) :
    ∃ kind args, message.fields = kind :: args ∧
      Message.parse kind args = some (message, []) := by
  cases message
  case data sequence bytes =>
    refine ⟨_, _, rfl, ?_⟩
    have hsize : ¬CHUNK_SIZE < bytes.length := Nat.not_lt.mpr h
    simp only [Message.parse]
    iterate 7 rw [if_neg (by decide)]
    rw [if_pos trivial]
    simp [parseU64_decimal, Base64.decode_encode, hsize]
  case ack next =>
    exact ⟨_, _, rfl, by
      simp only [Message.parse]
      iterate 6 rw [if_neg (by decide)]
      rw [if_pos trivial, parseU64_decimal, Option.map_some]⟩
  case error text =>
    refine ⟨_, _, rfl, ?_⟩
    have hsize : ¬MAX_ERROR < (textBytes text).length := Nat.not_lt.mpr h
    simp only [Message.parse]
    iterate 8 rw [if_neg (by decide)]
    rw [if_pos trivial]
    simp [parseText_textBytes, Base64.decode_encode, hsize]
  all_goals exact ⟨_, _, rfl, rfl⟩

/-- The fields of a message, with their separators. -/
theorem length_fields_le [Base64] {message : Message} (h : message.Fits) :
    (message.fields.flatMap fun field => SEMICOLON :: field).length ≤ 43718 := by
  have hdecimal : ∀ n : UInt64, (Decimal.decimal n.toNat).length ≤ 20 := fun n =>
    Decimal.length_decimal_le (by decide) (n.toNat_lt.trans (by decide))
  cases message
  case data sequence bytes =>
    have hsequence := hdecimal sequence
    have hbytes := Base64.three_mul_length_encode_le bytes
    have hsize : bytes.length ≤ 32 * 1024 := h
    simp only [fields, flatMap_cons, flatMap_nil, length_append, length_cons,
      length_nil, ascii, map_cons, map_nil]
    omega
  case ack next =>
    have hnext := hdecimal next
    simp only [fields, flatMap_cons, flatMap_nil, length_append, length_cons,
      length_nil, ascii, map_cons, map_nil]
    omega
  case error text =>
    have hbytes := Base64.three_mul_length_encode_le (textBytes text)
    have hsize : (textBytes text).length ≤ 1024 := h
    simp only [fields, flatMap_cons, flatMap_nil, length_append, length_cons,
      length_nil, ascii, map_cons, map_nil]
    omega
  all_goals simp [fields, ascii]

end Message

namespace Frame

theorem stripPrefix_append (start bytes : List UInt8) :
    stripPrefix start (start ++ bytes) = some bytes := by
  rw [stripPrefix, if_pos (by simp), drop_left]

theorem stripSuffix_append (finish bytes : List UInt8) :
    stripSuffix finish (bytes ++ finish) = some bytes := by
  rw [stripSuffix, if_pos (by simp), length_append, Nat.add_sub_cancel, take_left]

variable {frame : Frame}

/-- **Round trip**: what is written is read back. -/
theorem parse_encode [Base64] (h : frame.message.Fits) : Frame.parse frame.encode = some frame := by
  obtain ⟨kind, args, hfields, hmessage⟩ := Message.parse_fields h
  have hsplit : frame.body.splitOn SEMICOLON = frame.allFields := by
    rw [body_eq]
    exact splitOn_intercalate SEMICOLON
      (fun field hfield => (isField_of_mem_allFields hfield).2) (cons_ne_nil _ _)
  have hid := parseId_hexBytes frame.id
  rw [Frame.parse, Frame.encode, append_assoc, stripPrefix_append]
  simp only [Option.bind_eq_bind, Option.bind_some, stripSuffix_append, Option.some_or]
  rw [if_pos frame.body_printable.isValidUTF8, hsplit, allFields, hfields]
  simp only [hid, Option.bind_some, hmessage, if_true]

/-- **No command is longer than a scanner will hold.** -/
theorem length_encode_le [Base64] (h : frame.message.Fits) : frame.encode.length ≤ MAX_SEQUENCE := by
  have hid : (frame.id.val.flatMap hexByte).length = 32 := length_hexId frame.id
  have hfields := Message.length_fields_le h
  have hstarts : PREFIX.length = 14 := by decide
  simp only [encode, body, length_append, hid, hstarts, length_singleton]
  unfold MAX_SEQUENCE
  omega

end Frame

end Zetta.Zclip
