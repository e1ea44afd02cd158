import Mathlib
import Zetta.Lib.Base64
import Zetta.Lib.Decimal

/-!
# What the client reads of the history above the screen

`ScrollbackState` reads a display diff byte by byte and picks two operating system commands out
of it: the generation of the last clear and the rows that have scrolled off the server's
screen. It is a fold of `feedByte`, so that the chunks a diff arrives in make no difference
(`feed_append`).

Rows are written to the real terminal as they are, so each is first reduced by `sanitizeRow` to
printable text and three kinds of control sequence.
-/

namespace Zetta.Zosh

/-- `777;zosh-clear-scrollback;`. -/
def PREFIX : List UInt8 :=
  [0x37, 0x37, 0x37, 0x3b, 0x7a, 0x6f, 0x73, 0x68, 0x2d, 0x63, 0x6c, 0x65, 0x61, 0x72, 0x2d,
    0x73, 0x63, 0x72, 0x6f, 0x6c, 0x6c, 0x62, 0x61, 0x63, 0x6b, 0x3b]

/-- `777;zosh-scrollback;`. -/
def ROWS_PREFIX : List UInt8 :=
  [0x37, 0x37, 0x37, 0x3b, 0x7a, 0x6f, 0x73, 0x68, 0x2d, 0x73, 0x63, 0x72, 0x6f, 0x6c, 0x6c,
    0x62, 0x61, 0x63, 0x6b, 0x3b]

/-- The size of the marker buffer. -/
def MAX_MARKER : ℕ := 26 + 20

/-- A row's frame: a flags byte, then a big-endian `u32` length. -/
def ROW_HEADER : ℕ := 5

/-- The most Base64 one marker may carry past the marker buffer. -/
def MAX_PAYLOAD : ℕ := 6 * 1024 * 1024

/-- The longest control sequence a row may keep. -/
def MAX_ROW_CSI : ℕ := 64

/-! ### Rows -/

/-- What is being decoded: a character's bits so far, how many bytes it still needs, and the
range of the next one. -/
structure Utf8Partial where
  bits : ℕ
  remaining : ℕ
  low : UInt8
  high : UInt8
  deriving DecidableEq

/-- The first byte of a character of several bytes. -/
def utf8Start (byte : UInt8) : Option Utf8Partial :=
  if 0xc2 ≤ byte ∧ byte ≤ 0xdf then some ⟨byte.toNat - 0xc0, 1, 0x80, 0xbf⟩
  else if byte = 0xe0 then some ⟨0, 2, 0xa0, 0xbf⟩
  else if byte = 0xed then some ⟨0xd, 2, 0x80, 0x9f⟩
  else if 0xe1 ≤ byte ∧ byte ≤ 0xef then some ⟨byte.toNat - 0xe0, 2, 0x80, 0xbf⟩
  else if byte = 0xf0 then some ⟨0, 3, 0x90, 0xbf⟩
  else if 0xf1 ≤ byte ∧ byte ≤ 0xf3 then some ⟨byte.toNat - 0xf0, 3, 0x80, 0xbf⟩
  else if byte = 0xf4 then some ⟨4, 3, 0x80, 0x8f⟩
  else none

/-- The characters of the valid parts of a byte string; bytes that are not UTF-8 are left
out. -/
def utf8Chars : Option Utf8Partial → List UInt8 → List Char
  | _, [] => []
  | state, byte :: bytes =>
    match state with
    | some p =>
      if p.low ≤ byte ∧ byte ≤ p.high then
        let bits := p.bits * 64 + (byte.toNat - 0x80)
        if p.remaining = 1 then Char.ofNat bits :: utf8Chars none bytes
        else utf8Chars (some ⟨bits, p.remaining - 1, 0x80, 0xbf⟩) bytes
      else if byte < 0x80 then Char.ofNat byte.toNat :: utf8Chars none bytes
      else utf8Chars (utf8Start byte) bytes
    | none =>
      if byte < 0x80 then Char.ofNat byte.toNat :: utf8Chars none bytes
      else utf8Chars (utf8Start byte) bytes

/-- What `sanitizeRow` is in the middle of. -/
inductive RowParser where
  | ground | escape | escapeIntermediate | csi | osc | string | stringEscape (osc : Bool)

/-- `sanitize_row` between two characters: what is being read, the control sequence kept so
far, and what is kept of the row. -/
structure RowState where
  parser : RowParser
  csi : List UInt8
  output : List UInt8

/-- `char::is_control`. -/
def isControl (c : Char) : Bool := c.toNat < 0x20 || (0x7f ≤ c.toNat && c.toNat < 0xa0)

/-- The character is between two codes. -/
def inRange (c : Char) (low high : ℕ) : Bool := low ≤ c.toNat && c.toNat ≤ high

/-- A character outside any sequence. -/
def sanitizeGround (s : RowState) (c : Char) : RowState :=
  if c.toNat = 0x1b then { s with parser := .escape }
  else if c.toNat = 0x9b then { s with parser := .csi, csi := [] }
  else if c.toNat = 0x9d then { s with parser := .osc }
  else if c.toNat = 0x90 ∨ c.toNat = 0x98 ∨ c.toNat = 0x9e ∨ c.toNat = 0x9f then
    { s with parser := .string }
  else if isControl c then { s with parser := .ground }
  else { s with parser := .ground, output := s.output ++ String.utf8EncodeChar c }

/-- A character of a control sequence, which is kept only if it is complete and allowed. -/
def sanitizeCsi (s : RowState) (c : Char) : RowState :=
  if (inRange c 0x30 0x39 || c.toNat = 0x3b || c.toNat = 0x3a) && s.csi.length < MAX_ROW_CSI then
    { s with parser := .csi, csi := s.csi ++ [UInt8.ofNat c.toNat] }
  else if (c.toNat = 0x6d || c.toNat = 0x43 || c.toNat = 0x58) &&
      s.csi.length ≤ MAX_ROW_CSI then
    { s with
      parser := .ground
      csi := []
      output := s.output ++ [0x1b, 0x5b] ++ s.csi ++ [UInt8.ofNat c.toNat] }
  else if inRange c 0x20 0x3f then
    { s with parser := .csi, csi := List.replicate (MAX_ROW_CSI + 1) 0 }
  else if c.toNat = 0x1b then { s with parser := .escape }
  else { s with parser := .ground }

/-- The character after an escape. -/
def sanitizeEscape (s : RowState) (c : Char) : RowState :=
  if c.toNat = 0x5b then { s with parser := .csi, csi := [] }
  else if c.toNat = 0x5d then { s with parser := .osc }
  else if c.toNat = 0x50 ∨ c.toNat = 0x58 ∨ c.toNat = 0x5e ∨ c.toNat = 0x5f then
    { s with parser := .string }
  else if c.toNat = 0x1b then { s with parser := .escape }
  else if inRange c 0x20 0x2f then { s with parser := .escapeIntermediate }
  else { s with parser := .ground }

/-- One character of a row. -/
def sanitizeChar (s : RowState) (c : Char) : RowState :=
  if c.toNat = 0x18 ∨ c.toNat = 0x1a then { s with parser := .ground }
  else
    match s.parser with
    | .ground => sanitizeGround s c
    | .escape => sanitizeEscape s c
    | .escapeIntermediate =>
      if inRange c 0x20 0x2f then s
      else if c.toNat = 0x1b then { s with parser := .escape }
      else { s with parser := .ground }
    | .csi => sanitizeCsi s c
    | .osc =>
      if c.toNat = 0x07 ∨ c.toNat = 0x9c then { s with parser := .ground }
      else if c.toNat = 0x1b then { s with parser := .stringEscape true }
      else s
    | .string =>
      if c.toNat = 0x9c then { s with parser := .ground }
      else if c.toNat = 0x1b then { s with parser := .stringEscape false }
      else s
    | .stringEscape osc =>
      if c.toNat = 0x5c then { s with parser := .ground }
      else if c.toNat = 0x1b then s
      else { s with parser := if osc then .osc else .string }

/-- Reduces a carried row to printable text, colours, cursor forward and erase characters. -/
def sanitizeRow (contents : List UInt8) : List UInt8 :=
  ((utf8Chars none contents).foldl sanitizeChar ⟨.ground, [], []⟩).output

/-- One row that scrolled off the top of the server's screen. -/
structure ScrollbackRow where
  contents : List UInt8
  wrapped : Bool
  deriving DecidableEq

/-- `parse_index`: a non-empty run of digits that fits a `u64`. -/
def parseIndex (digits : List UInt8) : Option ℕ :=
  if digits = [] then none else Decimal.parseFrom (2 ^ 64) 0 digits

/-- The value of a big-endian `u32`. -/
def fromBeBytes (bytes : List UInt8) : ℕ := bytes.foldl (fun n b => n * 256 + b.toNat) 0

/-- The rows framed in a payload; the first argument bounds their number. -/
def decodeFrames : ℕ → List UInt8 → Option (List ScrollbackRow)
  | 0, rest => if rest = [] then some [] else none
  | n + 1, rest =>
    if rest = [] then some []
    else if rest.length < ROW_HEADER then none
    else
      let length := fromBeBytes ((rest.take ROW_HEADER).drop 1)
      let tail := rest.drop ROW_HEADER
      if tail.length < length then none
      else
        (decodeFrames n (tail.drop length)).map fun rows =>
          ⟨sanitizeRow (tail.take length), (rest.headD 0) &&& 1 ≠ 0⟩ :: rows

variable [Base64]

/-- `decode_rows`; every row takes at least one byte of the payload. -/
def decodeRows (encoded : List UInt8) : Option (List ScrollbackRow) :=
  (Base64.decode encoded).bind fun payload => decodeFrames payload.length payload

/-! ### The markers -/

/-- Where a `ScrollbackState` is in an escape sequence. -/
inductive ScrollbackParser where
  | ground | escape | osc | oscPayload | oscEnd
  | ignoreOsc | ignoreOscEnd | ignoreString | ignoreEnd

/-- What the client knows of the history above a screen. -/
structure ScrollbackState where
  generation : ℕ
  /-- Whether the server has ever carried rows. -/
  active : Bool
  /-- How many rows had scrolled off the server's screen. -/
  evicted : ℕ
  /-- The rows the last diff carried. -/
  rows : List ScrollbackRow
  /-- The absolute index of the first of them. -/
  rowsFirst : ℕ
  parser : ScrollbackParser
  /-- The part of the marker buffer that is in use. -/
  bytes : List UInt8
  payload : List UInt8

namespace ScrollbackState

/-- Before any diff. -/
def new : ScrollbackState := ⟨0, false, 0, [], 0, .ground, [], []⟩

/-- `FIRST;BASE64`: the rows replace those carried before. -/
def finishRows (s : ScrollbackState) : ScrollbackState :=
  let body := s.bytes.drop ROWS_PREFIX.length
  let digits := body.takeWhile (· != 0x3b)
  if digits.length = body.length then s
  else
    match parseIndex digits with
    | none => s
    | some first =>
      match decodeRows (body.drop (digits.length + 1) ++ s.payload) with
      | none => { s with payload := [] }
      | some rows =>
        { s with
          payload := []
          evicted := min (first + rows.length) (2 ^ 64 - 1)
          rowsFirst := first
          rows := rows
          active := true }

/-- A command is complete. -/
def finish (s : ScrollbackState) : ScrollbackState :=
  let s' := if ROWS_PREFIX.isPrefixOf s.bytes then s else { s with payload := [] }
  if PREFIX.isPrefixOf s'.bytes then
    match parseIndex (s'.bytes.drop PREFIX.length) with
    | some generation => { s' with generation := generation }
    | none => s'
  else if ROWS_PREFIX.isPrefixOf s'.bytes then s'.finishRows
  else s'

/-- A byte inside a command that still fits the marker buffer, or the first past it. -/
def feedOsc (s : ScrollbackState) (byte : UInt8) : ScrollbackState :=
  if byte = 0x07 then { s.finish with parser := .ground }
  else if byte = 0x1b then { s with parser := .oscEnd }
  else if byte = 0x18 ∨ byte = 0x1a then { s with parser := .ground }
  else if s.bytes.length < MAX_MARKER then { s with bytes := s.bytes ++ [byte] }
  else if ROWS_PREFIX.isPrefixOf s.bytes then
    { s with payload := s.payload ++ [byte], parser := .oscPayload }
  else { s with parser := .ignoreOsc }

/-- A byte of the rows of a command. -/
def feedPayload (s : ScrollbackState) (byte : UInt8) : ScrollbackState :=
  if byte = 0x07 then { s.finish with parser := .ground }
  else if byte = 0x1b then { s with parser := .oscEnd }
  else if byte = 0x18 ∨ byte = 0x1a then { s with parser := .ground }
  else if s.payload.length < MAX_PAYLOAD then { s with payload := s.payload ++ [byte] }
  else { s with payload := [], parser := .ignoreOsc }

/-- One byte of a diff. -/
def feedByte (s : ScrollbackState) (byte : UInt8) : ScrollbackState :=
  match s.parser with
  | .ground => if byte = 0x1b then { s with parser := .escape } else s
  | .escape =>
    if byte = 0x5d then { s with parser := .osc, bytes := [], payload := [] }
    else if byte = 0x50 ∨ byte = 0x58 ∨ byte = 0x5e ∨ byte = 0x5f then
      { s with parser := .ignoreString }
    else if byte = 0x1b then s
    else { s with parser := .ground }
  | .osc => s.feedOsc byte
  | .oscPayload => s.feedPayload byte
  | .oscEnd =>
    if byte = 0x5c then { s.finish with parser := .ground } else { s with parser := .ground }
  | .ignoreOsc =>
    if byte = 0x1b then { s with parser := .ignoreOscEnd }
    else if byte = 0x07 ∨ byte = 0x18 ∨ byte = 0x1a then { s with parser := .ground }
    else s
  | .ignoreOscEnd =>
    if byte = 0x5c then { s with parser := .ground } else { s with parser := .ignoreOsc }
  | .ignoreString =>
    if byte = 0x1b then { s with parser := .ignoreEnd }
    else if byte = 0x18 ∨ byte = 0x1a then { s with parser := .ground }
    else s
  | .ignoreEnd =>
    if byte = 0x5c then { s with parser := .ground } else { s with parser := .ignoreString }

/-- Some bytes of a diff. -/
def feed (s : ScrollbackState) (bytes : List UInt8) : ScrollbackState := bytes.foldl feedByte s

variable (s : ScrollbackState)

theorem feed_append (xs ys : List UInt8) : s.feed (xs ++ ys) = (s.feed xs).feed ys :=
  List.foldl_append

/-- Where the chunks of a diff are cut makes no difference. -/
theorem foldl_feed (chunks : List (List UInt8)) : chunks.foldl feed s = s.feed chunks.flatten := by
  induction chunks generalizing s with
  | nil => rfl
  | cons chunk chunks ih => rw [List.foldl_cons, ih, List.flatten_cons, feed_append]

end ScrollbackState

end Zetta.Zosh
