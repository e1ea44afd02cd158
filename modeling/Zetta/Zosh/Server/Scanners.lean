import Mathlib
import Zetta.Lib.Decimal

/-!
# The server's byte scanners

Two small machines read the program's output on its way to the terminal emulator:
`TitleScanner` picks out the window title, and `ScrollbackClearDetector` counts the requests
to clear the scrollback (`CSI 3 J`). Both are folds of a one-byte step, so that the chunks the
output arrives in make no difference (`TitleScanner.feed_append`,
`ScrollbackClearDetector.feed_append`).
-/

namespace Zetta.Zosh.Server

/-! ### The window title -/

/-- Where a `TitleScanner` is in an escape sequence. -/
inductive TitleScannerState where
  | ground | escape | command | text | skip | terminator
  deriving DecidableEq

/-- The longest title accepted. -/
def MAX_TITLE_BYTES : ℕ := 4096

/-- The UTF-8 encoding of the character with this Latin-1 code. -/
def encodeLatin1 (byte : UInt8) : List UInt8 :=
  if byte < 0x80 then [byte] else [(0xc0 : UInt8) ||| byte >>> 6, (0x80 : UInt8) ||| byte &&& 0x3f]

/-- Picks the window title out of the program's byte stream; titles are kept as UTF-8. -/
structure TitleScanner where
  state : TitleScannerState
  /-- The OSC number read so far, a `u16`. -/
  command : UInt16
  pending : List UInt8
  title : Option (List UInt8)

namespace TitleScanner

/-- The scanner before any output. -/
def new : TitleScanner := ⟨.ground, 0, [], none⟩

/-- The end of a sequence: from `text` or `terminator` the text read becomes the title. -/
def finish (t : TitleScanner) : TitleScanner :=
  { t with
    title := if t.state = .text ∨ t.state = .terminator then some t.pending else t.title
    pending := []
    state := .ground }

/-- `saturating_mul(10)` and the next digit. -/
def pushDigit (command : UInt16) (byte : UInt8) : UInt16 :=
  UInt16.ofNat (min (command.toNat * 10) 65535) + (byte - 0x30).toUInt16

/-- One byte of the text of a sequence, a title or one that is skipped. -/
def stepText (t : TitleScanner) (byte : UInt8) : TitleScanner :=
  if byte = 0x07 then t.finish
  else if byte = 0x1b then { t with state := .terminator }
  else if byte = 0x18 ∨ byte = 0x1a then { t with state := .ground }
  else if t.state = .text then
    if byte < 0x20 ∨ MAX_TITLE_BYTES ≤ t.pending.length then { t with state := .ground }
    else { t with pending := t.pending ++ encodeLatin1 byte }
  else t

/-- One byte of output. -/
def step (t : TitleScanner) (byte : UInt8) : TitleScanner :=
  match t.state with
  | .ground => if byte = 0x1b then { t with state := .escape } else t
  | .escape =>
    if byte = 0x5d then { t with state := .command, command := 0, pending := [] }
    else { t with state := .ground }
  | .command =>
    if 0x30 ≤ byte ∧ byte ≤ 0x39 then { t with command := pushDigit t.command byte }
    else if byte = 0x3b then
      { t with state := if t.command = 0 ∨ t.command = 2 then .text else .skip }
    else { t with state := .ground }
  | .text | .skip => t.stepText byte
  | .terminator =>
    if byte = 0x5c then t.finish
    else if byte = 0x1b then t
    else stepText { t with state := .text } byte

/-- A chunk of output. -/
def feed (t : TitleScanner) (bytes : List UInt8) : TitleScanner :=
  bytes.foldl step t

theorem feed_append (t : TitleScanner) (xs ys : List UInt8) :
    t.feed (xs ++ ys) = (t.feed xs).feed ys :=
  List.foldl_append

end TitleScanner

/-! ### Requests to clear the scrollback -/

/-- Where a `ScrollbackClearDetector` is in an escape sequence. -/
inductive ScrollbackDetectorState where
  | ground | escape | csi | osc | oscEnd | string | stringEnd

/-- How many parameter bytes of a control sequence are kept. -/
def PARAMETERS_LEN : ℕ := 100

/-- Recognises `CSI 3 J` in the program's byte stream. -/
structure ScrollbackClearDetector where
  state : ScrollbackDetectorState
  parameters : List UInt8
  overflowed : Bool
  /-- The last byte was `C2`, which begins the UTF-8 spelling of a C1 control. -/
  c1Utf8Prefix : Bool

/-- The first parameter of a control sequence is a spelling of `3`. -/
def firstParameterIsThree (parameters : List UInt8) : Bool :=
  let first := parameters.takeWhile (· != 0x3b)
  !first.isEmpty && Decimal.parseFrom (2 ^ 64) 0 first == some 3

namespace ScrollbackClearDetector

/-- The detector before any output. -/
def new : ScrollbackClearDetector := ⟨.ground, [], false, false⟩

/-- A control sequence begins. -/
def startCsi (d : ScrollbackClearDetector) : ScrollbackClearDetector :=
  { d with state := .csi, parameters := [], overflowed := false }

/-- One byte inside a control sequence; the flag says that it completed a clear. -/
def stepCsi (d : ScrollbackClearDetector) (byte : UInt8) : ScrollbackClearDetector × Bool :=
  if byte = 0x1b then ({ d with state := .escape }, false)
  else if byte = 0x18 ∨ byte = 0x1a then ({ d with state := .ground }, false)
  else if 0x20 ≤ byte ∧ byte ≤ 0x3f then
    if d.parameters.length < PARAMETERS_LEN then
      ({ d with parameters := d.parameters ++ [byte] }, false)
    else ({ d with overflowed := true }, false)
  else if 0x40 ≤ byte ∧ byte ≤ 0x7e then
    ({ d with state := .ground, parameters := [], overflowed := false },
      !d.overflowed && byte == 0x4a && firstParameterIsThree d.parameters)
  else (d, false)

/-- One decoded byte; the flag says that it completed a clear. -/
def step (d : ScrollbackClearDetector) (byte : UInt8) : ScrollbackClearDetector × Bool :=
  match d.state with
  | .ground =>
    if byte = 0x1b then ({ d with state := .escape }, false)
    else if byte = 0x90 ∨ byte = 0x98 ∨ byte = 0x9e ∨ byte = 0x9f then
      ({ d with state := .string }, false)
    else if byte = 0x9b then (d.startCsi, false)
    else if byte = 0x9d then ({ d with state := .osc }, false)
    else (d, false)
  | .escape =>
    if byte = 0x5b then (d.startCsi, false)
    else if byte = 0x5d then ({ d with state := .osc }, false)
    else if byte = 0x50 ∨ byte = 0x58 ∨ byte = 0x5e ∨ byte = 0x5f then
      ({ d with state := .string }, false)
    else if byte = 0x9b then (d.startCsi, false)
    else if byte = 0x9d then ({ d with state := .osc }, false)
    else if byte = 0x1b then (d, false)
    else ({ d with state := .ground }, false)
  | .csi => d.stepCsi byte
  | .osc =>
    if byte = 0x07 ∨ byte = 0x18 ∨ byte = 0x1a then ({ d with state := .ground }, false)
    else if byte = 0x1b then ({ d with state := .oscEnd }, false)
    else (d, false)
  | .oscEnd =>
    if byte = 0x5c then ({ d with state := .ground }, false)
    else if byte = 0x1b then (d, false)
    else ({ d with state := .osc }, false)
  | .string =>
    if byte = 0x18 ∨ byte = 0x1a then ({ d with state := .ground }, false)
    else if byte = 0x1b then ({ d with state := .stringEnd }, false)
    else (d, false)
  | .stringEnd =>
    if byte = 0x5c then ({ d with state := .ground }, false)
    else if byte = 0x1b then (d, false)
    else ({ d with state := .string }, false)

/-- One raw byte: only the ASCII bytes and the UTF-8 spellings of C1 controls are read. -/
def feedByte (d : ScrollbackClearDetector) (byte : UInt8) : ScrollbackClearDetector × Bool :=
  let d' := { d with c1Utf8Prefix := false }
  if d.c1Utf8Prefix ∧ 0x80 ≤ byte ∧ byte ≤ 0x9f then d'.step byte
  else if byte = 0xc2 then ({ d with c1Utf8Prefix := true }, false)
  else if 0x80 ≤ byte then (d', false)
  else d'.step byte

/-- A chunk of output, with the number of clears it completed. -/
def feed (d : ScrollbackClearDetector) : List UInt8 → ScrollbackClearDetector × ℕ
  | [] => (d, 0)
  | byte :: bytes =>
    let (d', clear) := d.feedByte byte
    let (d'', count) := d'.feed bytes
    (d'', clear.toNat + count)

/-- Where the chunks are cut makes no difference: a clear split over two chunks is found, and
counted once. -/
theorem feed_append (d : ScrollbackClearDetector) (xs ys : List UInt8) :
    d.feed (xs ++ ys) =
      (((d.feed xs).1.feed ys).1, (d.feed xs).2 + ((d.feed xs).1.feed ys).2) := by
  induction xs generalizing d with
  | nil => simp [feed]
  | cons x xs ih =>
    simp only [List.cons_append, feed, ih]
    rw [Nat.add_assoc]

end ScrollbackClearDetector

end Zetta.Zosh.Server
