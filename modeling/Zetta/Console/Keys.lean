import Mathlib

/-!
# Records of input

The console keeps what is typed as `INPUT_RECORD`s of twenty bytes. A record reaches a text read
through `getChar`, which makes a character, a key of the line editor or nothing of it, and what a
read returns is as much of its text as fits the caller's buffer (`encodePrefix`).
-/

namespace Zetta.Console

/-- An `INPUT_RECORD`, by the places that a key event gives its twenty bytes. -/
structure InputRecord where
  eventType : UInt16
  padding : UInt16
  down : UInt32
  repeatCount : UInt16
  vk : UInt16
  scan : UInt16
  ch : UInt16
  state : UInt32
  deriving DecidableEq

/-- What the platform decides: the key that types NUL (`VkKeyScanW(0)`), and the code pages. -/
structure Platform where
  zeroKey : UInt16
  fromUtf16 : UInt32 → List UInt16 → List UInt8

def record (vk scan ch : UInt16) (down control : UInt32) (repeatCount : UInt16) : InputRecord :=
  ⟨1, 0, down, repeatCount, vk, scan, ch, control⟩

/-- `InputBuffer::_writeString`: a key-down with no virtual key. -/
def recordChar (unit : UInt16) : InputRecord := record 0 0 unit 1 0 1

/-- A window buffer size event: the columns and the rows stand where a key event says whether the
key is down. -/
def recordSize (columns rows : UInt16) : InputRecord :=
  ⟨4, 0, columns.toUInt32 ||| (rows.toUInt32 <<< 16), 0, 0, 0, 0, 0⟩

/-! ### Modifiers and control keys -/

def RIGHT_ALT : UInt32 := 0x1
def LEFT_ALT : UInt32 := 0x2
def RIGHT_CTRL : UInt32 := 0x4
def LEFT_CTRL : UInt32 := 0x8
def SHIFT : UInt32 := 0x10

def alt (state : UInt32) : Bool := state &&& (LEFT_ALT ||| RIGHT_ALT) != 0

def ctrl (state : UInt32) : Bool := state &&& (LEFT_CTRL ||| RIGHT_CTRL) != 0

def shift (state : UInt32) : Bool := state &&& SHIFT != 0

/-- Control keys found while decoding; they are consumed, never queued. -/
structure Controls where
  ctrlC : Bool
  ctrlBreak : Bool

namespace Controls

def none : Controls := ⟨false, false⟩

def any (c : Controls) : Bool := c.ctrlC || c.ctrlBreak

def or (c d : Controls) : Controls := ⟨c.ctrlC || d.ctrlC, c.ctrlBreak || d.ctrlBreak⟩

@[simp]
theorem any_none : none.any = false := rfl

@[simp]
theorem any_or (c d : Controls) : (c.or d).any = (c.any || d.any) := by
  simp [any, or, Bool.or_assoc, Bool.or_left_comm]

end Controls

def VK_CANCEL : UInt16 := 0x03

/-- Ctrl+C only in processed mode, Ctrl+Break always. -/
def controlKey (r : InputRecord) (processed : Bool) : Controls :=
  if r.down = 0 then .none
  else if ctrl r.state && r.vk == VK_CANCEL then ⟨false, true⟩
  else if processed && (r.ch == 3 || ctrl r.state && !alt r.state && r.vk == 67) then ⟨true, false⟩
  else .none

/-! ### Keys as virtual terminal text -/

def ascii (text : String) : List UInt16 := text.toList.map fun c => UInt16.ofNat c.toNat

/-- One code unit as `String::from_utf16_lossy` takes it. -/
def lossy (unit : UInt16) : UInt16 := if 0xd800 ≤ unit ∧ unit < 0xe000 then 0xfffd else unit

/-- The encoding of a key for VT input mode, as UTF-16: the text for one press, as often as the
record repeats it. -/
def vtText (r : InputRecord) : Option (List UInt16) :=
  if r.eventType ≠ 1 ∨ r.down &&& 0xff = 0 then none
  else
    let modifier := 1 + (shift r.state).toNat + 2 * (alt r.state).toNat + 4 * (ctrl r.state).toNat
    let csi (final : String) : List UInt16 :=
      if 1 < modifier then ascii ("\x1b[1;" ++ toString modifier ++ final)
      else ascii ("\x1b[" ++ final)
    let tilde (id : ℕ) : List UInt16 :=
      if 1 < modifier then ascii ("\x1b[" ++ toString id ++ ";" ++ toString modifier ++ "~")
      else ascii ("\x1b[" ++ toString id ++ "~")
    let function (final : String) : List UInt16 :=
      if 1 < modifier then csi final else ascii ("\x1bO" ++ final)
    let text : Option (List UInt16) :=
      match r.vk.toNat with
      | 0x26 => some (csi "A")
      | 0x28 => some (csi "B")
      | 0x27 => some (csi "C")
      | 0x25 => some (csi "D")
      | 0x24 => some (csi "H")
      | 0x23 => some (csi "F")
      | 0x2d => some (tilde 2)
      | 0x2e => some (tilde 3)
      | 0x21 => some (tilde 5)
      | 0x22 => some (tilde 6)
      | 0x70 => some (function "P")
      | 0x71 => some (function "Q")
      | 0x72 => some (function "R")
      | 0x73 => some (function "S")
      | 0x74 => some (tilde 15)
      | 0x75 => some (tilde 17)
      | 0x76 => some (tilde 18)
      | 0x77 => some (tilde 19)
      | 0x78 => some (tilde 20)
      | 0x79 => some (tilde 21)
      | 0x7a => some (tilde 23)
      | 0x7b => some (tilde 24)
      | vk =>
        if vk = 0x09 ∧ shift r.state then some (ascii "\x1b[Z")
        else if vk = 0x08 then some (ascii (if alt r.state then "\x1b\x7f" else "\x7f"))
        else if r.ch ≠ 0 then
          -- AltGr is no Alt.
          some ((if alt r.state ∧ r.state &&& (LEFT_CTRL ||| RIGHT_ALT) ≠ LEFT_CTRL ||| RIGHT_ALT
            then ascii "\x1b" else []) ++ [lossy r.ch])
        else none
    text.map fun text => (List.replicate (max r.repeatCount.toNat 1) text).flatten

/-! ### What a text read makes of a record -/

/-- Which keys arrive as keys: none for a raw read, those of the line editor for a cooked one, and
those of a popup while it is open. -/
inductive Keys
  | plain
  | editing
  | popup
  deriving DecidableEq

inductive Key
  | char (ch : UInt16) (state : UInt32)
  | vkey (vk : UInt16) (state : UInt32)

def VK_MENU : UInt16 := 0x12
def VK_ESCAPE : UInt16 := 0x1b

/-- Escape, Page Up, Page Down, End, Home, the arrows, F2, F4, F7, F9 and Delete. -/
def popupKeys : List UInt16 :=
  [0x1b, 0x21, 0x22, 0x23, 0x24, 0x25, 0x26, 0x27, 0x28, 0x71, 0x73, 0x76, 0x78, 0x2e]

/-- Insert, F1, F3, F5, F6 and F8. -/
def lineKeys : List UInt16 := [0x2d, 0x70, 0x72, 0x74, 0x75, 0x77]

def isEditingKey (vk : UInt16) (state : UInt32) (keys : Keys) : Bool :=
  if !alt state && !ctrl state then
    match keys with
    | .popup => popupKeys.contains vk
    | .editing => popupKeys.contains vk || lineKeys.contains vk
    | .plain => false
  else if keys ≠ .editing then false
  else (ctrl state && [0x23, 0x24, 0x25, 0x27].contains vk) || (alt state && [0x76, 0x79].contains vk)

/-- A character from a key press (Escape and LF only in VT input mode), a key of the line editor,
or nothing for releases and other events. -/
def getChar (p : Platform) (r : InputRecord) (keys : Keys) (vt : Bool) : Option Key :=
  if r.eventType ≠ 1 then none
  else
    let down := r.down != 0
    let editing := isEditingKey r.vk r.state keys
    -- Alt+numpad composition delivers its character on Alt's release.
    if r.ch ≠ 0 ∧ !editing ∧ !down ∧ r.vk = VK_MENU then some (.char r.ch r.state)
    else if r.ch ≠ 0 ∧ !editing ∧ down ∧ (vt ∨ (r.vk ≠ VK_ESCAPE ∧ r.ch ≠ 10)) then
      some (.char r.ch r.state)
    else if down ∧ editing then some (.vkey r.vk r.state)
    else if down ∧ p.zeroKey &&& 0xff = r.vk ∧ alt r.state = (p.zeroKey &&& 0x400 != 0) ∧
        ctrl r.state = (p.zeroKey &&& 0x200 != 0) ∧ shift r.state = (p.zeroKey &&& 0x100 != 0) then
      some (.char r.ch r.state)
    else none

/-- The character that a raw read gets of a record. -/
def plainChar (p : Platform) (vt : Bool) (r : InputRecord) : Option UInt16 :=
  match getChar p r .plain vt with
  | some (.char ch _) => some ch
  | _ => none

/-- The bytes of the caller's buffer that a raw read keeps for a character. -/
def charCost (p : Platform) (unicode : Bool) (codePage : UInt32) (ch : UInt16) : ℕ :=
  if unicode then 2 else max (p.fromUtf16 codePage [ch]).length 1

theorem charCost_pos (p : Platform) (unicode : Bool) (codePage : UInt32) (ch : UInt16) :
    0 < charCost p unicode codePage ch := by
  rw [charCost]
  split_ifs
  · exact Nat.two_pos
  · exact lt_of_lt_of_le Nat.one_pos (le_max_right _ _)

/-- Whether a raw read may take another record. -/
def within (taken : ℕ) (limit : Option ℕ) : Bool := limit.all fun limit => taken < limit

/-- The loop of a raw read, from the records and the text it has: the records that are left, and
the text. -/
def takeChars (p : Platform) (vt unicode : Bool) (codePage : UInt32) (capacity : ℕ)
    (limit : Option ℕ) (taken used : ℕ) (text : List UInt16) :
    List InputRecord → List InputRecord × List UInt16
  | [] => ([], text)
  | r :: rest =>
    if within taken limit then
      match plainChar p vt r with
      | none => takeChars p vt unicode codePage capacity limit (taken + 1) used text rest
      | some ch =>
        if used + charCost p unicode codePage ch > capacity then (r :: rest, text)
        else
          -- A key that repeats goes back with one repeat less.
          takeChars p vt unicode codePage capacity limit (taken + 1)
            (used + charCost p unicode codePage ch) (text ++ [ch])
            (if 1 < r.repeatCount then { r with repeatCount := r.repeatCount - 1 } :: rest
              else rest)
    else (r :: rest, text)
termination_by records => capacity - used + records.length
decreasing_by
  · simp only [List.length_cons]; omega
  · have := charCost_pos p unicode codePage ch
    split_ifs
    · simp only [List.length_cons]; omega
    · simp only [List.length_cons]; omega

/-! ### What fits the caller's buffer -/

def isHigh (unit : UInt16) : Bool := 0xd800 ≤ unit && unit < 0xdc00

def isLow (unit : UInt16) : Bool := 0xdc00 ≤ unit && unit < 0xe000

/-- `char::decode_utf16`, each character as UTF-16 again. -/
def utf16Chars : List UInt16 → List (List UInt16)
  | [] => []
  | [unit] => [[lossy unit]]
  | unit :: next :: rest =>
    if isHigh unit && isLow next then [unit, next] :: utf16Chars rest
    else [lossy unit] :: utf16Chars (next :: rest)

/-- The characters that fit, as bytes in a code page, and the code units they are. -/
def encodeChars (p : Platform) (codePage : UInt32) (capacity : ℕ) (bytes : List UInt8)
    (units : ℕ) : List (List UInt16) → List UInt8 × ℕ
  | [] => (bytes, units)
  | wide :: rest =>
    let encoded := p.fromUtf16 codePage wide
    if bytes.length + encoded.length > capacity then (bytes, units)
    else encodeChars p codePage capacity (bytes ++ encoded) (units + wide.length) rest

/-- `InputBuffer::Consume`: as much of the text as fits, in UTF-16 or in whole characters of the
input code page, and how many code units that is. -/
def encodePrefix (p : Platform) (text : List UInt16) (capacity : ℕ) (unicode : Bool)
    (codePage : UInt32) : List UInt8 × ℕ :=
  if unicode then
    let count := min (capacity / 2) text.length
    ((text.take count).flatMap fun (unit : UInt16) => [unit.toUInt8, (unit >>> 8).toUInt8], count)
  else encodeChars p codePage capacity [] 0 (utf16Chars text)

/-- A record as the records of the bytes its character is in the code page. -/
def expandRecord (p : Platform) (codePage : UInt32) (r : InputRecord) : List InputRecord :=
  if r.eventType ≠ 1 ∨ r.ch < 0x80 then [r]
  else
    let encoded := p.fromUtf16 codePage [r.ch]
    (if encoded = [] then [63] else encoded).map fun byte => { r with ch := byte.toUInt16 }

/-- The loop of `ReadConsoleInputA`: what the records come to until there is enough, and how many
there were. -/
def expandRecords (p : Platform) (codePage : UInt32) (capacity : ℕ) (out : List InputRecord)
    (consumed : ℕ) : List InputRecord → List InputRecord × ℕ
  | [] => (out, consumed)
  | r :: rest =>
    if capacity ≤ out.length then (out, consumed)
    else expandRecords p codePage capacity (out ++ expandRecord p codePage r) (consumed + 1) rest

end Zetta.Console
