import Mathlib

/-!
# Control functions in a stream of text

A parser of the control functions of ECMA-48 in UTF-8 text: escape sequences, control sequences and
command strings, with the C1 controls in their 7-bit and their 8-bit spelling. `sequences` are the
control sequences of a text, in order. What an escape inside a command string does is a parameter:
it ends the string, as on a terminal, or it belongs to the string.
-/

namespace Zetta.ControlFunctions

/-- A 7-bit byte or a C1 control, or a piece of another character. -/
inductive Code
  | control (byte : UInt8)
  | character

/-- The codes of a text; the flag says that the byte before it was `C2`, which begins the UTF-8
spelling of a C1 control. -/
def decode : Bool → List UInt8 → List Code
  | _, [] => []
  | pending, byte :: bytes =>
    if pending ∧ 0x80 ≤ byte ∧ byte ≤ 0x9f then .control byte :: decode false bytes
    else
      (if pending then [.character] else []) ++
        if byte = 0xc2 then decode true bytes
        else if 0x80 ≤ byte then .character :: decode false bytes
        else .control byte :: decode false bytes

/-- Where a parser is. -/
inductive Parser
  | ground
  | escape
  | intermediate
  | csi (bytes : List UInt8)
  | string (osc : Bool)
  | stringEscape (osc : Bool)

/-- A control sequence: what stands between the introducer and the final byte, and this byte. -/
structure ControlSequence where
  bytes : List UInt8
  final : UInt8
  deriving DecidableEq

namespace Parser

/-- The controls that cancel what is being read. -/
def Cancels (byte : UInt8) : Prop := byte = 0x18 ∨ byte = 0x1a

instance : DecidablePred Cancels := fun _ => inferInstanceAs (Decidable (_ ∨ _))

/-- The control that ends a command string: `BEL` for an operating system command, `CAN`, `SUB` and
`ST`. -/
def Ends (osc : Bool) (byte : UInt8) : Prop := (osc ∧ byte = 0x07) ∨ Cancels byte ∨ byte = 0x9c

instance (osc : Bool) : DecidablePred (Ends osc) := fun _ => inferInstanceAs (Decidable (_ ∨ _))

/-- A C1 control outside a command string. -/
def introduce (byte : UInt8) : Parser :=
  if byte = 0x9b then .csi []
  else if byte = 0x9d then .string true
  else if byte = 0x90 ∨ byte = 0x98 ∨ byte = 0x9e ∨ byte = 0x9f then .string false
  else .ground

/-- What every control does outside a command string, if it does anything. -/
def interrupt (byte : UInt8) : Option Parser :=
  if byte = 0x1b then some .escape
  else if Cancels byte then some .ground
  else if 0x80 ≤ byte then some (introduce byte)
  else none

/-- The byte behind an escape. -/
def stepEscape (byte : UInt8) : Parser :=
  (interrupt byte).getD <|
    if byte < 0x20 ∨ byte = 0x7f then .escape
    else if byte = 0x5b then .csi []
    else if byte = 0x5d then .string true
    else if byte = 0x50 ∨ byte = 0x58 ∨ byte = 0x5e ∨ byte = 0x5f then .string false
    else if byte < 0x30 then .intermediate
    else .ground

/-- One code; `aborts` says that an escape ends a command string. -/
def step (aborts : Bool) (p : Parser) : Code → Parser × Option ControlSequence
  | .control byte =>
    match p with
    | .ground => ((interrupt byte).getD .ground, none)
    | .escape => (stepEscape byte, none)
    | .intermediate =>
      ((interrupt byte).getD (if byte < 0x30 ∨ byte = 0x7f then .intermediate else .ground), none)
    | .csi bytes =>
      match interrupt byte with
      | some p => (p, none)
      | none =>
        if byte < 0x20 ∨ byte = 0x7f then (.csi bytes, none)
        else if byte ≤ 0x3f then (.csi (bytes ++ [byte]), none)
        else (.ground, some ⟨bytes, byte⟩)
    | .string osc =>
      (if Ends osc byte then .ground else if byte = 0x1b then .stringEscape osc else .string osc, none)
    | .stringEscape osc =>
      (if byte = 0x5c then .ground
        else if aborts then stepEscape byte
        else if Ends osc byte then .ground
        else if byte = 0x1b then .stringEscape osc
        else .string osc, none)
  | .character =>
    match p with
    | .string osc => (.string osc, none)
    | .stringEscape osc => (if aborts then .ground else .string osc, none)
    | _ => (.ground, none)

/-- The control sequences among some codes, in order. -/
def sequences (aborts : Bool) (p : Parser) : List Code → List ControlSequence
  | [] => []
  | code :: codes => (p.step aborts code).2.toList ++ sequences aborts (p.step aborts code).1 codes

end Parser

end Zetta.ControlFunctions
