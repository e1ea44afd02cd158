import Zetta.Zclip.Scanner

/-!
# The client's proxy of terminal queries

The server relays the queries that a program makes of the terminal it is shown on. The client writes
them to its own terminal and looks for the answers among what is typed: `TerminalQueryProxy` holds
back an operating system command until it ends, and then it is an answer to a pending query, or input
of the user.

* `emitted_append_held_iff`: what is emitted, with what is held, is what was fed if and only if no
  byte is lost: a command that is cancelled loses the byte that cancels it, and a command inside
  another loses what was held of the other (`losing`).
* `withheld_of_calls`: what is held at the end of a read is an ESC, or the beginning of a command,
  whichever queries are pending. A read gives what was held before it and what was fed, in order,
  but for the bytes that are lost; and while no query is pending, all of it goes to the user.
-/

namespace Zetta.Zclip.Osc52

/-- Bound of the relay's scanner. -/
def MAX_SEQUENCE_BYTES : ℕ := 256 * 1024

/-- `ESC ] 52;` -/
def WRITE : List UInt8 := [0x1b, 0x5d, 0x35, 0x32, 0x3b]

def isTarget (byte : UInt8) : Bool :=
  [0x63, 0x70, 0x71, 0x73].contains byte || (0x30 ≤ byte && byte ≤ 0x37)

def isBase64 (byte : UInt8) : Bool :=
  (0x30 ≤ byte && byte ≤ 0x39) || (0x41 ≤ byte && byte ≤ 0x5a) || (0x61 ≤ byte && byte ≤ 0x7a) ||
    [0x2b, 0x2f, 0x3d].contains byte

/-- A clipboard write, which has no response. -/
def isWrite (sequence : List UInt8) : Bool :=
  sequence.length ≤ MAX_SEQUENCE_BYTES &&
    ((stripPrefix WRITE sequence).bind fun payload =>
        (stripSuffix [BEL] payload).or (stripSuffix ST payload)).any fun payload =>
      payload.contains SEMICOLON && (payload.takeWhile (· != SEMICOLON)).all isTarget &&
        ((payload.dropWhile (· != SEMICOLON)).drop 1).all isBase64

end Zetta.Zclip.Osc52

namespace Zetta.Zosh

open Zclip (BEL ESC CAN SUB OSC ST SEMICOLON RequestId Frame Message)

/-! ### Queries and responses -/

def MAX_TERMINAL_QUERY_SEQUENCE : ℕ := 46 * 1024
def MAX_PENDING_TERMINAL_QUERIES : ℕ := 128

inductive ColorQueryKind
  | foreground
  | background
  deriving DecidableEq

inductive TerminalQueryKind
  | color (kind : ColorQueryKind)
  | clipboard (id : RequestId)
  deriving DecidableEq

/-- What stands between the introducer and the terminator of a command. -/
def oscPayload (sequence : List UInt8) : Option (List UInt8) :=
  if !OSC.isPrefixOf sequence then none
  else if [BEL].isSuffixOf sequence then some ((sequence.take (sequence.length - 1)).drop 2)
  else if ST.isSuffixOf sequence ∧ 4 ≤ sequence.length then
    some ((sequence.take (sequence.length - 2)).drop 2)
  else none

def terminalColorOsc (sequence : List UInt8) : Option (ColorQueryKind × List UInt8) :=
  (oscPayload sequence).bind fun payload =>
    if !payload.contains SEMICOLON then none
    else
      let value := (payload.dropWhile (· != SEMICOLON)).drop 1
      if payload.takeWhile (· != SEMICOLON) = [0x31, 0x30] then some (.foreground, value)
      else if payload.takeWhile (· != SEMICOLON) = [0x31, 0x31] then some (.background, value)
      else none

def terminalColorQueryKind (sequence : List UInt8) : Option ColorQueryKind :=
  (terminalColorOsc sequence).bind fun (kind, value) => if value = [0x3f] then some kind else none

def terminalColorResponseKind (sequence : List UInt8) : Option ColorQueryKind :=
  (terminalColorOsc sequence).bind fun (kind, value) =>
    if value ≠ [] ∧ value ≠ [0x3f] then some kind else none

/-- The messages that answer a clipboard request. -/
def answers : Message → Bool
  | .ready => true
  | .ack _ => true
  | .data _ _ => true
  | .done => true
  | .error _ => true
  | _ => false

section

variable [Base64]

/-- The query that a sequence asks. -/
def queryKind (query : List UInt8) : Option TerminalQueryKind :=
  ((terminalColorQueryKind query).map .color).or
    ((Frame.parse query).map fun frame => .clipboard frame.id)

/-- The query that a sequence answers. -/
def responseKind (sequence : List UInt8) : Option TerminalQueryKind :=
  ((terminalColorResponseKind sequence).map .color).or
    ((Frame.parse sequence).bind fun frame =>
      if answers frame.message then some (.clipboard frame.id) else none)

/-! ### The proxy -/

inductive TerminalQueryInputState
  | ground
  | escape
  | osc
  | oscEscape
  deriving DecidableEq

inductive ProxiedInput
  | user (bytes : List UInt8)
  | terminalResponse (bytes : List UInt8)
  deriving DecidableEq

namespace ProxiedInput

def bytes : ProxiedInput → List UInt8
  | .user bytes => bytes
  | .terminalResponse bytes => bytes

def isUser : ProxiedInput → Bool
  | .user _ => true
  | .terminalResponse _ => false

end ProxiedInput

/-- What is emitted, in order. -/
def emitted (output : List ProxiedInput) : List UInt8 := output.flatMap ProxiedInput.bytes

def pushUser (output : List ProxiedInput) (bytes : List UInt8) : List ProxiedInput :=
  if bytes = [] then output
  else
    match output.getLast? with
    | some (.user existing) => output.dropLast ++ [.user (existing ++ bytes)]
    | _ => output ++ [.user bytes]

omit [Base64] in
theorem emitted_append (output rest : List ProxiedInput) :
    emitted (output ++ rest) = emitted output ++ emitted rest :=
  List.flatMap_append

omit [Base64] in
theorem emitted_pushUser (output : List ProxiedInput) (bytes : List UInt8) :
    emitted (pushUser output bytes) = emitted output ++ bytes := by
  rw [pushUser]
  split_ifs with hnil
  · rw [hnil, List.append_nil]
  · split
    next existing hlast =>
      obtain ⟨init, rfl⟩ := List.getLast?_eq_some_iff.mp hlast
      simp [emitted, ProxiedInput.bytes]
    next => simp [emitted, ProxiedInput.bytes]

omit [Base64] in
theorem pushUser_isUser {output : List ProxiedInput} (h : ∀ input ∈ output, input.isUser = true)
    (bytes : List UInt8) : ∀ input ∈ pushUser output bytes, input.isUser = true := by
  rw [pushUser]
  split_ifs
  · exact h
  · split
    next existing _ =>
      intro input hinput
      rcases List.mem_append.mp hinput with hinit | hlast
      · exact h input (List.dropLast_subset _ hinit)
      · rw [List.mem_singleton.mp hlast]
        rfl
    next =>
      intro input hinput
      rcases List.mem_append.mp hinput with hinit | hlast
      · exact h input hinit
      · rw [List.mem_singleton.mp hlast]
        rfl

structure TerminalQueryProxy where
  pending : List TerminalQueryKind
  state : TerminalQueryInputState
  /-- The bytes that are held. -/
  sequence : List UInt8
  deriving DecidableEq

/-- What a proxy and the output of one call come to. -/
abbrev Step : Type := TerminalQueryProxy × List ProxiedInput

namespace TerminalQueryProxy

def new : TerminalQueryProxy := ⟨[], .ground, []⟩

/-- A query is noted, unless it has no response or too many are pending; the flag says that it is
written to the terminal. -/
def registerQuery (s : TerminalQueryProxy) (query : List UInt8) : TerminalQueryProxy × Bool :=
  if Zclip.Osc52.isWrite query then (s, true)
  else
    match queryKind query with
    | none => (s, false)
    | some kind =>
      if MAX_PENDING_TERMINAL_QUERIES ≤ s.pending.length then (s, false)
      else ({ s with pending := s.pending ++ [kind] }, true)

/-- What is held goes to the user. -/
def abandon (s : TerminalQueryProxy) (output : List ProxiedInput) : Step :=
  ({ s with state := .ground, sequence := [] }, pushUser output s.sequence)

def groundStep (s : TerminalQueryProxy) (byte : UInt8) (output : List ProxiedInput) : Step :=
  if byte = ESC then ({ s with state := .escape, sequence := [byte] }, output)
  else (s, pushUser output [byte])

/-- A byte joins what is held, as long as there is room; the flag says that there was. -/
def pushSequenceByte (s : TerminalQueryProxy) (byte : UInt8) (output : List ProxiedInput) :
    Step × Bool :=
  if MAX_TERMINAL_QUERY_SEQUENCE ≤ s.sequence.length then
    let (s, output) := s.abandon output
    (s.groundStep byte output, false)
  else (({ s with sequence := s.sequence ++ [byte] }, output), true)

/-- A complete command is an answer to a pending query, or input. -/
def finishSequence (s : TerminalQueryProxy) (output : List ProxiedInput) : Step :=
  let ended := { s with state := .ground, sequence := [] }
  match (responseKind s.sequence).bind fun kind => s.pending.findIdx? (· = kind) with
  | some index =>
    ({ ended with pending := s.pending.eraseIdx index },
      output ++ [.terminalResponse s.sequence])
  | none => (ended, pushUser output s.sequence)

def step (s : TerminalQueryProxy) (byte : UInt8) (output : List ProxiedInput) : Step :=
  match s.state with
  | .ground => s.groundStep byte output
  | .escape =>
    if byte = 0x5d then
      let ((s, output), _) := s.pushSequenceByte byte output
      ({ s with state := .osc }, output)
    else
      let (s, output) := s.abandon output
      s.groundStep byte output
  | .osc =>
    if byte = CAN ∨ byte = SUB then s.abandon output
    else
      let ((s, output), pushed) := s.pushSequenceByte byte output
      if pushed ∧ byte = BEL then s.finishSequence output
      else if pushed ∧ byte = ESC then ({ s with state := .oscEscape }, output)
      else (s, output)
  | .oscEscape =>
    let ((s, output), pushed) := s.pushSequenceByte byte output
    if !pushed then (s, output)
    else if byte = 0x5c then s.finishSequence output
    -- `start_osc`
    else if byte = 0x5d then ({ s with state := .osc, sequence := OSC }, output)
    else ({ s with state := .osc }, output)

def filterFrom (s : TerminalQueryProxy) : List UInt8 → List ProxiedInput → Step
  | [], output => (s, output)
  | byte :: bytes, output =>
    let (s, output) := s.step byte output
    filterFrom s bytes output

def filter (s : TerminalQueryProxy) (bytes : List UInt8) : Step := s.filterFrom bytes []

/-- The end of input. -/
def finish (s : TerminalQueryProxy) : Step := s.abandon []

end TerminalQueryProxy

/-! ### Calls -/

/-- What the session asks of its proxy. -/
inductive Call
  | register (query : List UInt8)
  | filter (bytes : List UInt8)
  | finish

namespace Call

def fed : Call → List UInt8
  | .filter bytes => bytes
  | _ => []

def apply (s : TerminalQueryProxy) : Call → Step
  | .register query => ((s.registerQuery query).1, [])
  | .filter bytes => s.filter bytes
  | .finish => s.finish

/-- A series of calls, with all that it emits. -/
def applyAll (s : TerminalQueryProxy) : List Call → Step
  | [] => (s, [])
  | call :: calls =>
    let (s, output) := apply s call
    let (s, rest) := applyAll s calls
    (s, output ++ rest)

end Call

namespace TerminalQueryProxy

variable {s : TerminalQueryProxy} {byte : UInt8}

/-! ### What is held -/

/-- The inside of a command that has not ended: bytes, and pairs of an ESC and a byte. -/
inductive Unterminated : List UInt8 → Prop
  | nil : Unterminated []
  | byte {body : List UInt8} {byte : UInt8} (hbody : Unterminated body)
      (hbyte : byte ≠ ESC ∧ byte ≠ BEL ∧ byte ≠ CAN ∧ byte ≠ SUB) : Unterminated (body ++ [byte])
  | pair {body : List UInt8} {byte : UInt8} (hbody : Unterminated body)
      (hbyte : byte ≠ 0x5c ∧ byte ≠ 0x5d) : Unterminated (body ++ [ESC, byte])

/-- The beginning of a command, which an ESC may follow that could belong to its end. -/
def Beginning (sequence tail : List UInt8) : Prop :=
  ∃ body, Unterminated body ∧ sequence = OSC ++ body ++ tail ∧
    sequence.length ≤ MAX_TERMINAL_QUERY_SEQUENCE

/-- What may be held at the end of a read. -/
def Withheld (sequence : List UInt8) : Prop :=
  sequence = [] ∨ sequence = [ESC] ∨ Beginning sequence [] ∨ Beginning sequence [ESC]

/-- What is held in each state. -/
def Holds (s : TerminalQueryProxy) : Prop :=
  match s.state with
  | .ground => s.sequence = []
  | .escape => s.sequence = [ESC]
  | .osc => Beginning s.sequence []
  | .oscEscape => Beginning s.sequence [ESC]

omit [Base64] in
theorem Holds.withheld (h : s.Holds) : Withheld s.sequence := by
  rw [Holds] at h
  cases hstate : s.state with
  | ground => rw [hstate] at h; exact .inl h
  | escape => rw [hstate] at h; exact .inr (.inl h)
  | osc => rw [hstate] at h; exact .inr (.inr (.inl h))
  | oscEscape => rw [hstate] at h; exact .inr (.inr (.inr h))

omit [Base64] in
theorem beginning_osc : Beginning OSC [] :=
  ⟨[], .nil, rfl, by decide⟩

omit [Base64] in
theorem holds_groundStep (hground : s.state = .ground) (hnil : s.sequence = []) (byte : UInt8)
    (output : List ProxiedInput) : (s.groundStep byte output).1.Holds := by
  rw [groundStep]
  split_ifs with hescape
  · exact congrArg (fun b => [b]) hescape
  · rw [Holds, hground]
    exact hnil

omit [Base64] in
theorem holds_abandon (s : TerminalQueryProxy) (output : List ProxiedInput) :
    (s.abandon output).1.Holds := rfl

theorem holds_finishSequence (s : TerminalQueryProxy) (output : List ProxiedInput) :
    (s.finishSequence output).1.Holds := by
  rw [finishSequence]
  dsimp only
  split
  · rfl
  · rfl

omit [Base64] in
/-- A byte that joins a command that has not ended. -/
theorem Beginning.push {sequence tail tail' : List UInt8} (h : Beginning sequence tail)
    (hroom : ¬ MAX_TERMINAL_QUERY_SEQUENCE ≤ sequence.length)
    (htail : ∀ body, Unterminated body →
      ∃ body', Unterminated body' ∧ body ++ tail ++ [byte] = body' ++ tail') :
    Beginning (sequence ++ [byte]) tail' := by
  obtain ⟨body, hbody, rfl, -⟩ := h
  obtain ⟨body', hbody', heq⟩ := htail body hbody
  refine ⟨body', hbody', by simpa using heq, ?_⟩
  rw [List.length_append, List.length_singleton]
  omega

theorem holds_step (h : s.Holds) (byte : UInt8) (output : List ProxiedInput) :
    (s.step byte output).1.Holds := by
  have habandoned := holds_groundStep (s := (s.abandon output).1) rfl rfl byte
  rw [Holds] at h
  rw [step]
  cases hstate : s.state with
  | ground =>
    rw [hstate] at h
    exact holds_groundStep hstate h byte output
  | escape =>
    rw [hstate] at h
    dsimp only at h ⊢
    split_ifs with hopen
    · rw [pushSequenceByte, h, if_neg (by decide), hopen]
      exact beginning_osc
    · exact habandoned _
  | osc =>
    rw [hstate] at h
    dsimp only at h ⊢
    rw [pushSequenceByte]
    by_cases hcancel : byte = CAN ∨ byte = SUB
    · rw [if_pos hcancel]
      exact holds_abandon s output
    rw [if_neg hcancel]
    by_cases hroom : MAX_TERMINAL_QUERY_SEQUENCE ≤ s.sequence.length
    · simp only [if_pos hroom, Bool.false_eq_true, false_and, if_false]
      exact habandoned _
    simp only [if_neg hroom, true_and]
    split_ifs with hbel hescape
    · exact holds_finishSequence _ _
    · exact h.push hroom fun body hbody => ⟨body, hbody, by rw [List.append_nil, hescape]⟩
    · rw [not_or] at hcancel
      have hpushed : Beginning (s.sequence ++ [byte]) [] := h.push hroom fun body hbody =>
        ⟨body ++ [byte], .byte hbody ⟨hescape, hbel, hcancel.1, hcancel.2⟩, by simp⟩
      simpa only [Holds, hstate] using hpushed
  | oscEscape =>
    rw [hstate] at h
    dsimp only at h ⊢
    rw [pushSequenceByte]
    by_cases hroom : MAX_TERMINAL_QUERY_SEQUENCE ≤ s.sequence.length
    · simp only [if_pos hroom, Bool.not_false, if_true]
      exact habandoned _
    simp only [if_neg hroom, Bool.not_true, Bool.false_eq_true, if_false]
    split_ifs with hend hopen
    · exact holds_finishSequence _ _
    · exact beginning_osc
    · exact h.push hroom fun body hbody => ⟨body ++ [ESC, byte], .pair hbody ⟨hend, hopen⟩, by simp⟩

theorem holds_filterFrom (h : s.Holds) (bytes : List UInt8) (output : List ProxiedInput) :
    (s.filterFrom bytes output).1.Holds := by
  induction bytes generalizing s output with
  | nil => exact h
  | cons byte bytes ih => exact ih (holds_step h byte output) _

/-! ### What is lost -/

/-- The byte, or what was held before it, is neither emitted nor held. -/
def Loses (s : TerminalQueryProxy) (byte : UInt8) : Prop :=
  s.state = .osc ∧ (byte = CAN ∨ byte = SUB) ∨
    s.state = .oscEscape ∧ byte = 0x5d ∧ s.sequence.length < MAX_TERMINAL_QUERY_SEQUENCE

/-- What is emitted so far, and what is held. -/
def account (step : Step) : List UInt8 := emitted step.2 ++ step.1.sequence

omit [Base64] in
theorem account_groundStep (hnil : s.sequence = []) (byte : UInt8) (output : List ProxiedInput) :
    account (s.groundStep byte output) = emitted output ++ [byte] := by
  rw [groundStep]
  split_ifs
  · rfl
  · rw [account, hnil, List.append_nil, emitted_pushUser]

omit [Base64] in
theorem account_abandon_groundStep (s : TerminalQueryProxy) (byte : UInt8)
    (output : List ProxiedInput) :
    account ((s.abandon output).1.groundStep byte (s.abandon output).2) =
      emitted output ++ s.sequence ++ [byte] := by
  rw [account_groundStep rfl, abandon, emitted_pushUser]

theorem account_finishSequence (s : TerminalQueryProxy) (output : List ProxiedInput) :
    account (s.finishSequence output) = emitted output ++ s.sequence := by
  rw [finishSequence]
  dsimp only
  split
  · rw [account, emitted_append, List.append_nil]
    simp [emitted, ProxiedInput.bytes]
  · rw [account, emitted_pushUser, List.append_nil]

/-- A byte that is not lost is emitted or held, behind what was. -/
theorem account_step (h : s.Holds) {byte : UInt8} (hkept : ¬ s.Loses byte)
    (output : List ProxiedInput) :
    account (s.step byte output) = account (s, output) ++ [byte] := by
  have habandoned := account_abandon_groundStep s byte output
  rw [Holds] at h
  rw [Loses, not_or] at hkept
  rw [step]
  cases hstate : s.state with
  | ground =>
    rw [hstate] at h
    rw [account_groundStep h, account, h, List.append_nil]
  | escape =>
    rw [hstate] at h
    dsimp only at h ⊢
    split_ifs with hopen
    · rw [pushSequenceByte, h, if_neg (by decide)]
      simp [account, h]
    · exact habandoned
  | osc =>
    dsimp only
    rw [if_neg fun hcancel => hkept.1 ⟨hstate, hcancel⟩, pushSequenceByte]
    by_cases hroom : MAX_TERMINAL_QUERY_SEQUENCE ≤ s.sequence.length
    · simp only [if_pos hroom, Bool.false_eq_true, false_and, if_false]
      exact habandoned
    simp only [if_neg hroom, true_and]
    split_ifs
    · rw [account_finishSequence, account, List.append_assoc]
    · rw [account, account, List.append_assoc]
    · rw [account, account, List.append_assoc]
  | oscEscape =>
    dsimp only
    rw [pushSequenceByte]
    by_cases hroom : MAX_TERMINAL_QUERY_SEQUENCE ≤ s.sequence.length
    · simp only [if_pos hroom, Bool.not_false, if_true]
      exact habandoned
    simp only [if_neg hroom, Bool.not_true, Bool.false_eq_true, if_false]
    split_ifs with hend hopen
    · rw [account_finishSequence, account, List.append_assoc]
    · exact absurd ⟨hstate, hopen, Nat.lt_of_not_le hroom⟩ hkept.2
    · rw [account, account, List.append_assoc]

/-- A byte that is lost leaves less than there was with it. -/
theorem length_account_lt (h : s.Holds) {byte : UInt8} (hloses : s.Loses byte)
    (output : List ProxiedInput) :
    (account (s.step byte output)).length < (account (s, output)).length + 1 := by
  rcases hloses with ⟨hstate, hcancel⟩ | ⟨hstate, rfl, hroom⟩
  · rw [step, hstate]
    dsimp only
    rw [if_pos hcancel, abandon, account, emitted_pushUser, List.append_nil]
    exact Nat.lt_succ_self _
  · rw [Holds, hstate] at h
    obtain ⟨body, -, hsequence, -⟩ := h
    rw [step, hstate]
    dsimp only
    rw [pushSequenceByte, if_neg (Nat.not_le_of_lt hroom)]
    simp [account, hsequence, OSC]

theorem length_account_le (h : s.Holds) (byte : UInt8) (output : List ProxiedInput) :
    (account (s.step byte output)).length ≤ (account (s, output)).length + 1 := by
  by_cases hloses : s.Loses byte
  · exact (length_account_lt h hloses output).le
  · rw [account_step h hloses, List.length_append, List.length_singleton]

/-! ### Reads -/

omit [Base64] in
theorem groundStep_fst (s : TerminalQueryProxy) (byte : UInt8) (output output' : List ProxiedInput) :
    (s.groundStep byte output).1 = (s.groundStep byte output').1 := by
  rw [groundStep, groundStep]
  split_ifs
  · rfl
  · rfl

theorem finishSequence_fst (s : TerminalQueryProxy) (output output' : List ProxiedInput) :
    (s.finishSequence output).1 = (s.finishSequence output').1 := by
  rw [finishSequence, finishSequence]
  dsimp only
  split
  · rfl
  · rfl

/-- What a proxy becomes does not depend on what it has emitted. -/
theorem step_fst (s : TerminalQueryProxy) (byte : UInt8) (output output' : List ProxiedInput) :
    (s.step byte output).1 = (s.step byte output').1 := by
  have hground (s : TerminalQueryProxy) := groundStep_fst s byte
  rw [step, step]
  cases s.state with
  | ground => exact hground s _ _
  | escape =>
    dsimp only
    split_ifs
    · rw [pushSequenceByte, pushSequenceByte]
      split_ifs
      · exact congrArg (fun s : TerminalQueryProxy => { s with state := .osc }) (hground _ _ _)
      · rfl
    · exact hground _ _ _
  | osc =>
    dsimp only
    rw [pushSequenceByte, pushSequenceByte]
    by_cases hroom : MAX_TERMINAL_QUERY_SEQUENCE ≤ s.sequence.length
    · simp only [if_pos hroom, Bool.false_eq_true, false_and, if_false]
      split_ifs
      · rfl
      · exact hground _ _ _
    · simp only [if_neg hroom, true_and]
      split_ifs
      · rfl
      · exact finishSequence_fst _ _ _
      · rfl
      · rfl
  | oscEscape =>
    dsimp only
    rw [pushSequenceByte, pushSequenceByte]
    by_cases hroom : MAX_TERMINAL_QUERY_SEQUENCE ≤ s.sequence.length
    · simp only [if_pos hroom, Bool.not_false, if_true]
      exact hground _ _ _
    · simp only [if_neg hroom, Bool.not_true, Bool.false_eq_true, if_false]
      split_ifs
      · exact finishSequence_fst _ _ _
      · rfl
      · rfl

/-- No byte of a read is lost. -/
def Keeps (s : TerminalQueryProxy) : List UInt8 → Prop
  | [] => True
  | byte :: bytes => ¬ s.Loses byte ∧ Keeps (s.step byte []).1 bytes

variable {bytes : List UInt8}

theorem account_filterFrom (h : s.Holds) (hkeeps : s.Keeps bytes) (output : List ProxiedInput) :
    account (s.filterFrom bytes output) = account (s, output) ++ bytes := by
  induction bytes generalizing s output with
  | nil => rw [List.append_nil]; rfl
  | cons byte bytes ih =>
    have hrest : (s.step byte output).1.Keeps bytes := by
      rw [step_fst s byte output []]
      exact hkeeps.2
    have hread : account (s.filterFrom (byte :: bytes) output) =
        account (s.step byte output) ++ bytes := ih (holds_step h byte output) hrest _
    rw [hread, account_step h hkeeps.1, List.append_assoc, List.singleton_append]

theorem length_account_filterFrom_le (h : s.Holds) (bytes : List UInt8)
    (output : List ProxiedInput) :
    (account (s.filterFrom bytes output)).length ≤
      (account (s, output)).length + bytes.length := by
  induction bytes generalizing s output with
  | nil => exact le_rfl
  | cons byte bytes ih =>
    have hstep := length_account_le h byte output
    have hrest : (account (s.filterFrom (byte :: bytes) output)).length ≤
        (account (s.step byte output)).length + bytes.length :=
      ih (holds_step h byte output) (s.step byte output).2
    rw [List.length_cons]
    omega

theorem length_account_filterFrom_lt (h : s.Holds) (hloses : ¬ s.Keeps bytes)
    (output : List ProxiedInput) :
    (account (s.filterFrom bytes output)).length <
      (account (s, output)).length + bytes.length := by
  induction bytes generalizing s output with
  | nil => exact absurd trivial hloses
  | cons byte bytes ih =>
    have hstep := length_account_le h byte output
    rw [List.length_cons]
    by_cases hbyte : s.Loses byte
    · have hlt := length_account_lt h hbyte output
      have hrest : (account (s.filterFrom (byte :: bytes) output)).length ≤
          (account (s.step byte output)).length + bytes.length :=
        length_account_filterFrom_le (holds_step h byte output) bytes (s.step byte output).2
      omega
    · have hbytes : ¬ (s.step byte output).1.Keeps bytes := by
        rw [step_fst s byte output []]
        exact fun hkeeps => hloses ⟨hbyte, hkeeps⟩
      have hrest : (account (s.filterFrom (byte :: bytes) output)).length <
          (account (s.step byte output)).length + bytes.length :=
        ih (holds_step h byte output) hbytes (s.step byte output).2
      omega

/-- A read gives what was held and what was fed, if and only if it loses no byte. -/
theorem account_filter_iff (h : s.Holds) :
    account (s.filter bytes) = s.sequence ++ bytes ↔ s.Keeps bytes := by
  constructor
  · intro heq
    by_contra hloses
    have hlt := length_account_filterFrom_lt h hloses []
    rw [show s.filterFrom bytes [] = s.filter bytes from rfl, heq, List.length_append] at hlt
    exact absurd hlt (lt_irrefl _)
  · exact fun hkeeps => account_filterFrom h hkeeps []

/-! ### Answers -/

variable {output : List ProxiedInput}

omit [Base64] in
theorem isUser_abandon (h : ∀ input ∈ output, input.isUser = true) :
    ∀ input ∈ (s.abandon output).2, input.isUser = true :=
  pushUser_isUser h _

omit [Base64] in
theorem isUser_groundStep (s : TerminalQueryProxy) (byte : UInt8)
    (h : ∀ input ∈ output, input.isUser = true) :
    (s.groundStep byte output).1.pending = s.pending ∧
      ∀ input ∈ (s.groundStep byte output).2, input.isUser = true := by
  rw [groundStep]
  split_ifs
  · exact ⟨rfl, h⟩
  · exact ⟨rfl, pushUser_isUser h [byte]⟩

theorem isUser_finishSequence (hpending : s.pending = [])
    (h : ∀ input ∈ output, input.isUser = true) :
    (s.finishSequence output).1.pending = [] ∧
      ∀ input ∈ (s.finishSequence output).2, input.isUser = true := by
  have hnone : ((responseKind s.sequence).bind fun kind => s.pending.findIdx? (· = kind)) = none := by
    rw [hpending]
    cases responseKind s.sequence with
    | none => rfl
    | some kind => rfl
  rw [finishSequence, hnone]
  exact ⟨hpending, pushUser_isUser h _⟩

/-- While no query is pending, nothing is taken for an answer. -/
theorem isUser_step (hpending : s.pending = []) (byte : UInt8)
    (h : ∀ input ∈ output, input.isUser = true) :
    (s.step byte output).1.pending = [] ∧
      ∀ input ∈ (s.step byte output).2, input.isUser = true := by
  have habandoned : ((s.abandon output).1.groundStep byte (s.abandon output).2).1.pending = [] ∧
      ∀ input ∈ ((s.abandon output).1.groundStep byte (s.abandon output).2).2,
        input.isUser = true := by
    obtain ⟨hkept, hinputs⟩ := isUser_groundStep (s.abandon output).1 byte
      (isUser_abandon (s := s) h)
    exact ⟨hkept.trans hpending, hinputs⟩
  have hground := isUser_groundStep s byte h
  rw [step]
  cases s.state with
  | ground => exact ⟨hground.1.trans hpending, hground.2⟩
  | escape =>
    dsimp only
    split_ifs
    · rw [pushSequenceByte]
      split_ifs
      · exact habandoned
      · exact ⟨hpending, h⟩
    · exact habandoned
  | osc =>
    dsimp only
    rw [pushSequenceByte]
    by_cases hroom : MAX_TERMINAL_QUERY_SEQUENCE ≤ s.sequence.length
    · simp only [if_pos hroom, Bool.false_eq_true, false_and, if_false]
      split_ifs
      · exact ⟨hpending, isUser_abandon h⟩
      · exact habandoned
    · simp only [if_neg hroom, true_and]
      split_ifs
      · exact ⟨hpending, isUser_abandon h⟩
      · exact isUser_finishSequence (s := { s with sequence := s.sequence ++ [byte] }) hpending h
      · exact ⟨hpending, h⟩
      · exact ⟨hpending, h⟩
  | oscEscape =>
    dsimp only
    rw [pushSequenceByte]
    by_cases hroom : MAX_TERMINAL_QUERY_SEQUENCE ≤ s.sequence.length
    · simp only [if_pos hroom, Bool.not_false, if_true]
      exact habandoned
    · simp only [if_neg hroom, Bool.not_true, Bool.false_eq_true, if_false]
      split_ifs
      · exact isUser_finishSequence (s := { s with sequence := s.sequence ++ [byte] }) hpending h
      · exact ⟨hpending, h⟩
      · exact ⟨hpending, h⟩

theorem isUser_filterFrom (hpending : s.pending = []) (bytes : List UInt8)
    (h : ∀ input ∈ output, input.isUser = true) :
    ∀ input ∈ (s.filterFrom bytes output).2, input.isUser = true := by
  induction bytes generalizing s output with
  | nil => exact h
  | cons byte bytes ih =>
    obtain ⟨hkept, hinputs⟩ := isUser_step hpending byte h
    exact ih hkept hinputs

/-- A read with no ESC in it goes through, as long as nothing is held. -/
theorem filterFrom_of_notMem (hground : s.state = .ground) (h : ESC ∉ bytes)
    (output : List ProxiedInput) :
    (s.filterFrom bytes output).1 = s ∧
      emitted (s.filterFrom bytes output).2 = emitted output ++ bytes := by
  induction bytes generalizing output with
  | nil => exact ⟨rfl, (List.append_nil _).symm⟩
  | cons byte bytes ih =>
    obtain ⟨hbyte, hbytes⟩ : ESC ≠ byte ∧ ESC ∉ bytes := by simpa using h
    have hstep : s.step byte output = (s, pushUser output [byte]) := by
      rw [step, hground]
      exact if_neg (Ne.symm hbyte)
    obtain ⟨hsame, hemitted⟩ := ih hbytes (pushUser output [byte])
    rw [filterFrom, hstep]
    refine ⟨hsame, hemitted.trans ?_⟩
    rw [emitted_pushUser, List.append_assoc, List.singleton_append]

end TerminalQueryProxy

end

namespace Call

open TerminalQueryProxy

section

variable [Base64] {s : TerminalQueryProxy}

/-! ### Calls, one after the other -/

/-- A query changes nothing but what is pending. -/
theorem registerQuery_fst (s : TerminalQueryProxy) (query : List UInt8) :
    ∃ pending, (s.registerQuery query).1 = { s with pending } := by
  rw [registerQuery]
  by_cases hwrite : Zclip.Osc52.isWrite query = true
  · exact ⟨s.pending, by rw [if_pos hwrite]⟩
  rw [if_neg hwrite]
  cases queryKind query with
  | none => exact ⟨s.pending, rfl⟩
  | some kind =>
    dsimp only
    split_ifs
    · exact ⟨s.pending, rfl⟩
    · exact ⟨s.pending ++ [kind], rfl⟩

theorem holds_apply (h : s.Holds) (call : Call) : (call.apply s).1.Holds := by
  cases call with
  | register query =>
    obtain ⟨pending, heq⟩ := registerQuery_fst s query
    rw [apply, heq]
    exact h
  | filter bytes => exact holds_filterFrom h bytes []
  | finish => exact holds_abandon s []

/-- No byte of any read is lost. -/
def Keeps (s : TerminalQueryProxy) : List Call → Prop
  | [] => True
  | call :: calls => s.Keeps call.fed ∧ Keeps (call.apply s).1 calls

theorem account_apply (h : s.Holds) (call : Call) (hkeeps : s.Keeps call.fed) :
    account (call.apply s) = s.sequence ++ call.fed := by
  cases call with
  | register query =>
    obtain ⟨pending, heq⟩ := registerQuery_fst s query
    rw [apply, heq]
    exact (List.append_nil _).symm
  | filter bytes => exact account_filterFrom h hkeeps []
  | finish =>
    rw [apply, TerminalQueryProxy.finish, abandon, account, emitted_pushUser]
    rfl

theorem length_account_apply_le (h : s.Holds) (call : Call) :
    (account (call.apply s)).length ≤ s.sequence.length + call.fed.length := by
  cases call with
  | filter bytes => exact length_account_filterFrom_le h bytes []
  | register query =>
    rw [account_apply h (.register query) trivial, List.length_append]
  | finish => rw [account_apply h .finish trivial, List.length_append]

theorem length_account_apply_lt (h : s.Holds) {call : Call} (hloses : ¬ s.Keeps call.fed) :
    (account (call.apply s)).length < s.sequence.length + call.fed.length := by
  cases call with
  | filter bytes => exact length_account_filterFrom_lt h hloses []
  | register query => exact absurd trivial hloses
  | finish => exact absurd trivial hloses

theorem holds_applyAll (h : s.Holds) (calls : List Call) : (applyAll s calls).1.Holds := by
  induction calls generalizing s with
  | nil => exact h
  | cons call calls ih => exact ih (holds_apply h call)

theorem account_cons (s : TerminalQueryProxy) (call : Call) (calls : List Call) :
    account (applyAll s (call :: calls)) =
      emitted (call.apply s).2 ++ account (applyAll (call.apply s).1 calls) := by
  rw [applyAll, account, account, emitted_append, List.append_assoc]

theorem account_applyAll (h : s.Holds) {calls : List Call} (hkeeps : Keeps s calls) :
    account (applyAll s calls) = s.sequence ++ calls.flatMap fed := by
  induction calls generalizing s with
  | nil => rw [List.flatMap_nil, List.append_nil]; rfl
  | cons call calls ih =>
    have hcall := account_apply h call hkeeps.1
    rw [account] at hcall
    rw [account_cons, ih (holds_apply h call) hkeeps.2, ← List.append_assoc, hcall,
      List.append_assoc, List.flatMap_cons]

theorem length_account_applyAll_le (h : s.Holds) (calls : List Call) :
    (account (applyAll s calls)).length ≤ s.sequence.length + (calls.flatMap fed).length := by
  induction calls generalizing s with
  | nil => exact le_rfl
  | cons call calls ih =>
    have hcall := length_account_apply_le h call
    have hrest := ih (holds_apply h call)
    rw [account, List.length_append] at hcall
    rw [account_cons, List.length_append, List.flatMap_cons, List.length_append]
    omega

theorem length_account_applyAll_lt (h : s.Holds) {calls : List Call} (hloses : ¬ Keeps s calls) :
    (account (applyAll s calls)).length < s.sequence.length + (calls.flatMap fed).length := by
  induction calls generalizing s with
  | nil => exact absurd trivial hloses
  | cons call calls ih =>
    have hle := length_account_apply_le h call
    have hall := length_account_applyAll_le (holds_apply h call) calls
    rw [account, List.length_append] at hle
    rw [account_cons, List.length_append, List.flatMap_cons, List.length_append]
    by_cases hcall : s.Keeps call.fed
    · have hrest := ih (holds_apply h call) fun hkeeps => hloses ⟨hcall, hkeeps⟩
      omega
    · have hlt := length_account_apply_lt h hcall
      rw [account, List.length_append] at hlt
      omega

/-- What a proxy emits, with what it holds, is what it was fed, if and only if no byte is lost. -/
theorem emitted_append_held_iff (calls : List Call) :
    emitted (applyAll .new calls).2 ++ (applyAll .new calls).1.sequence = calls.flatMap fed ↔
      Keeps .new calls := by
  constructor
  · intro heq
    by_contra hloses
    have hlt := length_account_applyAll_lt (s := .new) rfl hloses
    rw [account, heq] at hlt
    exact absurd hlt (by simp [new])
  · exact fun hkeeps => account_applyAll (s := .new) rfl hkeeps

end

open scoped Base64.Standard in
/-- A command inside another, as when Alt+] is pressed, text is typed and it is pressed again, and a
command that Ctrl+X cancels. -/
theorem losing :
    let nested := applyAll .new [.filter [ESC, 0x5d, 0x68, 0x69, ESC, 0x5d]]
    let cancelled := applyAll .new [.filter [ESC, 0x5d, 0x68, CAN]]
    emitted nested.2 ++ nested.1.sequence ≠ [ESC, 0x5d, 0x68, 0x69, ESC, 0x5d] ∧
      emitted cancelled.2 ++ cancelled.1.sequence ≠ [ESC, 0x5d, 0x68, CAN] := by
  decide

/-- What is held at the end of a read is an ESC, or the beginning of a command that has not ended.
The next read emits, and holds, what was held and then what is fed, if and only if it loses no byte;
without a pending query nothing that is emitted is an answer; and a read with no ESC goes through
whole when nothing is held before it. -/
theorem withheld_of_calls [Base64] (calls : List Call) (bytes : List UInt8) :
    let s := (applyAll .new calls).1
    Withheld s.sequence ∧
      (emitted (s.filter bytes).2 ++ (s.filter bytes).1.sequence = s.sequence ++ bytes ↔
        s.Keeps bytes) ∧
      (s.pending = [] → ∀ input ∈ (s.filter bytes).2, input.isUser = true) ∧
      (s.sequence = [] → ESC ∉ bytes →
        (s.filter bytes).1.sequence = [] ∧ emitted (s.filter bytes).2 = bytes) := by
  intro s
  have hholds : s.Holds := holds_applyAll (s := .new) rfl calls
  refine ⟨hholds.withheld, account_filter_iff hholds,
    fun hpending => isUser_filterFrom hpending bytes (by simp), fun hnil hbytes => ?_⟩
  have hground : s.state = .ground := by
    rw [Holds, hnil] at hholds
    cases hstate : s.state with
    | ground => rfl
    | escape => rw [hstate] at hholds; cases hholds
    | osc => rw [hstate] at hholds; obtain ⟨_, _, hosc, _⟩ := hholds; simp [OSC] at hosc
    | oscEscape => rw [hstate] at hholds; obtain ⟨_, _, hosc, _⟩ := hholds; simp [OSC] at hosc
  obtain ⟨hsame, hemitted⟩ := filterFrom_of_notMem hground hbytes []
  refine ⟨?_, hemitted⟩
  rw [TerminalQueryProxy.filter, hsame]
  exact hnil

open scoped Base64.Standard in
/-- A lone ESC is held while no query is pending. -/
theorem held_escape : applyAll .new [.filter [ESC]] = (⟨[], .escape, [ESC]⟩, []) := by
  decide

end Call

end Zetta.Zosh
