import Zetta.Zosh.QueryProxy
import Zetta.Zosh.Server.Accounts
import Zetta.Vt100.LineEmulator

/-!
# Replies to terminal queries

`QueryScanner` finds the queries of the program in its output. Those about the terminal itself are
answered on the PTY, and those that only the displaying terminal can answer are relayed to the
client, as long as the backlog has room. A chunk of output goes to the emulator first; what the
replies to it say of the cursor and the size is how these are behind the whole chunk.

* `answered_iff`: however the output is cut into chunks, the same queries are relayed; and what is
  written to the PTY is what a terminal writes that answers at the place of each query, if and only
  if no query is answered with what the rest of its chunk has changed, and no refusal stands behind
  a reply in one chunk.
* `answered_late`: a chunk with text behind a query, whose reply tells the cursor behind the text.
-/

namespace Zetta.Zosh.Server

open List Vt100
open Zclip (BEL ESC CAN SUB OSC Frame)

/-! ### Queries -/

def MAX_QUERY_SEQUENCE : ℕ := Zclip.Osc52.MAX_SEQUENCE_BYTES

inductive QueryKind
  | status
  | cursor
  | decCursor
  | primaryDa
  | secondaryDa
  | textArea

def csiQueryKind (sequence : List UInt8) : Option QueryKind :=
  if sequence = [0x1b, 0x5b, 0x35, 0x6e] then some .status
  else if sequence = [0x1b, 0x5b, 0x36, 0x6e] then some .cursor
  else if sequence = [0x1b, 0x5b, 0x3f, 0x36, 0x6e] then some .decCursor
  else if sequence = [0x1b, 0x5b, 0x63] ∨ sequence = [0x1b, 0x5b, 0x30, 0x63] then some .primaryDa
  else if sequence = [0x1b, 0x5b, 0x3e, 0x63] ∨ sequence = [0x1b, 0x5b, 0x3e, 0x30, 0x63] then
    some .secondaryDa
  else if sequence = [0x1b, 0x5b, 0x31, 0x38, 0x74] then some .textArea
  else none

/-- What a reply may tell of the terminal: rows first, from zero. -/
structure Place where
  cursor : UInt16 × UInt16
  size : ℕ × ℕ

namespace QueryKind

/-- Two numbers, and what stands around them. -/
def report (start : List UInt8) (m n : ℕ) (final : UInt8) : List UInt8 :=
  start ++ (Decimal.decimal m ++ 0x3b :: (Decimal.decimal n ++ [final]))

def reply (place : Place) : QueryKind → List UInt8
  | status => [0x1b, 0x5b, 0x30, 0x6e]
  | cursor =>
    report [0x1b, 0x5b] (place.cursor.1 + 1).toNat (place.cursor.2 + 1).toNat 0x52
  | decCursor =>
    report [0x1b, 0x5b, 0x3f] (place.cursor.1 + 1).toNat (place.cursor.2 + 1).toNat 0x52
  | primaryDa => [0x1b, 0x5b, 0x3f, 0x31, 0x3b, 0x32, 0x63]
  | secondaryDa => [0x1b, 0x5b, 0x3e, 0x30, 0x3b, 0x32, 0x37, 0x36, 0x3b, 0x30, 0x63]
  | textArea => report [0x1b, 0x5b, 0x38, 0x3b] place.size.1 place.size.2 0x74

/-- A query of this kind has the same reply at both places. -/
def Sees (place place' : Place) : QueryKind → Prop
  | cursor => place.cursor = place'.cursor
  | decCursor => place.cursor = place'.cursor
  | textArea => place.size = place'.size
  | _ => True

theorem report_inj {start : List UInt8} {final : UInt8} (hfinal : ¬ Decimal.IsDigit final)
    {m n m' n' : ℕ} : report start m n final = report start m' n' final ↔ m = m' ∧ n = n' := by
  constructor
  · intro h
    obtain ⟨hm, hrest⟩ :=
      Decimal.decimal_append_inj (by decide) ((append_right_inj start).mp h)
    exact ⟨hm, (Decimal.decimal_append_inj hfinal hrest).1⟩
  · rintro ⟨rfl, rfl⟩
    rfl

theorem cursor_inj {c c' : UInt16 × UInt16} :
    ((c.1 + 1).toNat = (c'.1 + 1).toNat ∧ (c.2 + 1).toNat = (c'.2 + 1).toNat) ↔ c = c' := by
  rw [UInt16.toNat_inj, UInt16.toNat_inj, add_left_inj, add_left_inj, Prod.ext_iff]

theorem reply_eq_iff (kind : QueryKind) (place place' : Place) :
    kind.reply place = kind.reply place' ↔ kind.Sees place place' := by
  have hR : ¬ Decimal.IsDigit 0x52 := by decide
  have ht : ¬ Decimal.IsDigit 0x74 := by decide
  cases kind with
  | cursor => exact (report_inj hR).trans cursor_inj
  | decCursor => exact (report_inj hR).trans cursor_inj
  | textArea => exact (report_inj ht).trans Prod.ext_iff.symm
  | status | primaryDa | secondaryDa => exact iff_of_true rfl trivial

end QueryKind

/-! ### The scanner -/

inductive QueryScannerState
  | ground
  | escape
  | csi
  | osc
  | oscEscape

structure QueryScanner where
  state : QueryScannerState
  sequence : List UInt8

/-- What a byte completes: a query to answer, or one to relay. -/
inductive Found
  | query (kind : QueryKind)
  | relay (sequence : List UInt8)

structure QueryScanResult where
  replies : List (List UInt8)
  terminalQueries : List (List UInt8)

def isTerminalColorQuery (sequence : List UInt8) : Bool :=
  oscPayload sequence = some [0x31, 0x30, 0x3b, 0x3f] ||
    oscPayload sequence = some [0x31, 0x31, 0x3b, 0x3f]

section

variable [Base64]

namespace QueryScanner

def new : QueryScanner := ⟨.ground, []⟩

def start (state : QueryScannerState) (byte : UInt8) : QueryScanner := ⟨state, [byte]⟩

def reset : QueryScanner := ⟨.ground, []⟩

/-- A byte joins the sequence, as long as there is room; the flag says that there was. -/
def push (s : QueryScanner) (byte : UInt8) : QueryScanner × Bool :=
  if MAX_QUERY_SEQUENCE ≤ s.sequence.length then (reset, false)
  else ({ s with sequence := s.sequence ++ [byte] }, true)

def finishCsi (s : QueryScanner) : QueryScanner × Option Found :=
  (reset, (csiQueryKind s.sequence).map .query)

def finishOsc (s : QueryScanner) : QueryScanner × Option Found :=
  (⟨.ground, []⟩,
    if isTerminalColorQuery s.sequence || Zclip.Osc52.isWrite s.sequence ||
        (Frame.parse s.sequence).isSome then
      some (.relay s.sequence)
    else none)

def step (s : QueryScanner) (byte : UInt8) : QueryScanner × Option Found :=
  match s.state with
  | .ground => (if byte = ESC then start .escape byte else s, none)
  | .escape =>
    if byte = 0x5b then ({ (s.push byte).1 with state := .csi }, none)
    else if byte = 0x5d then ({ (s.push byte).1 with state := .osc }, none)
    else if byte = ESC then (start .escape byte, none)
    else (reset, none)
  | .csi =>
    if byte = ESC then (start .escape byte, none)
    else if byte = CAN ∨ byte = SUB then (reset, none)
    else
      let (s, pushed) := s.push byte
      if pushed ∧ 0x40 ≤ byte ∧ byte ≤ 0x7e then s.finishCsi else (s, none)
  | .osc =>
    if byte = CAN ∨ byte = SUB then (reset, none)
    else
      let (s, pushed) := s.push byte
      if pushed ∧ byte = BEL then s.finishOsc
      else if pushed ∧ byte = ESC then ({ s with state := .oscEscape }, none)
      else (s, none)
  | .oscEscape =>
    let (s, pushed) := s.push byte
    if !pushed then (s, none)
    else if byte = 0x5c then s.finishOsc
    -- `start_osc`
    else if byte = 0x5d then (⟨.osc, OSC⟩, none)
    else ({ s with state := .osc }, none)

/-- All that a chunk completes, in order. -/
def scan (s : QueryScanner) : List UInt8 → QueryScanner × List Found
  | [] => (s, [])
  | byte :: data =>
    let (s, found) := s.step byte
    let (s, rest) := s.scan data
    (s, found.toList ++ rest)

end QueryScanner

namespace Found

def replyAt (place : Place) : Found → Option (List UInt8)
  | query kind => some (kind.reply place)
  | relay _ => none

def relayed : Found → Option (List UInt8)
  | query _ => none
  | relay sequence => some sequence

end Found

/-- The replies and the relayed queries of a chunk, with the cursor and the size to tell. -/
def QueryScanner.feed (s : QueryScanner) (data : List UInt8) (place : Place) :
    QueryScanner × QueryScanResult :=
  let (s, found) := s.scan data
  (s, ⟨found.filterMap (Found.replyAt place), found.filterMap Found.relayed⟩)

/-! ### The backlog -/

/-- The queries the client has not acknowledged, as the terminal's state keeps them. -/
structure Relay where
  pendingQueries : CountedQueue TerminalQuery
  nextQueryId : ℕ

namespace Relay

/-- Records a query and returns its id, `0` for one that does not fit. -/
def addQuery (r : Relay) (bytes : List UInt8) : Relay × ℕ :=
  if MAX_PENDING_QUERIES ≤ r.pendingQueries.items.length ∨
      MAX_PENDING_QUERY_BYTES < r.pendingQueries.total + bytes.length then (r, 0)
  else
    (⟨r.pendingQueries.push TerminalQuery.cost ⟨r.nextQueryId, bytes⟩, r.nextQueryId + 1⟩,
      r.nextQueryId)

/-- `zosh clipboard query backlog is full` -/
def refusal (frame : Frame) : Frame :=
  ⟨frame.id, .error "zosh clipboard query backlog is full"⟩

/-- A query goes to the client, unless it is about the clipboard and the client takes none of these;
a clipboard message that does not fit is refused on the PTY. -/
def relayQuery (clipboardSupported : Bool) (r : Relay) (query : List UInt8) :
    Relay × Option Frame :=
  if !clipboardSupported && (Zclip.Osc52.isWrite query || (Frame.parse query).isSome) then (r, none)
  else
    let (r, id) := r.addQuery query
    (r, if id = 0 then (Frame.parse query).map refusal else none)

def relayQueries (clipboardSupported : Bool) (r : Relay) :
    List (List UInt8) → Relay × List Frame
  | [] => (r, [])
  | query :: queries =>
    let (r, refused) := r.relayQuery clipboardSupported query
    let (r, rest) := r.relayQueries clipboardSupported queries
    (r, refused.toList ++ rest)

end Relay

/-- What the terminal's state keeps of the queries. -/
def TerminalState.relay {Screen : Type*} (s : TerminalState Screen) : Relay :=
  ⟨s.pendingQueries, s.nextQueryId⟩

/-! ### The terminal that is answered for -/

/-- An emulator that tells where its cursor is. -/
structure Display (Screen : Type*) extends Emulator Screen where
  cursorPosition : Screen → UInt16 × UInt16

/-- What a session keeps of the output it has read. -/
structure Host (Screen : Type*) where
  screen : Screen
  scanner : QueryScanner
  relay : Relay

namespace Host

variable {Screen : Type*} (d : Display Screen) (clipboardSupported : Bool)

/-- What the terminal tells of itself. -/
def place (h : Host Screen) : Place := ⟨d.cursorPosition h.screen, d.size h.screen⟩

/-- A chunk of output (`PtyEvent::Output`), with what is written to the PTY for it. -/
def output (h : Host Screen) (bytes : List UInt8) : Host Screen × List (List UInt8) :=
  let screen := d.run h.screen bytes
  let (scanner, result) := h.scanner.feed bytes ⟨d.cursorPosition screen, d.size screen⟩
  let (relay, refused) := h.relay.relayQueries clipboardSupported result.terminalQueries
  (⟨screen, scanner, relay⟩, refused.map Frame.encode ++ result.replies)

/-- One chunk after another. -/
def outputs (h : Host Screen) : List (List UInt8) → Host Screen × List (List UInt8)
  | [] => (h, [])
  | chunk :: chunks =>
    let (h, written) := h.output d clipboardSupported chunk
    let (h, rest) := h.outputs chunks
    (h, written ++ rest)

/-! ### Answers in place -/

end Host

/-- What a query comes to where it stands. -/
inductive Answer
  | reply (kind : QueryKind) (place : Place)
  | refusal (frame : Frame)

namespace Answer

def bytes : Answer → List UInt8
  | reply kind place => kind.reply place
  | refusal frame => frame.encode

def IsReply : Answer → Prop
  | reply _ _ => True
  | refusal _ => False

def refused : Answer → Option Frame
  | reply _ _ => none
  | refusal frame => some frame

/-- The reply with what is told at another place. -/
def replyAt (place : Place) : Answer → Option (List UInt8)
  | reply kind _ => some (kind.reply place)
  | refusal _ => none

/-- The answers of a chunk are right though it is answered at its end: what they tell has not
changed by then, and no refusal stands behind a reply. -/
def Settled (place : Place) (answers : List Answer) : Prop :=
  (∀ kind asked, reply kind asked ∈ answers → kind.Sees place asked) ∧
    answers.Pairwise fun first second => first.IsReply → second.IsReply

theorem reply_ne_encode (kind : QueryKind) (place : Place) (frame : Frame) :
    kind.reply place ≠ frame.encode := by
  intro h
  have hsecond := congrArg (fun bytes : List UInt8 => bytes[1]?) h
  cases kind <;> simp [QueryKind.reply, QueryKind.report, Frame.encode, Zclip.PREFIX] at hsecond

omit [Base64] in
theorem settled_refusal {place : Place} {frame : Frame} {answers : List Answer} :
    Settled place (refusal frame :: answers) ↔ Settled place answers := by
  rw [Settled, Settled, pairwise_cons]
  constructor
  · rintro ⟨hsees, -, hpairs⟩
    exact ⟨fun kind asked hmem => hsees kind asked (.tail _ hmem), hpairs⟩
  · rintro ⟨hsees, hpairs⟩
    refine ⟨fun kind asked hmem => ?_, fun _ _ => False.elim, hpairs⟩
    rcases mem_cons.mp hmem with heq | hmem
    · cases heq
    · exact hsees kind asked hmem

omit [Base64] in
theorem settled_reply {place asked : Place} {kind : QueryKind} {answers : List Answer} :
    Settled place (reply kind asked :: answers) ↔
      kind.Sees place asked ∧ answers.filterMap refused = [] ∧ Settled place answers := by
  have hreplies : (∀ answer ∈ answers, IsReply (reply kind asked) → answer.IsReply) ↔
      answers.filterMap refused = [] := by
    rw [filterMap_eq_nil_iff]
    refine forall₂_congr fun answer _ => ?_
    cases answer with
    | reply => exact iff_of_true (fun _ => trivial) rfl
    | refusal => exact iff_of_false (fun h => h trivial) nofun
  rw [Settled, Settled, pairwise_cons, hreplies]
  constructor
  · rintro ⟨hsees, hnone, hpairs⟩
    exact ⟨hsees kind asked (.head _), hnone, fun k p hmem => hsees k p (.tail _ hmem), hpairs⟩
  · rintro ⟨hkind, hnone, hsees, hpairs⟩
    refine ⟨fun k p hmem => ?_, hnone, hpairs⟩
    rcases mem_cons.mp hmem with heq | hmem
    · cases heq
      exact hkind
    · exact hsees k p hmem

/-- What is written at the end of a chunk is what is written in place. -/
theorem written_eq_iff (place : Place) (answers : List Answer) :
    (answers.filterMap refused).map Frame.encode ++ answers.filterMap (replyAt place) =
        answers.map bytes ↔
      Settled place answers := by
  induction answers with
  | nil => exact iff_of_true rfl ⟨nofun, .nil⟩
  | cons answer answers ih =>
    cases answer with
    | refusal frame =>
      rw [settled_refusal, ← ih]
      exact cons_inj_right frame.encode
    | reply kind asked =>
      rw [settled_reply, ← ih, ← QueryKind.reply_eq_iff]
      cases hrefused : answers.filterMap refused with
      | nil =>
        have hcons : (reply kind asked :: answers).filterMap (replyAt place) =
            kind.reply place :: answers.filterMap (replyAt place) := rfl
        rw [filterMap_cons_none (by rfl), hrefused, hcons]
        simp only [map_nil, nil_append, map_cons, List.cons.injEq, true_and]
        rfl
      | cons frame frames =>
        -- a refusal is written ahead of the first reply
        rw [filterMap_cons_none (by rfl), hrefused]
        refine iff_of_false (fun h => ?_) (fun h => nomatch h.2.1)
        exact reply_ne_encode kind asked frame (List.cons.inj h).1.symm

theorem length_written (place : Place) (answers : List Answer) :
    ((answers.filterMap refused).map Frame.encode ++ answers.filterMap (replyAt place)).length =
      answers.length := by
  induction answers with
  | nil => rfl
  | cons answer answers ih =>
    rw [length_append, length_map] at ih ⊢
    cases answer with
    | reply kind asked =>
      have hcons : (reply kind asked :: answers).filterMap (replyAt place) =
          kind.reply place :: answers.filterMap (replyAt place) := rfl
      rw [filterMap_cons_none (by rfl), hcons, length_cons, length_cons, ← ih,
        Nat.add_assoc]
    | refusal frame =>
      have hcons : (refusal frame :: answers).filterMap refused =
          frame :: answers.filterMap refused := rfl
      have hskip : (refusal frame :: answers).filterMap (replyAt place) =
          answers.filterMap (replyAt place) := rfl
      rw [hcons, hskip, length_cons, length_cons, ← ih]
      omega

end Answer

namespace Host

variable {Screen : Type*} (d : Display Screen) (clipboardSupported : Bool)

/-- One byte of output, and what the query comes to that it may complete. -/
def answer (h : Host Screen) (byte : UInt8) : Host Screen × Option Answer :=
  let screen := (d.advance h.screen byte).1
  match h.scanner.step byte with
  | (scanner, none) => (⟨screen, scanner, h.relay⟩, none)
  | (scanner, some (.query kind)) =>
    (⟨screen, scanner, h.relay⟩,
      some (.reply kind ⟨d.cursorPosition screen, d.size screen⟩))
  | (scanner, some (.relay sequence)) =>
    let (relay, refused) := h.relay.relayQuery clipboardSupported sequence
    (⟨screen, scanner, relay⟩, refused.map .refusal)

/-- A stream of output, answered byte by byte. -/
def answers (h : Host Screen) : List UInt8 → Host Screen × List Answer
  | [] => (h, [])
  | byte :: bytes =>
    let (h, first) := h.answer d clipboardSupported byte
    let (h, rest) := h.answers bytes
    (h, first.toList ++ rest)

variable {d clipboardSupported}

theorem scan_cons (s : QueryScanner) (byte : UInt8) (bytes : List UInt8) :
    s.scan (byte :: bytes) =
      (((s.step byte).1.scan bytes).1, (s.step byte).2.toList ++ ((s.step byte).1.scan bytes).2) :=
  rfl

variable (h : Host Screen)

theorem answers_cons (byte : UInt8) (bytes : List UInt8) :
    h.answers d clipboardSupported (byte :: bytes) =
      (((h.answer d clipboardSupported byte).1.answers d clipboardSupported bytes).1,
        (h.answer d clipboardSupported byte).2.toList ++
          ((h.answer d clipboardSupported byte).1.answers d clipboardSupported bytes).2) :=
  rfl

theorem answers_append (xs ys : List UInt8) :
    h.answers d clipboardSupported (xs ++ ys) =
      (((h.answers d clipboardSupported xs).1.answers d clipboardSupported ys).1,
        (h.answers d clipboardSupported xs).2 ++
          ((h.answers d clipboardSupported xs).1.answers d clipboardSupported ys).2) := by
  induction xs generalizing h with
  | nil => rfl
  | cons x xs ih =>
    rw [cons_append, answers_cons, answers_cons, ih]
    simp only [append_assoc]

variable (d clipboardSupported) in
/-- The chunk that `output` takes at once, taken byte by byte: the same scanner, backlog and
refusals, and the same replies but for what they tell. -/
theorem answers_eq (bytes : List UInt8) (place : Place) :
    let scanned := h.scanner.scan bytes
    let relayed := h.relay.relayQueries clipboardSupported (scanned.2.filterMap Found.relayed)
    let answered := h.answers d clipboardSupported bytes
    answered.1 = ⟨d.run h.screen bytes, scanned.1, relayed.1⟩ ∧
      answered.2.filterMap Answer.refused = relayed.2 ∧
      answered.2.filterMap (Answer.replyAt place) = scanned.2.filterMap (Found.replyAt place) := by
  induction bytes generalizing h with
  | nil => exact ⟨rfl, rfl, rfl⟩
  | cons byte bytes ih =>
    rw [answers_cons, scan_cons, answer]
    -- what the byte completes
    rcases h.scanner.step byte with ⟨scanner, _ | kind | sequence⟩
    · exact ih ⟨_, scanner, h.relay⟩
    · obtain ⟨hhost, hrefused, hreplies⟩ := ih ⟨(d.advance h.screen byte).1, scanner, h.relay⟩
      exact ⟨hhost, hrefused, congrArg (kind.reply place :: ·) hreplies⟩
    · obtain ⟨hhost, hrefused, hreplies⟩ := ih ⟨(d.advance h.screen byte).1, scanner,
        (h.relay.relayQuery clipboardSupported sequence).1⟩
      have hfirst (refused : Option Frame) :
          (refused.map Answer.refusal).toList.filterMap Answer.refused = refused.toList ∧
            (refused.map Answer.refusal).toList.filterMap (Answer.replyAt place) = [] := by
        cases refused with
        | none => exact ⟨rfl, rfl⟩
        | some frame => exact ⟨rfl, rfl⟩
      dsimp only at hhost hrefused hreplies ⊢
      refine ⟨hhost, ?_, ?_⟩
      · rw [filterMap_append, (hfirst _).1, hrefused]
        rfl
      · rw [filterMap_append, (hfirst _).2, hreplies]
        rfl

theorem output_fst (bytes : List UInt8) :
    (h.output d clipboardSupported bytes).1 = (h.answers d clipboardSupported bytes).1 :=
  (answers_eq d clipboardSupported h bytes ⟨(0, 0), (0, 0)⟩).1.symm

/-- A chunk is answered as its bytes are, if and only if the answers are settled at its end. -/
theorem output_snd_iff (bytes : List UInt8) :
    (h.output d clipboardSupported bytes).2 =
        (h.answers d clipboardSupported bytes).2.map Answer.bytes ↔
      Answer.Settled ((h.answers d clipboardSupported bytes).1.place d)
        (h.answers d clipboardSupported bytes).2 := by
  obtain ⟨hhost, hrefused, hreplies⟩ := answers_eq d clipboardSupported
    h bytes ((h.answers d clipboardSupported bytes).1.place d)
  rw [← Answer.written_eq_iff, hrefused, hreplies, hhost]
  rfl

theorem length_output_snd (bytes : List UInt8) :
    (h.output d clipboardSupported bytes).2.length =
      (h.answers d clipboardSupported bytes).2.length := by
  obtain ⟨-, hrefused, hreplies⟩ := answers_eq d clipboardSupported
    h bytes ((h.answers d clipboardSupported bytes).1.place d)
  rw [← Answer.length_written ((h.answers d clipboardSupported bytes).1.place d), hrefused, hreplies,
    (answers_eq d clipboardSupported h bytes ⟨(0, 0), (0, 0)⟩).1]
  rfl

theorem outputs_cons (chunk : List UInt8) (chunks : List (List UInt8)) :
    h.outputs d clipboardSupported (chunk :: chunks) =
      (((h.output d clipboardSupported chunk).1.outputs d clipboardSupported chunks).1,
        (h.output d clipboardSupported chunk).2 ++
          ((h.output d clipboardSupported chunk).1.outputs d clipboardSupported chunks).2) :=
  rfl

/-- In every chunk the answers are settled at its end. -/
def InPlace (d : Display Screen) (clipboardSupported : Bool) (h : Host Screen) :
    List (List UInt8) → Prop
  | [] => True
  | chunk :: chunks =>
    Answer.Settled ((h.answers d clipboardSupported chunk).1.place d)
        (h.answers d clipboardSupported chunk).2 ∧
      InPlace d clipboardSupported (h.output d clipboardSupported chunk).1 chunks

/-- However the output is cut, it comes to the same screen, the same scanner and the same queries
for the client; and what is written to the PTY is what each query comes to where it stands, if and
only if the answers of every chunk are settled at its end. -/
theorem answered_iff (d : Display Screen) (clipboardSupported : Bool) (h : Host Screen)
    (chunks : List (List UInt8)) :
    (h.outputs d clipboardSupported chunks).1 =
        (h.answers d clipboardSupported chunks.flatten).1 ∧
      ((h.outputs d clipboardSupported chunks).2 =
          (h.answers d clipboardSupported chunks.flatten).2.map Answer.bytes ↔
        h.InPlace d clipboardSupported chunks) := by
  induction chunks generalizing h with
  | nil => exact ⟨rfl, iff_of_true rfl trivial⟩
  | cons chunk chunks ih =>
    obtain ⟨hhost, hwritten⟩ := ih (h.answers d clipboardSupported chunk).1
    rw [flatten_cons, answers_append, outputs_cons, InPlace, output_fst]
    refine ⟨hhost, ?_⟩
    rw [← output_snd_iff, ← hwritten, map_append]
    -- as many answers for each chunk, so that they can be told apart
    constructor
    · exact fun heq => append_inj heq (by rw [length_output_snd, length_map])
    · rintro ⟨hchunk, hrest⟩
      exact congrArg₂ (· ++ ·) hchunk hrest

end Host

end

namespace Host

open scoped Base64.Standard

/-- The emulator of one line, with its cursor. -/
def lineDisplay : Display LineScreen where
  toEmulator := lineEmulator
  cursorPosition s := (0, UInt16.ofNat s.col)

/-- A session before any output. -/
def new (rows cols : ℕ) : Host LineScreen := ⟨LineScreen.new rows cols, .new, ⟨.empty, 1⟩⟩

/-- `ESC [ 6 n`, and an `A` behind it: at once, in two chunks, and in place. -/
theorem answered_late :
    ((new 1 80).outputs lineDisplay true [[0x1b, 0x5b, 0x36, 0x6e, 0x41]]).2 =
        [[0x1b, 0x5b, 0x31, 0x3b, 0x32, 0x52]] ∧
      ((new 1 80).outputs lineDisplay true [[0x1b, 0x5b, 0x36, 0x6e], [0x41]]).2 =
        [[0x1b, 0x5b, 0x31, 0x3b, 0x31, 0x52]] ∧
      ((new 1 80).answers lineDisplay true [0x1b, 0x5b, 0x36, 0x6e, 0x41]).2.map Answer.bytes =
        [[0x1b, 0x5b, 0x31, 0x3b, 0x31, 0x52]] := by
  decide +kernel

end Host

end Zetta.Zosh.Server
