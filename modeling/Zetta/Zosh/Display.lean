import Zetta.Zosh.SanitizedRows

/-!
# The rows between two screens

`scrollbackReplay` writes what scrolled past between the screen that is shown and the one about to be
shown, so that the history of the user's terminal holds it. The rows on the screen are scrolled off,
after those that the server has carried in another version are rewritten; the rows beyond them are
written below, and what is not carried is told as a number of lines.

* `held_of_chunks`: whatever the server sends, the client's counters stay in range, and the rows that
  it writes to the user's terminal are harmless.
* `replay_history`: no sum and no difference of indices leaves its range, and the history of a
  terminal that shows the screen before grows by the rows of the interval, one for each index
  (`leaving`, `entries`).
-/

namespace Zetta.Zosh

open List

/-! ### What a client has read -/

/-- The totals are of 64 bits. -/
def ScrollbackState.InRange (s : ScrollbackState) : Prop :=
  s.evicted < 2 ^ 64 ∧ s.rowsFirst < 2 ^ 64

/-- What the client knows of the history is in range, and can be written to the user's terminal. -/
def ScrollbackState.Held (s : ScrollbackState) : Prop :=
  s.generation < 2 ^ 64 ∧ s.InRange ∧ ∀ row ∈ s.rows, Harmless row.contents

theorem parseIndex_lt {digits : List UInt8} {n : ℕ} (h : parseIndex digits = some n) :
    n < 2 ^ 64 := by
  rw [parseIndex] at h
  split_ifs at h
  exact ((Decimal.parseFrom_eq_some_iff (by decide)).mp h).2.2

/-- Every row is sanitized when it is read. -/
theorem harmless_of_decodeFrames {n : ℕ} {payload : List UInt8} : ∀ rows ∈ decodeFrames n payload,
    ∀ row ∈ rows, Harmless row.contents := by
  induction n generalizing payload with
  | zero =>
    intro rows h row hrow
    rw [decodeFrames] at h
    split_ifs at h
    · cases h
      exact absurd hrow not_mem_nil
    · cases h
  | succ n ih =>
    intro rows h
    rw [decodeFrames] at h
    dsimp only at h
    split_ifs at h
    · cases h
      exact fun row hrow => absurd hrow not_mem_nil
    · cases h
    · cases h
    · obtain ⟨rest, hrest, rfl⟩ := Option.map_eq_some_iff.mp h
      exact forall_mem_cons.mpr ⟨harmless_sanitizeRow _, ih rest hrest⟩

namespace ScrollbackState.Held

variable {s : ScrollbackState}

theorem finishRows [Base64] (h : s.Held) : s.finishRows.Held := by
  rw [ScrollbackState.finishRows]
  split_ifs
  · exact h
  · split
    next => exact h
    next first hfirst =>
      split
      next => exact h
      next rows hrows =>
        obtain ⟨payload, -, hframes⟩ := Option.bind_eq_some_iff.mp hrows
        exact ⟨h.1, ⟨by dsimp only; omega, parseIndex_lt hfirst⟩,
          harmless_of_decodeFrames rows hframes⟩

theorem finish [Base64] (h : s.Held) : s.finish.Held := by
  have hcleared : (if ROWS_PREFIX.isPrefixOf s.bytes then s else { s with payload := [] }).Held := by
    split_ifs
    · exact h
    · exact h
  rw [ScrollbackState.finish]
  generalize (if ROWS_PREFIX.isPrefixOf s.bytes then s else { s with payload := [] }) = s' at hcleared
  split_ifs
  · split
    next hgeneration => exact ⟨parseIndex_lt hgeneration, hcleared.2⟩
    next => exact hcleared
  · exact hcleared.finishRows
  · exact hcleared

theorem feedOsc [Base64] (h : s.Held) (byte : UInt8) : (s.feedOsc byte).Held := by
  rw [ScrollbackState.feedOsc]
  split_ifs
  · exact h.finish
  all_goals exact h

theorem feedPayload [Base64] (h : s.Held) (byte : UInt8) : (s.feedPayload byte).Held := by
  rw [ScrollbackState.feedPayload]
  split_ifs
  · exact h.finish
  all_goals exact h

theorem feedByte [Base64] (h : s.Held) (byte : UInt8) : (s.feedByte byte).Held := by
  rw [ScrollbackState.feedByte]
  cases s.parser with
  | osc => exact h.feedOsc byte
  | oscPayload => exact h.feedPayload byte
  | oscEnd =>
    dsimp only
    split_ifs
    · exact h.finish
    · exact h
  | ground | escape | ignoreOsc | ignoreOscEnd | ignoreString | ignoreEnd =>
    dsimp only
    split_ifs
    all_goals exact h

/-- Whatever the server sends. -/
theorem feed [Base64] (h : s.Held) (bytes : List UInt8) : (s.feed bytes).Held := by
  induction bytes generalizing s with
  | nil => exact h
  | cons byte bytes ih => exact ih (h.feedByte byte)

end ScrollbackState.Held

/-- **Whatever the server sends**, in whatever pieces, the counters stay in their range, and every row
that the client may come to write is harmless. -/
theorem held_of_chunks [Base64] (chunks : List (List UInt8)) :
    (chunks.foldl ScrollbackState.feed .new).Held := by
  refine List.foldlRecOn (motive := ScrollbackState.Held) chunks _ ?_ fun s h bytes _ => h.feed bytes
  exact ⟨by decide, ⟨by decide, by decide⟩, fun row hrow => absurd hrow not_mem_nil⟩

/-! ### Checked arithmetic -/

/-- What would stop the client: a sum or a difference out of range, or a range of rows. -/
inductive ReplayFault
  | overflow
  | slice
  deriving DecidableEq

def u64Sub (a b : ℕ) : Except ReplayFault ℕ := if b ≤ a then .ok (a - b) else .error .overflow

def u64Add (a b : ℕ) : Except ReplayFault ℕ :=
  if a + b < 2 ^ 64 then .ok (a + b) else .error .overflow

def saturatingAdd (a b : ℕ) : ℕ := min (a + b) (2 ^ 64 - 1)

def sliceRows (rows : List ScrollbackRow) (offset count : ℕ) :
    Except ReplayFault (List ScrollbackRow) :=
  if offset + count ≤ rows.length then .ok ((rows.drop offset).take count) else .error .slice

/-! ### What is written -/

inductive Command
  /-- Margins and attributes as they are by default. -/
  | reset
  /-- To the beginning of a row, which is erased. -/
  | erase (row : ℕ)
  | bottom (height : ℕ)
  | newline
  | write (row : ScrollbackRow)
  | gap (dropped : ℕ)
  | carriageReturn
  | lineFeed
  deriving DecidableEq

/-- `[zosh: … lines of scrollback dropped]`, dimmed. -/
def gapText (dropped : ℕ) : List UInt8 :=
  [0x1b, 0x5b, 0x32, 0x6d, 0x5b, 0x7a, 0x6f, 0x73, 0x68, 0x3a, 0x20] ++ Decimal.decimal dropped ++
    [0x20, 0x6c, 0x69, 0x6e, 0x65, 0x73, 0x20, 0x6f, 0x66, 0x20, 0x73, 0x63, 0x72, 0x6f, 0x6c, 0x6c,
      0x62, 0x61, 0x63, 0x6b, 0x20, 0x64, 0x72, 0x6f, 0x70, 0x70, 0x65, 0x64, 0x5d, 0x1b, 0x5b, 0x30,
      0x6d]

/-- To the first column of a row, counted from one. -/
def cursorTo (row : ℕ) : List UInt8 := [0x1b, 0x5b] ++ Decimal.decimal row ++ [0x3b, 0x31, 0x48]

def Command.bytes : Command → List UInt8
  | reset => [0x1b, 0x5b, 0x72, 0x1b, 0x5b, 0x30, 0x6d]
  | erase row => cursorTo (row + 1) ++ [0x1b, 0x5b, 0x32, 0x4b]
  | bottom height => cursorTo height
  | newline => [0x0d, 0x0a]
  | write row => row.contents
  | gap dropped => gapText dropped
  | carriageReturn => [0x0d]
  | lineFeed => [0x0a]

/-- A screen as it is shown: the formatted contents of its rows, and what is known of the history
above it. -/
structure DisplayScreen where
  visibleRows : List (List UInt8)
  scrollback : ScrollbackState

namespace DisplayScreen

def rows (s : DisplayScreen) : ℕ := s.visibleRows.length

def carriedRow (s : DisplayScreen) (index : ℕ) : Option ScrollbackRow :=
  if s.scrollback.rowsFirst ≤ index then s.scrollback.rows[index - s.scrollback.rowsFirst]?
  else none

/-- The rows about to leave, from the given one on, that are shown in another version than the
server carries. -/
def correctFrom (s : DisplayScreen) (evicted row : ℕ) :
    List (List UInt8) → Except ReplayFault (List Command)
  | [] => .ok []
  | onScreen :: shown => do
    let index ← u64Add evicted row
    let rest ← s.correctFrom evicted (row + 1) shown
    match s.carriedRow index with
    | none => pure rest
    | some carried =>
      if carried.contents = onScreen then pure rest
      else pure (.erase row :: .write carried :: rest)

def correctStaleRows (s previous : DisplayScreen) (missing : ℕ) :
    Except ReplayFault (List Command) :=
  s.correctFrom previous.scrollback.evicted 0
    (previous.visibleRows.take (min missing s.rows))

def writeGap (dropped : ℕ) (wrapping : Bool) : List Command × Bool :=
  ((if !wrapping then [.newline] else []) ++ [.gap dropped], false)

def writeRows (wrapping : Bool) : List ScrollbackRow → List Command × Bool
  | [] => ([], wrapping)
  | row :: rows =>
    let (rest, last) := writeRows row.wrapped rows
    ((if !wrapping then [.newline] else []) ++ .write row :: rest, last)

/-- The rows that are carried and never reached the terminal, and what is told of the others. -/
def writeRetained (s : DisplayScreen) (unseenFrom retainedFrom retainedEnd : ℕ) :
    Except ReplayFault (List Command) := do
  let before ← u64Sub retainedFrom unseenFrom
  let (gapBefore, wrapping) := if 0 < before then writeGap before false else ([], false)
  let offset ← u64Sub retainedFrom s.scrollback.rowsFirst
  let count ← u64Sub retainedEnd retainedFrom
  let rows ← sliceRows s.scrollback.rows offset count
  let (written, wrapping) := writeRows wrapping rows
  if retainedEnd < s.scrollback.evicted then do
    let after ← u64Sub s.scrollback.evicted retainedEnd
    pure (gapBefore ++ written ++ (writeGap after wrapping).1)
  else pure (gapBefore ++ written)

def writeUnseen (s : DisplayScreen) (unseenFrom : ℕ) : Except ReplayFault (List Command) :=
  let unseenEnd := s.scrollback.evicted
  let carriedEnd := saturatingAdd s.scrollback.rowsFirst s.scrollback.rows.length
  let retainedFrom := max unseenFrom s.scrollback.rowsFirst
  let retainedEnd := min unseenEnd carriedEnd
  if retainedFrom < retainedEnd then s.writeRetained unseenFrom retainedFrom retainedEnd
  else if unseenFrom < unseenEnd then pure (writeGap (unseenEnd - unseenFrom) false).1
  else pure []

/-- The commands of the replay; there is none when nothing left the screen, or the server carries no
rows. -/
def replayCommands (s previous : DisplayScreen) : Except ReplayFault (Option (List Command)) :=
  if s.scrollback.evicted ≤ previous.scrollback.evicted then .ok none
  else if s.scrollback.active = false ∨ s.rows < 1 then .ok none
  else do
    let missing := s.scrollback.evicted - previous.scrollback.evicted
    let corrections ← s.correctStaleRows previous missing
    let unseen ← s.writeUnseen (saturatingAdd previous.scrollback.evicted s.rows)
    pure (some (.reset :: corrections ++ [.bottom s.rows] ++ unseen ++ [.carriageReturn] ++
      List.replicate (min missing s.rows) .lineFeed))

def scrollbackReplay (s previous : DisplayScreen) : Except ReplayFault (Option (List UInt8)) :=
  (s.replayCommands previous).map fun replay => replay.map fun commands =>
    commands.flatMap Command.bytes

end DisplayScreen

/-! ### A terminal, line by line -/

/-- A terminal of whole lines: those in its history and those on its screen. -/
structure LineTerminal where
  history : List (List UInt8)
  screen : List (List UInt8)
  cursor : ℕ
  /-- The line of the cursor is full: what is written next goes on the line below. -/
  wrap : Bool

namespace LineTerminal

/-- Down a line; at the bottom the first line goes into the history. -/
def lineFeed (t : LineTerminal) : LineTerminal :=
  if t.cursor + 1 < t.screen.length then { t with cursor := t.cursor + 1 }
  else
    { t with
      history := t.history ++ t.screen.take 1
      screen := t.screen.drop 1 ++ [[]] }

/-- Text on a blank line; `full` says that it goes to the end of the line. -/
def write (t : LineTerminal) (text : List UInt8) (full : Bool) : LineTerminal :=
  let t := if t.wrap then t.lineFeed else t
  { t with screen := t.screen.set t.cursor text, wrap := full }

/-- What a command does; a row whose line goes on below is full. -/
def apply (t : LineTerminal) : Command → LineTerminal
  | .reset => { t with cursor := 0, wrap := false }
  | .erase row => { t with screen := t.screen.set row [], cursor := row, wrap := false }
  | .bottom height => { t with cursor := height - 1, wrap := false }
  | .newline => lineFeed { t with wrap := false }
  | .write row => t.write row.contents row.wrapped
  | .gap dropped => t.write (gapText dropped) false
  | .carriageReturn => { t with wrap := false }
  | .lineFeed => t.lineFeed

def run (t : LineTerminal) (commands : List Command) : LineTerminal := commands.foldl apply t

end LineTerminal

namespace LineTerminal

/-- The cursor is on the last line. -/
def AtBottom (t : LineTerminal) : Prop := t.cursor + 1 = t.screen.length

/-- All the lines, those in the history first. -/
def lines (t : LineTerminal) : List (List UInt8) := t.history ++ t.screen

/-- Lines have come in at the bottom, and as many have gone into the history. -/
structure Pushed (t t' : LineTerminal) (entered : List (List UInt8)) : Prop where
  lines : t'.lines = t.lines ++ entered
  history : t'.history.length = t.history.length + entered.length
  screen : t'.screen.length = t.screen.length
  bottom : t'.AtBottom

variable {t t' t'' : LineTerminal}

theorem Pushed.refl (h : t.AtBottom) : Pushed t t [] :=
  ⟨(append_nil _).symm, rfl, rfl, h⟩

variable {entered : List (List UInt8)}

theorem Pushed.trans {entered' : List (List UInt8)} (h : Pushed t t' entered)
    (h' : Pushed t' t'' entered') : Pushed t t'' (entered ++ entered') where
  lines := by rw [h'.lines, h.lines, append_assoc]
  history := by rw [h'.history, h.history, length_append, Nat.add_assoc]
  screen := h'.screen.trans h.screen
  bottom := h'.bottom

theorem lineFeed_bottom (h : t.AtBottom) : Pushed t t.lineFeed [[]] := by
  have hlast : ¬ t.cursor + 1 < t.screen.length := by
    rw [h]
    exact lt_irrefl _
  rw [AtBottom] at h
  rw [lineFeed, if_neg hlast]
  obtain ⟨line, below, hscreen⟩ := exists_cons_of_length_pos (l := t.screen) (by omega)
  refine ⟨?_, ?_, ?_, ?_⟩
  · simp [LineTerminal.lines, hscreen]
  · simp [hscreen]
  · simp [hscreen]
  · rw [AtBottom, h]
    simp [hscreen]

/-- A new line at the bottom, with text on it. -/
theorem pushed_text (h : t.AtBottom) (text : List UInt8) (full : Bool) :
    Pushed t { t.lineFeed with screen := t.lineFeed.screen.set t.lineFeed.cursor text, wrap := full }
      [text] := by
  have hfeed := lineFeed_bottom h
  have hlast : ¬ t.cursor + 1 < t.screen.length := by
    rw [h]
    exact lt_irrefl _
  refine ⟨?_, hfeed.history, by simpa using hfeed.screen, by simpa [AtBottom] using hfeed.bottom⟩
  rw [AtBottom] at h
  obtain ⟨line, below, hscreen⟩ := exists_cons_of_length_pos (l := t.screen) (by omega)
  have hcursor : t.cursor = below.length := by simpa [hscreen] using h
  rw [lineFeed, if_neg hlast]
  simp [LineTerminal.lines, hscreen, hcursor]

theorem run_append (t : LineTerminal) (xs ys : List Command) :
    t.run (xs ++ ys) = (t.run xs).run ys :=
  foldl_append

/-- Text on a line of its own, behind a full line or not. -/
theorem pushed_write (h : t.AtBottom) (text : List UInt8) (full : Bool) :
    Pushed t ((t.run (if !t.wrap then [.newline] else [])).write text full) [text] ∧
      ((t.run (if !t.wrap then [.newline] else [])).write text full).wrap = full := by
  cases hwrap : t.wrap with
  | true =>
    have hrun : (t.run []).write text full =
        { t.lineFeed with
          screen := t.lineFeed.screen.set t.lineFeed.cursor text
          wrap := full } := by
      rw [write]
      exact congrArg (fun t : LineTerminal =>
        { t with screen := t.screen.set t.cursor text, wrap := full }) (if_pos hwrap)
    exact ⟨hrun ▸ pushed_text h text full, rfl⟩
  | false =>
    have hrun : (t.run [.newline]).write text full =
        { t.lineFeed with
          screen := t.lineFeed.screen.set t.lineFeed.cursor text
          wrap := full } := by
      have hfeed : t.run [.newline] = t.lineFeed := congrArg lineFeed (by rw [← hwrap])
      have hkept : t.lineFeed.wrap = false := by
        rw [lineFeed]
        split_ifs
        · exact hwrap
        · exact hwrap
      rw [hfeed, write, hkept]
      rfl
    exact ⟨hrun ▸ pushed_text h text full, rfl⟩

theorem pushed_writeGap (h : t.AtBottom) (dropped : ℕ) :
    Pushed t (t.run (DisplayScreen.writeGap dropped t.wrap).1) [gapText dropped] ∧
      (t.run (DisplayScreen.writeGap dropped t.wrap).1).wrap = false := by
  rw [DisplayScreen.writeGap, run_append]
  exact pushed_write h (gapText dropped) false

theorem pushed_writeRows (h : t.AtBottom) (rows : List ScrollbackRow) :
    Pushed t (t.run (DisplayScreen.writeRows t.wrap rows).1) (rows.map ScrollbackRow.contents) ∧
      (t.run (DisplayScreen.writeRows t.wrap rows).1).wrap =
        (DisplayScreen.writeRows t.wrap rows).2 := by
  induction rows generalizing t with
  | nil => exact ⟨.refl h, rfl⟩
  | cons row rows ih =>
    obtain ⟨hpushed, hwrap⟩ := pushed_write h row.contents row.wrapped
    obtain ⟨hrest, hlast⟩ := ih hpushed.bottom
    rw [hwrap] at hrest hlast
    have hrun : t.run (DisplayScreen.writeRows t.wrap (row :: rows)).1 =
        ((t.run (if !t.wrap then [.newline] else [])).write row.contents row.wrapped).run
          (DisplayScreen.writeRows row.wrapped rows).1 :=
      run_append t _ _
    rw [hrun]
    exact ⟨hpushed.trans hrest, hlast⟩

theorem pushed_lineFeeds (h : t.AtBottom) (n : ℕ) :
    Pushed t (t.run (List.replicate n .lineFeed)) (List.replicate n []) := by
  induction n generalizing t with
  | zero => exact .refl h
  | succ n ih =>
    have hfeed := lineFeed_bottom h
    exact hfeed.trans (ih hfeed.bottom)

theorem Pushed.returned (h : Pushed t t' entered) : Pushed t (t'.run [.carriageReturn]) entered :=
  ⟨h.lines, h.history, h.screen, h.bottom⟩

/-- What is in the history when all that left has come in below, and as many blank lines as the
screen has lost: `below` is the rest of the screen. -/
theorem Pushed.history_eq {history leaving below : List (List UInt8)} {cursor n : ℕ} {wrap : Bool}
    (h : Pushed ⟨history, leaving ++ below, cursor, wrap⟩ t' (entered ++ List.replicate n []))
    (hleaving : leaving.length = n) (hrest : entered = [] ∨ below = []) :
    t'.history = history ++ leaving ++ entered := by
  have htake : t'.history = t'.lines.take t'.history.length := by
    rw [LineTerminal.lines, take_left]
  have hlines : t'.lines = history ++ leaving ++ entered ++ (below ++ List.replicate n []) := by
    rw [h.lines, LineTerminal.lines]
    rcases hrest with rfl | rfl
    · simp
    · simp
  have hlength : t'.history.length = (history ++ leaving ++ entered).length := by
    rw [h.history]
    simp [hleaving]
    omega
  rw [htake, hlines, hlength, take_left]

end LineTerminal

/-! ### Row by row -/

namespace DisplayScreen

/-- The rows on the screen, from the given one on, in the version the server carries, if it carries
one. -/
def leavingFrom (s : DisplayScreen) (evicted row : ℕ) : List (List UInt8) → List (List UInt8)
  | [] => []
  | onScreen :: shown =>
    ((s.carriedRow (evicted + row)).map ScrollbackRow.contents).getD onScreen ::
      s.leavingFrom evicted (row + 1) shown

/-- What enters the history for the rows on the screen. -/
def leaving (s previous : DisplayScreen) : List (List UInt8) :=
  s.leavingFrom previous.scrollback.evicted 0
    (previous.visibleRows.take (s.scrollback.evicted - previous.scrollback.evicted))

/-- A number of lines that are not carried, as a line. -/
def gapLine (dropped : ℕ) : List (List UInt8) := if dropped = 0 then [] else [gapText dropped]

/-- What enters the history for rows that were never shown: each one that is carried, and the number
of those in between. -/
def entries (dropped : ℕ) : List (Option ScrollbackRow) → List (List UInt8)
  | [] => gapLine dropped
  | none :: rows => entries (dropped + 1) rows
  | some row :: rows => gapLine dropped ++ row.contents :: entries 0 rows

/-- The rows that left, behind those on the screen, up to the total. -/
def unseen (s previous : DisplayScreen) : List (Option ScrollbackRow) :=
  (List.range' (previous.scrollback.evicted + s.rows)
    (s.scrollback.evicted - (previous.scrollback.evicted + s.rows))).map s.carriedRow

/-! ### The rows on the screen -/

variable {s previous : DisplayScreen}

theorem length_leavingFrom (s : DisplayScreen) (evicted row : ℕ) (shown : List (List UInt8)) :
    (s.leavingFrom evicted row shown).length = shown.length := by
  induction shown generalizing row with
  | nil => rfl
  | cons onScreen shown ih => rw [leavingFrom, length_cons, length_cons, ih]

/-- The corrections put on the screen what the server carries. -/
theorem correctFrom_spec (s : DisplayScreen) (evicted row : ℕ) {shown : List (List UInt8)}
    (hrange : evicted + (row + shown.length) ≤ 2 ^ 64) :
    ∃ commands, s.correctFrom evicted row shown = .ok commands ∧
      ∀ (t : LineTerminal) (above below : List (List UInt8)), above.length = row →
        t.screen = above ++ shown ++ below → ∃ cursor wrap, t.run commands =
          { t with screen := above ++ s.leavingFrom evicted row shown ++ below, cursor, wrap } := by
  induction shown generalizing row with
  | nil =>
    refine ⟨[], rfl, fun t above below _ hscreen => ⟨t.cursor, t.wrap, ?_⟩⟩
    rw [leavingFrom, ← hscreen]
    rfl
  | cons onScreen shown ih =>
    rw [length_cons] at hrange
    obtain ⟨rest, hrest, heffect⟩ := ih (row + 1) (by omega)
    have hindex : u64Add evicted row = .ok (evicted + row) := if_pos (by omega)
    -- the rows below, once this one is as the server carries it
    have hbelow (t : LineTerminal) (above below : List (List UInt8)) (line : List UInt8)
        (habove : above.length = row) (hscreen : t.screen = above ++ line :: shown ++ below) :
        ∃ cursor wrap, t.run rest =
          { t with
            screen := above ++ line :: s.leavingFrom evicted (row + 1) shown ++ below, cursor, wrap } := by
      obtain ⟨cursor, wrap, heq⟩ := heffect t (above ++ [line]) below (by simp [habove])
        (by simpa using hscreen)
      exact ⟨cursor, wrap, by simpa using heq⟩
    rw [correctFrom, hindex, leavingFrom]
    cases hcarried : s.carriedRow (evicted + row) with
    | none => exact ⟨rest, by simp [hrest, hcarried, bind, Except.bind, pure, Except.pure],
        fun t above below habove hscreen => hbelow t above below onScreen habove hscreen⟩
    | some carried =>
      by_cases hsame : carried.contents = onScreen
      · refine ⟨rest, by simp [hrest, hcarried, hsame, bind, Except.bind, pure, Except.pure], ?_⟩
        intro t above below habove hscreen
        rw [Option.map_some, Option.getD_some, hsame]
        exact hbelow t above below onScreen habove hscreen
      · refine ⟨.erase row :: .write carried :: rest,
          by simp [hrest, hcarried, hsame, bind, Except.bind, pure, Except.pure], ?_⟩
        intro t above below habove hscreen
        have hset (line line' : List UInt8) :
            (above ++ line :: shown ++ below).set row line' = above ++ line' :: shown ++ below := by
          rw [← habove, append_assoc, set_append_right _ _ (le_refl _), Nat.sub_self]
          simp
        have hwritten : (t.apply (.erase row)).apply (.write carried) =
            { t with
              screen := above ++ carried.contents :: shown ++ below
              cursor := row
              wrap := carried.wrapped } := by
          simp only [LineTerminal.apply, LineTerminal.write, hscreen, hset, Bool.false_eq_true,
            if_false]
        obtain ⟨cursor, wrap, heq⟩ := hbelow
          { t with
            screen := above ++ carried.contents :: shown ++ below
            cursor := row
            wrap := carried.wrapped } above below carried.contents habove rfl
        refine ⟨cursor, wrap, ?_⟩
        rw [LineTerminal.run, foldl_cons, foldl_cons, hwritten]
        exact heq

/-! ### The rows beyond the screen -/

theorem entries_none (dropped n : ℕ) (rows : List (Option ScrollbackRow)) :
    entries dropped (List.replicate n none ++ rows) = entries (dropped + n) rows := by
  induction n generalizing dropped with
  | zero => rfl
  | succ n ih =>
    rw [replicate_succ, cons_append, entries, ih]
    congr 1
    omega

theorem entries_some (rows : List ScrollbackRow) (rest : List (Option ScrollbackRow)) :
    entries 0 (rows.map some ++ rest) = rows.map ScrollbackRow.contents ++ entries 0 rest := by
  induction rows with
  | nil => rfl
  | cons row rows ih =>
    rw [map_cons, cons_append, entries, ih]
    rfl

theorem entries_replicate (dropped n : ℕ) :
    entries dropped (List.replicate n none) = gapLine (dropped + n) := by
  have hentries := entries_none dropped n []
  rw [append_nil] at hentries
  exact hentries

/-- Some rows that are carried, between others that are not. -/
theorem entries_between (before after : ℕ) {rows : List ScrollbackRow} (hrows : rows ≠ []) :
    entries 0 (List.replicate before none ++ rows.map some ++ List.replicate after none) =
      gapLine before ++ rows.map ScrollbackRow.contents ++ gapLine after := by
  obtain ⟨row, rest, rfl⟩ := exists_cons_of_ne_nil hrows
  rw [append_assoc, entries_none, Nat.zero_add, map_cons, cons_append, entries,
    entries_some, entries_replicate, Nat.zero_add, append_assoc]
  rfl

theorem range'_split {a b c : ℕ} (hab : a ≤ b) (hbc : b ≤ c) :
    List.range' a (c - a) = List.range' a (b - a) ++ List.range' b (c - b) := by
  have happend := range'_append_1 (s := a) (m := b - a) (n := c - b)
  rw [Nat.add_sub_cancel' hab] at happend
  rw [happend]
  congr 1
  omega

theorem map_carriedRow_none {start n : ℕ}
    (h : ∀ index, start ≤ index → index < start + n → s.carriedRow index = none) :
    (List.range' start n).map s.carriedRow = List.replicate n none := by
  refine eq_replicate_iff.mpr ⟨by simp, fun row hrow => ?_⟩
  obtain ⟨index, hindex, rfl⟩ := mem_map.mp hrow
  rw [mem_range'_1] at hindex
  exact h index hindex.1 hindex.2

theorem map_carriedRow_some {start n : ℕ} (hfirst : s.scrollback.rowsFirst ≤ start)
    (hlast : start + n ≤ s.scrollback.rowsFirst + s.scrollback.rows.length) :
    (List.range' start n).map s.carriedRow =
      ((s.scrollback.rows.drop (start - s.scrollback.rowsFirst)).take n).map some := by
  refine ext_getElem (by simp; omega) fun i hi hi' => ?_
  have hn : i < n := by simpa using hi
  rw [getElem_map, getElem_map, getElem_take, getElem_drop,
    getElem_range', carriedRow, if_pos (by omega), ← getElem?_eq_getElem]
  congr 1
  omega

/-- A gap, if there is one. -/
def gapCommands (dropped : ℕ) (wrapping : Bool) : List Command × Bool :=
  if 0 < dropped then writeGap dropped wrapping else ([], wrapping)

theorem pushed_gap {t : LineTerminal} (h : t.AtBottom) (dropped : ℕ) :
    t.Pushed (t.run (gapCommands dropped t.wrap).1) (gapLine dropped) ∧
      (t.run (gapCommands dropped t.wrap).1).wrap = (gapCommands dropped t.wrap).2 := by
  rw [gapCommands, gapLine]
  by_cases hdropped : 0 < dropped
  · rw [if_pos hdropped, if_neg hdropped.ne']
    exact LineTerminal.pushed_writeGap h dropped
  · rw [if_neg hdropped, if_pos (Nat.eq_zero_of_not_pos hdropped)]
    exact ⟨.refl h, rfl⟩

/-- The part of an interval that is carried, and a line for what is not on either side of it. -/
theorem writeRetained_spec (s : DisplayScreen)
    {start retainedFrom retainedEnd : ℕ}
    (hfrom : retainedFrom = max start s.scrollback.rowsFirst)
    (hend : retainedEnd = min s.scrollback.evicted
      (s.scrollback.rowsFirst + s.scrollback.rows.length))
    (hretained : retainedFrom < retainedEnd) :
    ∃ commands, s.writeRetained start retainedFrom retainedEnd = .ok commands ∧
      ∀ t : LineTerminal, t.AtBottom → t.wrap = false →
        t.Pushed (t.run commands) (entries 0
          ((List.range' start (s.scrollback.evicted - start)).map s.carriedRow)) := by
  set first := s.scrollback.rowsFirst with hfirst
  set rows := (s.scrollback.rows.drop (retainedFrom - first)).take (retainedEnd - retainedFrom)
    with hrows
  -- the interval, in its three parts
  have hparts : (List.range' start (s.scrollback.evicted - start)).map s.carriedRow =
      List.replicate (retainedFrom - start) none ++ rows.map some ++
        List.replicate (s.scrollback.evicted - retainedEnd) none := by
    have hretain : (List.range' retainedFrom (retainedEnd - retainedFrom)).map s.carriedRow =
        rows.map some := map_carriedRow_some (by omega) (by omega)
    rw [range'_split (b := retainedEnd) (by omega) (by omega),
      range'_split (b := retainedFrom) (by omega) (by omega), map_append, map_append,
      hretain]
    congr 1
    · congr 1
      refine map_carriedRow_none fun index hle hlt => ?_
      rw [carriedRow, if_neg (by omega)]
    · refine map_carriedRow_none fun index hle hlt => ?_
      rw [carriedRow]
      split_ifs
      · exact getElem?_eq_none (by omega)
      · rfl
  have hne : rows ≠ [] := by
    rw [← length_pos_iff, hrows, length_take, length_drop]
    omega
  rw [hparts, entries_between _ _ hne]
  have hbefore : u64Sub retainedFrom start = .ok (retainedFrom - start) := if_pos (by omega)
  have hoffset : u64Sub retainedFrom first = .ok (retainedFrom - first) := if_pos (by omega)
  have hcount : u64Sub retainedEnd retainedFrom = .ok (retainedEnd - retainedFrom) :=
    if_pos (by omega)
  have hslice : sliceRows s.scrollback.rows (retainedFrom - first) (retainedEnd - retainedFrom) =
      .ok rows := if_pos (by omega)
  have hafter : u64Sub s.scrollback.evicted retainedEnd =
      .ok (s.scrollback.evicted - retainedEnd) := if_pos (by omega)
  refine ⟨(gapCommands (retainedFrom - start) false).1 ++
    (writeRows (gapCommands (retainedFrom - start) false).2 rows).1 ++
      (gapCommands (s.scrollback.evicted - retainedEnd)
        (writeRows (gapCommands (retainedFrom - start) false).2 rows).2).1, ?_, ?_⟩
  · rw [writeRetained, hbefore, hoffset, hcount]
    by_cases hlast : retainedEnd < s.scrollback.evicted
    · simp only [bind, Except.bind, pure, Except.pure, hslice, hafter, if_pos hlast, gapCommands,
        if_pos (Nat.sub_pos_of_lt hlast)]
    · simp only [bind, Except.bind, pure, Except.pure, hslice, if_neg hlast, gapCommands,
        if_neg (show ¬ 0 < s.scrollback.evicted - retainedEnd by omega), append_nil]
  · intro t hbottom hwrap
    rw [← hwrap, LineTerminal.run_append, LineTerminal.run_append]
    obtain ⟨hgap, hflag⟩ := pushed_gap hbottom (retainedFrom - start)
    rw [← hflag]
    obtain ⟨hwritten, hlast⟩ := LineTerminal.pushed_writeRows hgap.bottom rows
    rw [← hlast]
    exact (hgap.trans hwritten).trans
      (pushed_gap hwritten.bottom (s.scrollback.evicted - retainedEnd)).1

/-- The rows that are not shown, as the arithmetic of the replay finds them. -/
theorem writeUnseen_spec (s : DisplayScreen) (hrange : s.scrollback.InRange) (start : ℕ) :
    ∃ commands, s.writeUnseen (min start (2 ^ 64 - 1)) = .ok commands ∧
      ∀ t : LineTerminal, t.AtBottom → t.wrap = false →
        t.Pushed (t.run commands) (entries 0
          ((List.range' start (s.scrollback.evicted - start)).map s.carriedRow)) := by
  obtain ⟨hevicted, -⟩ := hrange
  rw [writeUnseen]
  generalize hfrom : max (min start (2 ^ 64 - 1)) s.scrollback.rowsFirst = retainedFrom
  generalize hend : min s.scrollback.evicted
    (saturatingAdd s.scrollback.rowsFirst s.scrollback.rows.length) = retainedEnd
  rw [saturatingAdd] at hend
  by_cases hretained : retainedFrom < retainedEnd
  · have hstart : min start (2 ^ 64 - 1) = start := by omega
    rw [if_pos hretained, hstart]
    exact writeRetained_spec s (by omega) (by omega) hretained
  · -- nothing of the interval is carried
    have hnone : (List.range' start (s.scrollback.evicted - start)).map s.carriedRow =
        List.replicate (s.scrollback.evicted - start) none := by
      refine map_carriedRow_none fun index hle hlt => ?_
      rw [carriedRow]
      split_ifs with hfirst
      · exact getElem?_eq_none (by omega)
      · rfl
    rw [if_neg hretained, hnone, entries_replicate, Nat.zero_add, gapLine]
    by_cases hunseen : min start (2 ^ 64 - 1) < s.scrollback.evicted
    · have hstart : min start (2 ^ 64 - 1) = start := by omega
      rw [hstart] at hunseen
      rw [hstart, if_pos hunseen, if_neg (by omega)]
      refine ⟨_, rfl, fun t hbottom hwrap => ?_⟩
      rw [← hwrap]
      exact (LineTerminal.pushed_writeGap hbottom _).1
    · rw [if_neg hunseen, if_pos (by omega)]
      exact ⟨[], rfl, fun t hbottom _ => .refl hbottom⟩

/-! ### The replay -/

/-- The replay for a terminal that shows the screen before: its history grows by the rows of the
interval, those on the screen first. -/
theorem replay_some (hs : s.scrollback.InRange) (hsize : previous.rows = s.rows)
    (hheight : 1 ≤ s.rows) (hactive : s.scrollback.active = true)
    (hless : previous.scrollback.evicted < s.scrollback.evicted) :
    ∃ commands, s.replayCommands previous = .ok (some commands) ∧
      ∀ t : LineTerminal, t.screen = previous.visibleRows →
        (t.run commands).history =
          t.history ++ s.leaving previous ++ entries 0 (s.unseen previous) := by
  set old := previous.scrollback.evicted with hold
  set missing := s.scrollback.evicted - old with hmissing
  set shown := previous.visibleRows.take (min missing s.rows) with hshown
  have hlength : previous.visibleRows.length = s.rows := hsize
  have hcount : shown.length = min missing s.rows := by
    rw [hshown, length_take, hlength]
    omega
  have htake : previous.visibleRows.take missing = shown := by
    rw [hshown, ← hlength, take_eq_take_min]
  have hrange : old + (0 + shown.length) ≤ 2 ^ 64 := by
    rw [hcount]
    have := hs.1
    omega
  obtain ⟨corrections, hcorrections, heffect⟩ := s.correctFrom_spec old 0 hrange
  obtain ⟨unseen, hunseen, hpushes⟩ := s.writeUnseen_spec hs (old + s.rows)
  refine ⟨.reset :: corrections ++ [.bottom s.rows] ++ unseen ++ [.carriageReturn] ++
    List.replicate (min missing s.rows) .lineFeed, ?_, fun t hscreen => ?_⟩
  · have hstale : s.correctStaleRows previous missing = .ok corrections := hcorrections
    rw [replayCommands, if_neg (by omega), if_neg (by rw [hactive]; simp; omega)]
    simp only [bind, Except.bind, pure, Except.pure, ← hold, ← hmissing, hstale, saturatingAdd,
      hunseen]
  · have hleaving : s.leaving previous = s.leavingFrom old 0 shown := by rw [leaving, htake]
    have hleft : (s.leaving previous).length = min missing s.rows := by
      rw [hleaving, length_leavingFrom, hcount]
    -- the screen, corrected
    obtain ⟨cursor, wrap, hcorrected⟩ := heffect (t.apply .reset) []
      (previous.visibleRows.drop (min missing s.rows)) rfl (by
        rw [nil_append, hshown, take_append_drop]
        exact hscreen)
    set below := previous.visibleRows.drop (min missing s.rows) with hbelow
    have hbottomed : (t.run (.reset :: corrections)).run [.bottom s.rows] =
        ⟨t.history, s.leaving previous ++ below, s.rows - 1, false⟩ := by
      have hreset : t.run (.reset :: corrections) = (t.apply .reset).run corrections := rfl
      rw [hreset, hcorrected, hleaving]
      rfl
    have hbottom : LineTerminal.AtBottom
        ⟨t.history, s.leaving previous ++ below, s.rows - 1, false⟩ := by
      rw [LineTerminal.AtBottom, length_append, hleft, hbelow, length_drop, hlength]
      dsimp only
      omega
    -- what comes in below it
    have hunseen := hpushes _ hbottom rfl
    have hfeeds := LineTerminal.pushed_lineFeeds (hunseen.returned.bottom) (min missing s.rows)
    have hall := hunseen.returned.trans hfeeds
    rw [LineTerminal.run_append, LineTerminal.run_append, LineTerminal.run_append,
      LineTerminal.run_append, hbottomed]
    refine hall.history_eq hleft ?_
    by_cases hfits : s.scrollback.evicted ≤ old + s.rows
    · refine .inl ?_
      rw [Nat.sub_eq_zero_of_le hfits]
      rfl
    · refine .inr ?_
      rw [hbelow, drop_eq_nil_iff, hlength]
      omega

/-- The replay, whatever the server has sent: there is one if rows have left a screen whose server
carries rows, nothing in it leaves its range, and the history of a terminal that shows the screen
before grows by one line for each row on the screen that left, one for each row beyond them that is
carried, and one for each run of those that are not. -/
theorem replay_history (s previous : DisplayScreen) (hs : s.scrollback.InRange)
    (hsize : previous.rows = s.rows) :
    ∃ replay, s.replayCommands previous = .ok replay ∧
      s.scrollbackReplay previous =
        .ok (replay.map fun commands => commands.flatMap Command.bytes) ∧
      (replay.isSome ↔ s.scrollback.active = true ∧
        previous.scrollback.evicted < s.scrollback.evicted ∧ 1 ≤ s.rows) ∧
      ∀ commands, replay = some commands → ∀ t : LineTerminal, t.screen = previous.visibleRows →
        (t.run commands).history =
          t.history ++ s.leaving previous ++ entries 0 (s.unseen previous) := by
  by_cases hleft : s.scrollback.active = true ∧
      previous.scrollback.evicted < s.scrollback.evicted ∧ 1 ≤ s.rows
  · obtain ⟨commands, hreplay, hhistory⟩ := replay_some hs hsize hleft.2.2 hleft.1 hleft.2.1
    refine ⟨some commands, hreplay, by rw [scrollbackReplay, hreplay]; rfl, iff_of_true rfl hleft, ?_⟩
    intro commands' heq
    cases heq
    exact hhistory
  · have hnone : s.replayCommands previous = .ok none := by
      rw [replayCommands]
      split_ifs with hgrown hinactive
      · rfl
      · rfl
      · rw [not_or, Bool.not_eq_false] at hinactive
        exact absurd ⟨hinactive.1, Nat.lt_of_not_le hgrown, Nat.le_of_not_lt hinactive.2⟩ hleft
    exact ⟨none, hnone, by rw [scrollbackReplay, hnone]; rfl, iff_of_false nofun hleft, nofun⟩

/-- A state of the history, as a diff leaves it. -/
def carrying (evicted rowsFirst : ℕ) (rows : List ScrollbackRow) : ScrollbackState :=
  { ScrollbackState.new with active := true, evicted, rowsFirst, rows }

/-- Five rows left a screen of one row, of which the server carries the third and the fourth. -/
theorem replay_history_five :
    ∃ commands,
      replayCommands ⟨[[0x62]], carrying 5 2 [⟨[0x63], false⟩, ⟨[0x64], false⟩]⟩
          ⟨[[0x61]], .new⟩ = .ok (some commands) ∧
        (LineTerminal.run ⟨[], [[0x61]], 0, false⟩ commands).history =
          [[0x61], gapText 1, [0x63], [0x64], gapText 1] := by
  obtain ⟨replay, hreplay, -, hsome, hhistory⟩ := replay_history
    ⟨[[0x62]], carrying 5 2 [⟨[0x63], false⟩, ⟨[0x64], false⟩]⟩ ⟨[[0x61]], .new⟩
    ⟨by decide, by decide⟩ rfl
  obtain ⟨commands, rfl⟩ := Option.isSome_iff_exists.mp (hsome.mpr ⟨rfl, by decide, by decide⟩)
  exact ⟨commands, hreplay, hhistory commands rfl ⟨[], [[0x61]], 0, false⟩ rfl⟩

/-- One row left a screen of one row, and the server does not carry it: it is scrolled off the screen,
and not told as missing. -/
theorem leaving_not_carried :
    replayCommands ⟨[[0x62]], carrying 1 1 []⟩ ⟨[[0x61]], .new⟩ =
        .ok (some [.reset, .bottom 1, .carriageReturn, .lineFeed]) ∧
      carriedRow ⟨[[0x62]], carrying 1 1 []⟩ 0 = none := by
  decide

end DisplayScreen

end Zetta.Zosh
