import Zetta.Console.Keys

/-!
# The queue of input and the thread that serves reads

Reads wait in the order in which they came, and one thread serves the first of them: it takes the
lock to choose a read, to look at the queued records and to put a read back that found nothing, and
lets go of it while a line is edited and drawn and while a read completes. What the server's other
threads do falls between its steps.

* `Input.advance`: the steps of the thread, one for each time that it holds the lock.
* `Input.step`: these, and what the rest of the server does to the queue.
-/

namespace Zetta.Console.Reads

/-! ### The line editor -/

/-- How far a line is. -/
inductive Cooked
  | accumulating
  | doneWithWakeupMask
  | doneWithCarriageReturn
  deriving DecidableEq

/-- The line editor, with the histories and aliases that it shares with the rest of the server.
Neither drawing a line nor adding a wake-up character to it changes how far it is. -/
structure Editor (C E : Type) where
  new : List UInt16 → UInt32 → Bool → ℤ × ℤ → ℤ × ℤ → C
  state : C → Cooked
  hasPopup : C → Bool
  controlKeyState : C → UInt32
  takeBuffer : C → List UInt16
  /-- A key, with the process whose history it may use and whether input is processed: the line,
  the histories, and whether the aliases of cmd.exe are to be cleared. -/
  handlePopup : ℕ → Bool → UInt16 → UInt16 → UInt32 → C → E → C × E × Bool
  handleChar : ℕ → Bool → UInt16 → UInt32 → C → E → C × E × Bool
  handleVkey : ℕ → Bool → UInt16 → UInt32 → C → E → C × E × Bool
  clearCmd : E → E
  /-- The line as drawn, and whether there is anything to write. -/
  redisplay : ℤ × ℤ → ℤ × ℤ → ℕ → E → C → C × Bool
  completeWakeup : C → C
  addHistory : ℕ → List UInt16 → E → E
  expand : E → List UInt16 → List UInt16 → Option (List UInt16 × ℕ)
  state_redisplay (size cursor : ℤ × ℤ) (process : ℕ) (editing : E) (line : C) :
    state (redisplay size cursor process editing line).1 = state line
  state_completeWakeup (line : C) : state (completeWakeup line) = state line

namespace Editor

variable {C E : Type} (ed : Editor C E) (p : Platform)

def isDone (line : C) : Bool := ed.state line != .accumulating

/-- A line with the histories, and whether the aliases of cmd.exe are to be cleared. -/
abbrev Edited (C E : Type) := C × E × Bool

/-- One press of a key. -/
def press (process : ℕ) (processed vt : Bool) (r : InputRecord) (s : Edited C E) : Edited C E :=
  let (line, editing, clear) := s
  let keys : Keys := if ed.hasPopup line then .popup else .editing
  let (line, editing, clear') :=
    match getChar p r keys vt, keys with
    | some (.char ch state), .popup => ed.handlePopup process processed ch 0 state line editing
    | some (.vkey vk state), .popup => ed.handlePopup process processed 0 vk state line editing
    | some (.char ch state), _ => ed.handleChar process processed ch state line editing
    | some (.vkey vk state), _ => ed.handleVkey process processed vk state line editing
    | none, _ => (line, editing, false)
  (line, editing, clear || clear')

/-- A record as often as it repeats, until the line is done. -/
def pressTimes (process : ℕ) (processed vt : Bool) (r : InputRecord) :
    ℕ → Edited C E → Edited C E
  | 0, s => s
  | n + 1, s =>
    if ed.isDone s.1 then s
    else pressTimes process processed vt r n (ed.press p process processed vt r s)

/-- The records up to the one that ends the line, and those that are left. -/
def feed (process : ℕ) (processed vt : Bool) : Edited C E → List InputRecord →
    Edited C E × List InputRecord
  | s, [] => (s, [])
  | s, r :: rest =>
    if ed.isDone s.1 then (s, r :: rest)
    else feed process processed vt
      (ed.pressTimes p process processed vt r (max r.repeatCount.toNat 1) s) rest

end Editor

/-! ### Reads -/

structure Request (C : Type) where
  /-- The driver's name for the read, the process it is for and the handle it is on. -/
  id : ℕ
  process : ℕ
  object : ℕ
  /-- The bytes that the caller has room for. -/
  capacity : ℕ
  records : Bool
  unicode : Bool
  peek : Bool
  nowait : Bool
  exe : List UInt16
  initial : List UInt16
  wakeupMask : UInt32
  controlZ : Bool
  /-- The line being edited, kept while the read waits for more keys. -/
  cooked : Option C
  controlKeyState : UInt32
  /-- The read found nothing and waited for input. -/
  waited : Bool
  /-- Only a read of records carries flags. -/
  flags : nowait = true → records = true

/-- Text owed to a handle. -/
structure Pending where
  text : List UInt16
  multiline : Bool

inductive Outcome
  | records (records : List InputRecord)
  | text (bytes : List UInt8) (controlKeyState : UInt32)
  | alerted
  | cancelled
  | tooSmall
  deriving DecidableEq

def Outcome.carriesData : Outcome → Bool
  | .records _ => true
  | .text _ _ => true
  | _ => false

/-- What the screen or the echo fails with. -/
inductive Failure
  | invalidInput
  | other

def Failure.outcome : Failure → Outcome
  | .invalidInput => .tooSmall
  | .other => .cancelled

/-- What the screen and the driver answer during a step. -/
structure Answer where
  /-- The size of the screen, and its cursor. -/
  screen : Except Failure ((ℤ × ℤ) × (ℤ × ℤ))
  /-- What writing an echo fails with. -/
  echo : Option Failure
  /-- The driver takes the data of a completed read. -/
  transferred : Bool

/-- Where the thread is: before it chooses a read, asleep, with a read in hand, or asleep behind a
read that it put back when there were `old` records. -/
inductive Phase (C : Type)
  | top
  | asleep
  | popped (r : Request C)
  | fulfilling (r : Request C)
  | reading (r : Request C)
  | looking (r : Request C) (mode : UInt32)
  | feeding (r : Request C) (line : C) (mode : UInt32) (records : List InputRecord)
  | fed (r : Request C) (line : C) (mode : UInt32) (rest : List InputRecord)
  | drawing (r : Request C) (line : C) (mode : UInt32)
  | finishing (r : Request C) (line : C) (mode : UInt32)
  | completing (r : Request C) (outcome : Outcome)
  | leaving (r : Request C)
  | behind (old : ℕ)
  | ended

/-- The queue of input. The last three fields record what happens: the reads that were accepted,
those completed with what they were given, and those dropped. -/
structure Input (D C E : Type) where
  records : List InputRecord
  pending : ℕ → Option Pending
  ignoreNextKeyup : Bool
  /-- The records of the first event to reach an empty queue: a read already waiting completes
  with those alone. -/
  firstEvent : Option ℕ
  requests : List (Request C)
  keys : D
  closed : Bool
  clients : Finset ℕ
  handles : Finset ℕ
  /-- Control keys that the thread has yet to apply to pending reads. -/
  alert : Controls
  cachedAnsi : List InputRecord
  mode : UInt32
  codePage : UInt32
  editing : E
  thread : Phase C
  /-- The thread has been woken. -/
  notified : Bool
  accepted : List ℕ
  completed : List (ℕ × Outcome)
  dropped : List (Request C)

/-- What one piece of terminal input means to the console. -/
inductive KeyEvent
  | records (records : List InputRecord)
  | key (record : InputRecord)
  | raw (text : List UInt16)

/-- What the queue is used with. -/
structure Host (D C E : Type) where
  platform : Platform
  editor : Editor C E
  /-- The decoder of terminal input, with what it keeps between writes. -/
  decode : D → List UInt8 → Bool → List KeyEvent × D

def ENABLE_PROCESSED_INPUT : UInt32 := 0x1
def ENABLE_LINE_INPUT : UInt32 := 0x2
def ENABLE_ECHO_INPUT : UInt32 := 0x4
def ENABLE_WINDOW_INPUT : UInt32 := 0x8
def INSERT_MODE : UInt32 := 0x20
def VIRTUAL_TERMINAL_INPUT : UInt32 := 0x200

def enabled (mode flag : UInt32) : Bool := mode &&& flag != 0

def MAX_RECORDS : ℕ := 65536
def MAX_REQUESTS : ℕ := 256
def MAX_WRITE : ℕ := 4096

namespace Input

variable {D C E : Type}

def new (keys : D) (editing : E) : Input D C E where
  records := []
  pending _ := none
  ignoreNextKeyup := false
  firstEvent := none
  requests := []
  keys := keys
  closed := false
  clients := ∅
  handles := ∅
  alert := .none
  cachedAnsi := []
  mode := 0x1f7
  codePage := 65001
  editing := editing
  thread := .top
  notified := false
  accepted := []
  completed := []
  dropped := []

/-- `changed.notify_all()`. -/
def wake (s : Input D C E) : Input D C E := { s with notified := true }

/-- Text is owed to the handle of a text read. -/
def owed (s : Input D C E) (r : Request C) : Bool := !r.records && (s.pending r.object).isSome

def live (s : Input D C E) (r : Request C) : Bool := r.process ∈ s.clients ∧ r.object ∈ s.handles

def goto (s : Input D C E) (thread : Phase C) : Input D C E := { s with thread := thread }

def complete (s : Input D C E) (r : Request C) (outcome : Outcome) : Input D C E :=
  { s with completed := (r.id, outcome) :: s.completed, thread := .top }

/-! ### Terminal input -/

/-- The first event to reach an empty queue is marked. -/
def markFirst (wasEmpty : Bool) (s : Input D C E) : Input D C E :=
  if wasEmpty ∧ s.firstEvent = none ∧ s.records ≠ [] then
    { s with firstEvent := some s.records.length }
  else s

/-- Ctrl+Break also discards everything queued before it. -/
def applyControl (s : Input D C E) (c : Controls) : Input D C E :=
  if c.ctrlBreak then
    { s with records := [], firstEvent := none, alert := { s.alert with ctrlBreak := true } }
  else if c.ctrlC then { s with alert := { s.alert with ctrlC := true } }
  else s

def push (s : Input D C E) (records : List InputRecord) : Input D C E :=
  { s with records := s.records ++ records }

def decodeEvent (processed vt : Bool) (s : Input D C E) : KeyEvent → Input D C E × Controls
  | .records records => (s.push records, .none)
  | .key r =>
    let found := controlKey r processed
    if found.any then (s.applyControl found, found)
    else if vt then (s.push (((vtText r).getD []).map recordChar), .none)
    else (s.push [r], .none)
  | .raw text => (s.push (text.map recordChar), .none)

def decodeInput (processed vt wasEmpty : Bool) :
    List KeyEvent → Input D C E → Controls → Input D C E × Controls
  | [], s, controls => (s.markFirst wasEmpty, controls)
  | event :: rest, s, controls =>
    let (s, found) := (s.markFirst wasEmpty).decodeEvent processed vt event
    decodeInput processed vt wasEmpty rest s (controls.or found)

section Steps

variable (con : Host D C E) (s : Input D C E)

/-- The controls that bytes hold, and the queue with their records. -/
def decoded (bytes : List UInt8) : Input D C E × Controls :=
  let count := min (min bytes.length MAX_WRITE) (MAX_RECORDS - s.records.length)
  let vt := enabled s.mode VIRTUAL_TERMINAL_INPUT
  let (events, keys) := con.decode s.keys (bytes.take count) vt
  decodeInput (enabled s.mode ENABLE_PROCESSED_INPUT) vt s.records.isEmpty events
    { s with keys := keys } .none

/-- `write`: the control events it finds go to the clients before the thread is woken, and it
returns where one of them is not `sent`. -/
def write (bytes : List UInt8) (sent : Bool) : Input D C E :=
  if s.closed ∨ MAX_RECORDS ≤ s.records.length then s
  else
    let decoded := s.decoded con bytes
    if decoded.2.any ∧ !sent then decoded.1 else decoded.1.wake

/-- The last record, if it tells a size, or else one more tells the new one. -/
def tellSize (size : InputRecord) : Input D C E :=
  match s.records.getLast? with
  | some last =>
    if last.eventType = 4 then { s with records := s.records.dropLast ++ [size] }
    else if s.records.length < MAX_RECORDS then s.push [size] else s
  | none => s.push [size]

def resize (columns rows : UInt16) : Input D C E :=
  if !enabled s.mode ENABLE_WINDOW_INPUT ∨ s.closed then s
  else (s.tellSize (recordSize columns rows)).wake

/-- `WriteConsoleInput`: records that an application queues itself. -/
def inject (records : List InputRecord) (append : Bool) : Input D C E :=
  let vt := enabled s.mode VIRTUAL_TERMINAL_INPUT
  let queued := records.flatMap fun r =>
    match (vtText r).filter fun _ => vt with
    | some text => text.map recordChar
    | none => [r]
  if s.closed then s
  else if append then (s.push queued).wake
  else wake { s with records := queued ++ s.records }

def request (r : Request C) : Input D C E :=
  if s.closed ∨ MAX_REQUESTS ≤ s.requests.length then s
  else wake { s with
    requests := s.requests ++ [{ r with cooked := none, controlKeyState := 0, waited := false }]
    accepted := r.id :: s.accepted }

def disconnected (process : ℕ) : Input D C E :=
  wake { s with
    clients := s.clients.erase process
    requests := s.requests.filter fun r => r.process ≠ process
    dropped := (s.requests.filter fun r => r.process = process) ++ s.dropped }

/-- A closing handle ends its reads and forgets the text it was owed. -/
def objectClosed (object : ℕ) : Input D C E :=
  wake { s with
    handles := s.handles.erase object
    pending := Function.update s.pending object none
    requests := s.requests.filter fun r => r.object ≠ object
    completed := ((s.requests.filter fun r => r.object = object).map fun r => (r.id, .alerted)) ++
      s.completed }

def flush : Input D C E := { s with records := [], firstEvent := none }

/-! ### The thread -/

/-- Whether a control key ends the read: cooked reads end on either, raw reads only on Ctrl+Break,
and reads of records on neither. -/
def alerts (r : Request C) : Bool :=
  !r.records && (enabled s.mode ENABLE_LINE_INPUT || s.alert.ctrlBreak)

def takeAlerted : Input D C E :=
  { s with
    alert := .none
    requests := s.requests.filter fun r => !s.alerts r
    completed := ((s.requests.filter s.alerts).map fun r => (r.id, .alerted)) ++ s.completed
    thread := .top }

/-- The first read can be served. -/
def servable (r : Request C) : Bool := !s.records.isEmpty || s.owed r || r.nowait

/-- The top of the loop, which the thread also comes to when it is woken. -/
def choose : Input D C E :=
  if s.closed then
    match s.requests with
    | [] => s.goto .ended
    | r :: rest => { s with requests := rest, thread := .popped r }
  else if s.alert.any then s.takeAlerted
  else
    let wait : Input D C E :=
      { s with
        requests := s.requests.map fun r => { r with waited := true }
        thread := .asleep
        notified := false }
    match s.requests with
    | [] => wait
    | r :: rest =>
      if s.servable r then { s with requests := rest, thread := .popped r } else wait

/-- The Enter release that finished a cooked read is not input. -/
def dropKeyup : Input D C E :=
  { s with
    ignoreNextKeyup := false
    records := match s.records with
      | r :: rest =>
        if s.ignoreNextKeyup ∧ r.eventType = 1 ∧ r.down = 0 then rest else r :: rest
      | [] => [] }

/-- A read of records: what it returns, how many queued records that is, and what is kept of a
character that did not fit. -/
def readRecords (r : Request C) : List InputRecord × ℕ × List InputRecord :=
  let capacity := r.capacity / 20
  if r.unicode then
    let count := min capacity s.records.length
    (s.records.take count, count, [])
  else
    let cached := s.cachedAnsi.take capacity
    let (out, consumed) :=
      expandRecords con.platform s.codePage capacity cached 0 s.records
    if r.peek then (out.take capacity, consumed, s.cachedAnsi)
    else (out.take capacity, consumed, s.cachedAnsi.drop cached.length ++ out.drop capacity)

/-- A read of records completes with those that are queued, if any. -/
def serveRecords (r : Request C) : Input D C E :=
  let s := { s.dropKeyup with firstEvent := none }
  let read := s.readRecords con r
  if read.1 = [] ∧ !r.nowait ∧ s.records = [] then
    { s with cachedAnsi := read.2.2, thread := .leaving r }
  else { s with
    cachedAnsi := read.2.2
    records := if r.peek then s.records else s.records.drop read.2.1
    thread := .completing r (.records read.1) }

/-- `fulfill`, up to what `read_text` does. -/
def fulfill (r : Request C) : Input D C E :=
  if !s.live r then s.goto (.completing r .cancelled)
  else if s.alert.any then s.goto (.leaving r)
  else if r.records then s.serveRecords con r
  else { s with cachedAnsi := [], thread := .reading r }

/-- The text of the next line of a multi-line alias, or all of it. -/
def firstLine (text : List UInt16) : List UInt16 :=
  text.take (match text.findIdx? (· = 10) with
    | some i => i + 1
    | none => text.length)

/-- Text left over from an earlier read on the same handle comes first. -/
def readText (r : Request C) : Input D C E :=
  match s.pending r.object with
  | some pending =>
    let line := if pending.multiline then firstLine pending.text else pending.text
    let (bytes, used) := encodePrefix con.platform line r.capacity r.unicode s.codePage
    let rest := pending.text.drop used
    { s with
      pending := Function.update s.pending r.object
        (if rest = [] then none else some { pending with text := rest })
      thread := .completing r (.text bytes r.controlKeyState) }
  | none => s.goto (.looking r s.mode)

/-- A read starting with ^Z returns nothing. -/
def controlZ (r : Request C) (bytes : List UInt8) : List UInt8 :=
  if r.controlZ ∧ bytes.head? = some 0x1a then [] else bytes

/-- The records that a raw read may look at: once it has waited, those of the first event. -/
def rawLimit (r : Request C) : Option ℕ :=
  if r.waited then s.firstEvent else none

/-- Every queued character that fits, waiting only while there is none. -/
def readRaw (r : Request C) (mode : UInt32) : Input D C E :=
  let (records, text) :=
    takeChars con.platform (enabled mode VIRTUAL_TERMINAL_INPUT) r.unicode s.codePage r.capacity
      (s.rawLimit r) 0 0 [] s.records
  let s := { s with records := records, firstEvent := none }
  if text = [] then s.goto (.leaving r)
  else
    let (bytes, _) := encodePrefix con.platform text r.capacity r.unicode s.codePage
    s.goto (.completing r (.text (controlZ r bytes) r.controlKeyState))

/-- A cooked read normally ends at Enter: only the records through that key are taken. -/
def lineLength (records : List InputRecord) : ℕ :=
  match records.findIdx? fun r => r.down ≠ 0 ∧ r.ch = 13 with
  | some i => i + 1
  | none => records.length

/-- The line of a cooked read, begun with the text that the caller already echoed. -/
def beginLine (r : Request C) (mode : UInt32) (answer : Answer) : Except Failure C :=
  match r.cooked with
  | some line => .ok line
  | none =>
    let begin := con.editor.new r.initial r.wakeupMask (enabled mode INSERT_MODE)
    if r.initial = [] then .ok (begin (0, 0) (0, 0))
    else answer.screen.map fun (size, cursor) => begin size cursor

def takeLine (r : Request C) (mode : UInt32) (answer : Answer) : Input D C E :=
  match beginLine con r mode answer with
  | .error failure => s.goto (.completing r failure.outcome)
  | .ok line =>
    let count := lineLength s.records
    { s with
      firstEvent := none
      records := s.records.drop count
      thread := .feeding r line mode (s.records.take count) }

/-- The keys of a line, with what it has of them and what is left. -/
def fedLine (r : Request C) (line : C) (mode : UInt32)
    (records : List InputRecord) : Editor.Edited C E × List InputRecord :=
  con.editor.feed con.platform r.process (enabled mode ENABLE_PROCESSED_INPUT)
    (enabled mode VIRTUAL_TERMINAL_INPUT) (line, s.editing, false) records

def feedLine (r : Request C) (line : C) (mode : UInt32)
    (records : List InputRecord) : Input D C E :=
  let ((line, editing, clear), rest) := s.fedLine con r line mode records
  { s with
    editing := if clear then con.editor.clearCmd editing else editing
    thread := .fed r line mode rest }

/-- The line after it was drawn. -/
def afterDrawing (line : C) : C :=
  if con.editor.state line = .doneWithWakeupMask then con.editor.completeWakeup line else line

/-- The line as the screen shows it, where that echoes. -/
def drawn (r : Request C) (line : C) (mode : UInt32) (answer : Answer) : Except Failure C :=
  if enabled mode ENABLE_ECHO_INPUT then
    match answer.screen with
    | .error failure => .error failure
    | .ok (size, cursor) =>
      let drawn := con.editor.redisplay size cursor r.process s.editing line
      match answer.echo with
      | some failure => if drawn.2 then .error failure else .ok drawn.1
      | none => .ok drawn.1
  else .ok line

def drawLine (r : Request C) (line : C) (mode : UInt32) (answer : Answer) : Input D C E :=
  match s.drawn con r line mode answer with
  | .error failure => s.goto (.completing r failure.outcome)
  | .ok line =>
    let line := afterDrawing con line
    if con.editor.isDone line then s.goto (.finishing r line mode)
    else s.goto (.leaving { r with cooked := some line })

/-- The text that a line comes to, with the aliases, and the lines it is. -/
def lineText (r : Request C) (line : C) (mode : UInt32) : List UInt16 × ℕ :=
  let buffer := con.editor.takeBuffer line
  if con.editor.state line = .doneWithCarriageReturn then
    let newline := if enabled mode ENABLE_PROCESSED_INPUT then [13, 10] else [13]
    match
      if enabled mode ENABLE_ECHO_INPUT then
        con.editor.expand (con.editor.addHistory r.process buffer s.editing) buffer r.exe
      else none with
    | some expanded => expanded
    | none => (buffer ++ newline, 1)
  else (buffer, 1)

/-- What of a line fits the caller's buffer, and what is left of it for the handle. -/
def splitLine (r : Request C) (line : C) (mode : UInt32) : List UInt8 × List UInt16 × Bool :=
  let (text, lines) := s.lineText con r line mode
  let (bytes, used) := encodePrefix con.platform (if 1 < lines then firstLine text else text)
    r.capacity r.unicode s.codePage
  (bytes, text.drop used, 1 < lines)

/-- The newline is echoed, the line enters the history and alias expansion, and what does not fit
the caller's buffer waits on the handle. -/
def finishLine (r : Request C) (line : C) (mode : UInt32) (answer : Answer) : Input D C E :=
  let entered := con.editor.state line = .doneWithCarriageReturn
  match if entered then answer.echo else none with
  | some failure => s.goto (.completing r failure.outcome)
  | none =>
    let (bytes, rest, multiline) := s.splitLine con r line mode
    { s with
      editing :=
        if entered ∧ enabled mode ENABLE_ECHO_INPUT then
          con.editor.addHistory r.process (con.editor.takeBuffer line) s.editing
        else s.editing
      pending := if rest = [] then s.pending
        else Function.update s.pending r.object (some ⟨rest, multiline⟩)
      ignoreNextKeyup := true
      thread := .completing r (.text (controlZ r bytes) (con.editor.controlKeyState line)) }

/-- The thread stays asleep behind a read that it put back. -/
def waits (old : ℕ) : Bool :=
  !s.closed && !s.requests.isEmpty && !s.alert.any && s.records.length == old

/-- The inner wait, which the thread is woken from when there are more or fewer records. -/
def waitBehind (old : ℕ) : Input D C E :=
  if s.waits old then { s with thread := .behind old, notified := false } else s.goto .top

/-- A read that found nothing goes back to the front. -/
def leave (r : Request C) : Input D C E :=
  if !s.live r then { s with dropped := r :: s.dropped, thread := .top }
  else waitBehind { s with requests := { r with waited := true } :: s.requests } s.records.length

/-- A step of the thread. One that sleeps may also wake for no reason. -/
def advance (answer : Answer) : Input D C E :=
  match s.thread with
  | .top => s.choose
  | .asleep => s.choose
  | .popped r => s.goto (if s.closed then .completing r .cancelled else .fulfilling r)
  | .fulfilling r => s.fulfill con r
  | .reading r => s.readText con r
  | .looking r mode =>
    if enabled mode ENABLE_LINE_INPUT then s.takeLine con r mode answer else s.readRaw con r mode
  | .feeding r line mode records => s.feedLine con r line mode records
  | .fed r line mode rest => { s with records := rest ++ s.records, thread := .drawing r line mode }
  | .drawing r line mode => s.drawLine con r line mode answer
  | .finishing r line mode => s.finishLine con r line mode answer
  | .completing r outcome =>
    if outcome.carriesData ∧ !answer.transferred then
      { s with dropped := r :: s.dropped, thread := .top }
    else s.complete r outcome
  | .leaving r => s.leave r
  | .behind old => s.waitBehind old
  | .ended => s

end Steps

end Input

/-! ### The console -/

/-- What happens to the queue. -/
inductive Event (C E : Type)
  | connected (process : ℕ)
  | disconnected (process : ℕ)
  | objectOpened (object : ℕ)
  | objectClosed (object : ℕ)
  | setMode (mode : UInt32)
  | setCodePage (codePage : UInt32)
  /-- The rest of the server changes the histories or the aliases. -/
  | edit (editing : E)
  | request (r : Request C)
  | resize (columns rows : UInt16)
  | inject (records : List InputRecord) (append : Bool)
  | close
  | write (bytes : List UInt8) (sent : Bool)
  | flush
  | advance (answer : Answer)

namespace Input

variable {D C E : Type} (con : Host D C E)

def step (s : Input D C E) : Event C E → Input D C E
  | .connected process => { s with clients := insert process s.clients }
  | .disconnected process => s.disconnected process
  | .objectOpened object => { s with handles := insert object s.handles }
  | .objectClosed object => s.objectClosed object
  | .setMode mode => { s with mode := mode }
  | .setCodePage codePage => { s with codePage := codePage }
  | .edit editing => { s with editing := editing }
  | .request r => s.request r
  | .resize columns rows => s.resize columns rows
  | .inject records append => s.inject records append
  | .close => wake { s with closed := true }
  | .write bytes sent => s.write con bytes sent
  | .flush => s.flush
  | .advance answer => s.advance con answer

end Input

end Zetta.Console.Reads
