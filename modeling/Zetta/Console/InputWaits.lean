import Zetta.Console.Input
import Zetta.Lib.Run

/-!
# No read sleeps on input

`Rested`: while the thread sleeps and has not been woken, either no read is queued or no record is,
and no queued read could be served without one. It holds of every run whose steps meet `Fair`: what
the rest of the server does between two steps is `Outside`, a step with a read in hand `Arrives`,
and both keep the invariant (`Orderly`), by which a read that can be served without input is never
behind one that may have to wait.
-/

namespace Zetta.Console.Reads

open List

variable {D C E : Type}

namespace Editor

variable (ed : Editor C E) (p : Platform) (process : ℕ) (processed vt : Bool)

/-- The line is done, or a key of the queue ends it. -/
def Ends : Edited C E → List InputRecord → Prop
  | s, [] => ed.isDone s.1 = true
  | s, r :: rest => ed.isDone s.1 = true ∨
    Ends (ed.pressTimes p process processed vt r (max r.repeatCount.toNat 1) s) rest

theorem isDone_feed_iff (line : Edited C E) (records : List InputRecord) :
    ed.isDone (ed.feed p process processed vt line records).1.1 = true ↔
      ed.Ends p process processed vt line records := by
  induction records generalizing line with
  | nil => rfl
  | cons r rest ih =>
    rw [feed, Ends]
    split_ifs with hdone
    · exact iff_of_true hdone (.inl hdone)
    · rw [ih, or_iff_right hdone]

end Editor

/-! ### The reads in hand -/

/-- What of a read decides whether it needs input. -/
structure Kind where
  records : Bool
  nowait : Bool
  object : ℕ

/-- The read can be served without input: it does not wait, or its handle is owed text. -/
def Kind.Ready (pending : ℕ → Option Pending) (k : Kind) : Prop :=
  k.nowait = true ∨ k.records = false ∧ (pending k.object).isSome = true

theorem Kind.Ready.mono {pending pending' : ℕ → Option Pending} {k : Kind}
    (h : k.Ready pending') (hpending : (pending' k.object).isSome → (pending k.object).isSome) :
    k.Ready pending :=
  h.imp_right fun ⟨hrecords, howed⟩ => ⟨hrecords, hpending howed⟩

namespace Request

def kind (r : Request C) : Kind := ⟨r.records, r.nowait, r.object⟩

/-- The line of a read, under the name of the read. -/
def line (r : Request C) : ℕ × Option C := (r.id, r.cooked)

theorem ready_iff (s : Input D C E) (r : Request C) :
    r.kind.Ready s.pending ↔ r.nowait = true ∨ s.owed r = true := by
  simp [kind, Kind.Ready, Input.owed]

end Request

namespace Phase

/-- The read in hand. -/
def hand : Phase C → List (Request C)
  | .popped r => [r]
  | .fulfilling r => [r]
  | .reading r => [r]
  | .looking r _ => [r]
  | .feeding r line _ _ => [{ r with cooked := some line }]
  | .fed r line _ _ => [{ r with cooked := some line }]
  | .drawing r line _ => [{ r with cooked := some line }]
  | .finishing r line _ => [{ r with cooked := some line }]
  | .completing r _ => [r]
  | .leaving r => [r]
  | _ => []

/-- The read in hand, as long as it may be put back. -/
def undecided : Phase C → List (Request C)
  | .finishing _ _ _ => []
  | .completing _ _ => []
  | phase => phase.hand

def Sleeps : Phase C → Prop
  | .asleep => True
  | .behind _ => True
  | _ => False

/-- The thread is past its look at the queue, with a read that it will put back. -/
def WouldWait (ed : Editor C E) : Phase C → Prop
  | .fed _ line _ _ => ed.isDone line = false
  | .drawing _ line _ => ed.isDone line = false
  | .leaving _ => True
  | _ => False

/-- The step may change the line of the read in hand. -/
def Edits : Phase C → Prop
  | .looking _ _ => True
  | .feeding _ _ _ _ => True
  | .drawing _ _ _ => True
  | .finishing _ _ _ => True
  | _ => False

end Phase

namespace Input

/-! ### What is claimed -/

/-- The thread has something to do before it serves the next read. -/
def Interrupted (s : Input D C E) : Prop := s.closed = true ∨ s.alert.any = true

structure Rested (s : Input D C E) : Prop where
  uninterrupted : ¬ s.Interrupted
  offered : s.requests = [] ∨ s.records = []
  unready : ∀ k ∈ s.requests.map Request.kind, ¬ k.Ready s.pending

/-! ### The condition -/

variable (con : Host D C E)

/-- The records that a raw read looks at hold a character, and the first of them fits; or they are
all that is queued. -/
def Readable (s : Input D C E) (r : Request C) (mode : UInt32) : Prop :=
  match ((s.rawLimit r).elim s.records s.records.take).findSome?
      (plainChar con.platform (enabled mode VIRTUAL_TERMINAL_INPUT)) with
  | some ch => charCost con.platform r.unicode s.codePage ch ≤ r.capacity
  | none => ∀ limit, s.rawLimit r = some limit → s.records.length ≤ limit

/-- A read that can be served without input does not come behind one that may have to wait, nor
while the thread sleeps behind one. -/
def InTurn (s : Input D C E) (r : Request C) : Prop :=
  r.kind.Ready s.pending →
    (∀ k ∈ (s.thread.undecided ++ s.requests).map Request.kind, k.nowait = true) ∧
    ∀ old, s.thread ≠ .behind old

/-- Records do not come between the thread's look at the queue and its putting the read back. -/
def InTime (s : Input D C E) : Prop := s.thread.WouldWait con.editor → s.Interrupted

/-- Among the keys taken for a line is one that ends it. -/
def Finishes (s : Input D C E) (r : Request C) (line : C) (mode : UInt32)
    (records : List InputRecord) : Prop :=
  con.editor.Ends con.platform r.process (enabled mode ENABLE_PROCESSED_INPUT)
    (enabled mode VIRTUAL_TERMINAL_INPUT) (line, s.editing, false) records

/-- What the steps of the thread need: a raw read finds a character among the records that it looks
at; a line that is not done took all records; no text is left for a handle with another read of it
behind one that may have to wait; and the driver takes data for every process that is there. -/
def Advances (s : Input D C E) (answer : Answer) : Prop :=
  match s.thread with
  | .looking r mode =>
    enabled mode ENABLE_LINE_INPUT = true ∨ s.Interrupted ∨ s.Readable con r mode
  | .feeding r line mode records =>
    s.Finishes con r line mode records ∨ s.Interrupted ∨ s.records = []
  | .finishing r line mode =>
    (s.splitLine con r line mode).2.1 = [] ∨
      (s.requests.map Request.kind).Pairwise fun a b =>
        b.records = false ∧ b.object = r.object → a.nowait = true
  | .completing r outcome =>
    outcome.carriesData = true → answer.transferred = true ∨ s.live r = false
  | _ => True

def Fair (s : Input D C E) : Event C E → Prop
  | .request r => s.InTurn r
  | .resize _ _ => s.InTime con
  | .inject _ _ => s.InTime con
  | .write bytes sent =>
    (s.InTime con ∨ (s.decoded con bytes).2.any = true) ∧
      (sent = true ∨ (s.decoded con bytes).2.any = false ∨ ¬ s.thread.Sleeps)
  | .advance answer => s.Advances con answer
  | _ => True

def Next (s : Input D C E) (event : Event C E) (s' : Input D C E) : Prop := s.step con event = s'

/-! ### Reads that are ready -/

variable {con} {s s' : Input D C E} {r : Request C}

/-- Every read that is ahead of one that can be served without input does not wait. -/
def Ahead (pending : ℕ → Option Pending) (kinds : List Kind) : Prop :=
  kinds.Pairwise fun a b => b.Ready pending → a.nowait = true

variable {pending : ℕ → Option Pending}

theorem Ahead.of_sublist {pending' : ℕ → Option Pending} {kinds kinds' : List Kind}
    (h : Ahead pending kinds) (hkinds : kinds'.Sublist kinds)
    (hpending : ∀ object, (pending' object).isSome → (pending object).isSome) :
    Ahead pending' kinds' :=
  (List.Pairwise.sublist hkinds h).imp fun himp hready => himp (hready.mono (hpending _))

/-- Behind a read that is not ready, none is. -/
theorem Ahead.unready {k : Kind} {kinds : List Kind} (h : Ahead pending (k :: kinds))
    (hk : ¬ k.Ready pending) :
    ∀ b ∈ k :: kinds, ¬ b.Ready pending := by
  intro b hb hready
  rcases mem_cons.mp hb with rfl | hb
  · exact hk hready
  · exact hk (.inl ((pairwise_cons.mp h).1 b hb hready))

/-- What the thread is at the place where it is. -/
def Settled (ed : Editor C E) (s : Input D C E) : Prop :=
  match s.thread with
  | .asleep => s.notified = true ∨ s.Rested
  | .behind old =>
    old = 0 ∧ (∀ k ∈ s.requests.map Request.kind, ¬ k.Ready s.pending) ∧
      (s.notified = true ∨ s.Rested)
  | .reading r => r.records = false
  | .looking r _ => ¬ r.kind.Ready s.pending
  | .feeding r _ _ _ => ¬ r.kind.Ready s.pending
  | .fed r line _ rest =>
    ¬ r.kind.Ready s.pending ∧
      (ed.isDone line = true ∨ s.Interrupted ∨ rest = [] ∧ s.records = [])
  | .drawing r line _ =>
    ¬ r.kind.Ready s.pending ∧ (ed.isDone line = true ∨ s.Interrupted ∨ s.records = [])
  | .leaving r => s.Interrupted ∨ ¬ r.kind.Ready s.pending ∧ s.records = []
  | _ => True

structure Orderly (con : Host D C E) (s : Input D C E) : Prop where
  ahead : Ahead s.pending ((s.thread.undecided ++ s.requests).map Request.kind)
  settled : s.Settled con.editor

/-- A thread that sleeps has been woken, or has nothing to do. -/
theorem Orderly.rested (h : s.Orderly con) (hsleeps : s.thread.Sleeps)
    (hnotified : s.notified = false) : s.Rested := by
  have hsettled := h.settled
  rw [Settled] at hsettled
  have hwoken : s.notified = true ∨ s.Rested := by
    cases hthread : s.thread with
    | asleep => simpa only [hthread] using hsettled
    | behind old =>
      rw [hthread] at hsettled
      exact hsettled.2.2
    | _ => simp [hthread, Phase.Sleeps] at hsleeps
  exact hwoken.resolve_left (by simp [hnotified])

/-! ### What the rest of the server does -/

/-- What the rest of the server may do between two steps of the thread. -/
structure Outside (ed : Editor C E) (s s' : Input D C E) : Prop where
  thread : s'.thread = s.thread
  pending : ∀ object, (s'.pending object).isSome → (s.pending object).isSome
  interrupted : s.Interrupted → s'.Interrupted
  records : s.thread.WouldWait ed → s'.Interrupted ∨ (s.records = [] → s'.records = [])
  sleeps : s.thread.Sleeps → s'.notified = true ∨
    s'.notified = s.notified ∧ s'.requests = s.requests ∧ (s.records = [] → s'.records = []) ∧
      (s'.Interrupted → s.Interrupted)
  requests : ∃ new : Option Kind,
    (s'.requests.map Request.kind).Sublist (s.requests.map Request.kind ++ new.toList) ∧
    ∀ k ∈ new, k.Ready s.pending →
      (∀ a ∈ (s.thread.undecided ++ s.requests).map Request.kind, a.nowait = true) ∧
      ∀ old, s.thread ≠ .behind old

namespace Outside

variable {ed : Editor C E}

theorem unready (h : Outside ed s s') {k : Kind} (hk : ¬ k.Ready s.pending) :
    ¬ k.Ready s'.pending :=
  fun hready => hk (hready.mono (h.pending _))

theorem ahead (h : Outside ed s s')
    (hahead : Ahead s.pending ((s.thread.undecided ++ s.requests).map Request.kind)) :
    Ahead s'.pending ((s'.thread.undecided ++ s'.requests).map Request.kind) := by
  obtain ⟨new, hsub, hnew⟩ := h.requests
  have hall : Ahead s.pending
      ((s.thread.undecided ++ s.requests).map Request.kind ++ new.toList) := by
    refine pairwise_append.mpr ⟨hahead, ?_, fun a ha b hb hready => ?_⟩
    · cases new with
      | none => exact .nil
      | some k => exact pairwise_singleton _ _
    · exact (hnew b (by simpa using hb) hready).1 a ha
  refine hall.of_sublist ?_ h.pending
  rw [h.thread, map_append, map_append, append_assoc]
  exact hsub.append_left _

theorem rested (h : Outside ed s s') (hsleeps : s.thread.Sleeps)
    (hrested : s.notified = true ∨ s.Rested) : s'.notified = true ∨ s'.Rested := by
  rcases h.sleeps hsleeps with hnotified | ⟨hnotified, hrequests, hrecords, hinterrupted⟩
  · exact .inl hnotified
  · refine hrested.imp (fun hs => hnotified.trans hs) fun hs => ⟨?_, ?_, ?_⟩
    · exact fun hs' => hs.uninterrupted (hinterrupted hs')
    · exact hs.offered.imp (fun hnil => hrequests.trans hnil) hrecords
    · rw [hrequests]
      exact fun k hk => h.unready (hs.unready k hk)

/-- Behind a read that waits, no read is ready. -/
theorem behind (h : Outside ed s s') {old : ℕ} (hthread : s.thread = .behind old)
    (hunready : ∀ k ∈ s.requests.map Request.kind, ¬ k.Ready s.pending) :
    ∀ k ∈ s'.requests.map Request.kind, ¬ k.Ready s'.pending := by
  obtain ⟨new, hsub, hnew⟩ := h.requests
  intro k hk
  refine h.unready fun hready => ?_
  rcases mem_append.mp (hsub.subset hk) with hold | hnew'
  · exact hunready k hold hready
  · exact (hnew k (by simpa using hnew') hready).2 old hthread

/-- A read whose line is not done finds no record behind those it took. -/
theorem later {line : C} {r : List InputRecord}
    (hinterrupted : s.Interrupted → s'.Interrupted)
    (hrecords : ed.isDone line = false → s'.Interrupted ∨ (s.records = [] → s'.records = []))
    (h : ed.isDone line = true ∨ s.Interrupted ∨ r = [] ∧ s.records = []) :
    ed.isDone line = true ∨ s'.Interrupted ∨ r = [] ∧ s'.records = [] := by
  rcases h with hdone | hs | ⟨hrest, hnil⟩
  · exact .inl hdone
  · exact .inr (.inl (hinterrupted hs))
  · by_cases hdone : ed.isDone line = true
    · exact .inl hdone
    · refine .inr ((hrecords (by simpa using hdone)).imp id fun hrecords => ⟨hrest, hrecords hnil⟩)

theorem keeps_order {con : Host D C E} (h : Outside con.editor s s') (hs : s.Orderly con) :
    s'.Orderly con := by
  refine ⟨h.ahead hs.ahead, ?_⟩
  have hsettled := hs.settled
  have hrested := h.rested
  have hrecords := h.records
  have hinterrupted := h.interrupted
  rw [Settled, h.thread]
  rw [Settled] at hsettled
  cases hthread : s.thread with
  | asleep =>
    rw [hthread] at hsettled hrested
    exact hrested trivial hsettled
  | behind old =>
    rw [hthread] at hsettled hrested
    exact ⟨hsettled.1, h.behind hthread hsettled.2.1, hrested trivial hsettled.2.2⟩
  | reading r =>
    rw [hthread] at hsettled
    exact hsettled
  | looking r mode =>
    rw [hthread] at hsettled
    exact h.unready hsettled
  | feeding r line mode records =>
    rw [hthread] at hsettled
    exact h.unready hsettled
  | fed r line mode rest =>
    rw [hthread] at hsettled hrecords
    exact ⟨h.unready hsettled.1, later hinterrupted hrecords hsettled.2⟩
  | drawing r line mode =>
    rw [hthread] at hsettled hrecords
    have hlater := later (s := s) (r := ([] : List InputRecord)) hinterrupted hrecords
      (by simpa using hsettled.2)
    exact ⟨h.unready hsettled.1, by simpa using hlater⟩
  | leaving r =>
    rw [hthread] at hsettled hrecords
    rcases hsettled with hs' | ⟨hready, hnil⟩
    · exact .inl (hinterrupted hs')
    · exact (hrecords trivial).imp id fun hrecords => ⟨h.unready hready, hrecords hnil⟩
  | _ => trivial

end Outside

/-- What is done to the records leaves the reads where they are. -/
structure Frame (s s' : Input D C E) : Prop where
  thread : s'.thread = s.thread
  pending : s'.pending = s.pending
  requests : s'.requests = s.requests
  closed : s'.closed = s.closed
  accepted : s'.accepted = s.accepted
  completed : s'.completed = s.completed
  dropped : s'.dropped = s.dropped

namespace Frame

theorem refl (s : Input D C E) : Frame s s := ⟨rfl, rfl, rfl, rfl, rfl, rfl, rfl⟩

theorem trans {s₁ : Input D C E} (h : Frame s s₁) (h' : Frame s₁ s') : Frame s s' where
  thread := h'.thread.trans h.thread
  pending := h'.pending.trans h.pending
  requests := h'.requests.trans h.requests
  closed := h'.closed.trans h.closed
  accepted := h'.accepted.trans h.accepted
  completed := h'.completed.trans h.completed
  dropped := h'.dropped.trans h.dropped

theorem wake (h : Frame s s') : Frame s s'.wake :=
  ⟨h.thread, h.pending, h.requests, h.closed, h.accepted, h.completed, h.dropped⟩

theorem outside {ed : Editor C E} (h : Frame s s') (halert : s.alert.any → s'.alert.any)
    (hrecords : s.thread.WouldWait ed → s'.Interrupted ∨ (s.records = [] → s'.records = []))
    (hsleeps : s.thread.Sleeps → s'.notified = true ∨ s'.notified = s.notified ∧
      (s.records = [] → s'.records = []) ∧ (s'.alert.any → s.alert.any)) : Outside ed s s' where
  thread := h.thread
  pending object := by rw [h.pending]; exact id
  interrupted := Or.imp (fun hclosed => h.closed.trans hclosed) halert
  records := hrecords
  sleeps hs := (hsleeps hs).imp id fun ⟨hnotified, hrecords, halert⟩ =>
    ⟨hnotified, h.requests, hrecords, Or.imp (fun hclosed => h.closed.symm.trans hclosed) halert⟩
  requests := ⟨none, by simp [h.requests], by simp⟩

end Frame

/-! ### Terminal input -/

/-- What terminal input changes. -/
structure Typed (s s' : Input D C E) : Prop extends Frame s s' where
  alert : s.alert.any → s'.alert.any
  notified : s'.notified = s.notified

namespace Typed

theorem refl (s : Input D C E) : Typed s s := ⟨.refl s, id, rfl⟩

theorem trans {s₁ : Input D C E} (h : Typed s s₁) (h' : Typed s₁ s') : Typed s s' :=
  ⟨h.toFrame.trans h'.toFrame, h'.alert ∘ h.alert, h'.notified.trans h.notified⟩

end Typed

theorem typed_push (s : Input D C E) (records : List InputRecord) : Typed s (s.push records) :=
  ⟨⟨rfl, rfl, rfl, rfl, rfl, rfl, rfl⟩, id, rfl⟩

theorem typed_markFirst (wasEmpty : Bool) (s : Input D C E) : Typed s (s.markFirst wasEmpty) := by
  rw [markFirst]
  split_ifs
  · exact ⟨⟨rfl, rfl, rfl, rfl, rfl, rfl, rfl⟩, id, rfl⟩
  · exact .refl s

theorem typed_applyControl (s : Input D C E) (c : Controls) : Typed s (s.applyControl c) := by
  rw [applyControl]
  split_ifs
  · exact ⟨⟨rfl, rfl, rfl, rfl, rfl, rfl, rfl⟩, fun _ => by simp [Controls.any], rfl⟩
  · exact ⟨⟨rfl, rfl, rfl, rfl, rfl, rfl, rfl⟩, fun _ => by simp [Controls.any], rfl⟩
  · exact .refl s

theorem any_applyControl (s : Input D C E) {c : Controls} (hc : c.any = true) :
    (s.applyControl c).alert.any = true := by
  rw [Controls.any, Bool.or_eq_true] at hc
  rw [applyControl]
  split_ifs with hbreak hctrl
  · simp [Controls.any]
  · simp [Controls.any]
  · exact absurd (hc.resolve_right hbreak) hctrl

/-- A control key that is found is applied. -/
theorem typed_decodeEvent (processed vt : Bool) (s : Input D C E) (event : KeyEvent) :
    Typed s (s.decodeEvent processed vt event).1 ∧
      ((s.decodeEvent processed vt event).2.any → (s.decodeEvent processed vt event).1.alert.any) := by
  cases event with
  | records records => exact ⟨typed_push s records, fun h => absurd h (by simp [decodeEvent])⟩
  | raw text => exact ⟨typed_push s _, fun h => absurd h (by simp [decodeEvent])⟩
  | key r =>
    simp only [decodeEvent]
    split_ifs with hfound hvt
    · exact ⟨typed_applyControl s _, fun _ => any_applyControl s hfound⟩
    · exact ⟨typed_push s _, fun h => absurd h (by simp)⟩
    · exact ⟨typed_push s _, fun h => absurd h (by simp)⟩

theorem typed_decodeInput (processed vt wasEmpty : Bool) (events : List KeyEvent)
    (s : Input D C E) (controls : Controls) (hcontrols : controls.any → s.alert.any) :
    Typed s (decodeInput processed vt wasEmpty events s controls).1 ∧
      ((decodeInput processed vt wasEmpty events s controls).2.any →
        (decodeInput processed vt wasEmpty events s controls).1.alert.any) := by
  induction events generalizing s controls with
  | nil =>
    have hmark := typed_markFirst wasEmpty s
    exact ⟨hmark, hmark.alert ∘ hcontrols⟩
  | cons event rest ih =>
    have hmark := typed_markFirst wasEmpty s
    obtain ⟨hevent, hfound⟩ := typed_decodeEvent processed vt (s.markFirst wasEmpty) event
    simp only [decodeInput]
    obtain ⟨hrest, hany⟩ := ih _ (controls.or _) fun h => by
      rw [Controls.any_or, Bool.or_eq_true] at h
      exact h.elim (fun h => hevent.alert (hmark.alert (hcontrols h))) hfound
    exact ⟨(hmark.trans hevent).trans hrest, hany⟩

variable (con) in
theorem typed_decoded (s : Input D C E) (bytes : List UInt8) :
    Typed s (s.decoded con bytes).1 ∧
      ((s.decoded con bytes).2.any → (s.decoded con bytes).1.alert.any) := by
  have hkeys (keys : D) : Typed s { s with keys := keys } :=
    ⟨⟨rfl, rfl, rfl, rfl, rfl, rfl, rfl⟩, id, rfl⟩
  obtain ⟨htyped, hany⟩ := typed_decodeInput (enabled s.mode ENABLE_PROCESSED_INPUT)
    (enabled s.mode VIRTUAL_TERMINAL_INPUT) s.records.isEmpty
    (con.decode s.keys (bytes.take (min (min bytes.length MAX_WRITE)
      (MAX_RECORDS - s.records.length))) (enabled s.mode VIRTUAL_TERMINAL_INPUT)).1
    { s with keys := (con.decode s.keys (bytes.take (min (min bytes.length MAX_WRITE)
      (MAX_RECORDS - s.records.length))) (enabled s.mode VIRTUAL_TERMINAL_INPUT)).2 } .none
    (fun h => absurd h (by simp))
  exact ⟨(hkeys _).trans htyped, hany⟩

/-! ### The events -/

variable (con) in
theorem frame_write (s : Input D C E) (bytes : List UInt8) (sent : Bool) :
    Frame s (s.write con bytes sent) := by
  have htyped := (typed_decoded con s bytes).1.toFrame
  rw [write]
  dsimp only
  split_ifs
  · exact .refl s
  · exact htyped
  · exact htyped.wake

theorem outside_write {bytes : List UInt8} {sent : Bool}
    (hfair : s.Fair con (.write bytes sent)) :
    Outside con.editor s (s.write con bytes sent) := by
  obtain ⟨hintime, hsent⟩ := hfair
  obtain ⟨htyped, hany⟩ := typed_decoded con s bytes
  have hframe := frame_write con s bytes sent
  rw [write] at hframe ⊢
  dsimp only at hframe ⊢
  split_ifs at hframe ⊢ with hclosed hunsent
  · exact hframe.outside id (fun _ => .inr id) fun _ => .inr ⟨rfl, id, id⟩
  · refine hframe.outside htyped.alert (fun _ => .inl (.inr (hany hunsent.1))) fun hsleeps => ?_
    -- A thread that sleeps is not woken, so that there was no control key.
    rcases hsent with hs | hnone | hawake
    · simp [hs] at hunsent
    · exact absurd hunsent.1 (by simp [hnone])
    · exact absurd hsleeps hawake
  · refine hframe.outside htyped.alert (fun hwaits => .inl ?_) fun _ => .inl rfl
    rcases hintime with hintime | hcontrols
    · exact (hintime hwaits).imp (fun h => htyped.closed.trans h) htyped.alert
    · exact .inr (hany hcontrols)

theorem typed_tellSize (s : Input D C E) (size : InputRecord) :
    Frame s (s.tellSize size) ∧ (s.tellSize size).alert = s.alert := by
  rw [tellSize]
  split
  · split_ifs
    · exact ⟨⟨rfl, rfl, rfl, rfl, rfl, rfl, rfl⟩, rfl⟩
    · exact ⟨(typed_push s _).toFrame, rfl⟩
    · exact ⟨.refl s, rfl⟩
  · exact ⟨(typed_push s _).toFrame, rfl⟩

theorem frame_resize (s : Input D C E) (columns rows : UInt16) : Frame s (s.resize columns rows) := by
  rw [resize]
  split_ifs
  · exact .refl s
  · exact (typed_tellSize s _).1.wake

theorem alert_resize (s : Input D C E) (columns rows : UInt16) :
    (s.resize columns rows).alert = s.alert ∧
      (s.resize columns rows = s ∨ (s.resize columns rows).notified = true) := by
  rw [resize]
  split_ifs
  · exact ⟨rfl, .inl rfl⟩
  · exact ⟨(typed_tellSize s _).2, .inr rfl⟩

theorem frame_inject (s : Input D C E) (records : List InputRecord) (append : Bool) :
    Frame s (s.inject records append) := by
  rw [inject]
  split_ifs
  · exact .refl s
  · exact (typed_push s _).toFrame.wake
  · exact Frame.wake ⟨rfl, rfl, rfl, rfl, rfl, rfl, rfl⟩

theorem alert_inject (s : Input D C E) (records : List InputRecord) (append : Bool) :
    (s.inject records append).alert = s.alert ∧
      (s.inject records append = s ∨ (s.inject records append).notified = true) := by
  rw [inject]
  split_ifs
  · exact ⟨rfl, .inl rfl⟩
  · exact ⟨rfl, .inr rfl⟩
  · exact ⟨rfl, .inr rfl⟩

/-- Records that come in time. -/
theorem Frame.outside_of_inTime (h : Frame s s') (hintime : s.InTime con)
    (halert : s'.alert = s.alert) (hnotified : s' = s ∨ s'.notified = true) :
    Outside con.editor s s' := by
  refine h.outside (by rw [halert]; exact id) (fun hwaits => .inl ?_) fun _ => ?_
  · exact (hintime hwaits).imp (fun hclosed => h.closed.trans hclosed)
      fun hany => by rw [halert]; exact hany
  · rcases hnotified with rfl | hnotified
    · exact .inr ⟨rfl, id, id⟩
    · exact .inl hnotified

variable {ed : Editor C E}

/-- What neither wakes the thread nor adds a record. -/
theorem Frame.outside_of_quiet (h : Frame s s') (halert : s'.alert = s.alert)
    (hnotified : s'.notified = s.notified) (hrecords : s.records = [] → s'.records = []) :
    Outside ed s s' :=
  h.outside (by rw [halert]; exact id) (fun _ => .inr hrecords)
    fun _ => .inr ⟨hnotified, hrecords, by rw [halert]; exact id⟩

theorem outside_request (hturn : s.InTurn r) : Outside ed s (s.request r) := by
  rw [request]
  split_ifs
  · exact (Frame.refl s).outside_of_quiet rfl rfl id
  · exact {
      thread := rfl
      pending := fun _ => id
      interrupted := id
      records := fun _ => .inr id
      sleeps := fun _ => .inl rfl
      requests := ⟨some r.kind, by simp [wake, Request.kind], fun k hk => by
        obtain rfl : r.kind = k := by simpa using hk
        exact hturn⟩ }

theorem outside_disconnected (s : Input D C E) (process : ℕ) :
    Outside ed s (s.disconnected process) where
  thread := rfl
  pending _ := id
  interrupted := id
  records _ := .inr id
  sleeps _ := .inl rfl
  requests := ⟨none, by
    rw [Option.toList_none, append_nil]
    exact filter_sublist.map Request.kind, by simp⟩

theorem isSome_update {object other : ℕ} {value : Option Pending}
    (hvalue : value.isSome → (pending object).isSome)
    (h : (Function.update pending object value other).isSome) : (pending other).isSome := by
  by_cases hobject : other = object
  · subst hobject
    exact hvalue (by simpa using h)
  · simpa [Function.update_of_ne hobject] using h

theorem outside_objectClosed (s : Input D C E) (object : ℕ) :
    Outside ed s (s.objectClosed object) where
  thread := rfl
  pending _ := isSome_update (by simp)
  interrupted := id
  records _ := .inr id
  sleeps _ := .inl rfl
  requests := ⟨none, by
    rw [Option.toList_none, append_nil]
    exact filter_sublist.map Request.kind, by simp⟩

theorem outside_close (s : Input D C E) : Outside ed s (wake { s with closed := true }) where
  thread := rfl
  pending _ := id
  interrupted _ := .inl rfl
  records _ := .inr id
  sleeps _ := .inl rfl
  requests := ⟨none, by simp [wake], by simp⟩

/-- What the rest of the server does leaves the thread its business. -/
theorem outside_step {event : Event C E} (hfair : s.Fair con event)
    (hevent : ∀ answer, event ≠ .advance answer) : Outside con.editor s (s.step con event) := by
  have hquiet {s' : Input D C E} (h : Frame s s') (halert : s'.alert = s.alert)
      (hnotified : s'.notified = s.notified) (hrecords : s'.records = s.records) :
      Outside con.editor s s' :=
    h.outside_of_quiet halert hnotified fun hnil => hrecords.trans hnil
  cases event with
  | connected process =>
    exact {
      thread := rfl
      pending := fun _ => id
      interrupted := id
      records := fun _ => .inr id
      sleeps := fun _ => .inr ⟨rfl, rfl, id, id⟩
      requests := ⟨none, by simp [step], by simp⟩ }
  | objectOpened object =>
    exact {
      thread := rfl
      pending := fun _ => id
      interrupted := id
      records := fun _ => .inr id
      sleeps := fun _ => .inr ⟨rfl, rfl, id, id⟩
      requests := ⟨none, by simp [step], by simp⟩ }
  | disconnected process => exact outside_disconnected s process
  | objectClosed object => exact outside_objectClosed s object
  | setMode mode => exact hquiet ⟨rfl, rfl, rfl, rfl, rfl, rfl, rfl⟩ rfl rfl rfl
  | setCodePage codePage => exact hquiet ⟨rfl, rfl, rfl, rfl, rfl, rfl, rfl⟩ rfl rfl rfl
  | edit editing => exact hquiet ⟨rfl, rfl, rfl, rfl, rfl, rfl, rfl⟩ rfl rfl rfl
  | request r => exact outside_request hfair
  | resize columns rows =>
    obtain ⟨halert, hnotified⟩ := alert_resize s columns rows
    exact (frame_resize s columns rows).outside_of_inTime hfair halert hnotified
  | inject records append =>
    obtain ⟨halert, hnotified⟩ := alert_inject s records append
    exact (frame_inject s records append).outside_of_inTime hfair halert hnotified
  | close => exact outside_close s
  | write bytes sent => exact outside_write hfair
  | flush =>
    exact Frame.outside_of_quiet ⟨rfl, rfl, rfl, rfl, rfl, rfl, rfl⟩ rfl rfl fun _ => rfl
  | advance answer => exact absurd rfl (hevent answer)

/-! ### The thread with a read in hand -/

/-- A step with a read in hand that neither completes it nor puts it back. -/
structure Works (s s' : Input D C E) (phase phase' : Phase C) : Prop where
  thread : s.thread = phase
  thread' : s'.thread = phase'
  requests : s'.requests = s.requests
  accepted : s'.accepted = s.accepted
  completed : s'.completed = s.completed
  dropped : s'.dropped = s.dropped
  ids : phase'.hand.map Request.id = phase.hand.map Request.id
  undecided : (phase'.undecided.map Request.kind).Sublist (phase.undecided.map Request.kind)
  lines : phase.Edits ∨ phase'.hand.map Request.line = phase.hand.map Request.line

/-- The place that the thread comes to, and that it is settled there. -/
def Arrives (con : Host D C E) (s s' : Input D C E) : Prop :=
  (∃ phase phase', Works s s' phase phase') ∧ s'.Settled con.editor ∧
    ∀ object, (s'.pending object).isSome → (s.pending object).isSome

theorem arrives_serveRecords (hthread : s.thread = .fulfilling r) (hrecords : r.records = true) :
    Arrives con s (s.serveRecords con r) := by
  rw [serveRecords]
  dsimp only
  split
  next hnone =>
    refine ⟨⟨_, _, hthread, rfl, rfl, rfl, rfl, rfl, rfl, .refl _, .inr rfl⟩,
      .inr ⟨?_, hnone.2.2⟩, fun _ => id⟩
    rintro (hnowait | ⟨htext, -⟩)
    · simp [show r.nowait = true from hnowait] at hnone
    · exact nomatch hrecords.symm.trans htext
  next =>
    exact ⟨⟨_, _, hthread, rfl, rfl, rfl, rfl, rfl, rfl, nil_sublist _,
      .inr rfl⟩, trivial, fun _ => id⟩

theorem arrives_fulfill (hthread : s.thread = .fulfilling r) : Arrives con s (s.fulfill con r) := by
  rw [fulfill]
  split_ifs with hlive halert hrecords
  · exact ⟨⟨_, _, hthread, rfl, rfl, rfl, rfl, rfl, rfl, nil_sublist _,
      .inr rfl⟩, trivial, fun _ => id⟩
  · exact ⟨⟨_, _, hthread, rfl, rfl, rfl, rfl, rfl, rfl, .refl _, .inr rfl⟩,
      .inl (.inr halert), fun _ => id⟩
  · exact arrives_serveRecords hthread hrecords
  · exact ⟨⟨_, _, hthread, rfl, rfl, rfl, rfl, rfl, rfl, .refl _, .inr rfl⟩,
      Bool.eq_false_iff.mpr hrecords, fun _ => id⟩

variable (con) in
theorem arrives_popped (hthread : s.thread = .popped r) :
    Arrives con s (s.goto (if s.closed then .completing r .cancelled else .fulfilling r)) := by
  split_ifs
  · exact ⟨⟨_, _, hthread, rfl, rfl, rfl, rfl, rfl, rfl, nil_sublist _,
      .inr rfl⟩, trivial, fun _ => id⟩
  · exact ⟨⟨_, _, hthread, rfl, rfl, rfl, rfl, rfl, rfl, .refl _, .inr rfl⟩,
      trivial, fun _ => id⟩

/-- A text read whose handle is owed no text needs input. -/
theorem unready_of_none (hrecords : r.records = false) (hnone : s.pending r.object = none) :
    ¬ r.kind.Ready s.pending := by
  rintro (hnowait | ⟨-, howed⟩)
  · exact nomatch (r.flags hnowait).symm.trans hrecords
  · simp [Request.kind, hnone] at howed

theorem arrives_readText (hthread : s.thread = .reading r) (hrecords : r.records = false) :
    Arrives con s (s.readText con r) := by
  rw [readText]
  split
  next pending hpending =>
    refine ⟨⟨_, _, hthread, rfl, rfl, rfl, rfl, rfl, rfl, nil_sublist _,
      .inr rfl⟩, trivial, fun _ => isSome_update (by simp [hpending])⟩
  next hnone =>
    exact ⟨⟨_, _, hthread, rfl, rfl, rfl, rfl, rfl, rfl, .refl _, .inr rfl⟩,
      unready_of_none hrecords hnone, fun _ => id⟩

/-! #### A raw read -/

theorem takeChars_ne_nil (p : Platform) (vt unicode : Bool) (codePage : UInt32) (capacity : ℕ)
    (limit : Option ℕ) (taken used : ℕ) (text : List UInt16) (records : List InputRecord)
    (htext : text ≠ []) :
    (takeChars p vt unicode codePage capacity limit taken used text records).2 ≠ [] := by
  induction taken, used, text, records using
    takeChars.induct p vt unicode codePage capacity limit with
  | case1 => simpa [takeChars] using htext
  | case2 taken used text r rest hwithin hchar ih => simpa [takeChars, hwithin, hchar] using ih htext
  | case3 taken used text r rest hwithin ch hchar hcost => simpa [takeChars, hwithin, hchar, hcost]
  | case4 taken used text r rest hwithin ch hchar hcost ih =>
    rw [takeChars]
    simp only [hwithin, hchar, hcost, if_true, if_false]
    exact ih (by simp)
  | case5 taken used text r rest hwithin => simpa [takeChars, hwithin] using htext

/-- A raw read takes a character if there is one among the records that it looks at and it fits, and
all of these records if there is none. -/
theorem takeChars_spec (p : Platform) (vt unicode : Bool) (codePage : UInt32) (capacity : ℕ)
    (limit : Option ℕ) (taken : ℕ) (records : List InputRecord)
    (h : match (limit.elim records fun limit => records.take (limit - taken)).findSome?
        (plainChar p vt) with
      | some ch => charCost p unicode codePage ch ≤ capacity
      | none => ∀ l, limit = some l → records.length ≤ l - taken) :
    (takeChars p vt unicode codePage capacity limit taken 0 [] records).2 ≠ [] ∨
      (takeChars p vt unicode codePage capacity limit taken 0 [] records).1 = [] := by
  induction records generalizing taken with
  | nil => exact .inr (by rw [takeChars])
  | cons r rest ih =>
    rw [takeChars]
    by_cases hwithin : within taken limit
    · have hlook : limit.elim (r :: rest) (fun limit => (r :: rest).take (limit - taken)) =
          r :: limit.elim rest fun limit => rest.take (limit - (taken + 1)) := by
        cases limit with
        | none => rfl
        | some l =>
          have hlt : taken < l := by simpa [within] using hwithin
          rw [Option.elim_some, Option.elim_some, show l - taken = l - (taken + 1) + 1 by omega,
            take_succ_cons]
      rw [hlook, findSome?_cons] at h
      rw [if_pos hwithin]
      cases hchar : plainChar p vt r with
      | none =>
        rw [hchar] at h
        refine ih (taken + 1) ?_
        dsimp only at h
        cases hfound : (limit.elim rest fun limit =>
            rest.take (limit - (taken + 1))).findSome? (plainChar p vt) with
        | some ch =>
          rw [hfound] at h
          exact h
        | none =>
          rw [hfound] at h
          intro l hl
          have := h l hl
          rw [length_cons] at this
          omega
      | some ch =>
        rw [hchar] at h
        refine .inl ?_
        dsimp only at h ⊢
        rw [if_neg (by omega)]
        exact takeChars_ne_nil p vt unicode codePage capacity limit _ _ _ _ (by simp)
    · cases limit with
      | none => simp [within] at hwithin
      | some l =>
        -- Past its limit the read has looked at everything.
        have hle : l ≤ taken := by simpa [within] using hwithin
        rw [Option.elim_some, show l - taken = 0 by omega] at h
        have := h l rfl
        rw [length_cons] at this
        omega

variable {mode : UInt32}

theorem arrives_readRaw (hthread : s.thread = .looking r mode) (hready : ¬ r.kind.Ready s.pending)
    (hfair : s.Interrupted ∨ s.Readable con r mode) :
    Arrives con s (s.readRaw con r mode) := by
  rw [readRaw]
  dsimp only
  split
  next hnone =>
    refine ⟨⟨_, _, hthread, rfl, rfl, rfl, rfl, rfl, rfl, .refl _,
      .inl trivial⟩, hfair.imp id fun hreadable => ⟨hready, ?_⟩, fun _ => id⟩
    refine (takeChars_spec con.platform _ _ _ _ _ 0 s.records ?_).resolve_left (not_not_intro hnone)
    simpa [Readable] using hreadable
  next =>
    exact ⟨⟨_, _, hthread, rfl, rfl, rfl, rfl, rfl, rfl, nil_sublist _,
      .inl trivial⟩, trivial, fun _ => id⟩

/-! #### A cooked read -/

variable {answer : Answer}

theorem arrives_takeLine (hthread : s.thread = .looking r mode) (hready : ¬ r.kind.Ready s.pending) :
    Arrives con s (s.takeLine con r mode answer) := by
  rw [takeLine]
  split
  next =>
    exact ⟨⟨_, _, hthread, rfl, rfl, rfl, rfl, rfl, rfl, nil_sublist _,
      .inl trivial⟩, trivial, fun _ => id⟩
  next =>
    exact ⟨⟨_, _, hthread, rfl, rfl, rfl, rfl, rfl, rfl, .refl _,
      .inl trivial⟩, hready, fun _ => id⟩

/-- Records are left only of a line that is done. -/
theorem isDone_of_feed (ed : Editor C E) (p : Platform) (process : ℕ) (processed vt : Bool)
    (line : Editor.Edited C E) (records : List InputRecord)
    (h : (ed.feed p process processed vt line records).2 ≠ []) :
    ed.isDone (ed.feed p process processed vt line records).1.1 = true := by
  induction records generalizing line with
  | nil => exact absurd rfl h
  | cons r rest ih =>
    rw [Editor.feed] at h ⊢
    split_ifs at h ⊢ with hdone
    · exact hdone
    · exact ih _ h

variable {line : C}

theorem arrives_feedLine {records : List InputRecord}
    (hthread : s.thread = .feeding r line mode records) (hready : ¬ r.kind.Ready s.pending)
    (hfair : s.Finishes con r line mode records ∨ s.Interrupted ∨ s.records = []) :
    Arrives con s (s.feedLine con r line mode records) := by
  rw [feedLine]
  refine ⟨⟨_, _, hthread, rfl, rfl, rfl, rfl, rfl, rfl, .refl _, .inl trivial⟩, ⟨hready, ?_⟩, fun _ => id⟩
  by_cases hrest : (s.fedLine con r line mode records).2 = []
  · exact hfair.imp (con.editor.isDone_feed_iff ..).mpr (Or.imp id fun hnil => ⟨hrest, hnil⟩)
  · exact .inl (isDone_of_feed _ _ _ _ _ _ _ hrest)

theorem arrives_fed {rest : List InputRecord} (hthread : s.thread = .fed r line mode rest)
    (hsettled : s.Settled con.editor) :
    Arrives con s { s with records := rest ++ s.records, thread := .drawing r line mode } := by
  rw [Settled, hthread] at hsettled
  refine ⟨⟨_, _, hthread, rfl, rfl, rfl, rfl, rfl, rfl, .refl _, .inr rfl⟩,
    ⟨hsettled.1, hsettled.2.imp id (Or.imp id fun ⟨hrest, hnil⟩ => ?_)⟩, fun _ => id⟩
  rw [hrest, hnil, append_nil]

variable (con) in
theorem isDone_afterDrawing (line : C) :
    con.editor.isDone (afterDrawing con line) = con.editor.isDone line := by
  rw [afterDrawing]
  split_ifs
  · rw [Editor.isDone, con.editor.state_completeWakeup, Editor.isDone]
  · rfl

theorem isDone_drawn {line' : C} (h : s.drawn con r line mode answer = .ok line') :
    con.editor.isDone line' = con.editor.isDone line := by
  have hredisplay (size cursor : ℤ × ℤ) : con.editor.isDone
      (con.editor.redisplay size cursor r.process s.editing line).1 = con.editor.isDone line := by
    rw [Editor.isDone, con.editor.state_redisplay, Editor.isDone]
  rw [drawn] at h
  split_ifs at h
  · split at h
    · cases h
    · dsimp only at h
      split at h
      · split_ifs at h
        exact Except.ok.inj h ▸ hredisplay _ _
      · exact Except.ok.inj h ▸ hredisplay _ _
  · exact Except.ok.inj h ▸ rfl

theorem arrives_drawLine (hthread : s.thread = .drawing r line mode)
    (hsettled : s.Settled con.editor) :
    Arrives con s (s.drawLine con r line mode answer) := by
  rw [Settled, hthread] at hsettled
  rw [drawLine]
  split
  next =>
    exact ⟨⟨_, _, hthread, rfl, rfl, rfl, rfl, rfl, rfl, nil_sublist _,
      .inl trivial⟩, trivial, fun _ => id⟩
  next line' hdrawn =>
    have hdone := (isDone_afterDrawing con line').trans (isDone_drawn hdrawn)
    dsimp only
    split_ifs with hfinished
    · exact ⟨⟨_, _, hthread, rfl, rfl, rfl, rfl, rfl, rfl, nil_sublist _,
        .inl trivial⟩, trivial, fun _ => id⟩
    · refine ⟨⟨_, _, hthread, rfl, rfl, rfl, rfl, rfl, rfl, .refl _,
        .inl trivial⟩, ?_, fun _ => id⟩
      exact (hsettled.2.resolve_left (hdone ▸ hfinished)).imp id fun hnil => ⟨hsettled.1, hnil⟩

variable (con) in
/-- A line that is finished leaves its rest to its handle. -/
theorem works_finishLine (answer : Answer) (hthread : s.thread = .finishing r line mode) :
    (∃ phase phase', Works s (s.finishLine con r line mode answer) phase phase') ∧
      (s.finishLine con r line mode answer).Settled con.editor ∧
      ((∀ object, ((s.finishLine con r line mode answer).pending object).isSome →
          (s.pending object).isSome) ∨
        (s.splitLine con r line mode).2.1 ≠ [] ∧
        ∀ object, object ≠ r.object → (s.finishLine con r line mode answer).pending object =
          s.pending object) := by
  rw [finishLine]
  dsimp only
  split
  next =>
    exact ⟨⟨_, _, hthread, rfl, rfl, rfl, rfl, rfl, rfl, nil_sublist _,
      .inl trivial⟩, trivial, .inl fun _ => id⟩
  next =>
    refine ⟨⟨_, _, hthread, rfl, rfl, rfl, rfl, rfl, rfl, .refl _,
      .inl trivial⟩, trivial, ?_⟩
    by_cases hrest : (s.splitLine con r line mode).2.1 = []
    · exact .inl fun _ => by simp [hrest]
    · exact .inr ⟨hrest, fun object hobject => by simp [hrest, Function.update_of_ne hobject]⟩

theorem Orderly.of_arrives (h : s.Orderly con) (harrives : Arrives con s s') : s'.Orderly con := by
  obtain ⟨⟨phase, phase', hworks⟩, hsettled, hpending⟩ := harrives
  refine ⟨h.ahead.of_sublist ?_ hpending, hsettled⟩
  rw [hworks.thread, hworks.thread', hworks.requests, map_append, map_append]
  exact hworks.undecided.append_right _

theorem Orderly.finishLine (h : s.Orderly con) (hthread : s.thread = .finishing r line mode)
    (hfair : s.Advances con answer) :
    (s.finishLine con r line mode answer).Orderly con := by
  obtain ⟨⟨phase, phase', hworks⟩, hsettled, hpending⟩ := works_finishLine con answer hthread
  rcases hpending with hpending | ⟨hrest, hother⟩
  · exact h.of_arrives ⟨⟨phase, phase', hworks⟩, hsettled, hpending⟩
  · refine ⟨?_, hsettled⟩
    rw [Advances, hthread] at hfair
    have hbehind := hfair.resolve_left hrest
    have hahead := h.ahead
    obtain rfl := hthread.symm.trans hworks.thread
    have hnil : phase'.undecided.map Request.kind = [] :=
      sublist_nil.mp (by simpa [Phase.undecided] using hworks.undecided)
    rw [hthread] at hahead
    rw [hworks.thread', hworks.requests, map_append, hnil, nil_append]
    refine (List.Pairwise.and hahead hbehind).imp fun {a b} ⟨hready, hobject⟩ => ?_
    rintro (hnowait | ⟨htext, howed⟩)
    · exact hready (.inl hnowait)
    · by_cases hb : b.object = r.object
      · exact hobject ⟨htext, hb⟩
      · exact hready (.inr ⟨htext, by rwa [hother _ hb] at howed⟩)

/-! ### The thread between two reads -/

/-- What the top of the loop comes to. -/
inductive Chosen (s : Input D C E) : Input D C E → Prop
  | ended (hnil : s.requests = []) : Chosen s (s.goto .ended)
  | popped (r : Request C) (rest : List (Request C)) (hrequests : s.requests = r :: rest) :
      Chosen s { s with requests := rest, thread := .popped r }
  | alerted : Chosen s s.takeAlerted
  | sleeps (huninterrupted : ¬ s.Interrupted)
      (hfront : s.requests = [] ∨
        ∃ r rest, s.requests = r :: rest ∧ s.records = [] ∧ ¬ r.kind.Ready s.pending) :
      Chosen s { s with
        requests := s.requests.map fun r => { r with waited := true }
        thread := .asleep
        notified := false }

theorem chosen_choose (s : Input D C E) : Chosen s s.choose := by
  rw [choose]
  split_ifs with hclosed halert
  · split
    next hnil => exact .ended hnil
    next r rest hrequests => exact .popped r rest hrequests
  · exact .alerted
  · have huninterrupted : ¬ s.Interrupted := fun h => h.elim hclosed halert
    dsimp only
    split
    next hnil => exact .sleeps huninterrupted (.inl hnil)
    next r rest hrequests =>
      split_ifs with hservable
      · exact .popped r rest hrequests
      · rw [servable, Bool.or_assoc, Bool.or_eq_true, not_or] at hservable
        refine .sleeps huninterrupted (.inr ⟨r, rest, hrequests, by simpa using hservable.1, ?_⟩)
        rw [Request.ready_iff, or_comm, ← Bool.or_eq_true]
        exact hservable.2

theorem map_kind_waited (requests : List (Request C)) :
    (requests.map fun r => { r with waited := true }).map Request.kind =
      requests.map Request.kind := by
  rw [map_map]
  rfl

theorem Orderly.of_chosen (h : s.Orderly con) (hchosen : Chosen s s')
    (hhand : s.thread.undecided = []) : s'.Orderly con := by
  have hahead := h.ahead
  rw [hhand, nil_append] at hahead
  cases hchosen with
  | ended hnil => exact ⟨hahead, trivial⟩
  | popped r rest hrequests => exact ⟨by rw [hrequests] at hahead; exact hahead, trivial⟩
  | alerted =>
    exact ⟨hahead.of_sublist (filter_sublist.map Request.kind) fun _ => id, trivial⟩
  | sleeps huninterrupted hfront =>
    have hkinds := map_kind_waited s.requests
    refine ⟨?_, .inr ⟨huninterrupted, ?_, ?_⟩⟩
    · exact hkinds.symm ▸ hahead
    · rcases hfront with hnil | ⟨r, rest, -, hrecords, -⟩
      · exact .inl (by rw [hnil]; rfl)
      · exact .inr hrecords
    · rcases hfront with hnil | ⟨r, rest, hrequests, -, hready⟩
      · simp [hnil]
      · rw [hrequests, map_cons] at hahead
        dsimp only
        rw [hkinds, hrequests]
        exact hahead.unready hready

/-- A read that found nothing is the first that waits, and no record is queued. -/
theorem Orderly.waitBehind (h : s.Orderly con) (old : ℕ) (hhand : s.thread.undecided = [])
    (hold : ¬ s.Interrupted →
      old = 0 ∧ ∀ k ∈ s.requests.map Request.kind, ¬ k.Ready s.pending) :
    (s.waitBehind old).Orderly con := by
  have hahead := h.ahead
  rw [hhand] at hahead
  rw [Input.waitBehind]
  split_ifs with hwaits
  · simp only [waits, Bool.and_eq_true, Bool.not_eq_true', beq_iff_eq] at hwaits
    obtain ⟨⟨⟨hopen, -⟩, hcalm⟩, hlength⟩ := hwaits
    have huninterrupted : ¬ s.Interrupted := by
      rintro (hclosed | halert)
      · exact nomatch hopen.symm.trans hclosed
      · exact nomatch hcalm.symm.trans halert
    obtain ⟨hzero, hunready⟩ := hold huninterrupted
    have hrecords : s.records = [] := length_eq_zero_iff.mp (hlength.trans hzero)
    exact ⟨hahead, hzero, hunready, .inr ⟨huninterrupted, .inr hrecords, hunready⟩⟩
  · exact ⟨hahead, trivial⟩

/-- A read that is done with leaves the queue as it is. -/
theorem Orderly.done (h : s.Orderly con) (hthread : s'.thread = .top)
    (hrequests : s'.requests = s.requests) (hpending : s'.pending = s.pending) : s'.Orderly con := by
  refine ⟨?_, by simp [Settled, hthread]⟩
  rw [hthread, hrequests, hpending]
  exact h.ahead.of_sublist ((sublist_append_right _ _).map Request.kind) fun _ => id

theorem Orderly.leave (h : s.Orderly con) (hthread : s.thread = .leaving r) :
    (s.leave r).Orderly con := by
  have hahead := h.ahead
  have hsettled := h.settled
  rw [hthread] at hahead
  rw [Settled, hthread] at hsettled
  rw [Input.leave]
  split_ifs with hlive
  · exact h.done rfl rfl rfl
  · -- The read is queued again, with the thread at the top for the moment.
    let s₁ : Input D C E :=
      { s with requests := { r with waited := true } :: s.requests, thread := .top }
    have hs₁ : s₁.Orderly con := ⟨hahead, trivial⟩
    have hwait := hs₁.waitBehind s.records.length rfl fun huninterrupted => by
      obtain ⟨hready, hnil⟩ := hsettled.resolve_left huninterrupted
      exact ⟨by rw [hnil]; rfl, hahead.unready hready⟩
    rw [Input.waitBehind] at hwait ⊢
    exact hwait

theorem Orderly.advance (h : s.Orderly con) (hfair : s.Advances con answer) :
    (s.advance con answer).Orderly con := by
  have hsettled := h.settled
  have hunready {old : ℕ} (hthread : s.thread = .behind old) :
      ¬ s.Interrupted → old = 0 ∧ ∀ k ∈ s.requests.map Request.kind, ¬ k.Ready s.pending := by
    rw [Settled, hthread] at hsettled
    exact fun _ => ⟨hsettled.1, hsettled.2.1⟩
  rw [Settled] at hsettled
  rw [Input.advance]
  split
  next hthread => exact h.of_chosen (chosen_choose s) (by rw [hthread]; rfl)
  next hthread => exact h.of_chosen (chosen_choose s) (by rw [hthread]; rfl)
  next r hthread => exact h.of_arrives (arrives_popped con hthread)
  next r hthread => exact h.of_arrives (arrives_fulfill hthread)
  next r hthread =>
    rw [hthread] at hsettled
    exact h.of_arrives (arrives_readText hthread hsettled)
  next r mode hthread =>
    rw [hthread] at hsettled
    rw [Advances, hthread] at hfair
    split_ifs with hline
    · exact h.of_arrives (arrives_takeLine hthread hsettled)
    · exact h.of_arrives (arrives_readRaw hthread hsettled (hfair.resolve_left hline))
  next r line mode records hthread =>
    rw [hthread] at hsettled
    rw [Advances, hthread] at hfair
    exact h.of_arrives (arrives_feedLine hthread hsettled hfair)
  next r line mode rest hthread => exact h.of_arrives (arrives_fed hthread h.settled)
  next r line mode hthread => exact h.of_arrives (arrives_drawLine hthread h.settled)
  next r line mode hthread => exact h.finishLine hthread hfair
  next r outcome hthread =>
    split_ifs
    · exact h.done rfl rfl rfl
    · exact h.done rfl rfl rfl
  next r hthread => exact h.leave hthread
  next old hthread => exact h.waitBehind old (by rw [hthread]; rfl) (hunready hthread)
  next hthread => exact h

theorem Orderly.step (h : s.Orderly con) {event : Event C E} (hfair : s.Fair con event) :
    (s.step con event).Orderly con := by
  by_cases hevent : ∃ answer, event = .advance answer
  · obtain ⟨answer, rfl⟩ := hevent
    exact h.advance hfair
  · exact (outside_step hfair (not_exists.mp hevent)).keeps_order h

end Input

end Zetta.Console.Reads
