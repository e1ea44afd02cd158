import Zetta.Console.InputWaits

/-!
# Every read is served

* `Accounted`: every read that was accepted is queued, in hand, completed or dropped, and only one
  of these.
* `Moves`: a read is dropped only when its client or its handle is gone, and the lines of the reads
  that are not in hand stay as they are.
* `served_of_fair`: with `Rested`, for every run whose steps meet `Fair`. Without it a read can
  sleep on a key that it has not looked at, and a read that does not wait behind one that does
  (`asleep`).
-/

namespace Zetta.Console.Reads

open List

namespace Input

variable {D C E : Type} {con : Host D C E} {s s' : Input D C E} {r : Request C}

/-! ### Where every read is -/

def Accounted (s : Input D C E) : Prop :=
  s.accepted.Perm ((s.thread.hand ++ s.requests).map Request.id ++ s.completed.map Prod.fst ++
    s.dropped.map Request.id)

/-- The line of a read that comes. -/
def fresh : Event C E → List (ℕ × Option C)
  | .request r => [(r.id, none)]
  | _ => []

structure Moves (s : Input D C E) (event : Event C E) (s' : Input D C E) : Prop where
  lines : (s'.requests.map Request.line).Sublist
    ((s.thread.hand ++ s.requests).map Request.line ++ fresh event)
  hand : ¬ s.thread.Edits →
    (s'.thread.hand.map Request.line).Sublist ((s.thread.hand ++ s.requests).map Request.line)
  dropped : ∃ gone, s'.dropped = gone ++ s.dropped ∧ ∀ r ∈ gone, s'.live r = false

theorem accounted_iff {s : Input D C E} : s.Accounted ↔ ∀ id, s.accepted.count id =
    (s.thread.hand.map Request.id).count id + (s.requests.map Request.id).count id +
      (s.completed.map Prod.fst).count id + (s.dropped.map Request.id).count id := by
  rw [Accounted, perm_iff_count]
  simp only [map_append, count_append]

variable (requests : List (Request C))

/-- A queue is what a filter takes of it, and the rest. -/
theorem count_filter {p q : Request C → Bool} (hq : ∀ r, q r = !p r) (id : ℕ) :
    ((requests.filter p).map Request.id).count id +
        ((requests.filter q).map Request.id).count id =
      (requests.map Request.id).count id := by
  rw [show q = fun r => !p r from funext hq, ← count_append, ← map_append]
  exact ((filter_append_perm p requests).map Request.id).count_eq id

theorem map_fst_alerted :
    (requests.map fun r => (r.id, Outcome.alerted)).map Prod.fst = requests.map Request.id := by
  rw [map_map]
  rfl

theorem Frame.accounted (h : Frame s s') (hs : s.Accounted) : s'.Accounted := by
  rw [Accounted, h.thread, h.requests, h.accepted, h.completed, h.dropped]
  exact hs

theorem Frame.moves (h : Frame s s') (event : Event C E) : s.Moves event s' where
  lines := by
    rw [h.requests, map_append, append_assoc]
    exact (sublist_append_left _ _).trans (sublist_append_right _ _)
  hand _ := by
    rw [h.thread, map_append]
    exact sublist_append_left _ _
  dropped := ⟨[], h.dropped, by simp⟩

theorem accounted_request (hs : s.Accounted) (r : Request C) : (s.request r).Accounted := by
  rw [request]
  split_ifs
  · exact hs
  · rw [accounted_iff] at hs ⊢
    intro id
    have := hs id
    simp only [wake, map_append, map_cons, map_nil, count_append,
      count_cons, count_nil]
    omega

theorem accounted_disconnected (hs : s.Accounted) (process : ℕ) :
    (s.disconnected process).Accounted := by
  rw [accounted_iff] at hs ⊢
  intro id
  have hfilter := count_filter s.requests (p := fun r => decide (r.process ≠ process))
    (q := fun r => decide (r.process = process)) (fun r => by simp) id
  have := hs id
  simp only [disconnected, wake, map_append, count_append]
  omega

theorem accounted_objectClosed (hs : s.Accounted) (object : ℕ) :
    (s.objectClosed object).Accounted := by
  rw [accounted_iff] at hs ⊢
  intro id
  have hfilter := count_filter s.requests (p := fun r => decide (r.object ≠ object))
    (q := fun r => decide (r.object = object)) (fun r => by simp) id
  have := hs id
  simp only [objectClosed, wake, map_append, count_append, map_fst_alerted]
  omega

theorem accounted_takeAlerted (hs : s.Accounted) (hhand : s.thread.hand = []) :
    s.takeAlerted.Accounted := by
  rw [accounted_iff] at hs ⊢
  intro id
  have hfilter := count_filter s.requests (p := fun r => !s.alerts r)
    (q := s.alerts) (fun r => by simp) id
  have := hs id
  rw [hhand] at this
  simp only [takeAlerted, map_append, count_append, map_fst_alerted, Phase.hand]
  omega

theorem Accounted.of_chosen (hs : s.Accounted) (hchosen : Chosen s s')
    (hhand : s.thread.hand = []) : s'.Accounted := by
  have hcount := hs
  rw [Accounted, hhand] at hcount
  cases hchosen with
  | ended => exact hcount
  | popped r rest hrequests =>
    rw [hrequests] at hcount
    exact hcount
  | alerted => exact accounted_takeAlerted hs hhand
  | sleeps =>
    rw [Accounted]
    dsimp only
    rw [map_append, map_map]
    exact hcount

theorem Accounted.of_works (hs : s.Accounted) {phase phase' : Phase C}
    (h : Works s s' phase phase') : s'.Accounted := by
  rw [Accounted, map_append, h.thread] at hs
  rw [Accounted, map_append, h.thread', h.ids, h.requests, h.accepted, h.completed, h.dropped]
  exact hs

/-- A read that is done with was the one in hand. -/
theorem Accounted.complete (hs : s.Accounted) (hhand : s.thread.hand = [r]) (outcome : Outcome) :
    (s.complete r outcome).Accounted := by
  rw [accounted_iff] at hs ⊢
  intro id
  have := hs id
  rw [hhand] at this
  simp only [Input.complete, Phase.hand, map_cons, map_nil, count_cons,
    count_nil] at this ⊢
  omega

theorem Accounted.drop (hs : s.Accounted) (hhand : s.thread.hand = [r]) :
    Accounted { s with dropped := r :: s.dropped, thread := .top } := by
  rw [accounted_iff] at hs ⊢
  intro id
  have := hs id
  rw [hhand] at this
  simp only [Phase.hand, map_cons, map_nil, count_cons, count_nil] at this ⊢
  omega

theorem Accounted.waitBehind (hs : s.Accounted) (hhand : s.thread.hand = []) (old : ℕ) :
    (s.waitBehind old).Accounted := by
  rw [Accounted, hhand] at hs
  rw [Input.waitBehind]
  split_ifs
  · exact hs
  · exact hs

theorem Accounted.leave (hs : s.Accounted) (hthread : s.thread = .leaving r) :
    (s.leave r).Accounted := by
  rw [Input.leave]
  split_ifs
  · exact hs.drop (by rw [hthread]; rfl)
  · rw [Accounted, hthread] at hs
    rw [Input.waitBehind]
    split_ifs
    · exact hs
    · exact hs

/-! ### What a step of the thread does to the reads -/

inductive Advanced (s : Input D C E) : Input D C E → Prop
  | chosen {s' : Input D C E} (hhand : s.thread.hand = []) (hchosen : Chosen s s') : Advanced s s'
  | works {s' : Input D C E} {phase phase' : Phase C} (hworks : Works s s' phase phase') :
      Advanced s s'
  | completed (r : Request C) (outcome : Outcome) (hhand : s.thread.hand = [r]) :
      Advanced s (s.complete r outcome)
  | refused (r : Request C) (hhand : s.thread.hand = [r]) (hlive : s.live r = false) :
      Advanced s { s with dropped := r :: s.dropped, thread := .top }
  | left (r : Request C) (hthread : s.thread = .leaving r) : Advanced s (s.leave r)
  | waited (old : ℕ) (hhand : s.thread.hand = []) : Advanced s (s.waitBehind old)
  | ended : Advanced s s

theorem Arrives.advanced (h : Arrives con s s') : Advanced s s' :=
  let ⟨⟨_, _, hworks⟩, _⟩ := h
  .works hworks

theorem advanced_advance (h : s.Orderly con) {answer : Answer} (hfair : s.Advances con answer) :
    Advanced s (s.advance con answer) := by
  have hsettled := h.settled
  rw [Settled] at hsettled
  rw [advance]
  split
  next hthread => exact .chosen (by rw [hthread]; rfl) (chosen_choose s)
  next hthread => exact .chosen (by rw [hthread]; rfl) (chosen_choose s)
  next r hthread => exact (arrives_popped con hthread).advanced
  next r hthread => exact (arrives_fulfill hthread).advanced
  next r hthread =>
    rw [hthread] at hsettled
    exact (arrives_readText hthread hsettled).advanced
  next r mode hthread =>
    rw [hthread] at hsettled
    rw [Advances, hthread] at hfair
    split_ifs with hline
    · exact (arrives_takeLine hthread hsettled).advanced
    · exact (arrives_readRaw hthread hsettled (hfair.resolve_left hline)).advanced
  next r line mode records hthread =>
    rw [hthread] at hsettled
    rw [Advances, hthread] at hfair
    exact (arrives_feedLine hthread hsettled hfair).advanced
  next r line mode rest hthread => exact (arrives_fed hthread h.settled).advanced
  next r line mode hthread => exact (arrives_drawLine hthread h.settled).advanced
  next r line mode hthread =>
    obtain ⟨⟨phase, phase', hworks⟩, -⟩ := works_finishLine con answer hthread
    exact .works hworks
  next r outcome hthread =>
    rw [Advances, hthread] at hfair
    split_ifs with hlost
    · exact .refused r (by rw [hthread]; rfl) ((hfair hlost.1).resolve_left (by simpa using hlost.2))
    · exact .completed r outcome (by rw [hthread]; rfl)
  next r hthread => exact .left r hthread
  next old hthread => exact .waited old (by rw [hthread]; rfl)
  next hthread => exact .ended

theorem Accounted.of_advanced (hs : s.Accounted) (h : Advanced s s') : s'.Accounted := by
  cases h with
  | chosen hhand hchosen => exact hs.of_chosen hchosen hhand
  | works hworks => exact hs.of_works hworks
  | completed r outcome hhand => exact hs.complete hhand outcome
  | refused r hhand hlive => exact hs.drop hhand
  | left r hthread => exact hs.leave hthread
  | waited old hhand => exact hs.waitBehind hhand old
  | ended => exact hs

theorem sublist_queued (s : Input D C E) (event : Event C E) :
    (s.requests.map Request.line).Sublist
      ((s.thread.hand ++ s.requests).map Request.line ++ fresh event) := by
  rw [map_append, append_assoc]
  exact (sublist_append_left _ _).trans (sublist_append_right _ _)

variable {event : Event C E}

/-- A step that leaves the queue as it is, with no read in hand behind it. -/
theorem Moves.of_queued (hlines : s'.requests.map Request.line =
      s.requests.map Request.line) (hhand : s'.thread.hand = [])
    (hdropped : ∃ gone, s'.dropped = gone ++ s.dropped ∧ ∀ r ∈ gone, s'.live r = false) :
    s.Moves event s' :=
  ⟨hlines ▸ sublist_queued s event, fun _ => by rw [hhand]; exact nil_sublist _, hdropped⟩

theorem Moves.of_chosen (h : Chosen s s') : s.Moves event s' := by
  cases h with
  | ended => exact .of_queued rfl rfl ⟨[], rfl, by simp⟩
  | popped r rest hrequests =>
    have hrest : (rest.map Request.line).Sublist (s.requests.map Request.line) := by
      rw [hrequests]
      exact (sublist_cons_self r rest).map Request.line
    have hfirst : [Request.line r].Sublist (s.requests.map Request.line) := by
      rw [hrequests]
      exact singleton_sublist.mpr mem_cons_self
    exact ⟨hrest.trans (sublist_queued s event), fun _ => hfirst.trans
      (by rw [map_append]; exact sublist_append_right _ _), [], rfl, by simp⟩
  | alerted =>
    exact ⟨(filter_sublist.map Request.line).trans (sublist_queued s event),
      fun _ => nil_sublist _, [], rfl, by simp⟩
  | sleeps =>
    exact .of_queued (by rw [map_map]; rfl) rfl ⟨[], rfl, by simp⟩

theorem Moves.waitBehind (old : ℕ) : s.Moves event (s.waitBehind old) := by
  rw [Input.waitBehind]
  split_ifs
  · exact .of_queued rfl rfl ⟨[], rfl, by simp⟩
  · exact .of_queued rfl rfl ⟨[], rfl, by simp⟩

theorem Moves.leave (hthread : s.thread = .leaving r) :
    s.Moves event (s.leave r) := by
  rw [Input.leave]
  split_ifs with hlive
  · exact .of_queued rfl rfl ⟨[r], rfl, fun r' hr' => by
      rw [mem_singleton.mp hr']
      exact (Bool.not_eq_true' _).mp hlive⟩
  · have hlines : (({ r with waited := true } :: s.requests).map Request.line).Sublist
        ((s.thread.hand ++ s.requests).map Request.line ++ fresh event) := by
      rw [hthread]
      exact sublist_append_left _ _
    rw [Input.waitBehind]
    split_ifs
    · exact ⟨hlines, fun _ => nil_sublist _, [], rfl, by simp⟩
    · exact ⟨hlines, fun _ => nil_sublist _, [], rfl, by simp⟩

theorem Moves.of_advanced (h : Advanced s s') : s.Moves event s' := by
  cases h with
  | chosen hhand hchosen => exact .of_chosen hchosen
  | @works _ phase phase' hworks =>
    refine ⟨by rw [hworks.requests]; exact sublist_queued s event, fun hedits => ?_,
      [], hworks.dropped, by simp⟩
    rw [hworks.thread] at hedits ⊢
    rw [hworks.thread', hworks.lines.resolve_left hedits, map_append]
    exact sublist_append_left _ _
  | completed r outcome hhand => exact .of_queued rfl rfl ⟨[], rfl, by simp⟩
  | refused r hhand hlive =>
    exact .of_queued rfl rfl ⟨[r], rfl, fun r' hr' => by
      rw [mem_singleton.mp hr']
      exact hlive⟩
  | left r hthread => exact .leave hthread
  | waited old hhand => exact .waitBehind old
  | ended => exact (Frame.refl s).moves event

/-! ### Every step -/

theorem moves_disconnected (s : Input D C E) (process : ℕ) :
    s.Moves (.disconnected process : Event C E) (s.disconnected process) where
  lines := (filter_sublist.map Request.line).trans (sublist_queued s _)
  hand _ := by
    rw [map_append]
    exact sublist_append_left _ _
  dropped := ⟨_, rfl, fun r hr => by
    obtain ⟨-, hprocess⟩ := mem_filter.mp hr
    simp [live, disconnected, wake, of_decide_eq_true hprocess]⟩

theorem moves_objectClosed (s : Input D C E) (object : ℕ) :
    s.Moves (.objectClosed object : Event C E) (s.objectClosed object) where
  lines := (filter_sublist.map Request.line).trans (sublist_queued s _)
  hand _ := by
    rw [map_append]
    exact sublist_append_left _ _
  dropped := ⟨[], rfl, by simp⟩

theorem moves_request (s : Input D C E) (r : Request C) :
    s.Moves (.request r : Event C E) (s.request r) := by
  rw [request]
  split_ifs
  · exact (Frame.refl s).moves _
  · refine ⟨?_, fun _ => ?_, [], rfl, by simp⟩
    · rw [map_append, append_assoc]
      refine List.Sublist.trans ?_ (sublist_append_right _ _)
      rw [wake, map_append]
      exact .refl _
    · rw [map_append]
      exact sublist_append_left _ _

/-- What an event does to the reads, as the events that are not the thread's do it. -/
theorem kept_step (hevent : ∀ answer, event ≠ .advance answer) (hs : s.Accounted) :
    (s.step con event).Accounted ∧ s.Moves event (s.step con event) := by
  have hframe {s' : Input D C E} (h : Frame s s') : s'.Accounted ∧ s.Moves event s' :=
    ⟨h.accounted hs, h.moves event⟩
  have hclients {clients handles : Finset ℕ} {closed notified : Bool} :
      Accounted { s with
        clients := clients, handles := handles, closed := closed, notified := notified } ∧
      s.Moves event { s with
        clients := clients, handles := handles, closed := closed, notified := notified } :=
    ⟨hs, sublist_queued s event, fun _ => by
      rw [map_append]
      exact sublist_append_left _ _, [], rfl, by simp⟩
  cases event with
  | connected process => exact hclients
  | disconnected process => exact ⟨accounted_disconnected hs process, moves_disconnected s process⟩
  | objectOpened object => exact hclients
  | objectClosed object => exact ⟨accounted_objectClosed hs object, moves_objectClosed s object⟩
  | setMode mode => exact hframe ⟨rfl, rfl, rfl, rfl, rfl, rfl, rfl⟩
  | setCodePage codePage => exact hframe ⟨rfl, rfl, rfl, rfl, rfl, rfl, rfl⟩
  | edit editing => exact hframe ⟨rfl, rfl, rfl, rfl, rfl, rfl, rfl⟩
  | request r => exact ⟨accounted_request hs r, moves_request s r⟩
  | resize columns rows => exact hframe (frame_resize s columns rows)
  | inject records append => exact hframe (frame_inject s records append)
  | close => exact hclients
  | write bytes sent => exact hframe (frame_write con s bytes sent)
  | flush => exact hframe ⟨rfl, rfl, rfl, rfl, rfl, rfl, rfl⟩
  | advance answer => exact absurd rfl (hevent answer)

theorem kept (h : s.Orderly con) (hs : s.Accounted) (hfair : s.Fair con event) :
    (s.step con event).Accounted ∧ s.Moves event (s.step con event) := by
  by_cases hevent : ∃ answer, event = .advance answer
  · obtain ⟨answer, rfl⟩ := hevent
    have hadvanced := advanced_advance h hfair
    exact ⟨hs.of_advanced hadvanced, .of_advanced hadvanced⟩
  · exact kept_step (not_exists.mp hevent) hs

variable (con) in
/-- **No read sleeps on input**: in every run whose steps meet the condition, a thread that sleeps
and has not been woken has nothing to serve and nothing to offer, every read is at one place, and a
step loses no read and no line. -/
theorem served_of_fair (keys : D) (editing : E) {events : List (Event C E)} {s : Input D C E}
    (h : Run (Meeting (Fair con) (Next con)) (new keys editing) events s) :
    (s.thread.Sleeps → s.notified = false → s.Rested) ∧ s.Accounted ∧
      ∀ event s', s.Fair con event → s.Next con event s' → s.Moves event s' := by
  have hinvariant : s.Orderly con ∧ s.Accounted := by
    refine h.invariant (I := fun s => s.Orderly con ∧ s.Accounted)
      ⟨⟨.nil, trivial⟩, .refl _⟩ ?_
    rintro s event _ ⟨horderly, haccounted⟩ ⟨hfair, rfl⟩
    exact ⟨horderly.step hfair, (kept horderly haccounted hfair).1⟩
  refine ⟨hinvariant.1.rested, hinvariant.2, ?_⟩
  rintro event _ hfair rfl
  exact (kept hinvariant.1 hinvariant.2 hfair).2

/-! ### Runs -/

/-- A line that takes characters up to Enter. -/
def lineOfCharacters : Editor (List UInt16 × Cooked) Unit where
  new initial _ _ _ _ := (initial, .accumulating)
  state := Prod.snd
  hasPopup _ := false
  controlKeyState _ := 0
  takeBuffer := Prod.fst
  handlePopup _ _ _ _ _ line editing := (line, editing, false)
  handleChar _ _ ch _ line editing :=
    (if ch = 13 then (line.1, .doneWithCarriageReturn) else (line.1 ++ [ch], line.2), editing, false)
  handleVkey _ _ _ _ line editing := (line, editing, false)
  clearCmd := id
  redisplay _ _ _ _ line := (line, true)
  completeWakeup := id
  addHistory _ _ editing := editing
  expand _ _ _ := none
  state_redisplay _ _ _ _ _ := rfl
  state_completeWakeup _ := rfl

/-- Shift and A, as one write in win32-input-mode. -/
def shifted : List UInt8 :=
  "\x1b[16;42;0;1;16;1_\x1b[65;30;65;1;16;1_".toList.map fun c => UInt8.ofNat c.toNat

def host : Host Unit (List UInt16 × Cooked) Unit where
  platform := ⟨0x0332, fun _ text => text.map UInt16.toUInt8⟩
  editor := lineOfCharacters
  decode _ bytes _ :=
    if bytes = shifted then ([.key (record 16 42 0 1 16 1), .key (record 65 30 65 1 16 1)], ())
    else if bytes = [13] then ([.records [record 13 28 13 1 0 1, record 13 28 13 0 0 1]], ())
    else ([], ())

/-- A read by the one process on its one handle. -/
def aRead (id : ℕ) (records nowait : Bool) (flags : nowait = true → records = true) :
    Request (List UInt16 × Cooked) where
  id := id
  process := 1
  object := 2
  capacity := 40
  records := records
  unicode := true
  peek := nowait
  nowait := nowait
  exe := []
  initial := []
  wakeupMask := 0
  controlZ := false
  cooked := none
  controlKeyState := 0
  waited := false
  flags := flags

/-- A screen at its first place, and a driver that takes what it is given. -/
def answers : Answer := ⟨.ok ((80, 24), (0, 0)), none, true⟩

def isAsleep (s : Input D C E) : Bool :=
  match s.thread with
  | .asleep => !s.notified
  | .behind _ => !s.notified
  | _ => false

theorem sleeps_of_isAsleep (h : s.isAsleep = true) : s.thread.Sleeps ∧ s.notified = false := by
  rw [isAsleep] at h
  split at h
  next hthread => exact ⟨by rw [hthread]; trivial, by simpa using h⟩
  next hthread => exact ⟨by rw [hthread]; trivial, by simpa using h⟩
  next => cases h

/-- Only reads of the queue come, only while the thread sleeps, and every line is done. -/
def calm (con : Host D C E) (s : Input D C E) : Event C E → Bool
  | .request r => !r.nowait && (s.pending r.object).isNone
  | .resize _ _ => false
  | .inject _ _ => false
  | .write _ sent => sent && s.isAsleep
  | .advance answer =>
    match s.thread with
    | .looking _ mode => enabled mode ENABLE_LINE_INPUT
    | .feeding r line mode records => con.editor.isDone (s.fedLine con r line mode records).1.1
    | .finishing r line mode => (s.splitLine con r line mode).2.1.isEmpty
    | .completing _ _ => answer.transferred
    | _ => true
  | _ => true

theorem fair_of_calm (h : s.calm con event = true) : s.Fair con event := by
  cases event with
  | request r =>
    simp only [calm, Bool.and_eq_true, Bool.not_eq_true', Option.isNone_iff_eq_none] at h
    rintro (hnowait | ⟨-, howed⟩)
    · exact nomatch h.1.symm.trans hnowait
    · simp [Request.kind, h.2] at howed
  | resize => simp [calm] at h
  | inject => simp [calm] at h
  | write bytes sent =>
    simp only [calm, Bool.and_eq_true] at h
    refine ⟨.inl fun hwaits => ?_, .inl h.1⟩
    have hsleeps := (sleeps_of_isAsleep h.2).1
    cases hthread : s.thread <;> simp [hthread, Phase.Sleeps, Phase.WouldWait] at hsleeps hwaits
  | advance answer =>
    have hadvances : s.Advances con answer := by
      rw [calm] at h
      rw [Advances]
      cases hthread : s.thread with
      | looking r mode =>
        rw [hthread] at h
        exact .inl h
      | feeding r line mode records =>
        rw [hthread] at h
        exact .inl ((con.editor.isDone_feed_iff ..).mp h)
      | finishing r line mode =>
        rw [hthread] at h
        exact .inl (List.isEmpty_iff.mp h)
      | completing r outcome =>
        rw [hthread] at h
        exact fun _ => .inl h
      | _ => trivial
    exact hadvances
  | _ => trivial

/-- A cooked read waits, Enter is typed, and the read completes. -/
def entering : List (Event (List UInt16 × Cooked) Unit) :=
  [.connected 1, .objectOpened 2, .request (aRead 7 false false (by simp)), .advance answers,
    .write [13] true] ++ List.replicate 11 (.advance answers)

theorem served_of_fair_entering : ∃ s : Input Unit (List UInt16 × Cooked) Unit,
    Run (Meeting (Fair host) (Next host)) (new () ()) entering s ∧
      s.completed = [(7, .text [13, 0, 10, 0] 0)] ∧ s.Rested ∧ s.Accounted ∧
      s.Moves (.advance answers) (s.step host (.advance answers)) := by
  obtain ⟨s, hrun, hcompleted, hasleep, hcalm⟩ := exists_run_of_foldlM
    (f := fun s event => if s.calm host event then some (s.step host event) else none)
    (P := fun s : Input Unit (List UInt16 × Cooked) Unit =>
      s.completed = [(7, .text [13, 0, 10, 0] 0)] ∧ s.isAsleep = true ∧
        s.calm host (.advance answers) = true)
    entering (s := new () ()) (by decide +kernel)
  have hrun' : Run (Meeting (Fair host) (Next host)) (new () ()) entering s :=
    hrun.mono fun s event s' h => by
      split_ifs at h with hcalm
      exact ⟨fair_of_calm hcalm, Option.some.inj h⟩
  obtain ⟨hrested, haccounted, hmoves⟩ := served_of_fair host () () hrun'
  obtain ⟨hsleeps, hnotified⟩ := sleeps_of_isAsleep hasleep
  exact ⟨s, hrun', hcompleted, hrested hsleeps hnotified, haccounted,
    hmoves _ _ (fair_of_calm hcalm) rfl⟩

/-- A raw read waits, and Shift and A are pressed at once. -/
def shifting : List (Event (List UInt16 × Cooked) Unit) :=
  [.connected 1, .objectOpened 2, .setMode 0x1f0, .request (aRead 7 false false (by simp)),
    .advance answers, .write shifted true] ++ List.replicate 6 (.advance answers)

/-- A cooked read waits, and a read comes that does not. -/
def peeking : List (Event (List UInt16 × Cooked) Unit) :=
  [.connected 1, .objectOpened 2, .request (aRead 7 false false (by simp)), .advance answers,
    .request (aRead 8 true true (by simp)), .advance answers]

/-- A raw read sleeps on a key that it has not looked at, and a read that does not wait sleeps
behind one that does. -/
theorem asleep :
    (∃ s : Input Unit (List UInt16 × Cooked) Unit, Run (Next host) (new () ()) shifting s ∧
      s.thread.Sleeps ∧ s.notified = false ∧ s.requests.map Request.id = [7] ∧
      s.records = [record 65 30 65 1 16 1]) ∧
    ∃ s : Input Unit (List UInt16 × Cooked) Unit, Run (Next host) (new () ()) peeking s ∧
      s.thread.Sleeps ∧ s.notified = false ∧ s.requests.map Request.id = [7, 8] ∧
      s.requests.map Request.nowait = [false, true] := by
  have hnext (s s' : Input Unit (List UInt16 × Cooked) Unit)
      (event : Event (List UInt16 × Cooked) Unit)
      (h : some (s.step host event) = some s') : s.Next host event s' := Option.some.inj h
  constructor
  · obtain ⟨s, hrun, hasleep, hrequests, hrecords⟩ := exists_run_of_foldlM
      (f := fun s event => some (s.step host event))
      (P := fun s : Input Unit (List UInt16 × Cooked) Unit => s.isAsleep = true ∧
        s.requests.map Request.id = [7] ∧ s.records = [record 65 30 65 1 16 1])
      shifting (s := new () ()) (by decide +kernel)
    obtain ⟨hsleeps, hnotified⟩ := sleeps_of_isAsleep hasleep
    exact ⟨s, hrun.mono fun s event s' => hnext s s' event, hsleeps, hnotified, hrequests, hrecords⟩
  · obtain ⟨s, hrun, hasleep, hrequests, hnowait⟩ := exists_run_of_foldlM
      (f := fun s event => some (s.step host event))
      (P := fun s : Input Unit (List UInt16 × Cooked) Unit => s.isAsleep = true ∧
        s.requests.map Request.id = [7, 8] ∧ s.requests.map Request.nowait = [false, true])
      peeking (s := new () ()) (by decide +kernel)
    obtain ⟨hsleeps, hnotified⟩ := sleeps_of_isAsleep hasleep
    exact ⟨s, hrun.mono fun s event s' => hnext s s' event, hsleeps, hnotified, hrequests, hnowait⟩

end Input

end Zetta.Console.Reads
