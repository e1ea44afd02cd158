import Zetta.Lib.Run
import Zetta.Lib.Timers
import Zetta.Moshcatty.Outbound

/-!
# The deadline and what is due

A session sleeps until `nextDeadline` and then calls `tick`, each of which works out on its own
what is due. Both look at the same timers: the pacing of a state that has not been sent, the
retransmission of each state that has, the heartbeat, and the delayed acknowledgement.

* `timers` are those of a transport that is not shutting down. Their earliest deadline is what
  `nextDeadline` returns, and `tick` sends when one of them is due (`tickDue_iff`).
* All of them stay due but the retransmission: a state is retried at `rto + ACK_DELAY` as long as
  the peer's last state is younger than `ACTIVE_RETRY_TIMEOUT`, and at `HEARTBEAT_INTERVAL` from
  then on. A retransmission that has come due on the short interval and is not made before the
  peer has gone quiet is not due any more, while its deadline is in the past (`Overlooked`).
* `exact_iff`: in every state that a transport reaches, nothing is due before the deadline, and
  something is due at the first instant that is not before it, unless only a retransmission that
  has been overlooked has run out.
* `advances_run`: whatever the peer sends, no number goes back.
-/

namespace Zetta.Moshcatty

open List

namespace Wire

/-- What comes of an instruction that is to be sent. -/
def outcome (wire : Wire) (ti : Instruction) : Transport.TickResult :=
  if wire.tooLarge ti then .tooLarge else if wire.exhausted ti then .exhausted else .sent ti

end Wire

namespace Transport

/-! ### What is claimed of a deadline -/

variable (t : Transport)

/-- Now `tick` sends nothing: it only drops states that have not been sent. -/
def Rests (wire : Wire) (now : ℕ) : Prop :=
  ∃ outboundStates : List OutboundState,
    t.tick wire now = (.idle, { t with outboundStates }) ∧
      outboundStates.filter (fun state => state.lastSent.isSome) =
        t.outboundStates.filter fun state => state.lastSent.isSome

/-- Now `tick` has an instruction to send. -/
def Acts (wire : Wire) (now : ℕ) : Prop :=
  ∃ ti, (t.tick wire now).1 = wire.outcome ti

/-- The deadline given at `now` is that of `tick`: `tick` rests before it, and acts at the first
instant from `now` on that is not before it. -/
def DeadlineExact (now : ℕ) : Prop :=
  ∀ wire, match t.nextDeadline now with
    | some deadline =>
      (∀ at', now ≤ at' → at' < deadline → t.Rests wire at') ∧ t.Acts wire (max now deadline)
    | none => ∀ at', now ≤ at' → t.Rests wire at'

/-- A retransmission came due while the peer was still heard from, and was not made before it was
not heard from any more: it is put off until the heartbeat. -/
def Overlooked (now : ℕ) : Prop :=
  ∃ state ∈ t.outboundStates, ∃ sent, state.lastSent = some sent ∧
    sent + t.rto + ACK_DELAY < t.lastRemoteState + ACTIVE_RETRY_TIMEOUT ∧
    t.lastRemoteState + ACTIVE_RETRY_TIMEOUT ≤ now ∧ now < sent + HEARTBEAT_INTERVAL

/-- Another timer has run out. -/
inductive OtherwiseDue (t : Transport) (now : ℕ) : Prop
  | forced : t.forceSend = true → OtherwiseDue t now
  | shutdownAck : t.ackChanged = true → t.ackNum = MAX → OtherwiseDue t now
  | unsent {state : OutboundState} : state ∈ t.outboundStates → state.lastSent = none →
      (t.pacingEnabled = false ∨ t.allowImmediateNewState = true ∨
        t.lastSend + t.sendInterval ≤ now) → OtherwiseDue t now
  | retransmission {state : OutboundState} {sent : ℕ} : state ∈ t.outboundStates →
      state.lastSent = some sent → sent + HEARTBEAT_INTERVAL ≤ now → OtherwiseDue t now
  | heartbeat : t.outboundStates = [] ∨ t.ackChanged = true →
      t.lastSend + HEARTBEAT_INTERVAL ≤ now → OtherwiseDue t now
  | delayedAck {since : ℕ} : t.pendingDataAck = true → t.pendingAckSince = some since →
      since + ACK_DELAY ≤ now → OtherwiseDue t now

/-! ### The timers -/

/-- The retransmission of a state sent at `sent`. -/
def retransmission (sent : ℕ) : Timer where
  deadline := t.retransmitDeadline sent
  closes := t.lastRemoteState + ACTIVE_RETRY_TIMEOUT
  reopens :=
    if sent + t.rto + ACK_DELAY < t.lastRemoteState + ACTIVE_RETRY_TIMEOUT then
      sent + HEARTBEAT_INTERVAL
    else 0
  due_first := by
    rw [retransmitDeadline]
    split_ifs with hactive
    · exact .inl hactive
    · exact .inr (Nat.zero_le _)

/-- When a state that has not been sent may go, as asked at `now`. -/
def unsentDeadline (now : ℕ) : ℕ :=
  if !t.pacingEnabled || t.allowImmediateNewState then now else t.lastSend + t.sendInterval

/-- The timers of a transport that is not shutting down. -/
def timers (now : ℕ) : List Timer :=
  (if t.outboundStates.any fun state => state.lastSent.isNone then
    [.plain (t.unsentDeadline now)] else []) ++
  (t.outboundStates.filterMap OutboundState.lastSent).map t.retransmission ++
  (if t.outboundStates.isEmpty || t.ackChanged then
    [.plain (t.lastSend + HEARTBEAT_INTERVAL)] else []) ++
  (if t.pendingDataAck then
    (t.pendingAckSince.map fun since => Timer.plain (since + ACK_DELAY)).toList else [])

theorem deadlines_eq (now : ℕ) : t.deadlines now = (t.timers now).map Timer.deadline := by
  have hretransmission : Timer.deadline ∘ t.retransmission = t.retransmitDeadline := by
    funext sent
    rw [Function.comp_apply, retransmission]
  have hack : Timer.deadline ∘ (fun since => Timer.plain (since + ACK_DELAY)) =
      fun since => since + ACK_DELAY := by
    funext since
    rw [Function.comp_apply, Timer.plain_deadline]
  rw [deadlines, timers]
  simp only [map_append, map_map, apply_ite (List.map Timer.deadline), map_nil,
    map_singleton, Timer.plain_deadline, Option.toList_map, unsentDeadline, hretransmission,
    hack]

variable {t}

theorem nextDeadline_eq (h : t.shutdownInProgress = false) (now : ℕ) :
    t.nextDeadline now =
      if t.forceSend || t.urgentShutdownAck then some now else Timer.next (t.timers now) := by
  rw [nextDeadline, if_neg (by simp [h]), deadlines_eq]
  rfl

/-! ### What is due -/

theorem sendInterval_pos (t : Transport) : 0 < t.sendInterval :=
  Nat.mul_pos (by omega) (by decide)

variable {now at' : ℕ}

theorem unsentDue_iff (t : Transport) (h : now ≤ at') :
    t.unsentDue at' = true ↔
      (t.outboundStates.any fun state => state.lastSent.isNone) = true ∧
        t.unsentDeadline now ≤ at' := by
  have hpos := t.sendInterval_pos
  rw [unsentDue, unsentIndex, findIdx?_isSome, Bool.and_eq_true, unsentDeadline]
  refine and_congr_right fun _ => ?_
  cases t.pacingEnabled <;> cases t.allowImmediateNewState <;> simp <;> omega

theorem isSome_rposition {α : Type} (p : α → Bool) (xs : List α) :
    (rposition p xs).isSome = xs.any p := by
  rw [rposition, Option.isSome_map, findIdx?_isSome, any_reverse]

/-- A state is retransmitted when its timer is due. -/
theorem due_retransmission_iff (t : Transport) (sent now : ℕ) :
    (t.retransmission sent).Due now ↔ t.retransmitAfter now ≤ now - sent := by
  have hdelay : 0 < ACK_DELAY := by decide
  have hheartbeat : 0 < HEARTBEAT_INTERVAL := by decide
  have hactive : 0 < ACTIVE_RETRY_TIMEOUT := by decide
  rw [Timer.Due, retransmission, retransmitAfter]
  dsimp only
  rw [retransmitDeadline]
  split_ifs <;> omega

theorem retransmitIndex_iff (t : Transport) (now : ℕ) :
    (t.retransmitIndex now).isSome = true ↔
      ∃ sent ∈ t.outboundStates.filterMap OutboundState.lastSent,
        (t.retransmission sent).Due now := by
  rw [retransmitIndex, isSome_rposition, any_eq_true]
  simp only [mem_filterMap, due_retransmission_iff, Option.any_eq_true, decide_eq_true_iff]
  constructor
  · rintro ⟨state, hmem, sent, hsent, hdue⟩
    exact ⟨sent, ⟨state, hmem, hsent⟩, hdue⟩
  · rintro ⟨sent, ⟨state, hmem, hsent⟩, hdue⟩
    exact ⟨state, hmem, sent, hsent, hdue⟩

theorem heartbeat_iff (t : Transport) (now : ℕ) :
    (t.heartbeatDue now || t.periodicAckDue now) = true ↔
      (t.outboundStates.isEmpty || t.ackChanged) = true ∧
        t.lastSend + HEARTBEAT_INTERVAL ≤ now := by
  have hpos : 0 < HEARTBEAT_INTERVAL := by decide
  rw [heartbeatDue, periodicAckDue, ← Bool.and_or_distrib_right, Bool.and_eq_true,
    decide_eq_true_iff]
  refine and_congr_right fun _ => ?_
  omega

theorem delayedAckDue_iff (t : Transport) (now : ℕ) :
    t.delayedAckDue now = true ↔
      t.pendingDataAck = true ∧ ∃ since, t.pendingAckSince = some since ∧ since + ACK_DELAY ≤ now := by
  have hpos : 0 < ACK_DELAY := by decide
  rw [delayedAckDue, Bool.and_eq_true, Option.any_eq_true]
  refine and_congr_right fun _ => exists_congr fun since => and_congr_right fun _ => ?_
  rw [decide_eq_true_iff]
  omega

/-- One of the timers meets a condition. -/
theorem exists_timers_iff (t : Transport) (now : ℕ) (P : Timer → Prop) :
    (∃ timer ∈ t.timers now, P timer) ↔
      ((t.outboundStates.any fun state => state.lastSent.isNone) = true ∧
        P (.plain (t.unsentDeadline now))) ∨
      (∃ sent ∈ t.outboundStates.filterMap OutboundState.lastSent, P (t.retransmission sent)) ∨
      ((t.outboundStates.isEmpty || t.ackChanged) = true ∧
        P (.plain (t.lastSend + HEARTBEAT_INTERVAL))) ∨
      (t.pendingDataAck = true ∧
        ∃ since, t.pendingAckSince = some since ∧ P (.plain (since + ACK_DELAY))) := by
  have hone (c : Bool) (timers : List Timer) :
      (∃ timer ∈ (if c then timers else []), P timer) ↔ c = true ∧ ∃ timer ∈ timers, P timer := by
    cases c <;> simp
  have hsome (timers : Option Timer) :
      (∃ timer ∈ timers.toList, P timer) ↔ ∃ timer, timers = some timer ∧ P timer := by
    simp only [Option.mem_toList]
  rw [timers]
  simp only [mem_append, or_and_right, exists_or, hone, hsome, or_assoc]
  simp only [mem_singleton, exists_eq_left, mem_map, Option.map_eq_some_iff]
  simp only [exists_exists_and_eq_and]

/-- **What is due**: `tick` sends when something is forced or one of the timers is due. -/
theorem tickDue_iff (h : t.shutdownInProgress = false) (hle : now ≤ at') :
    t.tickDue at' = true ↔
      (t.forceSend || t.urgentShutdownAck) = true ∨ ∃ timer ∈ t.timers now, timer.Due at' := by
  have hshutdown : t.shutdownDue at' = false := by simp [shutdownDue, h]
  rw [exists_timers_iff]
  simp only [Timer.due_plain]
  rw [← unsentDue_iff t hle, ← retransmitIndex_iff, ← heartbeat_iff, ← delayedAckDue_iff, tickDue,
    ackDue, hshutdown, h]
  simp only [Bool.or_eq_true, Bool.and_true, Bool.or_false, Bool.not_false]
  tauto

/-! ### Dropping stale states -/

/-- Only states that have not been sent are dropped, and the newest of these is not. -/
theorem dropStaleUnsent_eq (t : Transport) :
    ∃ outboundStates : List OutboundState,
      t.dropStaleUnsent = { t with outboundStates } ∧
        outboundStates.filter (fun state => state.lastSent.isSome) =
          t.outboundStates.filter (fun state => state.lastSent.isSome) ∧
        (outboundStates.any fun state => state.lastSent.isNone) =
          t.outboundStates.any fun state => state.lastSent.isNone := by
  rw [dropStaleUnsent]
  cases hlast : (t.outboundStates.filter fun state => state.lastSent.isNone).getLast? with
  | none => exact ⟨t.outboundStates, rfl, rfl, rfl⟩
  | some latest =>
    refine ⟨_, rfl, ?_, ?_⟩
    · rw [filter_filter]
      refine filter_congr fun state _ => ?_
      cases state.lastSent <;> simp
    · obtain ⟨hmem, hunsent⟩ := mem_filter.mp (mem_of_getLast? hlast)
      rw [any_eq_true.mpr ⟨latest, hmem, hunsent⟩, any_eq_true]
      exact ⟨latest, mem_filter.mpr ⟨hmem, by simp⟩, hunsent⟩

variable (states : List OutboundState)

private theorem filterMap_lastSent :
    states.filterMap OutboundState.lastSent =
      (states.filter fun state => state.lastSent.isSome).filterMap OutboundState.lastSent := by
  rw [filterMap_filter]
  refine filterMap_congr fun state _ => ?_
  cases state.lastSent <;> rfl

private theorem isEmpty_iff :
    states.isEmpty = ((states.filter fun state => state.lastSent.isSome).isEmpty &&
      !states.any fun state => state.lastSent.isNone) := by
  cases states with
  | nil => rfl
  | cons state states => cases hsent : state.lastSent <;> simp [hsent]

/-- The timers do not depend on the states that are dropped. -/
theorem timers_dropStaleUnsent (t : Transport) (now : ℕ) :
    t.dropStaleUnsent.timers now = t.timers now := by
  obtain ⟨outboundStates, hdrop, hsent, hunsent⟩ := t.dropStaleUnsent_eq
  have hempty : outboundStates.isEmpty = t.outboundStates.isEmpty := by
    rw [isEmpty_iff, isEmpty_iff t.outboundStates, hsent, hunsent]
  rw [hdrop, timers, timers, filterMap_lastSent, filterMap_lastSent t.outboundStates]
  dsimp only
  rw [hsent, hunsent, hempty]
  rfl

theorem dropped_tickDue_iff (h : t.shutdownInProgress = false) (hle : now ≤ at') :
    t.dropStaleUnsent.tickDue at' = true ↔
      (t.forceSend || t.urgentShutdownAck) = true ∨ ∃ timer ∈ t.timers now, timer.Due at' := by
  obtain ⟨outboundStates, hdrop, -⟩ := t.dropStaleUnsent_eq
  have hrun : t.dropStaleUnsent.shutdownInProgress = false := by rw [hdrop]; exact h
  rw [tickDue_iff hrun hle, timers_dropStaleUnsent, hdrop]
  rfl

/-! ### What `tick` does of it -/

theorem rests_of_not_due (h : t.dropStaleUnsent.tickDue now ≠ true) (wire : Wire) :
    t.Rests wire now := by
  obtain ⟨outboundStates, hdrop, hsent, -⟩ := t.dropStaleUnsent_eq
  exact ⟨outboundStates, by rw [tick_eq, if_neg h, hdrop], hsent⟩

theorem acts_iff (t : Transport) (wire : Wire) (now : ℕ) :
    t.Acts wire now ↔ t.dropStaleUnsent.tickDue now = true := by
  rw [Acts, tick_eq]
  by_cases hdue : t.dropStaleUnsent.tickDue now = true
  · refine iff_of_true ⟨({ (t.dropStaleUnsent.chooseSend now).2 with forceSend := false }.instruct
      (t.dropStaleUnsent.chooseSend now).1).1, ?_⟩ hdue
    rw [if_pos hdue, emit, transmit, Wire.outcome]
    split_ifs <;> rfl
  · refine iff_of_false ?_ hdue
    rintro ⟨ti, hti⟩
    rw [if_neg hdue, Wire.outcome] at hti
    split_ifs at hti

/-! ### What is overlooked -/

theorem missed_retransmission_iff (t : Transport) (sent now : ℕ) :
    (t.retransmission sent).Missed now ↔
      sent + t.rto + ACK_DELAY < t.lastRemoteState + ACTIVE_RETRY_TIMEOUT ∧
        t.lastRemoteState + ACTIVE_RETRY_TIMEOUT ≤ now ∧ now < sent + HEARTBEAT_INTERVAL := by
  rw [Timer.Missed, retransmission]
  dsimp only
  rw [retransmitDeadline]
  split_ifs <;> omega

/-- The only gap is that of a retransmission. -/
theorem overlooked_iff (t : Transport) (now : ℕ) :
    t.Overlooked now ↔ ∃ timer ∈ t.timers now, timer.Missed now := by
  rw [exists_timers_iff]
  simp only [Timer.not_missed_plain, and_false, false_or, or_false, exists_false,
    missed_retransmission_iff, mem_filterMap]
  constructor
  · rintro ⟨state, hmem, sent, hsent, hgap⟩
    exact ⟨sent, ⟨state, hmem, hsent⟩, hgap⟩
  · rintro ⟨sent, ⟨state, hmem, hsent⟩, hgap⟩
    exact ⟨state, hmem, sent, hsent, hgap⟩

/-- Once the peer is not heard from, what else is due is told without the short interval. -/
theorem otherwiseDue_iff (h : t.Overlooked now) :
    t.OtherwiseDue now ↔
      (t.forceSend || t.urgentShutdownAck) = true ∨ ∃ timer ∈ t.timers now, timer.Due now := by
  obtain ⟨-, -, -, -, -, hquiet, -⟩ := h
  have hpos : 0 < HEARTBEAT_INTERVAL := by decide
  have hafter : t.retransmitAfter now = HEARTBEAT_INTERVAL := if_neg (by omega)
  rw [exists_timers_iff]
  simp only [Timer.due_plain, due_retransmission_iff, hafter, any_eq_true,
    Option.isNone_iff_eq_none, mem_filterMap, Bool.or_eq_true, List.isEmpty_iff,
    urgentShutdownAck, Bool.and_eq_true, decide_eq_true_iff]
  constructor
  · rintro (hforced | ⟨hack, hmax⟩ | ⟨hmem, hunsent, hgo⟩ | ⟨hmem, hsent, hdue⟩ | ⟨hbeat, hdue⟩ |
      ⟨hack, hsince, hdue⟩)
    · exact .inl (.inl hforced)
    · exact .inl (.inr ⟨hack, hmax⟩)
    · refine .inr (.inl ⟨⟨_, hmem, hunsent⟩, ?_⟩)
      rw [unsentDeadline]
      rcases hgo with hpace | himmediate | hdue
      · simp [hpace]
      · simp [himmediate]
      · split_ifs
        · exact Nat.le_refl now
        · exact hdue
    · exact .inr (.inr (.inl ⟨_, ⟨_, hmem, hsent⟩, by omega⟩))
    · exact .inr (.inr (.inr (.inl ⟨hbeat, hdue⟩)))
    · exact .inr (.inr (.inr (.inr ⟨hack, _, hsince, hdue⟩)))
  · rintro ((hforced | ⟨hack, hmax⟩) | ⟨⟨state, hmem, hunsent⟩, hgo⟩ |
      ⟨sent, ⟨state, hmem, hsent⟩, hdue⟩ | ⟨hbeat, hdue⟩ | ⟨hack, since, hsince, hdue⟩)
    · exact .forced hforced
    · exact .shutdownAck hack hmax
    · refine .unsent hmem hunsent ?_
      rw [unsentDeadline] at hgo
      cases hpace : t.pacingEnabled with
      | false => exact .inl rfl
      | true =>
        cases himmediate : t.allowImmediateNewState with
        | true => exact .inr (.inl rfl)
        | false =>
          rw [hpace, himmediate] at hgo
          exact .inr (.inr hgo)
    · exact .retransmission hmem hsent (by omega)
    · exact .heartbeat hbeat hdue
    · exact .delayedAck hack hsince hdue

/-! ### The deadline -/

/-- The deadline of a transport that is not shutting down is exact, unless a retransmission has
been overlooked and nothing else is due. -/
theorem deadlineExact_iff (h : t.shutdownInProgress = false) (now : ℕ) :
    t.DeadlineExact now ↔ (t.Overlooked now → t.OtherwiseDue now) := by
  have hrests {at' : ℕ} (hle : now ≤ at') (hforced : (t.forceSend || t.urgentShutdownAck) ≠ true)
      (hnone : ∀ timer ∈ t.timers now, ¬ timer.Due at') (wire : Wire) : t.Rests wire at' := by
    refine rests_of_not_due (fun hdue => ?_) wire
    rcases (dropped_tickDue_iff h hle).mp hdue with hnow | ⟨timer, hmem, htimer⟩
    · exact hforced hnow
    · exact hnone timer hmem htimer
  rw [DeadlineExact, nextDeadline_eq h]
  by_cases hforced : (t.forceSend || t.urgentShutdownAck) = true
  · -- at once, and `tick` has something to send
    rw [if_pos hforced]
    refine iff_of_true (fun wire => ⟨fun at' hle hlt => absurd hle (by omega), ?_⟩) fun hgap => ?_
    · rw [acts_iff, dropped_tickDue_iff h (Nat.le_max_left now now)]
      exact .inl hforced
    · exact (otherwiseDue_iff hgap).mpr (.inl hforced)
  · rw [if_neg hforced]
    cases hnext : Timer.next (t.timers now) with
    | none =>
      have hnil := Timer.next_eq_none_iff.mp hnext
      refine iff_of_true (fun wire at' hle => hrests hle hforced (by simp [hnil]) wire) ?_
      rw [overlooked_iff, hnil]
      rintro ⟨timer, hmem, -⟩
      exact absurd hmem not_mem_nil
    | some deadline =>
      have hearly (wire : Wire) (at' : ℕ) (hle : now ≤ at') (hlt : at' < deadline) :
          t.Rests wire at' :=
        hrests hle hforced (Timer.not_due_of_lt_next hnext hlt) wire
      have hacts (wire : Wire) : t.Acts wire (max now deadline) ↔
          (t.Overlooked now → t.OtherwiseDue now) := by
        rw [acts_iff, dropped_tickDue_iff h (Nat.le_max_left now deadline), or_iff_right hforced,
          Timer.exists_due_iff hnext, ← overlooked_iff]
        refine forall_congr' fun hgap => ?_
        rw [otherwiseDue_iff hgap, or_iff_right hforced]
      constructor
      · intro hexact
        exact (hacts _).mp (hexact ⟨fun _ => false, fun _ => false⟩).2
      · intro hdue wire
        exact ⟨hearly wire, (hacts wire).mpr hdue⟩

/-! ### Runs -/

/-- What a session does with its transport until it shuts down. -/
inductive Call where
  | setPending (diff : List UInt8)
  | setPendingOn (oldNum : ℕ) (diff : List UInt8)
  /-- A datagram that opened: whether it was in order, the round trip its timestamp tells, and
  the instruction it completes. -/
  | receive (inOrder : Bool) (rttMs : Option ℕ) (ti : Option Instruction)
  | tick (wire : Wire)

/-- A datagram that opened. Timestamps and contact are taken from those in order only. -/
def receiveDatagram (t : Transport) (now : ℕ) (inOrder : Bool) (rttMs : Option ℕ)
    (ti : Option Instruction) : Transport :=
  let t := if inOrder then (rttMs.map (t.contact now).updateRtt).getD (t.contact now) else t
  (ti.map fun ti => (t.receive now ti).2).getD t

/-- One call, at a time. -/
def call (t : Transport) (now : ℕ) : Call → Transport
  | .setPending diff => (t.setPending diff).2
  | .setPendingOn oldNum diff => ((t.setPendingOn oldNum diff).map Prod.snd).getD t
  | .receive inOrder rttMs ti => t.receiveDatagram now inOrder rttMs ti
  | .tick wire => (t.tick wire now).2

/-- The calls of a session, each with its time. -/
def run (t : Transport) (calls : List (ℕ × Call)) : Transport :=
  calls.foldl (fun t c => t.call c.1 c.2) t

theorem shutdownInProgress_setPendingFrom (t : Transport) (oldNum : ℕ) (diff : List UInt8) :
    (t.setPendingFrom oldNum diff).2.shutdownInProgress = t.shutdownInProgress := by
  rw [setPendingFrom]
  split_ifs <;> rfl

theorem shutdownInProgress_call (t : Transport) (now : ℕ) (c : Call) :
    (t.call now c).shutdownInProgress = t.shutdownInProgress := by
  cases c with
  | setPending diff => exact t.shutdownInProgress_setPendingFrom _ diff
  | setPendingOn oldNum diff =>
    rw [call, setPendingOn]
    split_ifs
    · exact t.shutdownInProgress_setPendingFrom oldNum diff
    · rfl
  | receive inOrder rttMs ti =>
    have hcontact : (if inOrder then (rttMs.map (t.contact now).updateRtt).getD (t.contact now)
        else t).shutdownInProgress = t.shutdownInProgress := by
      split_ifs
      · cases rttMs with
        | none => rfl
        | some ms =>
          rw [Option.map_some, Option.getD_some, updateRtt]
          split_ifs <;> rfl
      · rfl
    cases ti with
    | none => exact hcontact
    | some ti => exact (receive_spec _ now ti).2.2.1.trans hcontact
  | tick wire =>
    rcases t.tick_cases wire now with ⟨-, htick⟩ | ⟨-, -, _, -, -, -, -, hshutdown⟩
    · rw [call, htick]
      exact t.keeps_dropStaleUnsent.shutdownInProgress
    · exact hshutdown

theorem shutdownInProgress_run (t : Transport) (calls : List (ℕ × Call)) :
    (t.run calls).shutdownInProgress = t.shutdownInProgress := by
  induction calls generalizing t with
  | nil => rfl
  | cons c calls ih => exact (ih _).trans (t.shutdownInProgress_call c.1 c.2)

/-- **The deadline of a session**, in every state that it reaches and whenever it is asked for:
`tick` sends nothing before it, and has something to send at the first instant that is not before
it, if and only if no retransmission has been overlooked or something else is due. -/
theorem exact_iff (isServer : Bool) (start : ℕ) (calls : List (ℕ × Call)) (now : ℕ) :
    ((new isServer start).run calls).DeadlineExact now ↔
      (((new isServer start).run calls).Overlooked now →
        ((new isServer start).run calls).OtherwiseDue now) :=
  deadlineExact_iff (shutdownInProgress_run _ calls) now

/-- A state sent 8.85 seconds after the peer's last one, and a clock that is next looked at 1.16
seconds later: the deadline is 60 ms ago, and `tick` has nothing to send for another 1.84
seconds. -/
theorem overlooked_retransmission :
    let session := (newServer 0).run
      [(millis 8850, .setPending [0]), (millis 8850, .tick ⟨fun _ => false, fun _ => false⟩)]
    session.nextDeadline (millis 10010) = some (millis 9950) ∧
      ¬ session.DeadlineExact (millis 10010) ∧
      ∀ wire now, millis 10010 ≤ now → now < millis 11850 →
        session.nextDeadline now = some (millis 9950) ∧ session.Rests wire now := by
  intro session
  have hsession : session = { newServer 0 with
      sentNum := 1
      outboundStates := [⟨0, 1, [0], some (millis 8850)⟩]
      sentStateTimes := [(0, 0), (1, millis 8850)]
      allowImmediateNewState := false
      lastSend := millis 8850 } := by
    decide +kernel
  have hrun : session.shutdownInProgress = false := by rw [hsession]; rfl
  have hforced : ¬ (session.forceSend || session.urgentShutdownAck) = true := by
    rw [hsession]
    decide
  have htimers (now : ℕ) : session.timers now = [session.retransmission (millis 8850)] := by
    rw [hsession]
    simp [timers, ackChanged, newServer, new]
  have hnext (now : ℕ) : session.nextDeadline now = some (millis 9950) := by
    rw [nextDeadline_eq hrun, if_neg hforced, htimers, hsession]
    decide +kernel
  have hrests : ∀ wire now, millis 10010 ≤ now → now < millis 11850 → session.Rests wire now := by
    intro wire now hle hlt
    refine rests_of_not_due (fun hdue => ?_) wire
    have hquiet : ¬ now - 0 < ACTIVE_RETRY_TIMEOUT := by
      have htimeout : ACTIVE_RETRY_TIMEOUT = 10000000000 := rfl
      simp only [millis] at hle
      omega
    have hafter : session.retransmitAfter now = HEARTBEAT_INTERVAL := by
      rw [hsession]
      exact if_neg hquiet
    rcases (dropped_tickDue_iff hrun (Nat.le_refl now)).mp hdue with hnow | ⟨timer, hmem, htimer⟩
    · exact hforced hnow
    · have hheartbeat : HEARTBEAT_INTERVAL = 3000000000 := rfl
      rw [htimers, mem_singleton] at hmem
      rw [hmem, due_retransmission_iff, hafter] at htimer
      simp only [millis] at htimer hlt
      omega
  refine ⟨hnext _, fun hexact => ?_, fun wire now hle hlt => ⟨hnext now, hrests wire now hle hlt⟩⟩
  -- at once, that is at 10.01 seconds, `tick` rests
  have hwire := hexact ⟨fun _ => false, fun _ => false⟩
  rw [hnext] at hwire
  obtain ⟨outboundStates, htick, -⟩ := hrests ⟨fun _ => false, fun _ => false⟩ (millis 10010)
    (Nat.le_refl _) (by decide)
  obtain ⟨ti, hacts⟩ := hwire.2
  rw [Nat.max_eq_left (by decide), htick] at hacts
  cases hacts

/-! ### The numbers of states -/

/-- The numbers of `t'` go on from those of `t`: none goes back, and what is acknowledged has been
given. -/
structure Advances (t t' : Transport) : Prop where
  sent : t.sentNum ≤ t'.sentNum ∧ t'.sentNum ≤ MAX
  acked : t.ackedByRemote ≤ t'.ackedByRemote ∧ t'.ackedByRemote ≤ t'.sentNum

theorem Chosen.le_sentNum {n : ℕ} {x : StateDiff} (h : Chosen t now x n)
    (hmax : t.sentNum ≤ MAX) : t.sentNum ≤ n ∧ n ≤ MAX := by
  cases h with
  | shutdown => exact ⟨hmax, le_rfl⟩
  | shutdownEmpty => exact ⟨hmax, le_rfl⟩
  | queued => exact ⟨le_rfl, hmax⟩
  | empty => exact ⟨le_min (Nat.le_succ _) hmax, min_le_right ..⟩

namespace Advances

variable {t₀ t' : Transport}

theorem next (h : t₀.Advances t) (hsent : t.sentNum ≤ t'.sentNum ∧ t'.sentNum ≤ MAX)
    (hacked : t'.ackedByRemote = t.ackedByRemote) : t₀.Advances t' :=
  ⟨⟨h.sent.1.trans hsent.1, hsent.2⟩, hacked ▸ ⟨h.acked.1, h.acked.2.trans hsent.1⟩⟩

theorem setPendingFrom (h : t₀.Advances t) (oldNum : ℕ) (diff : List UInt8) :
    t₀.Advances (t.setPendingFrom oldNum diff).2 := by
  rw [Transport.setPendingFrom]
  split_ifs
  · exact h
  · exact h.next ⟨le_min (Nat.le_succ _) h.sent.2, min_le_right ..⟩ rfl

theorem receive (h : t₀.Advances t) (now : ℕ) (ti : Instruction) :
    t₀.Advances (t.receive now ti).2 := by
  obtain ⟨-, hsent, -, hacked⟩ := t.receive_spec now ti
  refine ⟨hsent ▸ h.sent, hsent ▸ hacked ▸ ?_⟩
  rcases (t.processAck_spec ti.ackNum).2.2.2 with hsame | ⟨hnew, hlt, hle⟩
  · rw [hsame]
    exact h.acked
  · rw [hnew]
    exact ⟨h.acked.1.trans hlt.le, hle⟩

theorem call (h : t₀.Advances t) (now : ℕ) (c : Call) : t₀.Advances (t.call now c) := by
  cases c with
  | setPending diff => exact h.setPendingFrom _ diff
  | setPendingOn oldNum diff =>
    rw [Transport.call, setPendingOn]
    split_ifs
    · exact h.setPendingFrom oldNum diff
    · exact h
  | receive inOrder rttMs ti =>
    -- the timestamps change no number
    have hcontact : t₀.Advances (if inOrder then (rttMs.map (t.contact now).updateRtt).getD
        (t.contact now) else t) := by
      rcases rttMs with _ | ms <;> split_ifs
      · exact { h with }
      · exact h
      · rw [Option.map_some, Option.getD_some, updateRtt]
        split_ifs <;> exact { h with }
      · exact h
    cases ti with
    | none => exact hcontact
    | some ti => exact hcontact.receive now ti
  | tick wire =>
    have hkeeps := t.keeps_dropStaleUnsent
    rcases t.tick_cases wire now with ⟨-, htick⟩ | ⟨-, -, x, hchosen, -, -, hacked, -⟩
    · rw [Transport.call, htick]
      exact h.next ⟨hkeeps.sentNum.ge, hkeeps.sentNum.trans_le h.sent.2⟩ hkeeps.ackedByRemote
    · have hsent := hchosen.le_sentNum (hkeeps.sentNum ▸ h.sent.2)
      exact h.next (hkeeps.sentNum ▸ hsent) hacked

theorem run (h : t₀.Advances t) (calls : List (ℕ × Call)) : t₀.Advances (t.run calls) := by
  induction calls generalizing t with
  | nil => exact h
  | cons c calls ih => exact ih (h.call c.1 c.2)

end Advances

/-- **Whatever the peer sends**, the numbers go on: neither the last one given nor the acknowledged
one goes back, and what is acknowledged has been given. -/
theorem advances_run (isServer : Bool) (start : ℕ) (calls more : List (ℕ × Call)) :
    ((new isServer start).run calls).Advances (((new isServer start).run calls).run more) := by
  have hnew : (new isServer start).Advances (new isServer start) :=
    ⟨⟨le_rfl, Nat.zero_le _⟩, le_rfl, le_rfl⟩
  have h := hnew.run calls
  exact Advances.run ⟨⟨le_rfl, h.sent.2⟩, le_rfl, h.acked.2⟩ more

end Transport

end Zetta.Moshcatty
