import Zetta.Zosh.AgentReplies

/-!
# Agent forwarding delivers every record once

The way of the records (`RecordLink.Link`) and the local connections (`AgentForwarding.Replies`)
are put together over runs.

* `forwarded_of_run`: as long as `tick` sends a state of its own only where nothing is missing,
  every record is handed out once and every frame that is written to a local connection answers
  the request it is written for.
* `dropped_after_overflow`: a run of the program in which `tick` sends one where a record is
  missing, since the frame with it was dropped from the queue of the transport. The record is
  then dropped undelivered.
-/

namespace Zetta.Zosh

open Moshcatty MoshRs Server

namespace AgentForwarding

/-! ### One step -/

/-- **The condition**: a state without a frame of its own is sent only where nothing is missing
in the state it is built on; the counters are not used up and a frame is readable. -/
def NothingMissing (s : AgentForwarding) : ForwardingAction → Prop
  | .poll => s.agent.nextRecordId < MAX ∧ s.agent.nextConnectionId < MAX
  | .response .. => s.agent.nextRecordId < MAX
  | .frame base instructions queries =>
    ((∀ i ∈ instructions, i.Fits) ∧ (∀ q ∈ queries, q.id < 2 ^ 64) ∧
      (encodeHostMessageWithAgent instructions queries (s.agent.recordsAfter base)).length <
        2 ^ 64) ∧ s.transport.sentNum < MAX
  | .tick _ now => s.transport.SendsOwn now → s.LacksNothing
  | _ => True

instance (i : HostInstruction) : Decidable i.Fits := inferInstanceAs (Decidable (_ ∧ _ ∧ _))

instance (s : AgentForwarding) : (action : ForwardingAction) → Decidable (s.NothingMissing action)
  | .poll => inferInstanceAs (Decidable (_ ∧ _))
  | .response .. => inferInstanceAs (Decidable (_ < _))
  | .frame .. => inferInstanceAs (Decidable ((_ ∧ _ ∧ _) ∧ _))
  | .tick .. => inferInstanceAs (Decidable (_ → _))
  | .accept | .read .. | .readFails .. | .takeReply .. | .force | .updateRtt _
  | .startShutdown _ | .receive .. | .acknowledge | .deliver .. => inferInstanceAs (Decidable True)

/-- What holds between the steps of a run. -/
structure Sound (s : AgentForwarding) : Prop where
  link : s.Link
  replies : s.Replies

theorem sound_new (error : Option (List UInt8)) (now : ℕ) : (new error now).Sound :=
  ⟨RecordLink.link_new error now, replies_new error now⟩

variable {s t : AgentForwarding}

/-- Steps of a thread leave the records alone. -/
theorem toRecordLink_send {event : LocalEvent} (h : s.send event = .ok t) :
    t.toRecordLink = s.toRecordLink := by
  rw [send_ok h]

variable {c : ℕ}

theorem toRecordLink_read {frame : List UInt8} (h : s.read c frame = .ok t) :
    t.toRecordLink = s.toRecordLink := by
  rw [AgentForwarding.read] at h
  split at h
  · rw [send_ok h]
    rfl
  · cases h

theorem toRecordLink_takeReply {writes : Bool} (h : s.takeReply c writes = .ok t) :
    t.toRecordLink = s.toRecordLink := by
  rw [AgentForwarding.takeReply] at h
  split at h
  swap
  · cases h
  split at h
  · cases h
  dsimp only at h
  split at h
  · rw [send_ok h]
    rfl
  split at h
  · rw [← Except.ok.inj h]
    rfl
  · rw [send_ok h]
    rfl

/-- One local event changes the records as the server does. -/
theorem toRecordLink_pollEvent (h : s.pollEvent = .ok t) :
    ∃ event, t.toRecordLink = s.withAgent (s.agent.handle event).server := by
  rw [pollEvent] at h
  split at h
  · cases h
  next event events hevents =>
  refine ⟨event, ?_⟩
  simp only [applyStep_eq] at h
  split at h
  · rw [← Except.ok.inj h]
    split <;> rfl
  · rw [← Except.ok.inj h]
  · rw [← Except.ok.inj h]

theorem toRecordLink_response (s : AgentForwarding) (c request : ℕ) (frame : List UInt8)
    (closed : Bool) : ∃ receiving, (s.response c request frame closed).toRecordLink =
      s.withAgent (s.agent.applyResponse c request frame closed receiving).server := by
  refine ⟨decide (s.thread c = .reading ∨ s.thread c = .waiting), ?_⟩
  simp only [response, applyStep_eq]

/-- The steps of the transport leave the server alone. -/
private theorem Replies.setTransport (h : s.Replies) (t : Transport) :
    { s with toRecordLink := s.setTransport t }.Replies := h.congr rfl rfl rfl rfl

private theorem updateRtt_keeps (t : Transport) (rttMs : ℕ) :
    (t.updateRtt rttMs).queued = t.queued ∧ (t.updateRtt rttMs).sentNum = t.sentNum ∧
      (t.updateRtt rttMs).ackedByRemote = t.ackedByRemote := by
  simp only [Transport.updateRtt, Transport.queued]
  split_ifs <;> exact ⟨rfl, rfl, rfl⟩

/-- **One step** that meets the condition. -/
theorem Sound.step (h : s.Sound) {action : ForwardingAction} (hcondition : s.NothingMissing action)
    (hstep : s.step action = .ok t) : t.Sound := by
  obtain ⟨hlink, hreplies⟩ := h
  have hset : ∀ u : Transport, u.queued = s.transport.queued → u.sentNum = s.transport.sentNum →
      u.ackedByRemote = s.transport.ackedByRemote →
      ({ s with toRecordLink := s.setTransport u } : AgentForwarding).Sound := by
    intro u hq hn ha
    exact ⟨hlink.setTransport (hq ▸ List.Subset.refl _) hn.ge (hn.le.trans hlink.num_le)
      (ha ▸ hlink.acked) ha.ge, hreplies.setTransport u⟩
  cases action with
  | accept =>
    refine ⟨toRecordLink_send hstep ▸ hlink, ?_⟩
    rw [send_ok hstep]
    exact hreplies.setEvents fun c => by simp [List.countP_append, IsRequest]
  | read c frame => exact ⟨toRecordLink_read hstep ▸ hlink, hreplies.read hstep⟩
  | readFails c error =>
    simp only [AgentForwarding.step] at hstep
    split at hstep
    swap
    · cases hstep
    next hreading =>
    have hnone : s.underWay c = 0 := by
      have := hreplies.underWay_le c
      rw [if_neg (by simp [hreading])] at this
      omega
    refine ⟨toRecordLink_send hstep ▸ hlink, ?_⟩
    rw [send_ok hstep]
    exact (hreplies.stop hnone (by simp [hreading])).setEvents
      fun c' => by simp [setThread, List.countP_append, IsRequest]
  | takeReply c writes =>
    exact ⟨toRecordLink_takeReply hstep ▸ hlink, hreplies.takeReply hstep⟩
  | poll =>
    obtain ⟨event, hrecords⟩ := toRecordLink_pollEvent hstep
    obtain ⟨hids, hone⟩ := AgentServer.handle_spec hlink.ids event
    exact ⟨hrecords ▸ hlink.withAgent hids hone hcondition.1,
      hreplies.pollEvent hlink.ids hcondition.1 hcondition.2 hstep⟩
  | response c request frame closed =>
    rw [← Except.ok.inj hstep]
    obtain ⟨receiving, hrecords⟩ := s.toRecordLink_response c request frame closed
    obtain ⟨hids, hone⟩ := AgentServer.applyResponse_spec hlink.ids c request frame closed receiving
    exact ⟨hrecords ▸ hlink.withAgent hids hone hcondition, hreplies.response c request frame closed⟩
  | frame base instructions queries =>
    rw [← Except.ok.inj hstep]
    obtain ⟨⟨hinstructions, hqueries, hlength⟩, hleft⟩ := hcondition
    refine ⟨hlink.frame ⟨hinstructions, hqueries, hlength⟩ hleft, ?_⟩
    have hagent : ∀ n, (s.agent.snapshotForState n).outstanding = s.agent.outstanding ∧
        (s.agent.snapshotForState n).nextConnectionId = s.agent.nextConnectionId ∧
        (s.agent.snapshotForState n).nextRecordId = s.agent.nextRecordId := fun n => by
      rw [AgentServer.snapshotForState]
      split <;> exact ⟨rfl, rfl, rfl⟩
    simp only [RecordLink.frame]
    split
    · exact hreplies
    split
    · next n u _ =>
      obtain ⟨hout, hconnection, hrecord⟩ := hagent n
      exact hreplies.congr hout hconnection hrecord rfl
    · exact hreplies
  | tick wire now =>
    rw [← Except.ok.inj hstep]
    exact ⟨hlink.tick wire now hcondition, hreplies.congr rfl rfl rfl rfl⟩
  | force =>
    rw [← Except.ok.inj hstep]
    exact hset _ rfl rfl rfl
  | updateRtt rttMs =>
    rw [← Except.ok.inj hstep]
    obtain ⟨hq, hn, ha⟩ := updateRtt_keeps s.transport rttMs
    exact hset _ hq hn ha
  | startShutdown now =>
    rw [← Except.ok.inj hstep]
    obtain ⟨hq, hn, ha⟩ := s.transport.keeps_startShutdown now
    exact hset _ hq hn ha
  | receive now ti =>
    simp only [AgentForwarding.step] at hstep
    split at hstep
    swap
    · cases hstep
    next hack =>
    rw [← Except.ok.inj hstep]
    exact ⟨hlink.receive now hack, hreplies.setTransport _⟩
  | acknowledge =>
    rw [← Except.ok.inj hstep]
    have hagent : (s.agent.acknowledge s.transport.ackedByRemote).outstanding =
          s.agent.outstanding ∧
        (s.agent.acknowledge s.transport.ackedByRemote).nextConnectionId =
          s.agent.nextConnectionId ∧
        (s.agent.acknowledge s.transport.ackedByRemote).nextRecordId = s.agent.nextRecordId := by
      rw [AgentServer.acknowledge]
      split <;> exact ⟨rfl, rfl, rfl⟩
    exact ⟨hlink.acknowledge, hreplies.congr hagent.1 hagent.2.1 hagent.2.2 rfl⟩
  | deliver now index =>
    simp only [AgentForwarding.step] at hstep
    split at hstep
    swap
    · cases hstep
    next ti hti =>
    rw [← Except.ok.inj hstep]
    refine ⟨hlink.deliver now (List.mem_of_getElem? hti), ?_⟩
    have hsame : (s.deliver now ti).agent = s.agent ∧ (s.deliver now ti).queued = s.queued := by
      rw [RecordLink.deliver]
      dsimp only
      split <;> exact ⟨rfl, rfl⟩
    exact hreplies.congr (by rw [hsame.1]) (by rw [hsame.1]) (by rw [hsame.1]) hsame.2

/-! ### Every run -/

/-- **Every reply reaches the request it answers**: a request of a connection is one record, a
record is one request, a response is taken once, and what a connection has been written for its
request is the response to the record of this request; a response that no request waits for is
written nowhere. -/
structure Answered (s : AgentForwarding) : Prop where
  numbered_queued : ∀ x ∈ s.numbered, ∃ frame, (x.2, .request x.2 x.1.1 frame) ∈ s.queued
  numbered_keys : (s.numbered.map Prod.fst).Nodup
  numbered_ids : (s.numbered.map Prod.snd).Nodup
  answered_once : (s.answered.map Prod.fst).Nodup
  written_once : (s.written.map Prod.fst).Nodup
  written : ∀ x ∈ s.written, ∃ id,
    (x.1, id) ∈ s.numbered ∧ ((x.1.1, id), x.2) ∈ s.answered
  ignored : ∀ c request frame closed, (c, request) ∉ s.agent.outstanding →
    s.response c request frame closed = s

/-- A response that no request waits for changes nothing. -/
theorem response_ignored {request : ℕ} (h : (c, request) ∉ s.agent.outstanding) (frame : List UInt8)
    (closed : Bool) :
    s.response c request frame closed = s := by
  have hstep : s.agent.applyResponse c request frame closed
      (decide (s.thread c = .reading ∨ s.thread c = .waiting)) = ⟨false, s.agent, []⟩ := if_pos h
  rw [response]
  simp only [hstep, if_neg (any_eq_key.not.mpr h), applyStep_eq, RecordLink.withAgent, List.drop_length,
    List.append_nil, replyFor, List.find?_nil, Option.map_none, Option.or_none]

theorem Replies.answered (h : s.Replies) : s.Answered where
  numbered_queued := h.numbered_queued
  numbered_keys := h.numbered_nodup
  numbered_ids := h.numbered_ids
  answered_once := h.answered_nodup
  written_once := h.written_nodup
  written := h.written_answered
  ignored _ _ frame closed hout := response_ignored hout frame closed

/-- **Agent forwarding delivers every record once**, in every run that meets the condition. -/
theorem forwarded_of_run {error : Option (List UInt8)} {now : ℕ}
    {actions : List ForwardingAction} {s : AgentForwarding}
    (hrun : Run (Meeting NothingMissing (Succeeds step)) (new error now) actions s) :
    s.HandedOnce ∧ s.Answered := by
  have hsound := hrun.invariant (I := Sound) (sound_new error now)
    fun _ _ _ h hstep => h.step hstep.1 hstep.2
  exact ⟨hsound.link.handedOnce, hsound.replies.answered⟩

/-- A session in which a local program asks for its keys and gets the answer. -/
def answeredActions : List ForwardingAction :=
  [.accept, .poll, .read 1 [0, 0, 0, 1, 11], .poll, .frame none [{ hoststring := [0x61] }] [],
    .tick ⟨fun _ => false, fun _ => false⟩ 0, .deliver 0 0, .receive 0 ⟨0, 1, 1, 0, []⟩, .acknowledge,
    .response 1 2 [0, 0, 0, 1, 12] false, .takeReply 1 true]

theorem forwarded_of_answeredActions : ∃ s : AgentForwarding, (s.HandedOnce ∧ s.Answered) ∧
    s.written = [((1, 1), [0, 0, 0, 1, 12])] ∧ s.handed.length = 2 := by
  obtain ⟨s, hrun, hend⟩ := exists_run_of_guarded answeredActions (C := NothingMissing)
    (f := step) (s := new none 0)
    (P := fun s => s.written = [((1, 1), [0, 0, 0, 1, 12])] ∧ s.handed.length = 2)
    (by decide +kernel)
  exact ⟨s, forwarded_of_run hrun, hend⟩

/-! ### A record that is dropped undelivered -/

/-- A frame from the acknowledged state, sent at once, two seconds after the one before. -/
def slowFrame (n : ℕ) : List ForwardingAction :=
  [.frame none [{ hoststring := [0x61] }] [],
    .tick ⟨fun _ => false, fun _ => false⟩ (seconds (2 * n))]

/-- A request is queued after the first of 33 frames, of which the client gets only the first.
Its acknowledgement empties the queue, which has overflowed; an acknowledgement of the server,
which is a state of its own on state 1, is all that the client gets next. -/
def overflowActions : List ForwardingAction :=
  slowFrame 0 ++ [.accept, .poll, .read 1 [0, 0, 0, 1, 11], .poll] ++
    (List.range 32).flatMap (fun n => slowFrame (n + 1)) ++
    [.deliver 0 0, .receive (seconds 65) ⟨0, 1, 1, 0, []⟩, .force,
      .tick ⟨fun _ => false, fun _ => false⟩ (seconds 65), .deliver 0 33,
      .receive (seconds 66) ⟨1, 2, 34, 0, []⟩, .acknowledge]

/-- **A request is dropped from the queue undelivered**, since state 34 is taken to have
carried what the frames 2 to 33 carried. -/
theorem dropped_after_overflow : ∃ s, Run (Succeeds step) (new none 0) overflowActions s ∧
    ∃ x ∈ s.queued, x ∉ s.agent.pending ∧ x.2.hostEvent ∉ s.handed := by
  obtain ⟨s, hrun, hend⟩ := exists_run_of_guarded overflowActions (C := fun _ _ => True)
    (f := step) (s := new none 0)
    (P := fun s => ∃ x ∈ s.queued, x ∉ s.agent.pending ∧ x.2.hostEvent ∉ s.handed)
    (by decide +kernel)
  exact ⟨s, hrun.of_meeting, hend⟩

end AgentForwarding

end Zetta.Zosh
