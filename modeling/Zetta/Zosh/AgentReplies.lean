import Zetta.Zosh.AgentRecords

/-!
# Replies reach the request they answer

A thread sends one request at a time and waits. What is under way for a connection (its request
in the channel of events, its entry among the requests outstanding, its reply in the thread's
channel) is therefore at most one thing, and only while the thread waits
(`AgentForwarding.Replies`). So a reply that a thread takes is for the request it waits for.

`Replies` holds at the start and after every step of the threads, the session loop and the
client: one lemma for each of the steps that touch it, and `Replies.congr` for the others.
-/

namespace Zetta.Zosh

open List Moshcatty MoshRs Server

namespace AgentForwarding

/-! ### What is under way for a connection -/

/-- The event is a request of the connection. -/
def IsRequest (c : ℕ) : LocalEvent → Bool
  | .request c' _ => c' = c
  | _ => false

/-- How many things are under way for a connection. -/
def underWay (s : AgentForwarding) (c : ℕ) : ℕ :=
  s.events.countP (IsRequest c) + s.agent.outstanding.countP (fun key => key.1 = c) +
    (s.channel c).toList.length

/-- **What ties threads, requests and replies together.** -/
structure Replies (s : AgentForwarding) : Prop where
  fresh : ∀ c, s.agent.nextConnectionId ≤ c → s.thread c = .absent
  underWay_le : ∀ c, s.underWay c ≤ if s.thread c = .waiting then 1 else 0
  outstanding_nodup : s.agent.outstanding.Nodup
  outstanding_numbered : ∀ key ∈ s.agent.outstanding,
    ((key.1, s.asked key.1), key.2) ∈ s.numbered
  unnumbered : ∀ c, 0 < s.events.countP (IsRequest c) → ∀ x ∈ s.numbered, x.1.1 = c →
    x.1.2 < s.asked c
  numbered_le : ∀ x ∈ s.numbered, x.1.2 ≤ s.asked x.1.1
  numbered_lt : ∀ x ∈ s.numbered, x.2 < s.agent.nextRecordId
  numbered_queued : ∀ x ∈ s.numbered, ∃ frame, (x.2, .request x.2 x.1.1 frame) ∈ s.queued
  numbered_nodup : (s.numbered.map Prod.fst).Nodup
  numbered_ids : (s.numbered.map Prod.snd).Nodup
  reply : ∀ c reply, s.channel c = some reply → reply.closed = false →
    ∃ id, ((c, s.asked c), id) ∈ s.numbered ∧ ((c, id), reply.frame) ∈ s.answered
  answered_out : ∀ x ∈ s.answered, x.1 ∉ s.agent.outstanding
  answered_lt : ∀ x ∈ s.answered, x.1.2 < s.agent.nextRecordId
  answered_nodup : (s.answered.map Prod.fst).Nodup
  written_answered : ∀ x ∈ s.written, ∃ id,
    (x.1, id) ∈ s.numbered ∧ ((x.1.1, id), x.2) ∈ s.answered
  written_le : ∀ x ∈ s.written, x.1.2 ≤ s.asked x.1.1
  written_done : ∀ x ∈ s.written, x.1.2 = s.asked x.1.1 → s.thread x.1.1 ≠ .waiting
  written_nodup : (s.written.map Prod.fst).Nodup

theorem replies_new (error : Option (List UInt8)) (now : ℕ) : (new error now).Replies := by
  constructor <;> simp [new, RecordLink.new, AgentServer.new, AgentServer.queue, underWay]

variable {s : AgentForwarding} {c : ℕ}

/-- While something is under way, the thread waits. -/
theorem Replies.waiting (h : s.Replies) (hpos : 0 < s.underWay c) :
    s.thread c = .waiting := by
  have := h.underWay_le c
  by_contra hne
  rw [if_neg hne] at this
  omega

theorem Replies.underWay_le_one (h : s.Replies) (c : ℕ) :
    s.underWay c ≤ 1 := (h.underWay_le c).trans (by split <;> omega)

/-! ### Steps that leave the local connections alone -/

/-- What the records do does not touch the replies. -/
theorem Replies.congr {l : RecordLink} (h : s.Replies)
    (houtstanding : l.agent.outstanding = s.agent.outstanding)
    (hconnection : l.agent.nextConnectionId = s.agent.nextConnectionId)
    (hrecord : l.agent.nextRecordId = s.agent.nextRecordId) (hqueued : l.queued = s.queued) :
    { s with toRecordLink := l }.Replies := by
  have hunder : ∀ c, { s with toRecordLink := l }.underWay c = s.underWay c := fun c => by
    simp only [underWay, houtstanding]
  exact
    { h with
      fresh := fun c hc => h.fresh c (hconnection ▸ hc)
      underWay_le := fun c => hunder c ▸ h.underWay_le c
      outstanding_nodup := houtstanding ▸ h.outstanding_nodup
      outstanding_numbered := fun key hkey => h.outstanding_numbered key (houtstanding ▸ hkey)
      numbered_lt := fun x hx => hrecord ▸ h.numbered_lt x hx
      numbered_queued := fun x hx => hqueued ▸ h.numbered_queued x hx
      answered_out := fun x hx => houtstanding ▸ h.answered_out x hx
      answered_lt := fun x hx => hrecord ▸ h.answered_lt x hx }

variable {events : List LocalEvent}

/-- An event that is no request is put into the channel, or the first one is taken out. -/
theorem Replies.setEvents (h : s.Replies)
    (hle : ∀ c, events.countP (IsRequest c) ≤ s.events.countP (IsRequest c)) :
    { s with events := events }.Replies :=
  { h with
    underWay_le := fun c => by
      refine Nat.le_trans ?_ (h.underWay_le c)
      simp only [underWay]
      have := hle c
      omega
    unnumbered := fun c hpos => h.unnumbered c (Nat.lt_of_lt_of_le hpos (hle c)) }

/-! ### Threads -/

/-- A thread under way with nothing stops. -/
theorem Replies.stop (h : s.Replies) (hnone : s.underWay c = 0) (hthread : s.thread c ≠ .absent) :
    (s.setThread c .stopped).Replies := by
  have hne : ∀ c', (s.setThread c .stopped).thread c' = .waiting → s.thread c' = .waiting := by
    intro c' hw
    simp only [setThread] at hw
    split at hw
    · cases hw
    · exact hw
  exact
    { h with
      fresh := fun c' hc' => by
        have := h.fresh c' hc'
        have hcc : c' ≠ c := fun heq => hthread (heq ▸ this)
        simpa [setThread, hcc] using this
      underWay_le := fun c' => by
        by_cases hcc : c' = c
        · subst hcc
          have heq : (s.setThread c' .stopped).underWay c' = s.underWay c' := rfl
          omega
        · have hsame : (s.setThread c .stopped).thread c' = s.thread c' := if_neg hcc
          rw [hsame]
          exact h.underWay_le c'
      written_done := fun x hx hk hw => h.written_done x hx hk (hne _ hw) }

variable {t : AgentForwarding}

/-- The events after a step of a thread, which waits for room in the channel. -/
theorem send_ok {event : LocalEvent} (h : s.send event = .ok t) :
    t = { s with events := s.events ++ [event] } := by
  rw [send] at h
  split at h
  · exact (Except.ok.inj h).symm
  · cases h

variable {frame : List UInt8}

/-- A thread reads a request, and waits. -/
theorem Replies.read (h : s.Replies) (hstep : s.read c frame = .ok t) : t.Replies := by
  rw [AgentForwarding.read] at hstep
  split at hstep
  swap
  · cases hstep
  next hread =>
  have hnone : s.underWay c = 0 := by
    have := h.underWay_le c
    rw [if_neg (by simp [hread.1])] at this
    omega
  have hevents : s.events.countP (IsRequest c) = 0 ∧
      s.agent.outstanding.countP (fun key => key.1 = c) = 0 ∧ s.channel c = none := by
    simp only [underWay] at hnone
    refine ⟨by omega, by omega, ?_⟩
    cases hch : s.channel c with
    | none => rfl
    | some reply => simp [hch] at hnone
  obtain ⟨hev, hout, hch⟩ := hevents
  rw [send_ok hstep]
  have hasked : ∀ c', s.asked c' ≤ if c' = c then s.asked c' + 1 else s.asked c' := fun c' => by
    split <;> omega
  have hout' : ∀ key ∈ s.agent.outstanding, key.1 ≠ c := fun key hkey heq => by
    have := countP_pos_iff (p := fun key => key.1 = c) |>.mpr ⟨key, hkey, decide_eq_true heq⟩
    omega
  exact
    { h with
      fresh := fun c' hc' => by
        have := h.fresh c' hc'
        have hcc : c' ≠ c := fun heq => by
          rw [heq, hread.1] at this
          cases this
        simpa [setThread, hcc] using this
      underWay_le := fun c' => by
        have := h.underWay_le c'
        by_cases hcc : c' = c
        · subst hcc
          simp [underWay, setThread, countP_append, IsRequest, hev, hout, hch]
        · simpa [underWay, setThread, countP_append, countP_singleton, IsRequest, hcc,
            Ne.symm hcc] using this
      outstanding_numbered := fun key hkey => by
        simpa [setThread, hout' key hkey] using h.outstanding_numbered key hkey
      unnumbered := fun c' hpos x hx hxc => by
        have hle := h.numbered_le x hx
        by_cases hcc : c' = c
        · subst hcc hxc
          simpa [setThread] using Nat.lt_succ_of_le hle
        · have hpos' : 0 < s.events.countP (IsRequest c') := by
            simpa [setThread, countP_append, countP_singleton, IsRequest,
              Ne.symm hcc] using hpos
          simpa [setThread, hcc] using h.unnumbered c' hpos' x hx hxc
      numbered_le := fun x hx => (h.numbered_le x hx).trans (hasked x.1.1)
      reply := fun c' reply hreply hopen => by
        have hcc : c' ≠ c := fun heq => by
          rw [heq] at hreply
          simp [setThread, hch] at hreply
        simpa [setThread, hcc] using h.reply c' reply hreply hopen
      written_le := fun x hx => (h.written_le x hx).trans (hasked x.1.1)
      written_done := fun x hx hk => by
        have hle := h.written_le x hx
        by_cases hcc : x.1.1 = c
        · simp [hcc] at hk hle
          omega
        · simpa [setThread, hcc] using h.written_done x hx (by simpa [setThread, hcc] using hk) }

/-- Taking the reply out of the channel leaves nothing under way. -/
private theorem Replies.emptyChannel (h : s.Replies) {reply : Reply}
    (hreply : s.channel c = some reply) :
    { s with channel := fun c' => if c' = c then none else s.channel c' }.Replies ∧
      { s with channel := fun c' => if c' = c then none else s.channel c' }.underWay c = 0 := by
  have hone := h.underWay_le_one c
  simp only [underWay, hreply, Option.toList_some, length_singleton] at hone
  refine ⟨{ h with
    underWay_le := fun c' => Nat.le_trans ?_ (h.underWay_le c')
    reply := fun c' reply' hreply' hopen => ?_ }, ?_⟩
  · simp only [underWay]
    split <;> simp
  · by_cases hcc : c' = c
    · simp [hcc] at hreply'
    · exact h.reply c' reply' (by simpa [hcc] using hreply') hopen
  · simp only [underWay, if_true, Option.toList_none, length_nil]
    omega

private theorem countP_closed (c : ℕ) (events : List LocalEvent) (c' : ℕ)
    (error : Option (List UInt8)) :
    (events ++ [LocalEvent.closed c' error]).countP (IsRequest c) = events.countP (IsRequest c) := by
  simp [countP_append, IsRequest]

/-- A thread takes the reply it waits for: what it writes is for the request it waits for. -/
theorem Replies.takeReply (h : s.Replies) {writes : Bool} (hstep : s.takeReply c writes = .ok t) :
    t.Replies := by
  rw [AgentForwarding.takeReply] at hstep
  split at hstep
  swap
  · cases hstep
  next hwaiting =>
  split at hstep
  · cases hstep
  next reply hreply =>
  obtain ⟨hempty, hnone⟩ := h.emptyChannel hreply
  let s' : AgentForwarding := { s with channel := fun c' => if c' = c then none else s.channel c' }
  have hstop : ∀ error, { s'.setThread c .stopped with
      events := s.events ++ [LocalEvent.closed c error] }.Replies := fun error =>
    (Replies.stop (s := s') hempty hnone (by simp [s', hwaiting])).setEvents
      fun c' => (countP_closed c' _ c error).le
  dsimp only at hstep
  split at hstep
  · rw [send_ok hstep]
    exact hstop _
  next hopen =>
  split at hstep
  swap
  · rw [send_ok hstep]
    exact hstop _
  rw [← Except.ok.inj hstep]
  have hcc : ∀ c', (if c' = c then ConnectionThread.reading else s.thread c') = .waiting →
      c' ≠ c ∧ s.thread c' = .waiting := by
    intro c' hw
    by_cases heq : c' = c
    · rw [if_pos heq] at hw
      cases hw
    · exact ⟨heq, by rwa [if_neg heq] at hw⟩
  exact
    { hempty with
      fresh := fun c' hc' => by
        have := h.fresh c' hc'
        have hne : c' ≠ c := fun heq => by
          rw [heq, hwaiting] at this
          cases this
        exact (if_neg hne).trans this
      underWay_le := fun c' => by
        by_cases heq : c' = c
        · subst heq
          exact hnone.le.trans (Nat.zero_le _)
        · have hsame : (if c' = c then ConnectionThread.reading else s.thread c') = s.thread c' :=
            if_neg heq
          simp only [setThread, hsame]
          exact hempty.underWay_le c'
      written_answered := fun x hx => by
        rcases mem_append.mp hx with hx | hx
        · exact h.written_answered x hx
        · rw [mem_singleton.mp hx]
          exact h.reply c reply hreply (by simpa using hopen)
      written_le := fun x hx => by
        rcases mem_append.mp hx with hx | hx
        · exact h.written_le x hx
        · rw [mem_singleton.mp hx]
          exact Nat.le_refl _
      written_done := fun x hx hk hw => by
        obtain ⟨hne, hw⟩ := hcc _ hw
        rcases mem_append.mp hx with hx | hx
        · exact h.written_done x hx hk hw
        · exact hne (by rw [mem_singleton.mp hx])
      written_nodup := by
        rw [map_append, nodup_append]
        refine ⟨h.written_nodup, nodup_singleton _, fun k hk k' hk' heq => ?_⟩
        obtain ⟨x, hx, rfl⟩ := mem_map.mp hk
        have hkey : x.1 = (c, s.asked c) := heq.trans (mem_singleton.mp hk')
        exact h.written_done x hx (by rw [hkey]) (by rw [hkey]; exact hwaiting) }

/-! ### Operations of the server -/

/-- The first reply for a connection. -/
def replyFor (replies : List (ℕ × Reply)) (c : ℕ) : Option Reply :=
  (replies.find? fun reply => reply.1 = c).map Prod.snd

/-- An operation of the server changes the server, and the channels that are empty. -/
theorem applyStep_eq (s : AgentForwarding) (step : AgentStep) :
    s.applyStep step =
      { s with
        toRecordLink := s.withAgent step.server
        channel := fun c => (s.channel c).or (replyFor step.replies c) } := by
  have hfold : ∀ (replies : List (ℕ × Reply)) (t : AgentForwarding),
      replies.foldl deliverReply t =
        { t with channel := fun c => (t.channel c).or (replyFor replies c) } := by
    intro replies
    induction replies with
    | nil => simp [replyFor]
    | cons reply replies ih =>
      intro t
      rw [foldl_cons, ih]
      simp only [deliverReply, AgentForwarding.mk.injEq, true_and, and_true]
      funext c
      by_cases hc : c = reply.1
      · simp [hc, replyFor]
      · simp [hc, replyFor, Ne.symm hc]
  rw [applyStep, hfold]

/-- **An operation of the server** that takes requests off, and sends replies to threads that
wait for them. -/
theorem Replies.agentStep (h : s.Replies) {step : AgentStep} {answers : List ((ℕ × ℕ) × List UInt8)}
    (hout : step.server.outstanding.Sublist s.agent.outstanding)
    (hconnection : s.agent.nextConnectionId ≤ step.server.nextConnectionId)
    (hrecord : s.agent.nextRecordId ≤ step.server.nextRecordId)
    (hunder : ∀ c, (s.applyStep step).underWay c ≤ if s.thread c = .waiting then 1 else 0)
    (hreply : ∀ c reply, replyFor step.replies c = some reply → reply.closed = false →
      ∃ id, ((c, s.asked c), id) ∈ s.numbered ∧ ((c, id), reply.frame) ∈ answers)
    (hsub : s.answered ⊆ answers) (hanswered : ∀ x ∈ answers, x.1 ∉ step.server.outstanding ∧
      x.1.2 < s.agent.nextRecordId) (hnodup : (answers.map Prod.fst).Nodup) :
    { s.applyStep step with answered := answers }.Replies := by
  rw [applyStep_eq] at hunder ⊢
  exact
    { h with
      fresh := fun c hc => h.fresh c (hconnection.trans hc)
      underWay_le := hunder
      outstanding_nodup := h.outstanding_nodup.sublist hout
      outstanding_numbered := fun key hkey => h.outstanding_numbered key (hout.subset hkey)
      numbered_lt := fun x hx => (h.numbered_lt x hx).trans_le hrecord
      numbered_queued := fun x hx =>
        let ⟨frame, hframe⟩ := h.numbered_queued x hx
        ⟨frame, mem_append_left _ hframe⟩
      reply := fun c reply hr hopen => by
        rcases Option.or_eq_some_iff.mp hr with hr | ⟨-, hr⟩
        · obtain ⟨id, hid, hanswer⟩ := h.reply c reply hr hopen
          exact ⟨id, hid, hsub hanswer⟩
        · exact hreply c reply hr hopen
      answered_out := fun x hx => (hanswered x hx).1
      answered_lt := fun x hx => ((hanswered x hx).2).trans_le hrecord
      answered_nodup := hnodup
      written_answered := fun x hx =>
        let ⟨id, hid, hanswer⟩ := h.written_answered x hx
        ⟨id, hid, hsub hanswer⟩ }

/-- What is under way after an operation of the server. -/
theorem underWay_applyStep (s : AgentForwarding) (step : AgentStep) (c : ℕ) :
    (s.applyStep step).underWay c = s.events.countP (IsRequest c) +
      step.server.outstanding.countP (fun key => key.1 = c) +
        ((s.channel c).or (replyFor step.replies c)).toList.length := by
  rw [applyStep_eq]
  rfl

/-- An operation without an answer. -/
theorem Replies.agentStep_same (h : s.Replies) {step : AgentStep}
    (hout : step.server.outstanding.Sublist s.agent.outstanding)
    (hconnection : s.agent.nextConnectionId ≤ step.server.nextConnectionId)
    (hrecord : s.agent.nextRecordId ≤ step.server.nextRecordId)
    (hunder : ∀ c, (s.applyStep step).underWay c ≤ if s.thread c = .waiting then 1 else 0)
    (hclose : ∀ c reply, replyFor step.replies c = some reply → reply.closed = true) :
    (s.applyStep step).Replies := by
  have hsame : (s.applyStep step).answered = s.answered := by rw [applyStep_eq]
  have hstep := h.agentStep hout hconnection hrecord hunder
    (fun c reply hr hopen => by rw [hclose c reply hr] at hopen; cases hopen)
    (List.Subset.refl s.answered)
    (fun x hx => ⟨fun hmem => h.answered_out x hx (hout.subset hmem), h.answered_lt x hx⟩)
    h.answered_nodup
  rwa [← hsame] at hstep

private theorem closeConnection_fields (s : AgentServer) (c : ℕ) (error : Option (List UInt8)) :
    (s.closeConnection c error).server.outstanding =
        s.outstanding.filter (fun key => key.1 ≠ c) ∧
      (s.closeConnection c error).server.nextConnectionId = s.nextConnectionId ∧
      (s.closeConnection c error).replies =
        (s.outstanding.filter fun key => key.1 = c).map fun _ => (c, Reply.close) := by
  rw [AgentServer.closeConnection]
  split <;> exact ⟨rfl, rfl, rfl⟩

private theorem replyFor_close (keys : List (ℕ × ℕ)) (c c' : ℕ) :
    replyFor (keys.map fun _ => (c, Reply.close)) c' =
      if keys ≠ [] ∧ c = c' then some .close else none := by
  cases keys with
  | nil => simp [replyFor]
  | cons key keys =>
    by_cases hc : c = c'
    · simp [replyFor, hc]
    · simp [replyFor, hc]

/-- The end of a connection: its request, if one waits, becomes the reply that ends it. -/
theorem Replies.closeConnection (h : s.Replies) (hids : s.agent.IdsFit)
    (hleft : s.agent.nextRecordId < MAX) (c : ℕ) (error : Option (List UInt8)) :
    (s.applyStep (s.agent.closeConnection c error)).Replies := by
  obtain ⟨hout, hconnection, hreplies⟩ := closeConnection_fields s.agent c error
  obtain ⟨-, -, -, hrecord, -⟩ :=
    RecordLink.queuesOne_cases (AgentServer.closeConnection_spec hids c error).2 hleft
  refine h.agentStep_same (hout ▸ filter_sublist) hconnection.ge hrecord (fun c' => ?_)
    fun c' reply hr => ?_
  · refine Nat.le_trans ?_ (h.underWay_le c')
    rw [underWay_applyStep, hout, hreplies, replyFor_close, underWay, countP_filter]
    by_cases hc : c = c'
    · subst hc
      -- As many requests as are taken off, so many replies are sent, of which one fits.
      have hnone : s.agent.outstanding.countP
          (fun key => decide (key.1 = c) && decide (key.1 ≠ c)) = 0 :=
        countP_eq_zero.mpr fun key _ => by simp
      rw [hnone]
      by_cases hmine : s.agent.outstanding.filter (fun key => key.1 = c) = []
      · rw [if_neg fun hne => hne.1 hmine, Option.or_none]
        omega
      · have hpos : 0 < s.agent.outstanding.countP fun key => key.1 = c := by
          rw [countP_eq_length_filter]
          exact length_pos_iff.mpr hmine
        rw [if_pos ⟨hmine, rfl⟩]
        cases s.channel c with
        | none =>
          simp only [Option.none_or, Option.toList_some, Option.toList_none, length_singleton]
          omega
        | some reply =>
          simp only [Option.some_or]
          omega
    · have hsame : s.agent.outstanding.countP
          (fun key => decide (key.1 = c') && decide (key.1 ≠ c)) =
            s.agent.outstanding.countP fun key => key.1 = c' :=
        countP_congr fun key _ => by
          by_cases hk : key.1 = c' <;> simp [hk, Ne.symm hc]
      rw [hsame, if_neg fun heq => hc heq.2, Option.or_none]
  · rw [hreplies, replyFor_close] at hr
    split at hr
    · exact Option.some.inj hr ▸ rfl
    · cases hr

/-- The reply that a response becomes. -/
private def responseReply (frame : List UInt8) (closed : Bool) : Reply :=
  if !closed && !Server.validFrame frame then .close else ⟨frame, closed⟩

private theorem applyResponse_of_mem {s : AgentServer} {request : ℕ}
    (hmem : (c, request) ∈ s.outstanding) (frame : List UInt8) (closed : Bool) :
    s.applyResponse c request frame closed true =
      ⟨true, { s with outstanding := s.outstanding.erase (c, request) },
        [(c, responseReply frame closed)]⟩ := by
  rw [AgentServer.applyResponse, if_neg (not_not.mpr hmem), responseReply]
  split <;> rfl

/-- Looking a request up among those outstanding. -/
theorem any_eq_key {keys : List (ℕ × ℕ)} {key : ℕ × ℕ} :
    (keys.any fun key' => key' = key) = true ↔ key ∈ keys := by simp

/-- A response is taken for a request that waits; the thread waits for it. -/
theorem Replies.response (h : s.Replies) (c request : ℕ) (frame : List UInt8) (closed : Bool) :
    (s.response c request frame closed).Replies := by
  rw [AgentForwarding.response]
  by_cases hmem : (c, request) ∈ s.agent.outstanding
  swap
  · have hstep : s.agent.applyResponse c request frame closed
        (decide (s.thread c = .reading ∨ s.thread c = .waiting)) = ⟨false, s.agent, []⟩ :=
      if_pos hmem
    simp only [hstep, if_neg (any_eq_key.not.mpr hmem)]
    refine h.agentStep_same (List.Sublist.refl _) (Nat.le_refl _) (Nat.le_refl _) (fun c' => ?_)
      fun c' reply hr => nomatch hr
    rw [underWay_applyStep]
    simpa [replyFor, underWay] using h.underWay_le c'
  · have hcount : 0 < s.agent.outstanding.countP fun key => key.1 = c :=
      (countP_pos_iff (p := fun key => key.1 = c)).mpr ⟨_, hmem, decide_eq_true rfl⟩
    have hone := h.underWay_le_one c
    have hwaiting : s.thread c = .waiting := h.waiting (by simp only [underWay]; omega)
    have hempty : s.channel c = none := by
      cases hch : s.channel c with
      | none => rfl
      | some reply =>
        simp only [underWay, hch, Option.toList_some, length_singleton] at hone
        omega
    simp only [hwaiting, reduceCtorEq, false_or, decide_true, applyResponse_of_mem hmem,
      if_pos (any_eq_key.mpr hmem)]
    have hsame : ∀ step, (s.applyStep step).answered = s.answered := fun step => by
      rw [applyStep_eq]
    rw [hsame]
    have hnumbered := h.outstanding_numbered _ hmem
    have hfor : ∀ c', replyFor [(c, responseReply frame closed)] c' =
        if c = c' then some (responseReply frame closed) else none := by
      intro c'
      by_cases hc : c = c' <;> simp [replyFor, hc]
    refine h.agentStep erase_sublist (Nat.le_refl _) (Nat.le_refl _) (fun c' => ?_)
      (fun c' reply hr hopen => ?_) (subset_append_left _ _) (fun x hx => ?_) ?_
    · rw [underWay_applyStep, hfor]
      by_cases hc : c = c'
      · subst hc
        rw [if_pos rfl, if_pos hwaiting, hempty]
        have herase := (perm_cons_erase hmem).countP_eq fun key => decide (key.1 = c)
        rw [countP_cons, if_pos (decide_eq_true rfl)] at herase
        simp only [underWay, hempty, Option.toList_none, length_nil] at hone
        simp only [Option.none_or, Option.toList_some, length_singleton]
        omega
      · refine Nat.le_trans ?_ (h.underWay_le c')
        have herase := (erase_sublist (a := (c, request)) (l := s.agent.outstanding)).countP_le
          (p := fun key => key.1 = c')
        simp only [if_neg hc, Option.or_none, underWay]
        omega
    · rw [hfor] at hr
      split at hr
      swap
      · cases hr
      next hc =>
      subst hc
      cases hr
      refine ⟨request, hnumbered, mem_append_right _ (mem_singleton.mpr ?_)⟩
      rw [responseReply] at hopen ⊢
      split
      · next hbad =>
        rw [if_pos hbad] at hopen
        cases hopen
      · rfl
    · rcases mem_append.mp hx with hx | hx
      · exact ⟨fun hmem => h.answered_out x hx (mem_of_mem_erase hmem), h.answered_lt x hx⟩
      · rw [mem_singleton.mp hx]
        exact ⟨h.outstanding_nodup.not_mem_erase, h.numbered_lt _ hnumbered⟩
    · rw [map_append, nodup_append]
      refine ⟨h.answered_nodup, nodup_singleton _, fun k hk k' hk' heq => ?_⟩
      obtain ⟨x, hx, rfl⟩ := mem_map.mp hk
      refine h.answered_out x hx ?_
      rw [heq, mem_singleton.mp hk']
      exact hmem

/-- An operation that takes nothing off and sends nothing. -/
private theorem Replies.quiet (h : s.Replies) {acted : Bool} {server : AgentServer}
    (hout : server.outstanding = s.agent.outstanding)
    (hconnection : s.agent.nextConnectionId ≤ server.nextConnectionId)
    (hrecord : s.agent.nextRecordId ≤ server.nextRecordId) :
    (s.applyStep ⟨acted, server, []⟩).Replies := by
  refine h.agentStep_same (hout ▸ List.Sublist.refl _) hconnection hrecord (fun c => ?_)
    fun c reply hr => nomatch hr
  rw [underWay_applyStep]
  simpa [replyFor, underWay, hout] using h.underWay_le c

/-- The thread of a new connection starts to read. -/
private theorem Replies.start (h : s.Replies) (hthread : s.thread c = .absent)
    (hlt : c < s.agent.nextConnectionId) :
    (s.setThread c .reading).Replies := by
  have hnone : s.underWay c = 0 := by
    have := h.underWay_le c
    rw [if_neg (by simp [hthread])] at this
    omega
  have hother : ∀ c', c' ≠ c → (s.setThread c .reading).thread c' = s.thread c' :=
    fun c' hne => if_neg hne
  exact
    { h with
      fresh := fun c' hc' => by
        have hle : s.agent.nextConnectionId ≤ c' := hc'
        rw [hother c' (by omega)]
        exact h.fresh c' hc'
      underWay_le := fun c' => by
        by_cases hcc : c' = c
        · subst hcc
          exact hnone.le.trans (Nat.zero_le _)
        · rw [hother c' hcc]
          exact h.underWay_le c'
      written_done := fun x hx hk => by
        by_cases hcc : x.1.1 = c
        · simp [setThread, hcc]
        · rw [hother _ hcc]
          exact h.written_done x hx hk }

/-- A request is taken from the channel of events: it is refused, or becomes a record. -/
private theorem Replies.queueRequest (hevents : s.events = .request c frame :: events)
    (h : s.Replies) (hleft : s.agent.nextRecordId < MAX) :
    { { s with events := events }.applyStep (s.agent.queueRequest c frame) with
      numbered :=
        if (s.agent.queueRequest c frame).server.outstanding = s.agent.outstanding then
          ({ s with events := events }.applyStep (s.agent.queueRequest c frame)).numbered
        else
          ({ s with events := events }.applyStep (s.agent.queueRequest c frame)).numbered ++
            [((c, s.asked c), s.agent.nextRecordId)] }.Replies := by
  have hcount : ∀ c', s.events.countP (IsRequest c') =
      events.countP (IsRequest c') + if c = c' then 1 else 0 := fun c' => by
    simp [hevents, countP_cons, IsRequest]
  have hrest : { s with events := events }.Replies := h.setEvents fun c' => by
    rw [hcount]
    exact Nat.le_add_right _ _
  -- The request is what is under way for its connection, so nothing else is.
  have hone := h.underWay_le_one c
  have hpos : 0 < s.events.countP (IsRequest c) := by
    rw [hcount, if_pos rfl]
    exact Nat.succ_pos _
  have hwaiting : s.thread c = .waiting := h.waiting (by simp only [underWay]; omega)
  simp only [underWay, hcount, if_true] at hone
  have hout : s.agent.outstanding.countP (fun key => key.1 = c) = 0 := by omega
  have hchannel : s.channel c = none := by
    cases hch : s.channel c with
    | none => rfl
    | some reply =>
      simp only [hch, Option.toList_some, length_singleton] at hone
      omega
  by_cases hc : c ∈ s.agent.connections
  swap
  · have hstep : s.agent.queueRequest c frame = ⟨false, s.agent, []⟩ := if_pos hc
    simp only [hstep, if_true]
    exact hrest.quiet rfl (Nat.le_refl _) (Nat.le_refl _)
  by_cases hbad : (!Server.validFrame frame ||
      decide (Server.MAX_OUTSTANDING ≤ s.agent.outstanding.length)) = true
  · have hstep : s.agent.queueRequest c frame = ⟨true, s.agent, [(c, .close)]⟩ :=
      (if_neg (not_not.mpr hc)).trans (if_pos hbad)
    have hfor : ∀ c', replyFor [(c, Reply.close)] c' = if c = c' then some .close else none := by
      intro c'
      by_cases heq : c = c' <;> simp [replyFor, heq]
    simp only [hstep, if_true]
    refine hrest.agentStep_same (List.Sublist.refl _) (Nat.le_refl _) (Nat.le_refl _)
      (fun c' => ?_) fun c' reply hr => ?_
    · rw [underWay_applyStep, hfor]
      by_cases heq : c = c'
      · subst heq
        rw [if_pos rfl, if_pos hwaiting]
        simp only [hchannel, Option.none_or, Option.toList_some, length_singleton]
        omega
      · rw [if_neg heq, Option.or_none]
        exact hrest.underWay_le c'
    · rw [hfor] at hr
      split at hr
      · exact Option.some.inj hr ▸ rfl
      · cases hr
  · have hstep : s.agent.queueRequest c frame = ⟨true, { s.agent with
        outstanding := s.agent.outstanding ++ [(c, s.agent.nextRecordId)]
        nextRecordId := nextNum s.agent.nextRecordId
        pending := s.agent.pending ++
          [(s.agent.nextRecordId, .request s.agent.nextRecordId c frame)] }, []⟩ :=
      (if_neg (not_not.mpr hc)).trans (if_neg hbad)
    have hnext : nextNum s.agent.nextRecordId = s.agent.nextRecordId + 1 := Nat.min_eq_left hleft
    have hne : s.agent.outstanding ++ [(c, s.agent.nextRecordId)] ≠ s.agent.outstanding := by simp
    simp only [hstep, if_neg hne, applyStep_eq]
    have hfresh : (c, s.agent.nextRecordId) ∉ s.agent.outstanding := fun hmem => by
      have hlt := h.numbered_lt _ (h.outstanding_numbered _ hmem)
      exact Nat.lt_irrefl _ hlt
    have hother : ∀ key ∈ s.agent.outstanding, key.1 ≠ c := fun key hkey heq => by
      have := countP_pos_iff (p := fun key => key.1 = c) |>.mpr
        ⟨key, hkey, decide_eq_true heq⟩
      omega
    have hunnumbered : ∀ x ∈ s.numbered, x.1 ≠ (c, s.asked c) := fun x hx heq => by
      have hlt := h.unnumbered c hpos x hx (by rw [heq])
      rw [heq] at hlt
      exact Nat.lt_irrefl _ hlt
    exact
      { hrest with
        underWay_le := fun c' => by
          by_cases heq : c = c'
          · subst heq
            simp only [underWay, RecordLink.withAgent, countP_append, countP_singleton,
              replyFor, find?_nil, Option.map_none, Option.or_none, hwaiting, if_true, hout,
              hchannel, decide_true, Option.toList_none, length_nil]
            omega
          · simpa [underWay, RecordLink.withAgent, countP_append, countP_singleton,
              replyFor, heq] using hrest.underWay_le c'
        outstanding_nodup := nodup_append.mpr ⟨h.outstanding_nodup, nodup_singleton _,
          fun key hkey key' hkey' heq =>
            hother key hkey (by rw [heq, mem_singleton.mp hkey'])⟩
        outstanding_numbered := fun key hkey => by
          rcases mem_append.mp hkey with hkey | hkey
          · exact mem_append_left _ (h.outstanding_numbered key hkey)
          · rw [mem_singleton.mp hkey]
            exact mem_append_right _ (mem_singleton.mpr rfl)
        unnumbered := fun c' hpos' x hx hxc => by
          rcases mem_append.mp hx with hx | hx
          · exact hrest.unnumbered c' hpos' x hx hxc
          · -- The request that became a record was the only one of its connection.
            rw [mem_singleton.mp hx] at hxc
            subst hxc
            have hpos'' : 0 < events.countP (IsRequest c) := hpos'
            omega
        numbered_le := fun x hx => by
          rcases mem_append.mp hx with hx | hx
          · exact h.numbered_le x hx
          · rw [mem_singleton.mp hx]
        numbered_lt := fun x hx => by
          have hgoal : x.2 < nextNum s.agent.nextRecordId := by
            rw [hnext]
            rcases mem_append.mp hx with hx | hx
            · exact (h.numbered_lt x hx).trans (Nat.lt_succ_self _)
            · rw [mem_singleton.mp hx]
              exact Nat.lt_succ_self _
          exact hgoal
        numbered_queued := fun x hx => by
          simp only [RecordLink.withAgent, drop_left]
          rcases mem_append.mp hx with hx | hx
          · obtain ⟨frame', hframe⟩ := h.numbered_queued x hx
            exact ⟨frame', mem_append_left _ hframe⟩
          · rw [mem_singleton.mp hx]
            exact ⟨frame, mem_append_right _ (mem_singleton.mpr rfl)⟩
        numbered_nodup := by
          rw [map_append, nodup_append]
          refine ⟨h.numbered_nodup, nodup_singleton _, fun k hk k' hk' heq => ?_⟩
          obtain ⟨x, hx, rfl⟩ := mem_map.mp hk
          exact hunnumbered x hx (heq.trans (mem_singleton.mp hk'))
        numbered_ids := by
          rw [map_append, nodup_append]
          refine ⟨h.numbered_ids, nodup_singleton _, fun k hk k' hk' heq => ?_⟩
          obtain ⟨x, hx, rfl⟩ := mem_map.mp hk
          have hlt := h.numbered_lt x hx
          rw [heq, mem_singleton.mp hk'] at hlt
          exact Nat.lt_irrefl _ hlt
        reply := fun c' reply hr hopen => by
          rcases Option.or_eq_some_iff.mp hr with hr | ⟨-, hr⟩
          · obtain ⟨id, hid, hanswer⟩ := h.reply c' reply hr hopen
            exact ⟨id, mem_append_left _ hid, hanswer⟩
          · cases hr
        answered_out := fun x hx hmem => by
          rcases mem_append.mp hmem with hmem | hmem
          · exact h.answered_out x hx hmem
          · have hlt := h.answered_lt x hx
            rw [mem_singleton.mp hmem] at hlt
            exact Nat.lt_irrefl _ hlt
        answered_lt := fun x hx => by
          have hgoal : x.1.2 < nextNum s.agent.nextRecordId := by
            rw [hnext]
            exact (h.answered_lt x hx).trans (Nat.lt_succ_self _)
          exact hgoal
        written_answered := fun x hx =>
          let ⟨id, hid, hanswer⟩ := h.written_answered x hx
          ⟨id, mem_append_left _ hid, hanswer⟩ }

/-- One local event is handled. -/
theorem Replies.pollEvent (h : s.Replies) (hids : s.agent.IdsFit)
    (hleft : s.agent.nextRecordId < MAX) (hconnections : s.agent.nextConnectionId < MAX)
    (hstep : s.pollEvent = .ok t) : t.Replies := by
  rw [AgentForwarding.pollEvent] at hstep
  split at hstep
  · cases hstep
  next event events hevents =>
  have hrest : { s with events := events }.Replies :=
    h.setEvents fun c => by
      rw [hevents, countP_cons]
      omega
  cases event with
  | connected =>
    simp only [AgentServer.handle] at hstep
    by_cases hfull : Server.MAX_CONNECTIONS ≤ s.agent.connections.length
    · have hconnect : s.agent.connect = ⟨false, s.agent, []⟩ := if_pos hfull
      simp only [hconnect, if_true] at hstep
      rw [← Except.ok.inj hstep]
      exact hrest.quiet rfl (Nat.le_refl _) (Nat.le_refl _)
    · have hconnect : s.agent.connect = ⟨false, { s.agent with
          connections := s.agent.connections ++ [s.agent.nextConnectionId]
          nextConnectionId := nextNum s.agent.nextConnectionId }, []⟩ := if_neg hfull
      have hnext : nextNum s.agent.nextConnectionId = s.agent.nextConnectionId + 1 :=
        Nat.min_eq_left hconnections
      have hne : s.agent.connections ++ [s.agent.nextConnectionId] ≠ s.agent.connections := by simp
      simp only [hconnect, if_neg hne] at hstep
      rw [← Except.ok.inj hstep]
      let server : AgentServer := { s.agent with
        connections := s.agent.connections ++ [s.agent.nextConnectionId]
        nextConnectionId := nextNum s.agent.nextConnectionId }
      have hquiet : ({ s with events := events }.applyStep ⟨false, server, []⟩).Replies :=
        hrest.quiet rfl ((Nat.le_succ _).trans_eq hnext.symm) (Nat.le_refl _)
      refine hquiet.start ?_ ?_
      · rw [applyStep_eq]
        exact h.fresh _ (Nat.le_refl _)
      · rw [applyStep_eq]
        exact Nat.lt_of_lt_of_eq (Nat.lt_succ_self _) hnext.symm
  | request c frame =>
    rw [← Except.ok.inj hstep]
    exact Replies.queueRequest hevents h hleft
  | closed c error =>
    rw [← Except.ok.inj hstep]
    exact Replies.closeConnection (s := { s with events := events }) hrest hids hleft c error

end AgentForwarding

end Zetta.Zosh
