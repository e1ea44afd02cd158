import Zetta.Zosh.AgentForwarding

/-!
# Records are handed out once

Frames overlap and get lost, and yet the client is to get every record: a record stays pending
until a state that was sent with it is acknowledged, and every frame carries what its base may
lack. What makes this right is that **every state covers what the states up to it were sent
with** (`RecordLink.Covers`): its diff carries the record, or its base is a state sent with it.

* A frame covers, since it is built with `recordsAfter`.
* A state without a frame of its own (an acknowledgement, a heartbeat, the announcement of a
  shutdown) covers as long as the state it is built on lacks nothing that was ever sent
  (`RecordLink.LacksNothing`). The transport builds it on the newest state queued, so that this
  fails only once the newest frame was dropped from the queue.
* `RecordLink.Link.handedOnce` is what follows: no record twice, none forgotten.
-/

namespace Zetta.Zosh

open List Moshcatty MoshRs Server

namespace Server

/-- A record belongs to its id, and its numbers fit. -/
structure AgentHostRecord.HasId (r : AgentHostRecord) (id : ℕ) : Prop where
  fits : r.Fits
  agentRecordId : ∀ n, r.hostEvent.agentRecordId = some n → n = id

namespace AgentServer

/-- The ids a server has given out or will give out. -/
structure IdsFit (s : AgentServer) : Prop where
  connections : ∀ c ∈ s.connections, c ≤ MAX
  outstanding : ∀ key ∈ s.outstanding, key.1 ≤ MAX
  nextConnectionId : s.nextConnectionId ≤ MAX
  nextRecordId : s.nextRecordId ≤ MAX

/-- An operation that queues at most one record, and does nothing else to records. -/
inductive QueuesOne (s s' : AgentServer) : Prop
  | none : s'.pending = s.pending → s'.nextRecordId = s.nextRecordId → s'.states = s.states →
      QueuesOne s s'
  | one (record : AgentHostRecord) : record.HasId s.nextRecordId →
      s'.pending = s.pending ++ [(s.nextRecordId, record)] →
      s'.nextRecordId = nextNum s.nextRecordId → s'.states = s.states → QueuesOne s s'

theorem nextNum_le (n : ℕ) : nextNum n ≤ MAX := Nat.min_le_right ..

private theorem lt_of_le_MAX {n : ℕ} (h : n ≤ MAX) : n < 2 ^ 64 :=
  Nat.lt_of_le_of_lt h (Nat.sub_one_lt (by positivity))

theorem idsFit_new (error : Option (List UInt8)) : (new error).IdsFit :=
  ⟨by simp [new, queue], by simp [new, queue], by simp [new, queue, MAX], nextNum_le 1⟩

variable {s : AgentServer}

theorem queueRequest_spec (h : s.IdsFit) (c : ℕ) (frame : List UInt8) :
    (s.queueRequest c frame).server.IdsFit ∧ QueuesOne s (s.queueRequest c frame).server := by
  rw [queueRequest]
  split
  · exact ⟨h, .none rfl rfl rfl⟩
  next hc =>
  split
  · exact ⟨h, .none rfl rfl rfl⟩
  · have hcle := h.connections c (not_not.mp hc)
    refine ⟨⟨h.connections, fun key hkey => ?_, h.nextConnectionId, nextNum_le _⟩,
      .one (.request s.nextRecordId c frame) ⟨⟨lt_of_le_MAX h.nextRecordId, lt_of_le_MAX hcle⟩,
        fun n hn => (Option.some.inj hn).symm⟩ rfl rfl rfl⟩
    rcases mem_append.mp hkey with hkey | hkey
    · exact h.outstanding key hkey
    · rw [mem_singleton.mp hkey]
      exact hcle

theorem closeConnection_spec (h : s.IdsFit) (c : ℕ) (error : Option (List UInt8)) :
    (s.closeConnection c error).server.IdsFit ∧
      QueuesOne s (s.closeConnection c error).server := by
  have hclosed : ∀ next, next ≤ MAX → ∀ pending, IdsFit { s with
      connections := s.connections.filter fun c' => c' ≠ c
      outstanding := s.outstanding.filter fun key => key.1 ≠ c
      nextRecordId := next, pending := pending } := fun next hnext pending =>
    ⟨fun c' hc' => h.connections c' (mem_of_mem_filter hc'),
      fun key hkey => h.outstanding key (mem_of_mem_filter hkey), h.nextConnectionId, hnext⟩
  rw [closeConnection]
  split
  · exact ⟨hclosed _ h.nextRecordId _, .none rfl rfl rfl⟩
  · next hsome =>
    have hcle : c ≤ MAX := by
      rw [not_and_or, not_not] at hsome
      rcases hsome with hc | hne
      · exact h.connections c hc
      · obtain ⟨key, hkey⟩ := exists_mem_of_ne_nil _ hne
        obtain ⟨hmem, hkey⟩ := mem_filter.mp hkey
        exact of_decide_eq_true hkey ▸ h.outstanding key hmem
    exact ⟨hclosed _ (nextNum_le _) _,
      .one (.close s.nextRecordId c error) ⟨⟨lt_of_le_MAX h.nextRecordId, lt_of_le_MAX hcle⟩,
        fun n hn => (Option.some.inj hn).symm⟩ rfl rfl rfl⟩

theorem handle_spec (h : s.IdsFit) (event : LocalEvent) :
    (s.handle event).server.IdsFit ∧ QueuesOne s (s.handle event).server := by
  match event with
  | .request c frame => exact queueRequest_spec h c frame
  | .closed c error => exact closeConnection_spec h c error
  | .connected =>
    simp only [handle, connect]
    split_ifs
    · exact ⟨h, .none rfl rfl rfl⟩
    · refine ⟨⟨fun c hc => ?_, h.outstanding, nextNum_le _, h.nextRecordId⟩, .none rfl rfl rfl⟩
      rcases mem_append.mp hc with hc | hc
      · exact h.connections c hc
      · exact mem_singleton.mp hc ▸ h.nextConnectionId

theorem applyResponse_spec (h : s.IdsFit) (c request : ℕ) (frame : List UInt8)
    (closed receiving : Bool) :
    (s.applyResponse c request frame closed receiving).server.IdsFit ∧
      QueuesOne s (s.applyResponse c request frame closed receiving).server := by
  have herase : IdsFit { s with outstanding := s.outstanding.erase (c, request) } :=
    ⟨h.connections, fun key hkey => h.outstanding key (mem_of_mem_erase hkey),
      h.nextConnectionId, h.nextRecordId⟩
  rw [applyResponse]
  split
  · exact ⟨h, .none rfl rfl rfl⟩
  dsimp only
  split
  · exact ⟨herase, .none rfl rfl rfl⟩
  split
  · exact ⟨herase, .none rfl rfl rfl⟩
  · obtain ⟨hfit, hone⟩ := closeConnection_spec herase c (some LOCAL_CONNECTION_CLOSED)
    refine ⟨hfit, ?_⟩
    rcases hone with ⟨hp, hn, hs⟩ | ⟨record, hid, hp, hn, hs⟩
    · exact .none hp hn hs
    · exact .one record hid hp hn hs

end AgentServer

end Server

namespace RecordLink

/-! ### What a state covers -/

/-- The client has been handed the record by a state up to `n`. -/
def Given (l : RecordLink) (n : ℕ) (r : AgentHostRecord) : Prop :=
  ∃ ti ∈ l.applied, ti.newNum ≤ n ∧ r.hostEvent ∈ agentRecords ti.diff

/-- A state up to `n` was sent with the record of this id. -/
def SentWith (l : RecordLink) (n id : ℕ) : Prop :=
  ∃ y ∈ l.agent.states.entries, y.1 ≤ n ∧ id ≤ y.2

/-- **The state covers what the states up to it were sent with**: what its diff does not carry,
its base was sent with. -/
structure Covers (l : RecordLink) (x : StateDiff) : Prop where
  old_le : x.1 ≤ x.2.1
  new_le : x.2.1 ≤ l.transport.sentNum
  genuine : ∀ e ∈ agentRecords x.2.2, ∃ y ∈ l.queued, y.2.hostEvent = e
  carries : ∀ z ∈ l.agent.pending, l.SentWith x.2.1 z.1 →
    z.2.hostEvent ∈ agentRecords x.2.2 ∨ l.SentWith x.1 z.1

/-- Nothing pending that some state was sent with is missing in the state that `tick` would
build an empty state on. -/
def LacksNothing (l : RecordLink) : Prop :=
  l.agent.recordsAfter (some l.transport.dropStaleUnsent.newestNum) =
    l.agent.recordsAfter (some l.transport.sentNum)

instance (l : RecordLink) : Decidable l.LacksNothing := inferInstanceAs (Decidable (_ = _))

/-- **The way of the records**: what is queued and pending, what the states were sent with, what
the client holds and has been handed. -/
structure Link (l : RecordLink) : Prop where
  ids : l.agent.IdsFit
  records : ∀ x ∈ l.queued, x.2.HasId x.1
  sorted : l.queued.Pairwise fun x y => x.1 < y.1
  below : ∀ x ∈ l.queued, x.1 < l.agent.nextRecordId
  pending : l.agent.pending.Sublist l.queued
  dropped : ∀ x ∈ l.queued, x ∉ l.agent.pending → ∀ z ∈ l.agent.pending, x.1 < z.1
  states_le : ∀ y ∈ l.agent.states.entries, y.1 ≤ l.transport.sentNum
  states_record : ∀ y ∈ l.agent.states.entries, ∃ x ∈ l.queued, x.1 = y.2
  states_mono : ∀ y ∈ l.agent.states.entries, ∀ y' ∈ l.agent.states.entries,
    y.1 ≤ y'.1 → y.2 ≤ y'.2
  acked : l.transport.ackedByRemote ∈ l.everHeld
  held_le : ∀ n ∈ l.everHeld, n ≤ l.transport.sentNum
  num_le : l.transport.sentNum ≤ MAX
  receiver : ∀ n ∈ l.receiver.received, n ∈ l.everHeld
  covers_queued : ∀ x ∈ l.transport.queued, l.Covers x
  covers_sent : ∀ ti ∈ l.sent, l.Covers ti.state
  given : ∀ n ∈ l.everHeld, ∀ z ∈ l.agent.pending, l.SentWith n z.1 → l.Given n z.2
  delivered : ∀ z ∈ l.queued, z ∈ l.agent.pending ∨ l.Given l.transport.ackedByRemote z.2
  handed_all : ∀ ti ∈ l.applied, ∀ e ∈ agentRecords ti.diff, e ∈ l.handed
  seen : ∀ id, id ∈ l.seenAgentRecords ↔ id ∈ l.handed.filterMap MoshRs.HostEvent.agentRecordId
  nodup : (l.handed.filterMap MoshRs.HostEvent.agentRecordId).Nodup
  genuine : ∀ e ∈ l.handed, ∃ y ∈ l.queued, y.2.hostEvent = e

variable {l : RecordLink} {n : ℕ} {m : ℕ}

theorem Given.mono {r : AgentHostRecord} (h : l.Given m r) (hle : m ≤ n) : l.Given n r :=
  let ⟨ti, hti, hnum, hmem⟩ := h
  ⟨ti, hti, hnum.trans hle, hmem⟩

variable {id : ℕ}

theorem SentWith.mono (h : l.SentWith m id) (hle : m ≤ n) :
    l.SentWith n id :=
  let ⟨y, hy, hnum, hid⟩ := h
  ⟨y, hy, hnum.trans hle, hid⟩

variable {x : StateDiff}

/-- A state covers after a step if it did before, the step has taken no record from its base
and added none to the states up to it. -/
theorem Covers.of_step {l' : RecordLink} (h : l.Covers x)
    (hsent : l.transport.sentNum ≤ l'.transport.sentNum) (hqueued : l.queued ⊆ l'.queued)
    (hback : ∀ z ∈ l'.agent.pending, l'.SentWith x.2.1 z.1 →
      z ∈ l.agent.pending ∧ l.SentWith x.2.1 z.1)
    (hforth : ∀ z ∈ l'.agent.pending, l.SentWith x.1 z.1 → l'.SentWith x.1 z.1) :
    l'.Covers x where
  old_le := h.old_le
  new_le := h.new_le.trans hsent
  genuine e he :=
    let ⟨y, hy, heq⟩ := h.genuine e he
    ⟨y, hqueued hy, heq⟩
  carries z hz hwith :=
    let ⟨hz', hwith'⟩ := hback z hz hwith
    (h.carries z hz' hwith').imp_right (hforth z hz)

/-- The server looks up the last record that a state up to `n` was sent with. -/
theorem carried_iff (h : l.Link) (n id : ℕ) :
    (((some n).bind l.agent.states.floor?).map Prod.snd).all (fun carried => carried < id) = true ↔
      ¬ l.SentWith n id := by
  rw [Option.bind_some]
  cases hfloor : l.agent.states.floor? n with
  | none =>
    have hnone := OrdMap.floor?_eq_none_iff.mp hfloor
    simp only [Option.map_none, Option.all_none, true_iff]
    rintro ⟨y, hy, hle, -⟩
    exact absurd (hnone y hy) (Nat.not_lt.mpr hle)
  | some y =>
    obtain ⟨hy, hle, hmax⟩ := OrdMap.floor?_eq_some_iff.mp hfloor
    simp only [Option.map_some, Option.all_some, decide_eq_true_eq]
    constructor
    · rintro hlt ⟨y', hy', hle', hid⟩
      have := h.states_mono y' hy' y hy (hmax y' hy' hle')
      omega
    · exact fun hnot => Nat.lt_of_not_le fun hid => hnot ⟨y, hy, hle, hid⟩

variable {z : ℕ × AgentHostRecord}

/-- A frame from a state carries what no state up to it was sent with. -/
theorem mem_recordsAfter (h : l.Link) (hz : z ∈ l.agent.pending) (hnot : ¬ l.SentWith n z.1) :
    z.2 ∈ l.agent.recordsAfter (some n) :=
  mem_map_of_mem (mem_filter.mpr ⟨hz, (carried_iff h n z.1).mpr hnot⟩)

/-- A frame carries records of the server only. -/
theorem recordsAfter_sublist (s : AgentServer) (base : Option ℕ) :
    (s.recordsAfter base).Sublist (s.pending.map Prod.snd) :=
  filter_sublist.map _

/-- If nothing is missing, then what any state was sent with, the newest queued one was. -/
theorem sentWith_newest (h : l.Link) (hlacks : l.LacksNothing)
    (hle : l.transport.dropStaleUnsent.newestNum ≤ l.transport.sentNum) (hz : z ∈ l.agent.pending)
    (hwith : l.SentWith n z.1) :
    l.SentWith l.transport.dropStaleUnsent.newestNum z.1 := by
  have hwith' : l.SentWith l.transport.sentNum z.1 :=
    let ⟨y, hy, _, hid⟩ := hwith
    ⟨y, hy, h.states_le y hy, hid⟩
  by_contra hnot
  -- Both lookups keep a part of what is pending, and the one a part of the other.
  let keeps := fun (n : ℕ) (x : ℕ × AgentHostRecord) =>
    (((some n).bind l.agent.states.floor?).map Prod.snd).all fun carried => carried < x.1
  have hsub : (l.agent.pending.filter (keeps l.transport.sentNum)).Sublist
      (l.agent.pending.filter (keeps l.transport.dropStaleUnsent.newestNum)) := by
    refine monotone_filter_right _ fun x hx => ?_
    rw [carried_iff h] at hx ⊢
    exact fun hnew => hx (hnew.mono hle)
  have hlen := congrArg List.length hlacks
  rw [AgentServer.recordsAfter, AgentServer.recordsAfter, length_map, length_map] at hlen
  have heq := hsub.eq_of_length hlen.symm
  have hmem : z ∈ l.agent.pending.filter (keeps l.transport.dropStaleUnsent.newestNum) :=
    mem_filter.mpr ⟨hz, (carried_iff h _ _).mpr hnot⟩
  rw [← heq] at hmem
  exact (carried_iff h _ _).mp (mem_filter.mp hmem).2 hwith'

/-! ### Steps of the server -/

variable {s : AgentServer}

/-- At most one record is queued, and its id is above those before. -/
theorem queuesOne_cases {s' : AgentServer} (h : s.QueuesOne s') (hleft : s.nextRecordId < MAX) :
    ∃ new, s'.pending = s.pending ++ new ∧ s'.states = s.states ∧
      s.nextRecordId ≤ s'.nextRecordId ∧ new.Pairwise (fun x y => x.1 < y.1) ∧
      ∀ x ∈ new, x.2.HasId x.1 ∧ s.nextRecordId ≤ x.1 ∧ x.1 < s'.nextRecordId := by
  rcases h with ⟨hp, hn, hs⟩ | ⟨record, hid, hp, hn, hs⟩
  · exact ⟨[], by simpa using hp, hs, hn.ge, .nil, by simp⟩
  · have hnext : nextNum s.nextRecordId = s.nextRecordId + 1 := Nat.min_eq_left hleft
    refine ⟨_, hp, hs, by omega, pairwise_singleton .., fun x hx => ?_⟩
    rw [mem_singleton.mp hx]
    exact ⟨hid, Nat.le_refl _, by rw [hn, hnext]; exact Nat.lt_succ_self _⟩

/-- A record that is queued is new to every state. -/
theorem Link.withAgent (h : l.Link) (hids : s.IdsFit) (hone : l.agent.QueuesOne s)
    (hleft : l.agent.nextRecordId < MAX) :
    (l.withAgent s).Link := by
  obtain ⟨new, hpending, hstates, hnext, hsorted, hnew⟩ := queuesOne_cases hone hleft
  have hqueued : (l.withAgent s).queued = l.queued ++ new := by
    simp [RecordLink.withAgent, hpending]
  have hsub : l.queued ⊆ (l.withAgent s).queued := by simp [hqueued]
  have hwith : ∀ n id, (l.withAgent s).SentWith n id ↔ l.SentWith n id := fun n id => by
    simp only [SentWith, RecordLink.withAgent, hstates]
  -- No state was sent with the new record.
  have hnot : ∀ x ∈ new, ∀ n, ¬ l.SentWith n x.1 := by
    rintro x hx n ⟨y, hy, -, hid⟩
    obtain ⟨z, hz, heq⟩ := h.states_record y hy
    have := h.below z hz
    have := (hnew x hx).2.1
    omega
  have hold : ∀ {n : ℕ} {z}, z ∈ s.pending → l.SentWith n z.1 → z ∈ l.agent.pending := by
    intro n z hz hsent
    rw [hpending] at hz
    exact (mem_append.mp hz).resolve_right fun hx => hnot z hx n hsent
  have hcovers : ∀ x, l.Covers x → (l.withAgent s).Covers x := fun x hx =>
    hx.of_step (Nat.le_refl _) hsub
      (fun z hz hsent => ⟨hold hz ((hwith _ _).mp hsent), (hwith _ _).mp hsent⟩)
      fun z _ hsent => (hwith _ _).mpr hsent
  refine
    { ids := hids
      records := fun x hx => ?_
      sorted := ?_
      below := fun x hx => ?_
      pending := ?_
      dropped := fun x hx hmem z hz => ?_
      states_le := fun y hy => h.states_le y (hstates ▸ hy)
      states_record := fun y hy => ?_
      states_mono := fun y hy y' hy' => h.states_mono y (hstates ▸ hy) y' (hstates ▸ hy')
      acked := h.acked
      held_le := h.held_le
      num_le := h.num_le
      receiver := h.receiver
      covers_queued := fun x hx => hcovers x (h.covers_queued x hx)
      covers_sent := fun ti hti => hcovers _ (h.covers_sent ti hti)
      given := fun n hn z hz hsent =>
        h.given n hn z (hold hz ((hwith _ _).mp hsent)) ((hwith _ _).mp hsent)
      delivered := fun z hz => ?_
      handed_all := h.handed_all
      seen := h.seen
      nodup := h.nodup
      genuine := fun e he =>
        let ⟨y, hy, heq⟩ := h.genuine e he
        ⟨y, hsub hy, heq⟩ }
  · rw [hqueued] at hx
    rcases mem_append.mp hx with hx | hx
    · exact h.records x hx
    · exact (hnew x hx).1
  · rw [hqueued, pairwise_append]
    exact ⟨h.sorted, hsorted, fun x hx y hy => (h.below x hx).trans_le (hnew y hy).2.1⟩
  · rw [hqueued] at hx
    rcases mem_append.mp hx with hx | hx
    · exact (h.below x hx).trans_le hnext
    · exact (hnew x hx).2.2
  · rw [hqueued]
    exact hpending ▸ h.pending.append (List.Sublist.refl new)
  · have hmem' : x ∉ l.agent.pending ∧ x ∉ new := by
      rw [← not_or, ← mem_append, ← hpending]
      exact hmem
    have hx' : x ∈ l.queued := by
      rw [hqueued] at hx
      exact (mem_append.mp hx).resolve_right hmem'.2
    have hz' : z ∈ l.agent.pending ++ new := hpending ▸ hz
    rcases mem_append.mp hz' with hz' | hz'
    · exact h.dropped x hx' hmem'.1 z hz'
    · exact (h.below x hx').trans_le (hnew z hz').2.1
  · obtain ⟨x, hx, heq⟩ := h.states_record y (hstates ▸ hy)
    exact ⟨x, hsub hx, heq⟩
  · have hpending' : (l.withAgent s).agent.pending = l.agent.pending ++ new := hpending
    rw [hqueued] at hz
    rw [hpending', mem_append]
    rcases mem_append.mp hz with hz | hz
    · exact (h.delivered z hz).imp_left .inl
    · exact .inl (.inr hz)

/-- An acknowledgement takes records off that the client has been handed. -/
theorem Link.acknowledge (h : l.Link) : l.acknowledge.Link := by
  cases hfloor : l.agent.states.floor? l.transport.ackedByRemote with
  | none =>
    have heq : l.acknowledge = l := by
      simp [RecordLink.acknowledge, AgentServer.acknowledge, hfloor]
    rwa [heq]
  | some y =>
    obtain ⟨hy, hyle, hmax⟩ := OrdMap.floor?_eq_some_iff.mp hfloor
    have hagent : l.acknowledge.agent =
        { l.agent with
          pending := l.agent.pending.filter fun x => y.2 < x.1
          states := l.agent.states.above l.transport.ackedByRemote } := by
      simp [RecordLink.acknowledge, AgentServer.acknowledge, hfloor]
    have hpending : ∀ z, z ∈ l.acknowledge.agent.pending ↔ z ∈ l.agent.pending ∧ y.2 < z.1 := by
      simp [hagent]
    have hstates : ∀ x, x ∈ l.acknowledge.agent.states.entries ↔
        x ∈ l.agent.states.entries ∧ l.transport.ackedByRemote < x.1 := by
      intro x
      rw [hagent]
      exact OrdMap.mem_above
    have hback : ∀ {n id}, l.acknowledge.SentWith n id → l.SentWith n id := by
      rintro n id ⟨x, hx, hle, hid⟩
      exact ⟨x, ((hstates x).mp hx).1, hle, hid⟩
    -- What a forgotten state was sent with is no longer pending.
    have hforth : ∀ {n} {z}, z ∈ l.acknowledge.agent.pending → l.SentWith n z.1 →
        l.acknowledge.SentWith n z.1 := by
      rintro n z hz ⟨x, hx, hle, hid⟩
      refine ⟨x, (hstates x).mpr ⟨hx, ?_⟩, hle, hid⟩
      by_contra hge
      have hxy := h.states_mono x hx y hy (hmax x hx (Nat.le_of_not_lt hge))
      have := ((hpending z).mp hz).2
      omega
    have hcovers : ∀ x, l.Covers x → l.acknowledge.Covers x := fun x hx =>
      hx.of_step (Nat.le_refl _) (List.Subset.refl _)
        (fun z hz hsent => ⟨((hpending z).mp hz).1, hback hsent⟩)
        fun z hz hsent => hforth hz hsent
    exact
      { ids := by
          rw [hagent]
          exact ⟨h.ids.connections, h.ids.outstanding, h.ids.nextConnectionId,
            h.ids.nextRecordId⟩
        records := h.records
        sorted := h.sorted
        below := by
          rw [hagent]
          exact h.below
        pending := by
          rw [hagent]
          exact filter_sublist.trans h.pending
        dropped := by
          intro x hx hmem z hz
          obtain ⟨hz', hlt⟩ := (hpending z).mp hz
          by_cases hx' : x ∈ l.agent.pending
          · have hxle : ¬ y.2 < x.1 := fun hlt' => hmem ((hpending x).mpr ⟨hx', hlt'⟩)
            omega
          · exact h.dropped x hx hx' z hz'
        states_le := fun x hx => h.states_le x ((hstates x).mp hx).1
        states_record := fun x hx => h.states_record x ((hstates x).mp hx).1
        states_mono := fun x hx x' hx' =>
          h.states_mono x ((hstates x).mp hx).1 x' ((hstates x').mp hx').1
        acked := h.acked
        held_le := h.held_le
        num_le := h.num_le
        receiver := h.receiver
        covers_queued := fun x hx => hcovers x (h.covers_queued x hx)
        covers_sent := fun ti hti => hcovers _ (h.covers_sent ti hti)
        given := fun n hn z hz hsent =>
          h.given n hn z ((hpending z).mp hz).1 (hback hsent)
        delivered := by
          intro z hz
          rcases h.delivered z hz with hz' | hgiven
          · by_cases hlt : y.2 < z.1
            · exact .inl ((hpending z).mpr ⟨hz', hlt⟩)
            · exact .inr (h.given _ h.acked z hz' ⟨y, hy, hyle, Nat.le_of_not_lt hlt⟩)
          · exact .inr hgiven
        handed_all := h.handed_all
        seen := h.seen
        nodup := h.nodup
        genuine := h.genuine }

/-! ### Steps of the transport -/

variable {t : Transport}

/-- A transport that queues nothing new, and acknowledges what the client has held. -/
theorem Link.setTransport (h : l.Link) (hqueued : t.queued ⊆ l.transport.queued)
    (hnum : l.transport.sentNum ≤ t.sentNum) (hmax : t.sentNum ≤ MAX)
    (hacked : t.ackedByRemote ∈ l.everHeld) (hle : l.transport.ackedByRemote ≤ t.ackedByRemote) :
    (l.setTransport t).Link := by
  have hcovers : ∀ x, l.Covers x → (l.setTransport t).Covers x := fun x hx =>
    hx.of_step hnum (List.Subset.refl _) (fun z hz hsent => ⟨hz, hsent⟩) fun z _ hsent => hsent
  exact
    { ids := h.ids
      records := h.records
      sorted := h.sorted
      below := h.below
      pending := h.pending
      dropped := h.dropped
      states_le := fun y hy => (h.states_le y hy).trans hnum
      states_record := h.states_record
      states_mono := h.states_mono
      acked := hacked
      held_le := fun n hn => (h.held_le n hn).trans hnum
      num_le := hmax
      receiver := h.receiver
      covers_queued := fun x hx => hcovers x (h.covers_queued x (hqueued hx))
      covers_sent := fun ti hti => hcovers _ (h.covers_sent ti hti)
      given := h.given
      delivered := fun z hz => (h.delivered z hz).imp_right fun hgiven => hgiven.mono hle
      handed_all := h.handed_all
      seen := h.seen
      nodup := h.nodup
      genuine := h.genuine }

variable {ti : Instruction}

/-- An instruction that covers goes on the wire. -/
private theorem Link.send (h : l.Link) (hcovers : l.Covers ti.state) :
    { l with sent := l.sent ++ [ti] : RecordLink }.Link :=
  { h with
    covers_queued := fun x hx => { h.covers_queued x hx with }
    covers_sent := fun ti' hti' => by
      rcases mem_append.mp hti' with hold | hnew
      · exact { h.covers_sent ti' hold with }
      · rw [mem_singleton.mp hnew]
        exact { hcovers with } }

/-- The newest queued state, or the acknowledged one, is a state that was made. -/
theorem newestNum_le (h : l.Link) :
    l.transport.dropStaleUnsent.newestNum ≤ l.transport.sentNum := by
  have hkeeps := l.transport.keeps_dropStaleUnsent
  rw [Transport.newestNum]
  cases hlast : l.transport.dropStaleUnsent.outboundStates.getLast? with
  | none => simpa [hkeeps.ackedByRemote] using h.held_le _ h.acked
  | some state =>
    have hmem := hkeeps.queued (mem_map_of_mem (mem_of_getLast? hlast))
    exact (h.covers_queued _ hmem).new_le

variable {now num : ℕ}

/-- The numbering goes on. -/
private theorem chosen_num (h : l.Link)
    (hchosen : Transport.Chosen l.transport.dropStaleUnsent now x num) :
    l.transport.sentNum ≤ num ∧ num ≤ MAX := by
  have hnum := l.transport.keeps_dropStaleUnsent.sentNum
  cases hchosen with
  | shutdown => exact ⟨h.num_le, Nat.le_refl _⟩
  | shutdownEmpty => exact ⟨h.num_le, Nat.le_refl _⟩
  | queued => exact ⟨hnum.ge, hnum.le.trans h.num_le⟩
  | empty =>
    rw [hnum]
    exact ⟨Nat.le_min.mpr ⟨Nat.le_succ _, h.num_le⟩, AgentServer.nextNum_le _⟩

/-- What `tick` sends covers, if nothing is missing in what it builds an own state on. -/
private theorem covers_chosen (h : l.Link)
    (hchosen : Transport.Chosen l.transport.dropStaleUnsent now x num)
    (hlacks : l.transport.shutdownInProgress = true ∨
      l.transport.dropStaleUnsent.sendIndex now = none → l.LacksNothing) (ht : t.sentNum = num) :
    (l.setTransport t).Covers x := by
  have hkeeps := l.transport.keeps_dropStaleUnsent
  obtain ⟨hle, hmax⟩ := chosen_num h hchosen
  have hnewest := newestNum_le h
  have hempty : agentRecords [] = [] := rfl
  -- An own state carries what the newest queued one was sent with, or builds on it.
  have hbuilt : l.LacksNothing → ∀ {n : ℕ} {z}, z ∈ l.agent.pending → l.SentWith n z.1 →
      l.SentWith l.transport.dropStaleUnsent.newestNum z.1 := fun hl _ _ hz hsent =>
    sentWith_newest h hl hnewest hz hsent
  cases hchosen with
  | shutdown hs hx hbase =>
    have hc := h.covers_queued _ (hkeeps.queued hx)
    have hl := hlacks (.inl (hkeeps.shutdownInProgress ▸ hs))
    refine ⟨hc.old_le.trans (hc.new_le.trans h.num_le), ht.ge, hc.genuine, fun z hz hsent => ?_⟩
    exact hc.carries z hz (hbase ▸ hbuilt hl hz hsent)
  | shutdownEmpty hs hbase =>
    have hl := hlacks (.inl (hkeeps.shutdownInProgress ▸ hs))
    refine ⟨?_, ht.ge, by simp [hempty], fun z hz hsent => .inr (hbase ▸ hbuilt hl hz hsent)⟩
    rw [hkeeps.ackedByRemote]
    exact (h.held_le _ h.acked).trans h.num_le
  | queued hs hx =>
    have hc := h.covers_queued _ (hkeeps.queued hx)
    exact ⟨hc.old_le, hc.new_le.trans (hkeeps.sentNum.ge.trans ht.ge), hc.genuine, hc.carries⟩
  | empty hs hindex =>
    have hl := hlacks (.inr hindex)
    exact ⟨hnewest.trans hle, ht.ge, by simp [hempty], fun z hz hsent => .inr (hbuilt hl hz hsent)⟩

/-- **A `tick`** that sends an own state only where nothing is missing. -/
theorem Link.tick (h : l.Link) (wire : Wire) (now : ℕ)
    (hlacks : l.transport.SendsOwn now → l.LacksNothing) : (l.tick wire now).Link := by
  have hkeeps := l.transport.keeps_dropStaleUnsent
  rcases l.transport.tick_cases wire now with
    ⟨-, heq⟩ | ⟨hdue, -, x, hchosen, hsent, hqueued, hacked, -⟩
  · have htick : l.tick wire now = l.setTransport l.transport.dropStaleUnsent := by
      simp [RecordLink.tick, RecordLink.setTransport, heq]
    rw [htick]
    exact h.setTransport hkeeps.queued hkeeps.sentNum.ge (hkeeps.sentNum.le.trans h.num_le)
      (hkeeps.ackedByRemote ▸ h.acked) hkeeps.ackedByRemote.ge
  · obtain ⟨hle, hmax⟩ := chosen_num h hchosen
    have hset : (l.setTransport (l.transport.tick wire now).2).Link :=
      h.setTransport (hqueued ▸ hkeeps.queued) hle hmax (hacked ▸ h.acked) hacked.ge
    have hcovers := covers_chosen h hchosen (fun hown => hlacks ⟨hdue, hown⟩)
      (t := (l.transport.tick wire now).2) rfl
    cases hresult : (l.transport.tick wire now).1 with
    | sent ti =>
      have hlink := Link.send hset (hsent ti hresult ▸ hcovers)
      simpa [RecordLink.tick, RecordLink.setTransport, hresult] using hlink
    | idle => simpa [RecordLink.tick, RecordLink.setTransport, hresult] using hset
    | tooLarge => simpa [RecordLink.tick, RecordLink.setTransport, hresult] using hset
    | exhausted => simpa [RecordLink.tick, RecordLink.setTransport, hresult] using hset

/-- What an instruction of the peer does to the transport. -/
theorem Link.receive (h : l.Link) (now : ℕ) (hack : ti.ackNum ∈ l.everHeld) :
    (l.setTransport (l.transport.receive now ti).2).Link := by
  obtain ⟨hqueued, hnum, -, hacked⟩ := l.transport.receive_spec now ti
  obtain ⟨hsub, -, -, hcases⟩ := l.transport.processAck_spec ti.ackNum
  refine h.setTransport (hqueued ▸ hsub) hnum.ge (hnum.le.trans h.num_le) ?_ ?_
  · rw [hacked]
    rcases hcases with heq | ⟨heq, -⟩ <;> rw [heq]
    exacts [h.acked, hack]
  · rw [hacked]
    rcases hcases with heq | ⟨heq, hlt, -⟩ <;> rw [heq]
    exact hlt.le

/-! ### Frames -/

/-- What a frame says besides records is written so that it can be read. -/
structure Readable (l : RecordLink) (base : Option ℕ) (instructions : List HostInstruction)
    (queries : List TerminalQuery) : Prop where
  instructions_fit : ∀ i ∈ instructions, i.Fits
  queries_fit : ∀ q ∈ queries, q.id < 2 ^ 64
  length_lt : (encodeHostMessageWithAgent instructions queries (l.agent.recordsAfter base)).length <
    2 ^ 64

variable {base : Option ℕ} {instructions : List HostInstruction} {queries : List TerminalQuery}

/-- The records a frame was built with are those the client reads. -/
theorem agentRecords_frame (h : l.Link) (hread : l.Readable base instructions queries) :
    agentRecords (encodeHostMessageWithAgent instructions queries (l.agent.recordsAfter base)) =
      (l.agent.recordsAfter base).map AgentHostRecord.hostEvent := by
  have hrecords : ∀ r ∈ l.agent.recordsAfter base, r.Fits := fun r hr => by
    obtain ⟨z, hz, rfl⟩ := mem_map.mp ((recordsAfter_sublist _ _).subset hr)
    exact (h.records z (h.pending.subset hz)).fits
  rw [agentRecords, parseHostDiff_encodeHostMessageWithAgent hread.length_lt
    hread.instructions_fit hread.queries_fit hrecords]
  simp only [filter_append]
  rw [filter_eq_nil_iff.mpr, filter_eq_nil_iff.mpr, filter_eq_self.mpr,
    nil_append, nil_append]
  · intro e he
    obtain ⟨r, -, rfl⟩ := mem_map.mp he
    cases r <;> rfl
  · intro e he
    obtain ⟨q, -, he⟩ := mem_flatMap.mp he
    rw [TerminalQuery.hostEvents] at he
    split_ifs at he <;> simp_all [MoshRs.HostEvent.agentRecordId]
  · intro e he
    obtain ⟨i, -, he⟩ := mem_flatMap.mp he
    simp only [HostInstruction.hostEvents, mem_append] at he
    rcases he with (he | he) | he <;> split_ifs at he <;> simp_all [MoshRs.HostEvent.agentRecordId]

variable {y : ℕ × ℕ}

/-- The states after a snapshot: those before, and the new one with the last record. -/
private theorem mem_snapshotForState (h : y ∈ (s.snapshotForState n).states.entries) :
    y ∈ s.states.entries ∨ y.1 = n ∧ ∃ z ∈ s.pending.getLast?, z.1 = y.2 := by
  rw [AgentServer.snapshotForState] at h
  split at h
  · next last r hlast =>
    rcases OrdMap.mem_insert.mp h with rfl | ⟨hy, -⟩
    · exact .inr ⟨rfl, _, hlast, rfl⟩
    · exact .inl hy
  · exact .inl h

private theorem mem_snapshotForState_of_ne (h : y ∈ s.states.entries) (hne : y.1 ≠ n) :
    y ∈ (s.snapshotForState n).states.entries := by
  rw [AgentServer.snapshotForState]
  split
  · exact OrdMap.mem_insert.mpr (.inr ⟨h, hne⟩)
  · exact h

/-- **A frame** is a new state that covers. -/
theorem Link.frame (h : l.Link) (hread : l.Readable base instructions queries)
    (hleft : l.transport.sentNum < MAX) :
    (l.frame base instructions queries).Link := by
  rw [RecordLink.frame]
  split
  · exact h
  split
  swap
  · exact h
  next n t hpending =>
  obtain ⟨-, hn, hbase, hqueued, hnum, hacked, -⟩ := Transport.setPendingOn_spec hpending
  have hnext : n = l.transport.sentNum + 1 := hn.trans (Nat.min_eq_left hleft)
  have hagent : (l.agent.snapshotForState n).pending = l.agent.pending ∧
      (l.agent.snapshotForState n).nextRecordId = l.agent.nextRecordId ∧
      (l.agent.snapshotForState n).IdsFit := by
    rw [AgentServer.snapshotForState]
    split <;> exact ⟨rfl, rfl, h.ids.1, h.ids.2, h.ids.3, h.ids.4⟩
  obtain ⟨hp, hrecord, hids⟩ := hagent
  let l' : RecordLink := { l with transport := t, agent := l.agent.snapshotForState n }
  have hnum' : l'.transport.sentNum = n := hnum
  have hgrows : l.transport.sentNum ≤ l'.transport.sentNum := by omega
  have hsent : ∀ {k id}, k ≤ l.transport.sentNum → l'.SentWith k id → l.SentWith k id := by
    rintro k id hk ⟨y, hy, hle, hid⟩
    rcases mem_snapshotForState hy with hy | ⟨rfl, -⟩
    · exact ⟨y, hy, hle, hid⟩
    · omega
  have hentry : ∀ y ∈ l.agent.states.entries, y ∈ l'.agent.states.entries := by
    intro y hy
    have hle := h.states_le y hy
    exact mem_snapshotForState_of_ne hy (by omega)
  have hkeep : ∀ {k id}, l.SentWith k id → l'.SentWith k id := fun ⟨y, hy, hle, hid⟩ =>
    ⟨y, hentry y hy, hle, hid⟩
  have hcovers : ∀ x, l.Covers x → l'.Covers x := fun x hx =>
    hx.of_step hgrows (List.Subset.refl _)
      (fun z hz hw => ⟨hp ▸ hz, hsent hx.new_le hw⟩) fun z _ hw => hkeep hw
  have hbase' : base.getD l.transport.ackedByRemote ≤ l.transport.sentNum := by
    rcases hbase with hbase | ⟨x, hx, hbase⟩
    · rw [hbase]
      exact h.held_le _ h.acked
    · rw [← hbase]
      exact (h.covers_queued x hx).new_le
  -- The new state: what its records leave out, its base was sent with.
  have hnew : l'.Covers (base.getD l.transport.ackedByRemote, n,
      encodeHostMessageWithAgent instructions queries (l.agent.recordsAfter base)) := by
    refine ⟨hbase'.trans (hgrows.trans hnum'.le), hnum'.ge, fun e he => ?_, fun z hz hw => ?_⟩
    · obtain ⟨r, hr, rfl⟩ := mem_map.mp (agentRecords_frame h hread ▸ he)
      obtain ⟨z, hz, rfl⟩ := mem_map.mp ((recordsAfter_sublist _ _).subset hr)
      exact ⟨z, h.pending.subset hz, rfl⟩
    · have hz' : z ∈ l.agent.pending := hp ▸ hz
      rw [agentRecords_frame h hread]
      cases base with
      | none =>
        exact .inl (mem_map_of_mem (mem_map_of_mem
          (mem_filter.mpr ⟨hz', rfl⟩)))
      | some b =>
        by_cases hb : l.SentWith b z.1
        · exact .inr (hkeep hb)
        · exact .inl (mem_map_of_mem (mem_recordsAfter h hz' hb))
  -- The last record pending is the last one queued.
  have hlast : ∀ z ∈ l.agent.pending.getLast?, ∀ x ∈ l.queued, x.1 ≤ z.1 := by
    intro z hz x hx
    obtain ⟨zs, hzs⟩ := getLast?_eq_some_iff.mp hz
    by_cases hmem : x ∈ l.agent.pending
    · rw [hzs] at hmem
      rcases mem_append.mp hmem with hmem | hmem
      · have hsorted := h.sorted.sublist h.pending
        rw [hzs, pairwise_append] at hsorted
        exact (hsorted.2.2 x hmem z (by simp)).le
      · exact (mem_singleton.mp hmem ▸ Nat.le_refl _)
    · exact (h.dropped x hx hmem z (mem_of_getLast? hz)).le
  have hmade : ∀ y ∈ l'.agent.states.entries, ∃ x ∈ l.queued, x.1 = y.2 := by
    intro y hy
    rcases mem_snapshotForState hy with hy | ⟨-, z, hz, heq⟩
    · exact h.states_record y hy
    · exact ⟨z, h.pending.subset (mem_of_getLast? hz), heq⟩
  exact
    { ids := hids
      records := h.records
      sorted := h.sorted
      below := fun x hx => hrecord ▸ h.below x hx
      pending := hp ▸ h.pending
      dropped := fun x hx hmem z hz => h.dropped x hx (hp ▸ hmem) z (hp ▸ hz)
      states_le := fun y hy => by
        rcases mem_snapshotForState hy with hy | ⟨rfl, -⟩
        · exact (h.states_le y hy).trans hgrows
        · exact hnum'.ge
      states_record := hmade
      states_mono := fun y hy y' hy' hle => by
        rcases mem_snapshotForState hy' with hold' | ⟨-, z, hz, heq⟩
        · rcases mem_snapshotForState hy with hold | ⟨hyn, -⟩
          · exact h.states_mono y hold y' hold' hle
          · have := h.states_le y' hold'
            omega
        · obtain ⟨x, hx, hxy⟩ := hmade y hy
          exact heq ▸ hxy ▸ hlast z hz x hx
      acked := hacked ▸ h.acked
      held_le := fun k hk => (h.held_le k hk).trans hgrows
      num_le := hnum'.le.trans (by omega)
      receiver := h.receiver
      covers_queued := fun x hx => by
        rcases hqueued x hx with hx | rfl
        · exact hcovers x (h.covers_queued x hx)
        · exact hnew
      covers_sent := fun ti hti => hcovers _ (h.covers_sent ti hti)
      given := fun k hk z hz hw => h.given k hk z (hp ▸ hz) (hsent (h.held_le k hk) hw)
      delivered := fun z hz => by
        have hacked' : t.ackedByRemote = l.transport.ackedByRemote := hacked
        exact (h.delivered z hz).imp (fun hz => hp ▸ hz) fun hg => hacked' ▸ hg
      handed_all := h.handed_all
      seen := h.seen
      nodup := h.nodup
      genuine := h.genuine }

/-! ### The client -/

/-- An event with an id is the one record of this id. -/
private theorem eq_of_recordId (h : l.Link) {e e' : MoshRs.HostEvent}
    (he : ∃ y ∈ l.queued, y.2.hostEvent = e) (he' : ∃ y ∈ l.queued, y.2.hostEvent = e')
    (hid : e.agentRecordId = some id) (hid' : e'.agentRecordId = some id) : e = e' := by
  obtain ⟨y, hy, rfl⟩ := he
  obtain ⟨y', hy', rfl⟩ := he'
  have hkey : y.1 = y'.1 := ((h.records y hy).agentRecordId id hid).symm.trans
    ((h.records y' hy').agentRecordId id hid')
  rw [OrdMap.eq_of_key_eq (m := ⟨l.queued, h.sorted⟩) hy hy' hkey]

/-- **A state the client takes** hands out what it carries and was not handed out before. -/
theorem Link.deliver (h : l.Link) (now : ℕ) (hti : ti ∈ l.sent) : (l.deliver now ti).Link := by
  have hcovers := h.covers_sent ti hti
  rcases l.receiver.process_cases now ti with ⟨hnone, hsub⟩ | ⟨hsome, hold, hsub⟩
  · have heq : l.deliver now ti = { l with receiver := (l.receiver.process now ti).2 } := by
      simp [RecordLink.deliver, hnone]
    rw [heq]
    exact { h with
      receiver := fun n hn => h.receiver n (hsub n hn)
      covers_queued := fun x hx => { h.covers_queued x hx with }
      covers_sent := fun ti' hti' => { h.covers_sent ti' hti' with } }
  · have heq : l.deliver now ti = { l with
        receiver := (l.receiver.process now ti).2
        everHeld := l.everHeld ++ [ti.newNum]
        applied := l.applied ++ [ti]
        handed := l.handed ++ (deduplicate MoshRs.HostEvent.agentRecordId l.seenAgentRecords
          (agentRecords ti.diff)).1
        seenAgentRecords := (deduplicate MoshRs.HostEvent.agentRecordId l.seenAgentRecords
          (agentRecords ti.diff)).2 } := by
      simp [RecordLink.deliver, hsome]
    rw [heq]
    have hgiven : ∀ {n r}, l.Given n r → ∃ ti' ∈ l.applied ++ [ti], ti'.newNum ≤ n ∧
        r.hostEvent ∈ agentRecords ti'.diff := by
      rintro n r ⟨ti', hti', hle, hmem⟩
      exact ⟨ti', mem_append_left _ hti', hle, hmem⟩
    have hnodup := nodup_deduplicate MoshRs.HostEvent.agentRecordId l.seenAgentRecords
      (agentRecords ti.diff)
    have hgenuine : ∀ e ∈ l.handed ++ (deduplicate MoshRs.HostEvent.agentRecordId l.seenAgentRecords
        (agentRecords ti.diff)).1, ∃ y ∈ l.queued, y.2.hostEvent = e := by
      intro e he
      rcases mem_append.mp he with he | he
      · exact h.genuine e he
      · exact hcovers.genuine e ((deduplicate_sublist _ _).subset he)
    exact { h with
      acked := mem_append_left _ h.acked
      held_le := fun n hn => by
        rcases mem_append.mp hn with hn | hn
        · exact h.held_le n hn
        · rw [mem_singleton.mp hn]
          exact hcovers.new_le
      receiver := fun n hn => by
        rcases hsub n hn with rfl | hn
        · exact mem_append_right _ (mem_singleton.mpr rfl)
        · exact mem_append_left _ (h.receiver n hn)
      covers_queued := fun x hx => { h.covers_queued x hx with }
      covers_sent := fun ti' hti' => { h.covers_sent ti' hti' with }
      given := fun n hn z hz hsent => by
        rcases mem_append.mp hn with hn | hn
        · exact hgiven (h.given n hn z hz hsent)
        · rw [mem_singleton.mp hn] at hsent ⊢
          -- What the diff does not carry, the base was sent with, and the client held it.
          rcases hcovers.carries z hz hsent with hmem | hbase
          · exact ⟨ti, by simp, Nat.le_refl _, hmem⟩
          · exact hgiven ((h.given _ (h.receiver _ hold) z hz hbase).mono hcovers.old_le)
      delivered := fun z hz => (h.delivered z hz).imp_right hgiven
      handed_all := fun ti' hti' e he => by
        rcases mem_append.mp hti' with hti' | hti'
        · exact mem_append_left _ (h.handed_all ti' hti' e he)
        · rw [mem_singleton.mp hti'] at he
          cases hid : e.agentRecordId with
          | none => exact mem_append_right _ (mem_deduplicate_of_none he hid)
          | some id =>
            have hids : id ∈ (l.handed ++ (deduplicate MoshRs.HostEvent.agentRecordId
                l.seenAgentRecords (agentRecords ti.diff)).1).filterMap
                  MoshRs.HostEvent.agentRecordId := by
              rw [filterMap_append, mem_append]
              exact (mem_seen_deduplicate.mp (mem_seen_of_mem he hid)).imp_left (h.seen id).mp
            obtain ⟨e', he', hid'⟩ := mem_filterMap.mp hids
            rwa [eq_of_recordId h (hcovers.genuine e he) (hgenuine e' he') hid hid']
      seen := fun id => by
        rw [mem_seen_deduplicate, filterMap_append, mem_append, h.seen]
      nodup := by
        rw [filterMap_append, nodup_append]
        refine ⟨h.nodup, hnodup.1, fun id hid id' hid' heq => ?_⟩
        exact hnodup.2 id' hid' ((h.seen id').mpr (heq ▸ hid))
      genuine := hgenuine }

/-! ### What holds of every record -/

/-- A session starts with one record, or none that says so. -/
theorem link_new (error : Option (List UInt8)) (now : ℕ) : (new error now).Link := by
  have hpending : (AgentServer.new error).pending = [(1, .ready error.isNone error)] := rfl
  have hnone : ∀ n id, ¬ (new error now).SentWith n id := by
    rintro n id ⟨y, hy, -⟩
    simp [new, AgentServer.new, AgentServer.queue, OrdMap.empty] at hy
  exact
    { ids := AgentServer.idsFit_new error
      records := by
        simp only [new, hpending, mem_singleton, forall_eq]
        exact ⟨trivial, fun n hn => nomatch hn⟩
      sorted := by simp [new, hpending]
      below := by
        simp only [new, hpending, mem_singleton, forall_eq]
        exact (show 1 < nextNum 1 by decide)
      pending := List.Sublist.refl _
      dropped := fun x hx hmem => absurd hx hmem
      states_le := by simp [new, AgentServer.new, AgentServer.queue, OrdMap.empty]
      states_record := by simp [new, AgentServer.new, AgentServer.queue, OrdMap.empty]
      states_mono := by simp [new, AgentServer.new, AgentServer.queue, OrdMap.empty]
      acked := mem_singleton.mpr rfl
      held_le := by simp [new]
      num_le := Nat.zero_le _
      receiver := fun n hn => hn
      covers_queued := by simp [new, Transport.newServer, Transport.new, Transport.queued]
      covers_sent := by simp [new]
      given := fun n _ z _ hsent => absurd hsent (hnone n z.1)
      delivered := fun z hz => .inl hz
      handed_all := by simp [new]
      seen := by simp [new]
      nodup := by simp [new]
      genuine := by simp [new] }

/-- **Every record is handed out once**: no id twice, and nothing that was not queued; a record
is dropped only once a state up to the acknowledged one has brought it to the client; and what
has not been handed out is in every frame, from whatever state the client holds. -/
structure HandedOnce (l : RecordLink) : Prop where
  once : (l.handed.filterMap MoshRs.HostEvent.agentRecordId).Nodup
  genuine : ∀ e ∈ l.handed, ∃ x ∈ l.queued, x.2.hostEvent = e
  kept : ∀ x ∈ l.queued, x ∈ l.agent.pending ∨
    ∃ ti ∈ l.applied, ti.newNum ≤ l.transport.ackedByRemote ∧
      x.2.hostEvent ∈ agentRecords ti.diff ∧ x.2.hostEvent ∈ l.handed
  carried : ∀ x ∈ l.queued, x.2.hostEvent ∈ l.handed ∨
    x.2 ∈ l.agent.recordsAfter none ∧ ∀ n ∈ l.everHeld, x.2 ∈ l.agent.recordsAfter (some n)

theorem Link.handedOnce (h : l.Link) : l.HandedOnce := by
  have hhanded : ∀ {n r}, l.Given n r → r.hostEvent ∈ l.handed := by
    rintro n r ⟨ti, hti, -, hmem⟩
    exact h.handed_all ti hti _ hmem
  refine ⟨h.nodup, h.genuine, fun x hx => ?_, fun x hx => ?_⟩
  · exact (h.delivered x hx).imp_right fun ⟨ti, hti, hle, hmem⟩ =>
      ⟨ti, hti, hle, hmem, h.handed_all ti hti _ hmem⟩
  · by_cases hmem : x.2.hostEvent ∈ l.handed
    · exact .inl hmem
    · have hpending : x ∈ l.agent.pending :=
        (h.delivered x hx).resolve_right fun hg => hmem (hhanded hg)
      refine .inr ⟨mem_map_of_mem (mem_filter.mpr ⟨hpending, rfl⟩), fun n hn => ?_⟩
      exact mem_recordsAfter h hpending fun hsent => hmem (hhanded (h.given n hn x hpending hsent))

end RecordLink

end Zetta.Zosh
