import Zetta.Zmux.Server.Handover

/-!
# How viewers leave a pane

Viewers leave explicitly, by the end of their connection, by stalling, or because their queue is
found closed. Whatever the way, the pane stays with whoever has its terminal, a shared set only
loses viewers, and the pane is unheld when it has lost the last of them and nobody waits to join
(`Departed`). What is recorded of a handover is forgotten with the last viewer, unless it is
through the queues that the set is found empty.
-/

namespace Zetta.Zmux.Server

/-- Viewers have left the pane; `emptied` says that its set may be empty because of its queues. -/
structure Departed (emptied : Prop) (pane t : Pane) : Prop where
  /-- A terminal that a client has stays with it, and a shared set only loses viewers. -/
  attachment : t.attachment = pane.attachment ∨
    ∃ clients, pane.attachment = .shared clients ∧
      (t.attachment = .none ∨ ∃ remaining, t.attachment = .shared remaining ∧
        ∀ client ∈ remaining, ∃ before ∈ clients, before.attachment = client.attachment)
  /-- It is unheld only when nobody waits to join. -/
  waited : t.attachment = .none → pane.attachment = .none ∨ pane.handoverWaiters = 0
  /-- It is shared with nobody only when somebody waits to join. -/
  empty : t.attachment = .shared [] → pane.attachment = .shared [] ∨ pane.handoverWaiters ≠ 0
  waiters : t.handoverWaiters = pane.handoverWaiters
  reader : t.readerRunning = pane.readerRunning
  exited : t.exited = pane.exited
  clientId : t.attachmentClientId = pane.attachmentClientId ∨
    (∃ clients, pane.attachment = .shared clients) ∧ t.attachmentClientId = none
  handover : t.handedOver.map (·.clientProcessId) = pane.handedOver.map (·.clientProcessId) ∨
    t.handedOver = none
  /-- With the last viewer the record of a handover goes. -/
  forgotten : t.attachment = .none → pane.attachment = .none ∨ t.handedOver = none ∨ emptied

namespace Departed

variable {emptied emptied' : Prop} {pane t u : Pane}

theorem refl (pane : Pane) : Departed emptied pane pane where
  attachment := .inl rfl
  waited := .inl
  empty := .inl
  waiters := rfl
  reader := rfl
  exited := rfl
  clientId := .inl rfl
  handover := .inl rfl
  forgotten := .inl

/-- A pane that differs in nothing that departures are about. -/
theorem of_eq (h : t.attachment = pane.attachment) (hwaiters : t.handoverWaiters = pane.handoverWaiters)
    (hreader : t.readerRunning = pane.readerRunning) (hexited : t.exited = pane.exited)
    (hclient : t.attachmentClientId = pane.attachmentClientId)
    (hhandover : t.handedOver.map (·.clientProcessId) = pane.handedOver.map (·.clientProcessId)) :
    Departed emptied pane t where
  attachment := .inl h
  waited ht := .inl (h ▸ ht)
  empty ht := .inl (h ▸ ht)
  waiters := hwaiters
  reader := hreader
  exited := hexited
  clientId := .inl hclient
  handover := .inl hhandover
  forgotten ht := .inl (h ▸ ht)

theorem mono (h : Departed emptied pane t) (himp : emptied → emptied') :
    Departed emptied' pane t :=
  { h with forgotten := fun ht => (h.forgotten ht).imp_right (Or.imp_right himp) }

/-- Departures compose. -/
theorem trans (h : Departed emptied pane t) (h' : Departed emptied t u) :
    Departed emptied pane u where
  attachment := by
    rcases h'.attachment with heq' | ⟨middle, ht, hu⟩
    · rw [heq']
      exact h.attachment
    rcases h.attachment with heq | ⟨clients, hpane, hnone | ⟨between, hshared, hsub⟩⟩
    · rw [← heq]
      exact .inr ⟨middle, ht, hu⟩
    · rw [hnone] at ht
      cases ht
    · cases hshared.symm.trans ht
      refine .inr ⟨clients, hpane, hu.imp_right fun ⟨remaining, hremaining, hrest⟩ =>
        ⟨remaining, hremaining, fun client hc => ?_⟩⟩
      obtain ⟨client', hmem, hsame⟩ := hrest client hc
      obtain ⟨before, hbefore, hsame'⟩ := hsub client' hmem
      exact ⟨before, hbefore, hsame'.trans hsame⟩
  waited hu := by
    rcases h'.waited hu with ht | hw
    · exact h.waited ht
    · exact .inr (h.waiters ▸ hw)
  empty hu := by
    rcases h'.empty hu with ht | hw
    · exact h.empty ht
    · exact .inr (h.waiters ▸ hw)
  waiters := h'.waiters.trans h.waiters
  reader := h'.reader.trans h.reader
  exited := h'.exited.trans h.exited
  clientId := by
    rcases h'.clientId with heq' | ⟨⟨clients, ht⟩, hnone⟩
    · rw [heq']
      exact h.clientId
    · refine .inr ⟨?_, hnone⟩
      rcases h.attachment with heq | ⟨clients', hpane, -⟩
      · exact ⟨clients, heq ▸ ht⟩
      · exact ⟨clients', hpane⟩
  handover := by
    rcases h'.handover with heq' | hnone
    · rcases h.handover with heq | hnone
      · exact .inl (heq'.trans heq)
      · refine .inr ?_
        rw [hnone] at heq'
        exact Option.map_eq_none_iff.mp heq'
    · exact .inr hnone
  forgotten hu := by
    rcases h'.forgotten hu with ht | hnone
    · rcases h.forgotten ht with hpane | hnone | hemptied
      · exact .inl hpane
      · refine .inr (.inl ?_)
        rcases h'.handover with heq' | hnone'
        · rw [hnone] at heq'
          exact Option.map_eq_none_iff.mp heq'
        · exact hnone'
      · exact .inr (.inr hemptied)
    · exact .inr hnone

end Departed

/-- Collapsing what is left of a shared set. -/
theorem departed_collapse {pane : Pane} {clients remaining : List SharedClient}
    (hshared : pane.attachment = .shared clients)
    (hsub : ∀ client ∈ remaining, ∃ before ∈ clients, before.attachment = client.attachment) :
    Departed (remaining = []) pane { pane with
      attachment := collapseEmptyShared (.shared remaining) pane.handoverWaiters } := by
  rw [collapseEmptyShared]
  split
  next h =>
    exact {
      attachment := .inr ⟨clients, hshared, .inl rfl⟩
      waited := fun _ => .inr h.1
      empty := nofun
      waiters := rfl
      reader := rfl
      exited := rfl
      clientId := .inl rfl
      handover := .inl rfl
      forgotten := fun _ => .inr (.inr (Attachment.shared.inj h.2)) }
  next h =>
    exact {
      attachment := .inr ⟨clients, hshared, .inr ⟨remaining, rfl, hsub⟩⟩
      waited := nofun
      empty := fun ht => .inr fun hw => h ⟨hw, ht⟩
      waiters := rfl
      reader := rfl
      exited := rfl
      clientId := .inl rfl
      handover := .inl rfl
      forgotten := nofun }

/-- There are viewers, and no queue of theirs takes frames. -/
def Pane.Unreachable (pane : Pane) : Prop := pane.viewers ≠ [] ∧ living pane.viewers = []

/-- The viewers that remain are told a new size, and none of their queues takes frames. -/
def Pane.Starved (pane : Pane) (remaining : List SharedClient) : Prop :=
  remaining ≠ [] ∧ living remaining = [] ∧
    effectiveSize { pane with attachment := .shared remaining } ≠ pane.size

variable (pane : Pane)

/-- A frame is queued: the viewers whose queues are closed leave. -/
theorem departed_queue (frame : Frame) :
    Departed pane.Unreachable pane { pane with
      attachment := (queueForSharedClients pane.attachment pane.handoverWaiters frame).1 } := by
  cases hattachment : pane.attachment with
  | shared clients =>
    have hsub : ∀ client ∈ (living pane.viewers).map (·.queue frame),
        ∃ before ∈ clients, before.attachment = client.attachment := by
      intro client hc
      obtain ⟨before, hbefore, rfl⟩ := List.mem_map.mp hc
      rw [living, Pane.viewers, hattachment] at hbefore
      exact ⟨before, List.mem_of_mem_filter hbefore, rfl⟩
    have hliving : (clients.filter fun client => !client.relay.closed) = living pane.viewers := by
      rw [living, Pane.viewers, hattachment]
    simp only [queueForSharedClients, hliving]
    split
    next hany =>
      refine (departed_collapse hattachment hsub).mono fun h => ⟨?_, List.map_eq_nil_iff.mp h⟩
      rw [Pane.viewers, hattachment]
      rintro rfl
      cases hany
    next hopen =>
      -- Nobody has left.
      have hall : living pane.viewers = clients := by
        rw [← hliving]
        refine List.filter_eq_self.mpr fun client hc => ?_
        have := List.any_eq_false.mp (Bool.eq_false_iff.mpr hopen) client hc
        simpa using this
      exact {
        attachment := .inr ⟨clients, hattachment, .inr ⟨_, rfl, hsub⟩⟩
        waited := nofun
        empty := fun ht => .inl <| by
          rw [hattachment, ← hall, List.map_eq_nil_iff.mp (Attachment.shared.inj ht)]
        waiters := rfl
        reader := rfl
        exited := rfl
        clientId := .inl rfl
        handover := .inl rfl
        forgotten := nofun }
  | none => exact .of_eq hattachment.symm rfl rfl rfl rfl rfl
  | exclusive holder => exact .of_eq hattachment.symm rfl rfl rfl rfl rfl
  | revoking holder => exact .of_eq hattachment.symm rfl rfl rfl rfl rfl
  | granting holder => exact .of_eq hattachment.symm rfl rfl rfl rfl rfl

variable (revision : ℕ)

theorem departed_broadcastSize (size : ℕ × ℕ) :
    Departed pane.Unreachable pane (broadcastSize pane revision size) :=
  departed_queue pane _

/-- The departure of some viewers is settled. -/
theorem departed_settle {pane : Pane} {clients remaining : List SharedClient} (removed : Bool)
    (hshared : pane.attachment = .shared clients)
    (hsub : ∀ client ∈ remaining, ∃ before ∈ clients, before.attachment = client.attachment) :
    Departed (removed = true ∧ pane.Starved remaining) pane
      (settleSharedDeparture { pane with attachment := .shared remaining } revision removed) := by
  have hkept : (remaining = [] → pane.handoverWaiters ≠ 0) →
      Departed (removed = true ∧ pane.Starved remaining) pane
        { pane with attachment := .shared remaining } := fun hempty => {
    attachment := .inr ⟨clients, hshared, .inr ⟨remaining, rfl, hsub⟩⟩
    waited := nofun
    empty := fun ht => .inr (hempty (Attachment.shared.inj ht))
    waiters := rfl
    reader := rfl
    exited := rfl
    clientId := .inl rfl
    handover := .inl rfl
    forgotten := nofun }
  simp only [settleSharedDeparture]
  split_ifs with hempty hremoved hsize
  · exact {
      attachment := .inr ⟨clients, hshared, .inl rfl⟩
      waited := fun _ => .inr hempty.2
      empty := nofun
      waiters := rfl
      reader := rfl
      exited := rfl
      clientId := .inr ⟨⟨clients, hshared⟩, rfl⟩
      handover := .inr rfl
      forgotten := fun _ => .inr (.inl rfl) }
  · -- The size of a set that is empty does not change.
    have hne : remaining ≠ [] := by
      rintro rfl
      exact hsize rfl
    set size := effectiveSize { pane with attachment := .shared remaining }
    have hresized : Departed (remaining ≠ [] ∧ living remaining = [])
        { pane with attachment := .shared remaining }
        { pane with attachment := .shared remaining, size := size } :=
      .of_eq rfl rfl rfl rfl rfl rfl
    have hbroadcast := hresized.trans (departed_broadcastSize
      { pane with attachment := .shared remaining, size := size } revision size)
    exact (hkept fun h => absurd h hne).trans (hbroadcast.mono fun h => ⟨hremoved, h.1, h.2, hsize⟩)
  · exact hkept fun h hw => hempty ⟨h, hw⟩
  · exact hkept fun h hw => hempty ⟨h, hw⟩

theorem departed_retain (keep : SharedClient → Bool) :
    Departed ((pane.retainClients keep).2 = true ∧ pane.Starved (pane.viewers.filter keep)) pane
      (settleSharedDeparture (pane.retainClients keep).1 revision (pane.retainClients keep).2) := by
  cases hattachment : pane.attachment with
  | shared clients =>
    have hretain : pane.retainClients keep =
        ({ pane with attachment := .shared (clients.filter keep) }, clients.any (!keep ·)) := by
      rw [Pane.retainClients, hattachment]
    rw [hretain, Pane.viewers, hattachment]
    exact departed_settle revision _ hattachment fun client hc =>
      ⟨client, List.mem_of_mem_filter hc, rfl⟩
  | none => simpa [Pane.retainClients, settleSharedDeparture, hattachment] using .refl pane
  | exclusive holder => simpa [Pane.retainClients, settleSharedDeparture, hattachment] using .refl pane
  | revoking holder => simpa [Pane.retainClients, settleSharedDeparture, hattachment] using .refl pane
  | granting holder => simpa [Pane.retainClients, settleSharedDeparture, hattachment] using .refl pane

/-- Settling a pane from whose set viewers have been taken before. -/
theorem departed_settle_self (removed : Bool) :
    Departed (pane.Starved pane.viewers) pane (settleSharedDeparture pane revision removed) := by
  by_cases hshared : ∃ clients, pane.attachment = .shared clients
  · obtain ⟨clients, hshared⟩ := hshared
    have hself : ({ pane with attachment := .shared clients } : Pane) = pane := by rw [← hshared]
    have hsettle := departed_settle revision removed hshared fun client hc => ⟨client, hc, rfl⟩
    rw [hself] at hsettle
    refine hsettle.mono fun h => ?_
    rw [Pane.viewers, hshared]
    exact h.2
  · have hsame : settleSharedDeparture pane revision removed = pane := by
      rw [settleSharedDeparture]
      split
      next clients h => exact absurd ⟨clients, h⟩ hshared
      · rfl
    rw [hsame]
    exact .refl pane

/-- Viewers that have stalled are evicted, which is settled. -/
theorem departed_evict (stalled : List ℕ) :
    Departed ((relayBackpressure pane stalled).2 = true ∧
        (pane.viewers.filter (!stalled.contains ·.attachment) = [] ∨
          pane.Starved (pane.viewers.filter (!stalled.contains ·.attachment)))) pane
      (if (relayBackpressure pane stalled).2 then
        settleSharedDeparture (relayBackpressure pane stalled).1 revision true
      else (relayBackpressure pane stalled).1) := by
  set keep : SharedClient → Bool := fun client => !stalled.contains client.attachment with hkeep
  cases hattachment : pane.attachment with
  | shared clients =>
    have hretain : pane.retainClients keep =
        ({ pane with attachment := .shared (clients.filter keep) }, clients.any (!keep ·)) := by
      rw [Pane.retainClients, hattachment]
    have hviewers : pane.viewers = clients := by rw [Pane.viewers, hattachment]
    simp only [relayBackpressure, ← hkeep, hretain]
    by_cases hany : (clients.any (!keep ·)) = true
    · simp only [hany, if_true]
      set collapsed : Pane := { pane with
        attachment := collapseEmptyShared (.shared (clients.filter keep)) pane.handoverWaiters }
      have hcollapse : Departed (True ∧ (pane.viewers.filter keep = [] ∨
          pane.Starved (pane.viewers.filter keep))) pane collapsed := by
        rw [hviewers]
        exact (departed_collapse hattachment fun client hc =>
          ⟨client, List.mem_of_mem_filter hc, rfl⟩).mono fun h => ⟨trivial, .inl h⟩
      refine hcollapse.trans ((departed_settle_self collapsed revision true).mono fun h => ?_)
      rw [hviewers]
      by_cases hempty : pane.handoverWaiters = 0 ∧
          Attachment.shared (clients.filter keep) = .shared []
      · exact ⟨trivial, .inl (Attachment.shared.inj hempty.2)⟩
      · have hleft : collapsed.viewers = clients.filter keep := by
          simp only [collapsed, Pane.viewers, collapseEmptyShared, if_neg hempty]
        rw [hleft] at h
        exact ⟨trivial, .inr h⟩
    · simp only [hany, Bool.false_eq_true, if_false]
      exact .refl pane
  | none => simpa [relayBackpressure, Pane.retainClients, hattachment] using .refl pane
  | exclusive holder => simpa [relayBackpressure, Pane.retainClients, hattachment] using .refl pane
  | revoking holder => simpa [relayBackpressure, Pane.retainClients, hattachment] using .refl pane
  | granting holder => simpa [relayBackpressure, Pane.retainClients, hattachment] using .refl pane

/-- Whoever is still in the set after a frame was queued has a queue that takes frames. -/
theorem living_relayOutput (bytes : List UInt8) :
    living (relayOutput pane bytes).1.viewers = (relayOutput pane bytes).1.viewers := by
  have hliving : ∀ clients : List SharedClient,
      living ((living clients).map (·.queue (.output pane.id bytes))) =
        (living clients).map (·.queue (.output pane.id bytes)) := by
    intro clients
    refine List.filter_eq_self.mpr fun client hc => ?_
    obtain ⟨client, hmem, rfl⟩ := List.mem_map.mp hc
    exact (List.mem_filter.mp hmem).2
  cases hattachment : pane.attachment with
  | shared clients =>
    -- The set keeps the viewers whose queues are open, or is found empty.
    have hqueued : (relayOutput pane bytes).1.attachment = .none ∨
        (relayOutput pane bytes).1.attachment =
          .shared ((living clients).map (·.queue (.output pane.id bytes))) := by
      simp only [relayOutput, hattachment, queueForSharedClients, collapseEmptyShared]
      split
      · split
        · exact .inl rfl
        · exact .inr rfl
      · exact .inr rfl
    rcases hqueued with hnone | hshared
    · rw [Pane.viewers, hnone]
      rfl
    · rw [Pane.viewers, hshared]
      exact hliving clients
  | none => simp [relayOutput, queueForSharedClients, Pane.viewers, hattachment, living]
  | exclusive holder => simp [relayOutput, queueForSharedClients, Pane.viewers, hattachment, living]
  | revoking holder => simp [relayOutput, queueForSharedClients, Pane.viewers, hattachment, living]
  | granting holder => simp [relayOutput, queueForSharedClients, Pane.viewers, hattachment, living]

/-- Output is relayed, and what that dropped is settled. -/
theorem departed_drainOutput (bytes : List UInt8) :
    Departed pane.Unreachable pane (Handover.drainOutput pane revision bytes) := by
  set recorded := recordHandoverOutput { pane with retained := pane.retained ++ bytes } bytes
    with hrecorded
  have hrecord : Departed pane.Unreachable pane recorded := by
    refine .of_eq rfl rfl rfl rfl rfl ?_
    rw [hrecorded, recordHandoverOutput, Option.map_map]
    rfl
  have hrelay : Departed pane.Unreachable pane (relayOutput recorded bytes).1 :=
    hrecord.trans (departed_queue recorded _)
  simp only [Handover.drainOutput, ← hrecorded]
  split
  · refine hrelay.trans ((departed_settle_self _ revision true).mono fun hstarved => ?_)
    exact absurd ((living_relayOutput recorded bytes).symm.trans hstarved.2.1) hstarved.1
  · exact hrelay

theorem departed_closeRelay (attachment : ℕ) (pane : Pane) :
    Departed False pane (Handover.closeRelay attachment pane) := by
  cases hattachment : pane.attachment with
  | shared clients =>
    simp only [Handover.closeRelay, hattachment]
    exact {
      attachment := .inr ⟨clients, hattachment, .inr ⟨_, rfl, fun client hc => by
        obtain ⟨before, hbefore, rfl⟩ := List.mem_map.mp hc
        exact ⟨before, hbefore, by split <;> rfl⟩⟩⟩
      waited := nofun
      empty := fun ht => .inl <| by
        rw [hattachment, List.map_eq_nil_iff.mp (Attachment.shared.inj ht)]
      waiters := rfl
      reader := rfl
      exited := rfl
      clientId := .inl rfl
      handover := .inl rfl
      forgotten := nofun }
  | none => simpa [Handover.closeRelay, hattachment] using .refl pane
  | exclusive holder => simpa [Handover.closeRelay, hattachment] using .refl pane
  | revoking holder => simpa [Handover.closeRelay, hattachment] using .refl pane
  | granting holder => simpa [Handover.closeRelay, hattachment] using .refl pane

/-- A terminal that a client has stays with it when viewers leave. -/
theorem Departed.holderOf {emptied : Prop} {pane t : Pane} (h : Departed emptied pane t) {p : ℕ}
    (hp : Handover.holderOf pane.attachment = some p) : Handover.holderOf t.attachment = some p := by
  rcases h.attachment with heq | ⟨clients, hshared, -⟩
  · rwa [heq]
  · rw [hshared] at hp
    cases hp

end Zetta.Zmux.Server
