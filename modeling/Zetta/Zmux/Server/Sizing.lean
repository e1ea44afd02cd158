import Zetta.Lib.Run
import Zetta.Zmux.Server.Pane

/-!
# The size of a shared pane

A shared pane runs at the smallest size its measured viewers reported. The viewers join, report,
leave, stall and die in any order, and edits of the session make the windows' reports void; a
step is what one handler does under the sessions lock.

* `arbitrated_of_run`: while no size event discovers a dead queue on whose viewer the size
  depends, and no edit leaves a relay's report behind that asks for another size, the pane runs
  at the per-axis minimum of the reports, and every viewer that reported something else has been
  queued that size.
* A viewer that a size event drops is not settled (`size_of_dropped_viewer`).
-/

namespace Zetta.Zmux.Server.Sizing

open List

/-! ### The handlers -/

/-- A viewer's report is recorded. -/
def record (attachment : ℕ) (size : ℕ × ℕ) (client : SharedClient) : SharedClient :=
  if client.attachment = attachment then
    { client with size := some size, reportedAt := client.relay.frames.length }
  else
    client

/-- Whether a report is taken: a window's has to be of the current revision, and a relay's is
exempt. -/
def accepts (current : ℕ) (revision : Option ℕ) (client : SharedClient) : Bool :=
  revision = some current || client.relayingFor.isSome

/-- The `Resize` request of a shared connection. -/
def reportSize (pane : Pane) (current attachment : ℕ) (revision : Option ℕ) (reported : ℕ × ℕ) :
    Pane :=
  match pane.attachment with
  | .shared clients =>
    match clients.find? (·.attachment = attachment) with
    | some client =>
      if accepts current revision client then
        let pane := { pane with attachment := .shared (clients.map (record attachment reported)) }
        let effective := effectiveSize pane
        let applied := pane.size
        let pane := { pane with size := effective }
        if shouldBroadcastSize reported effective applied then
          broadcastSize pane current effective
        else
          pane
      else
        pane
    | none => pane
  | _ => pane

/-- The viewers of the pane after an edit. -/
def clearSharedSizeReports (clients : List SharedClient) : List SharedClient :=
  clients.map fun client =>
    if client.relayingFor.isNone then { client with size := none } else client

/-- A viewer's relay thread ends. -/
def closeRelay (attachment : ℕ) (client : SharedClient) : SharedClient :=
  if client.attachment = attachment then
    { client with relay := { client.relay with closed := true } }
  else
    client

/-- The relays in `died` end. -/
def closeRelays (died : List ℕ) (clients : List SharedClient) : List SharedClient :=
  died.foldl (fun cs i => cs.map (closeRelay i)) clients

/-- Applies a function to a pane's shared set. -/
def mapClients (pane : Pane) (f : List SharedClient → List SharedClient) : Pane :=
  match pane.attachment with
  | .shared clients => { pane with attachment := .shared (f clients) }
  | _ => pane

/-- A drain pass that has read something: it relays it and settles what that dropped. The relays
in `died` end while it does so. -/
def drainOutput (pane : Pane) (revision : ℕ) (bytes : List UInt8) (died : List ℕ) : Pane :=
  let relayed := relayOutput pane bytes
  let pane := mapClients relayed.1 (closeRelays died)
  if relayed.2 then settleSharedDeparture pane revision true else pane

/-- A clipboard request read from the pane: it goes to the viewer, if there is exactly one. -/
def clipboardOutput (pane : Pane) (frame : List UInt8) : Pane :=
  match pane.attachment with
  | .shared [_] => (relayOutput pane frame).1
  | _ => pane

structure State where
  pane : Pane
  /-- The revision of the session's shared state. -/
  revision : ℕ
  nextAttachment : ℕ

inductive Action
  /-- A viewer is added, to an unheld pane if it is stream-only or the session's panes are to be
  shared. -/
  | join (processId : ℕ) (peerProcessId : Option ℕ) (clientId : String) (streamOnly : Bool)
      (relayingFor : Option String)
  /-- An attach stops waiting for the pane. -/
  | finish (collapse : Bool)
  | report (attachment : ℕ) (revision : Option ℕ) (size : ℕ × ℕ)
  /-- `resize_pane`, asked for on a control connection. -/
  | resize (revision : Option ℕ) (size : ℕ × ℕ)
  | edit
  | leave (clientId : String)
  | disconnect (attachment : ℕ)
  | evict (stalled : List ℕ)
  | output (bytes : List UInt8) (died : List ℕ)
  | clipboard (frame : List UInt8)
  | die (attachment : ℕ)

/-- The pane with a viewer that has not been measured. -/
def joined (s : State) (clients : List SharedClient) (processId : ℕ) (peerProcessId : Option ℕ)
    (clientId : String) (streamOnly : Bool) (relayingFor : Option String) : State :=
  { s with
    pane := { s.pane with
      attachment := .shared (clients ++ [{
        processId, peerProcessId, clientId, streamOnly, relayingFor
        attachment := s.nextAttachment
        relay := ⟨[], 0, false⟩
        size := none
        reportedAt := 0 }]) }
    nextAttachment := s.nextAttachment + 1 }

def State.step (s : State) : Action → Option State
  | .join processId peerProcessId clientId streamOnly relayingFor =>
    match s.pane.attachment with
    | .none => some (joined s [] processId peerProcessId clientId streamOnly relayingFor)
    | .shared clients =>
      some (joined s clients processId peerProcessId clientId streamOnly relayingFor)
    | _ => none
  | .finish collapse => some { s with pane := finishHandoverWaiter s.pane collapse }
  | .report attachment revision size =>
    some { s with pane := reportSize s.pane s.revision attachment revision size }
  | .resize revision size =>
    some { s with pane := if revision.all (· = s.revision) then { s.pane with size } else s.pane }
  | .edit =>
    some { s with
      pane := mapClients s.pane clearSharedSizeReports, revision := s.revision + 1 }
  | .leave clientId => some { s with pane := leaveShared s.pane s.revision clientId }
  | .disconnect attachment =>
    some { s with pane := removeSharedAttachment s.pane s.revision attachment }
  | .evict stalled =>
    let evicted := relayBackpressure s.pane stalled
    some { s with
      pane := if evicted.2 then settleSharedDeparture evicted.1 s.revision true else evicted.1 }
  | .output bytes died => some { s with pane := drainOutput s.pane s.revision bytes died }
  | .clipboard frame => some { s with pane := clipboardOutput s.pane frame }
  | .die attachment =>
    some { s with pane := mapClients s.pane (·.map (closeRelay attachment)) }

/-! ### What the arbitration promises -/

/-- The viewer has been queued the size `size` since its last report was accepted. -/
def Told (size : ℕ × ℕ) (client : SharedClient) : Prop :=
  ∃ sessionId paneId revision,
    Frame.size sessionId paneId revision size.1 size.2 ∈
      client.relay.frames.drop client.reportedAt

/-- The pane runs at the minimum of the reports, and whoever reported something else knows. -/
structure Arbitrated (pane : Pane) : Prop where
  smallest : ∀ clients, pane.attachment = .shared clients → reports clients ≠ [] →
    Smallest (reports clients) pane.size
  told : ∀ clients, pane.attachment = .shared clients → ∀ client ∈ clients, ∀ reported,
    client.size = some reported → reported ≠ pane.size → Told pane.size client

/-- The viewers that a size event reaches want the size it carries. -/
def Agreed (clients : List SharedClient) (size : ℕ × ℕ) : Prop :=
  reports (living clients) ≠ [] → Smallest (reports (living clients)) size

/-- If the viewers that remain want another size, those that the size event reaches want it. -/
def Settles (pane : Pane) (remaining : List SharedClient) : Prop :=
  smallestSize (reports remaining) pane.size ≠ pane.size →
    Agreed remaining (smallestSize (reports remaining) pane.size)

/-- The steps on which the arbitration does not depend on a viewer that it is about to lose. -/
def State.Undisturbed (s : State) : Action → Prop
  | .report attachment revision size =>
    ∀ clients client, s.pane.attachment = .shared clients →
      clients.find? (·.attachment = attachment) = some client →
      accepts s.revision revision client →
      let remaining := clients.map (record attachment size)
      let effective := smallestSize (reports remaining) s.pane.size
      shouldBroadcastSize size effective s.pane.size → Agreed remaining effective
  | .resize revision size =>
    ∀ clients, s.pane.attachment = .shared clients → revision.all (· = s.revision) = true →
      reports clients ≠ [] → size = s.pane.size
  | .edit =>
    ∀ clients, s.pane.attachment = .shared clients →
      let relays := clients.filter (·.relayingFor.isSome)
      reports relays ≠ [] → Smallest (reports relays) s.pane.size
  | .leave clientId =>
    ∀ clients, s.pane.attachment = .shared clients →
      (∃ client ∈ clients, client.clientId = clientId) →
      Settles s.pane (clients.filter (·.clientId ≠ clientId))
  | .disconnect attachment =>
    ∀ clients, s.pane.attachment = .shared clients →
      (∃ client ∈ clients, client.attachment = attachment) →
      Settles s.pane (clients.filter (·.attachment ≠ attachment))
  | .evict stalled =>
    ∀ clients, s.pane.attachment = .shared clients →
      (∃ client ∈ clients, client.attachment ∈ stalled) →
      Settles s.pane (clients.filter fun client => !stalled.contains client.attachment)
  | .output _ died =>
    ∀ clients, s.pane.attachment = .shared clients →
      (∃ client ∈ clients, client.relay.closed) →
      Settles s.pane (closeRelays died (living clients))
  | _ => True

/-! ### One step -/

/-- What the promise needs besides itself: the marks lie within the queues. -/
def Marked (clients : List SharedClient) : Prop :=
  ∀ client ∈ clients, client.reportedAt ≤ client.relay.frames.length

variable {clients : List SharedClient} {f : SharedClient → SharedClient}

theorem reports_map (hf : ∀ client, (f client).size = client.size) :
    reports (clients.map f) = reports clients := by
  rw [reports, filterMap_map]
  exact congrArg (List.filterMap · clients) (funext hf)

variable {size : ℕ × ℕ} {client : SharedClient}

@[simp]
theorem Told.queue (h : Told size client) (frame : Frame) :
    Told size (client.queue frame) := by
  obtain ⟨sessionId, paneId, revision, hmem⟩ := h
  refine ⟨sessionId, paneId, revision, ?_⟩
  simp only [SharedClient.queue, Relay.push, drop_append, mem_append]
  exact .inl hmem

variable {revision : ℕ}

/-- The frame that is queued now has been queued after every report. -/
theorem told_queue {sessionId paneId : ℕ} (hmark : client.reportedAt ≤ client.relay.frames.length) :
    Told size (client.queue (.size sessionId paneId revision size.1 size.2)) := by
  refine ⟨sessionId, paneId, revision, ?_⟩
  simp only [SharedClient.queue, Relay.push]
  rw [drop_append_of_le_length hmark]
  exact mem_append_right _ (mem_singleton_self _)

theorem Marked.filter (h : Marked clients) (keep : SharedClient → Bool) :
    Marked (clients.filter keep) :=
  fun client hc => h client (mem_of_mem_filter hc)

theorem Marked.queue (h : Marked clients) (frame : Frame) :
    Marked (clients.map (·.queue frame)) := by
  intro client hc
  obtain ⟨client, hmem, rfl⟩ := mem_map.mp hc
  have := h client hmem
  simp only [SharedClient.queue, Relay.push, length_append, length_singleton]
  omega

variable {pane : Pane}

/-- A pane that is not shared, or is shared with nobody measured, is arbitrated. -/
theorem arbitrated_of_unmeasured
    (h : ∀ clients, pane.attachment = .shared clients → reports clients = []) :
    Arbitrated pane := by
  refine ⟨fun clients hc hne => absurd (h clients hc) hne, fun clients hc client hmem r hr _ => ?_⟩
  have : r ∈ reports clients := mem_filterMap.mpr ⟨client, hmem, hr⟩
  rw [h clients hc] at this
  cases this

variable {clients' : List SharedClient} {waiters : ℕ}

/-- Collapsing an empty set changes nothing for the viewers. -/
theorem eq_of_collapseEmptyShared
    (h : collapseEmptyShared (.shared clients) waiters = .shared clients') :
    clients' = clients := by
  rw [collapseEmptyShared] at h
  split at h
  · cases h
  · exact (Attachment.shared.inj h).symm

/-- Whoever is still in the set after a frame was queued had a queue that takes it. -/
theorem shared_of_queue {frame : Frame}
    (h : (queueForSharedClients (.shared clients) waiters frame).1 = .shared clients') :
    clients' = (living clients).map (·.queue frame) := by
  simp only [queueForSharedClients] at h
  split at h
  · exact eq_of_collapseEmptyShared h
  · exact (Attachment.shared.inj h).symm

/-- A set that collapses had nobody left. -/
theorem shared_or_empty_of_queue (clients : List SharedClient) (waiters : ℕ) (frame : Frame) :
    (queueForSharedClients (.shared clients) waiters frame).1 =
        .shared ((living clients).map (·.queue frame)) ∨
      (queueForSharedClients (.shared clients) waiters frame).1 = .none ∧ living clients = [] := by
  simp only [queueForSharedClients, collapseEmptyShared]
  split
  · split
    next h => exact .inr ⟨rfl, map_eq_nil_iff.mp (Attachment.shared.inj h.2)⟩
    · exact .inl rfl
  · exact .inl rfl

/-- A size event leaves the pane arbitrated exactly when those that it reaches want it. -/
theorem arbitrated_broadcastSize_iff (pane : Pane) (revision : ℕ)
    (hshared : pane.attachment = .shared clients) (hmarked : Marked clients) :
    Arbitrated (broadcastSize pane revision pane.size) ↔ Agreed clients pane.size := by
  have hreports : reports ((living clients).map (·.queue
      (.size pane.sessionId pane.id revision pane.size.1 pane.size.2))) = reports (living clients) :=
    reports_map fun _ => rfl
  constructor
  · intro h hne
    have hliving : living clients ≠ [] := fun hnil => hne (by rw [hnil]; rfl)
    rcases shared_or_empty_of_queue clients pane.handoverWaiters
      (.size pane.sessionId pane.id revision pane.size.1 pane.size.2) with heq | ⟨-, hnil⟩
    · have := h.smallest _ (by rw [← heq, ← hshared]; rfl) (hreports ▸ hne)
      rwa [hreports] at this
    · exact absurd hnil hliving
  · intro h
    have hkept : ∀ clients', (broadcastSize pane revision pane.size).attachment = .shared clients' →
        clients' = (living clients).map (·.queue
          (.size pane.sessionId pane.id revision pane.size.1 pane.size.2)) := by
      intro clients' hc
      simp only [broadcastSize, hshared] at hc
      exact shared_of_queue hc
    refine ⟨fun clients' hc hne => ?_, fun clients' hc client hmem r _ _ => ?_⟩
    · rw [hkept clients' hc, hreports] at hne ⊢
      exact h hne
    · rw [hkept clients' hc] at hmem
      obtain ⟨client, hliving, rfl⟩ := mem_map.mp hmem
      exact told_queue (hmarked.filter _ client hliving)

/-- The viewers' side of the promise, whoever else is in the set. -/
def AllTold (pane : Pane) (clients : List SharedClient) : Prop :=
  ∀ client ∈ clients, ∀ reported, client.size = some reported → reported ≠ pane.size →
    Told pane.size client

/-- A pane whose size is the one its viewers want is arbitrated if its viewers have been told. -/
theorem arbitrated_of_effective (hshared : pane.attachment = .shared clients)
    (htold : AllTold pane clients)
    (heffective : smallestSize (reports clients) pane.size = pane.size) : Arbitrated pane := by
  refine ⟨fun clients' hc hne => ?_, fun clients' hc => ?_⟩
  · cases hshared.symm.trans hc
    exact (smallest_iff hne).mpr heffective
  · cases hshared.symm.trans hc
    exact htold

/-- A departure is settled exactly when those that the size event reaches want the new size. -/
theorem arbitrated_settle_iff (pane : Pane) (revision : ℕ)
    (hshared : pane.attachment = .shared clients) (hmarked : Marked clients)
    (htold : AllTold pane clients) :
    Arbitrated (settleSharedDeparture pane revision true) ↔ Settles pane clients := by
  have heffective : effectiveSize pane = smallestSize (reports clients) pane.size := by
    rw [effectiveSize, hshared]
    rfl
  rw [settleSharedDeparture]
  simp only [hshared, heffective, if_true]
  rw [← hshared]
  split_ifs with hempty hchanged
  · obtain ⟨rfl, -⟩ := hempty
    refine iff_of_true (arbitrated_of_unmeasured fun _ hc => ?_) fun hne => absurd rfl hne
    cases hc
  · have hiff := arbitrated_broadcastSize_iff
      { pane with size := smallestSize (reports clients) pane.size } revision hshared hmarked
    exact hiff.trans ⟨fun h _ => h, fun h => h hchanged⟩
  · refine iff_of_true (arbitrated_of_effective hshared htold ?_) fun hne => absurd hne hchanged
    exact not_not.mp hchanged

/-- Without a departure nothing is settled that was not. -/
theorem settle_false (revision : ℕ) (hshared : pane.attachment = .shared clients) :
    settleSharedDeparture pane revision false = pane ∨
      (clients = [] ∧ (settleSharedDeparture pane revision false).attachment = .none) := by
  rw [settleSharedDeparture]
  simp only [hshared, Bool.false_eq_true, if_false]
  split_ifs with hempty
  · exact .inr ⟨hempty.1, rfl⟩
  · exact .inl rfl

/-- Departures from a shared set: those that remain are arbitrated exactly when the size event
that may be due reaches viewers that agree. -/
theorem arbitrated_retain_iff {keep : SharedClient → Bool} (h : Arbitrated pane)
    (hshared : pane.attachment = .shared clients) (hmarked : Marked clients) :
    Arbitrated (settleSharedDeparture (pane.retainClients keep).1 revision
        (pane.retainClients keep).2) ↔
      ((∃ client ∈ clients, keep client = false) → Settles pane (clients.filter keep)) := by
  have hretain : pane.retainClients keep =
      ({ pane with attachment := .shared (clients.filter keep) }, clients.any (!keep ·)) := by
    rw [Pane.retainClients, hshared]
  have htold : AllTold pane (clients.filter keep) :=
    fun client hc => h.told clients hshared client (mem_of_mem_filter hc)
  by_cases hany : ∃ client ∈ clients, keep client = false
  · have hremoved : (clients.any (!keep ·)) = true := by simpa using hany
    rw [hretain, hremoved]
    exact (arbitrated_settle_iff { pane with attachment := .shared (clients.filter keep) } revision
      rfl (hmarked.filter keep) htold).trans ⟨fun h _ => h, fun h => h hany⟩
  · have hall : ∀ client ∈ clients, keep client = true := by simpa using hany
    have hremoved : (clients.any (!keep ·)) = false := by simpa using hall
    have hsame : ({ pane with attachment := .shared (clients.filter keep) } : Pane) = pane := by
      rw [filter_eq_self.mpr hall, ← hshared]
    rw [hretain, hremoved, hsame]
    refine iff_of_true ?_ fun hex => absurd hex hany
    rcases settle_false revision hshared with heq | ⟨-, hnone⟩
    · rwa [heq]
    · exact arbitrated_of_unmeasured fun _ hc => by rw [hnone] at hc; cases hc

/-- **A report**: the viewers are arbitrated afterwards exactly when the size event that may be due
reaches viewers that agree. -/
theorem arbitrated_reportSize_iff {current attachment : ℕ} {revision : Option ℕ} {reported : ℕ × ℕ}
    (h : Arbitrated pane) (hshared : pane.attachment = .shared clients) (hmarked : Marked clients)
    (hfind : clients.find? (·.attachment = attachment) = some client)
    (haccepts : accepts current revision client) :
    Arbitrated (reportSize pane current attachment revision reported) ↔
      (shouldBroadcastSize reported
          (smallestSize (reports (clients.map (record attachment reported))) pane.size) pane.size →
        Agreed (clients.map (record attachment reported))
          (smallestSize (reports (clients.map (record attachment reported))) pane.size)) := by
  set remaining := clients.map (record attachment reported) with hremaining
  set effective := smallestSize (reports remaining) pane.size with heffective
  have hmarked' : Marked remaining := by
    intro c hc
    obtain ⟨c, hmem, rfl⟩ := mem_map.mp hc
    rw [record]
    split
    · exact le_rfl
    · exact hmarked c hmem
  have hresult : reportSize pane current attachment revision reported =
      if shouldBroadcastSize reported effective pane.size then
        broadcastSize { pane with attachment := .shared remaining, size := effective } current
          effective
      else { pane with attachment := .shared remaining, size := effective } := by
    rw [reportSize]
    simp only [hshared, hfind, if_pos haccepts]
    rfl
  rw [hresult]
  split_ifs with hbroadcast
  · exact (arbitrated_broadcastSize_iff { pane with attachment := .shared remaining, size := effective }
      current rfl hmarked').trans ⟨fun h _ => h, fun h => h hbroadcast⟩
  · refine iff_of_true ?_ fun hne => absurd hne hbroadcast
    -- Nothing is due: the pane's size is the reported one, and has not changed.
    obtain ⟨hsize, hreported⟩ : effective = pane.size ∧ reported = effective := by
      simpa [shouldBroadcastSize] using hbroadcast
    have hmeasured : reports remaining ≠ [] := by
      have hmem : (record attachment reported client) ∈ remaining :=
        mem_map_of_mem (mem_of_find?_eq_some hfind)
      have hself : client.attachment = attachment := by simpa using find?_some hfind
      have : reported ∈ reports remaining :=
        mem_filterMap.mpr ⟨_, hmem, by rw [record, if_pos hself]⟩
      exact ne_nil_of_mem this
    refine arbitrated_of_effective rfl (fun c hc r hr hne => ?_) ?_
    · obtain ⟨c, hmem, rfl⟩ := mem_map.mp hc
      rw [record] at hr ⊢
      split_ifs at hr ⊢ with hself
      · exact absurd ((Option.some.inj hr).symm.trans hreported) hne
      · rw [hsize] at hne
        simp only [hsize]
        exact h.told clients hshared c hmem r hr hne
    · exact (smallest_iff hmeasured).mp (smallest_smallestSize hmeasured _)

/-! ### The marks -/

def MarkedPane (pane : Pane) : Prop :=
  ∀ clients, pane.attachment = .shared clients → Marked clients

theorem MarkedPane.queue (h : MarkedPane pane) (frame : Frame)
    (hc : (queueForSharedClients pane.attachment pane.handoverWaiters frame).1 = .shared clients) :
    Marked clients := by
  cases hshared : pane.attachment with
  | shared before =>
    rw [hshared] at hc
    obtain rfl := shared_of_queue hc
    exact ((h before hshared).filter _).queue frame
  | none => simp [hshared, queueForSharedClients] at hc
  | exclusive holder => simp [hshared, queueForSharedClients] at hc
  | revoking holder => simp [hshared, queueForSharedClients] at hc
  | granting holder => simp [hshared, queueForSharedClients] at hc

theorem MarkedPane.broadcast (h : MarkedPane pane) (revision : ℕ) (size : ℕ × ℕ) :
    MarkedPane (broadcastSize pane revision size) :=
  fun _ hc => h.queue _ hc

theorem MarkedPane.settle (h : MarkedPane pane) (revision : ℕ) (removed : Bool) :
    MarkedPane (settleSharedDeparture pane revision removed) := by
  rw [settleSharedDeparture]
  split
  · dsimp only
    split_ifs
    · intro clients hc
      cases hc
    · exact MarkedPane.broadcast h revision (effectiveSize pane)
    · exact h
    · exact h
  · exact h

theorem MarkedPane.retain (h : MarkedPane pane) (keep : SharedClient → Bool) :
    MarkedPane (pane.retainClients keep).1 := by
  rw [Pane.retainClients]
  split
  next clients hshared =>
    intro clients' hc
    cases hc
    exact (h clients hshared).filter keep
  · exact h

theorem MarkedPane.map (h : MarkedPane pane) {f : List SharedClient → List SharedClient}
    (hf : ∀ clients, Marked clients → Marked (f clients)) :
    MarkedPane (mapClients pane f) := by
  rw [mapClients]
  split
  next clients hshared =>
    intro clients' hc
    cases hc
    exact hf clients (h clients hshared)
  · exact h

/-- A change of each viewer that leaves its queue and its mark alone. -/
theorem marked_map (h : Marked clients) (hf : ∀ client, (f client).reportedAt = client.reportedAt ∧
      (f client).relay.frames = client.relay.frames) : Marked (clients.map f) := by
  intro client hc
  obtain ⟨client, hmem, rfl⟩ := mem_map.mp hc
  rw [(hf client).1, (hf client).2]
  exact h client hmem

@[simp]
theorem closeRelay_reportedAt (i : ℕ) (client : SharedClient) :
    (closeRelay i client).reportedAt = client.reportedAt := by
  rw [closeRelay]
  split <;> rfl

@[simp]
theorem closeRelay_frames (i : ℕ) (client : SharedClient) :
    (closeRelay i client).relay.frames = client.relay.frames := by
  rw [closeRelay]
  split <;> rfl

@[simp]
theorem closeRelay_size (i : ℕ) (client : SharedClient) :
    (closeRelay i client).size = client.size := by
  rw [closeRelay]
  split <;> rfl

theorem Marked.closeRelays (h : Marked clients) (died : List ℕ) :
    Marked (closeRelays died clients) := by
  induction died generalizing clients with
  | nil => exact h
  | cons i died ih => exact ih (marked_map h fun client => by simp)

theorem reports_closeRelays (died : List ℕ) (clients : List SharedClient) :
    reports (closeRelays died clients) = reports clients := by
  induction died generalizing clients with
  | nil => rfl
  | cons i died ih => exact (ih _).trans (reports_map fun client => closeRelay_size i client)

/-! ### All steps -/

/-- A pane whose viewers are the same but for their queues, to which frames were added. -/
theorem arbitrated_of_map {t : Pane} (h : Arbitrated pane)
    (hshared : pane.attachment = .shared clients) (f : SharedClient → SharedClient)
    (hsize : ∀ client, (f client).size = client.size)
    (hf : ∀ client size, Told size client → Told size (f client))
    (ht : t.attachment = .shared (clients.map f)) (hsame : t.size = pane.size) : Arbitrated t := by
  refine ⟨fun clients' hc hne => ?_, fun clients' hc client hmem r hr hne => ?_⟩
  · cases ht.symm.trans hc
    rw [reports_map hsize] at hne ⊢
    rw [hsame]
    exact h.smallest clients hshared hne
  · cases ht.symm.trans hc
    obtain ⟨client, hbefore, rfl⟩ := mem_map.mp hmem
    rw [hsame] at hne ⊢
    exact hf client _ (h.told clients hshared client hbefore r (hsize client ▸ hr) hne)

theorem Told.closeRelay (h : Told size client) (i : ℕ) :
    Told size (closeRelay i client) := by
  rw [Told, closeRelay_frames, closeRelay_reportedAt]
  exact h

theorem forall_closeRelays {P : SharedClient → Prop}
    (hP : ∀ client i, P client → P (closeRelay i client)) (died : List ℕ)
    (h : ∀ client ∈ clients, P client) : ∀ client ∈ closeRelays died clients, P client := by
  induction died generalizing clients with
  | nil => exact h
  | cons i died ih =>
    refine ih fun client hc => ?_
    obtain ⟨client, hmem, rfl⟩ := mem_map.mp hc
    exact hP client i (h client hmem)

/-- Relays end: nothing has been reported, and nothing queued. -/
theorem arbitrated_closeRelays (h : Arbitrated pane) (died : List ℕ) :
    Arbitrated (mapClients pane (closeRelays died)) := by
  rw [mapClients]
  split
  next clients hshared =>
    refine ⟨fun clients' hc hne => ?_, fun clients' hc => ?_⟩
    · cases hc
      rw [reports_closeRelays] at hne ⊢
      exact h.smallest clients hshared hne
    · cases hc
      refine forall_closeRelays (fun client i hclient r hr hne => ?_) died
        (h.told clients hshared)
      exact (hclient r (closeRelay_size i client ▸ hr) hne).closeRelay i
  · exact h

variable {s : State}

/-- Viewers join unmeasured. -/
theorem arbitrated_joined (h : Arbitrated s.pane)
    (hclients : s.pane.attachment = .shared clients ∨ clients = []) (processId : ℕ)
    (peerProcessId : Option ℕ) (clientId : String) (streamOnly : Bool) (relayingFor : Option String) :
    Arbitrated (joined s clients processId peerProcessId clientId streamOnly relayingFor).pane := by
  have hreports : ∀ new : SharedClient, new.size = none →
      reports (clients ++ [new]) = reports clients := by
    intro new hnew
    simp [reports, filterMap_append, hnew]
  refine ⟨fun clients' hc hne => ?_, fun clients' hc client hmem r hr hne => ?_⟩
  · cases hc
    rw [hreports _ rfl] at hne ⊢
    rcases hclients with hshared | rfl
    · exact h.smallest clients hshared hne
    · exact absurd rfl hne
  · cases hc
    rcases mem_append.mp hmem with hmem | hmem
    · rcases hclients with hshared | rfl
      · exact h.told clients hshared client hmem r hr hne
      · cases hmem
    · rw [mem_singleton.mp hmem] at hr
      cases hr

/-- **An edit**: the relays' reports, which it keeps, have to ask for the pane's size. -/
theorem arbitrated_edit_iff (h : Arbitrated pane) (hshared : pane.attachment = .shared clients) :
    Arbitrated (mapClients pane clearSharedSizeReports) ↔
      (reports (clients.filter (·.relayingFor.isSome)) ≠ [] →
        Smallest (reports (clients.filter (·.relayingFor.isSome))) pane.size) := by
  have hreports : reports (clearSharedSizeReports clients) =
      reports (clients.filter (·.relayingFor.isSome)) := by
    rw [clearSharedSizeReports, reports, reports, filterMap_map, filterMap_filter]
    refine congrArg (List.filterMap · clients) (funext fun client => ?_)
    cases hrelay : client.relayingFor <;> simp [hrelay]
  have hpane : mapClients pane clearSharedSizeReports =
      { pane with attachment := .shared (clearSharedSizeReports clients) } := by
    rw [mapClients, hshared]
  rw [hpane]
  constructor
  · intro harbitrated hne
    have := harbitrated.smallest _ rfl (hreports ▸ hne)
    rwa [hreports] at this
  · intro hrelays
    refine ⟨fun clients' hc hne => ?_, fun clients' hc client hmem r hr hne => ?_⟩
    · cases hc
      rw [hreports] at hne ⊢
      exact hrelays hne
    · cases hc
      obtain ⟨client, hbefore, rfl⟩ := mem_map.mp hmem
      -- Only a relay is still measured, and nothing about it has changed.
      split_ifs at hr ⊢
      · exact h.told clients hshared client hbefore r hr hne

/-- **A stall**: evicting viewers is settled like any departure. -/
theorem arbitrated_evict_iff (revision : ℕ) (h : Arbitrated pane)
    (hshared : pane.attachment = .shared clients) (hmarked : Marked clients) (stalled : List ℕ) :
    Arbitrated (if (relayBackpressure pane stalled).2 then
        settleSharedDeparture (relayBackpressure pane stalled).1 revision true
      else (relayBackpressure pane stalled).1) ↔
      ((∃ client ∈ clients, client.attachment ∈ stalled) →
        Settles pane (clients.filter fun client => !stalled.contains client.attachment)) := by
  set keep : SharedClient → Bool := fun client => !stalled.contains client.attachment with hkeep
  have hretain : pane.retainClients keep =
      ({ pane with attachment := .shared (clients.filter keep) }, clients.any (!keep ·)) := by
    rw [Pane.retainClients, hshared]
  by_cases hany : ∃ client ∈ clients, client.attachment ∈ stalled
  · have hremoved : (clients.any (!keep ·)) = true := by simpa [hkeep] using hany
    have hpressure : relayBackpressure pane stalled =
        ({ pane with
          attachment := collapseEmptyShared (.shared (clients.filter keep)) pane.handoverWaiters },
          true) := by
      simp only [relayBackpressure, ← hkeep, hretain, hremoved, if_true]
    rw [hpressure]
    simp only [if_true, collapseEmptyShared]
    split_ifs with hcollapse
    · -- Nobody is left.
      have hempty : clients.filter keep = [] := Attachment.shared.inj hcollapse.2
      refine iff_of_true (arbitrated_of_unmeasured fun _ hc => ?_) fun _ hne => ?_
      · cases hc
      · rw [hempty] at hne
        exact absurd rfl hne
    · exact (arbitrated_settle_iff { pane with attachment := .shared (clients.filter keep) } revision
        rfl (hmarked.filter keep) fun client hc =>
          h.told clients hshared client (mem_of_mem_filter hc)).trans
        ⟨fun h _ => h, fun h => h hany⟩
  · have hremoved : (clients.any (!keep ·)) = false := by simpa [hkeep] using hany
    have hpressure : relayBackpressure pane stalled = (pane, false) := by
      simp only [relayBackpressure, ← hkeep, hretain, hremoved, Bool.false_eq_true, if_false]
    rw [hpressure]
    exact iff_of_true h fun hex => absurd hex hany

theorem reports_queue (frame : Frame) (clients : List SharedClient) :
    reports (clients.map (·.queue frame)) = reports clients :=
  reports_map fun _ => rfl

theorem reports_living_queue (frame : Frame) (clients : List SharedClient) :
    reports (living (clients.map (·.queue frame))) = reports (living clients) := by
  rw [living, living, filter_map]
  exact reports_queue frame _

theorem closeRelays_queue (died : List ℕ) (frame : Frame) (clients : List SharedClient) :
    closeRelays died (clients.map (·.queue frame)) =
      (closeRelays died clients).map (·.queue frame) := by
  induction died generalizing clients with
  | nil => rfl
  | cons i died ih =>
    refine Eq.trans (congrArg (closeRelays died) ?_) (ih (clients.map (closeRelay i)))
    simp only [map_map]
    refine congrArg (List.map · clients) (funext fun client => ?_)
    by_cases hself : client.attachment = i <;>
      simp [closeRelay, SharedClient.queue, Relay.push, hself]

/-- **Output**: the viewers that it drops are settled. -/
theorem arbitrated_drainOutput_iff (revision : ℕ) (h : Arbitrated pane)
    (hshared : pane.attachment = .shared clients) (hmarked : Marked clients) (bytes : List UInt8)
    (died : List ℕ) :
    Arbitrated (drainOutput pane revision bytes died) ↔
      ((∃ client ∈ clients, client.relay.closed) →
        Settles pane (closeRelays died (living clients))) := by
  set frame := Frame.output pane.id bytes with hframe
  set kept := (living clients).map (·.queue frame) with hkept
  have hmarkedKept : Marked kept := (hmarked.filter _).queue frame
  have htold : AllTold pane kept := by
    intro client hc r hr hne
    obtain ⟨client, hliving, rfl⟩ := mem_map.mp hc
    exact (h.told clients hshared client (mem_of_mem_filter hliving) r hr hne).queue frame
  by_cases hany : ∃ client ∈ clients, client.relay.closed
  · have hdropped : (clients.any (·.relay.closed)) = true := by simpa using hany
    have hrelayed : relayOutput pane bytes =
        ({ pane with attachment := collapseEmptyShared (.shared kept) pane.handoverWaiters }, true) := by
      simp only [relayOutput, hshared, queueForSharedClients, if_pos hdropped]
      rfl
    rw [drainOutput, hrelayed]
    simp only [if_true]
    by_cases hcollapse : pane.handoverWaiters = 0 ∧ Attachment.shared kept = .shared []
    · -- Nobody is left.
      have hempty : living clients = [] :=
        map_eq_nil_iff.mp (Attachment.shared.inj hcollapse.2)
      have hnothing : closeRelays died (living clients) = [] := by
        rw [hempty]
        induction died with
        | nil => rfl
        | cons i died ih => exact ih
      refine iff_of_true (arbitrated_of_unmeasured fun _ hc => ?_) fun _ hne => ?_
      · rw [collapseEmptyShared, if_pos hcollapse] at hc
        cases hc
      · rw [hnothing] at hne
        exact absurd rfl hne
    · have hleft : collapseEmptyShared (.shared kept) pane.handoverWaiters = .shared kept :=
        if_neg hcollapse
      rw [hleft]
      refine (arbitrated_settle_iff { pane with attachment := .shared (closeRelays died kept) } revision
        rfl (hmarkedKept.closeRelays died) ?_).trans ?_
      · refine forall_closeRelays (fun client i hclient r hr hne => ?_) died htold
        exact (hclient r (closeRelay_size i client ▸ hr) hne).closeRelay i
      · rw [hkept, closeRelays_queue, Settles, Agreed, reports_living_queue, reports_queue]
        exact ⟨fun h _ => h, fun h => h hany⟩
  · have hall : ∀ client ∈ clients, client.relay.closed = false := by simpa using hany
    have hdropped : (clients.any (·.relay.closed)) = false := by simpa using hall
    have hliving : living clients = clients := filter_eq_self.mpr fun client hc => by
      rw [hall client hc]
      rfl
    have hrelayed : relayOutput pane bytes = ({ pane with attachment := .shared kept }, false) := by
      simp only [relayOutput, hshared, queueForSharedClients, hdropped, Bool.false_eq_true, if_false]
      rfl
    rw [drainOutput, hrelayed]
    simp only [Bool.false_eq_true, if_false]
    refine iff_of_true ?_ fun hex => absurd hex hany
    refine arbitrated_closeRelays ?_ died
    rw [hliving] at hkept
    exact arbitrated_of_map h hshared (·.queue frame) (fun _ => rfl) (fun _ _ ht => ht.queue frame)
      (congrArg Attachment.shared hkept) rfl

/-- A clipboard request has one viewer to go to, so nobody is left to be settled if it is lost. -/
theorem arbitrated_clipboardOutput (h : Arbitrated pane) (bytes : List UInt8) :
    Arbitrated (clipboardOutput pane bytes) := by
  rw [clipboardOutput]
  split
  next client hshared =>
    by_cases hclosed : client.relay.closed
    · refine arbitrated_of_unmeasured fun clients hc => ?_
      simp only [relayOutput, hshared] at hc
      rw [shared_of_queue hc, living, filter_cons_of_neg (by simp [hclosed])]
      rfl
    · refine arbitrated_of_map h hshared (·.queue (.output pane.id bytes)) (fun _ => rfl)
        (fun _ _ ht => ht.queue (.output pane.id bytes)) ?_ rfl
      simp [relayOutput, hshared, queueForSharedClients, hclosed]
  · exact h

/-- The pane is not shared: nothing is to be arbitrated. -/
theorem arbitrated_of_not_shared (h : ∀ clients, pane.attachment ≠ .shared clients) :
    Arbitrated pane :=
  arbitrated_of_unmeasured fun clients hc => absurd hc (h clients)

theorem retain_of_not_shared (h : ∀ clients, pane.attachment ≠ .shared clients)
    (keep : SharedClient → Bool) : pane.retainClients keep = (pane, false) := by
  rw [Pane.retainClients]
  split
  next clients hshared => exact absurd hshared (h clients)
  · rfl

theorem settle_of_not_shared (h : ∀ clients, pane.attachment ≠ .shared clients) (revision : ℕ)
    (removed : Bool) : settleSharedDeparture pane revision removed = pane := by
  rw [settleSharedDeparture]
  split
  next clients hshared => exact absurd hshared (h clients)
  · rfl

theorem mapClients_of_not_shared (h : ∀ clients, pane.attachment ≠ .shared clients)
    (f : List SharedClient → List SharedClient) : mapClients pane f = pane := by
  rw [mapClients]
  split
  next clients hshared => exact absurd hshared (h clients)
  · rfl

theorem relayOutput_of_not_shared (h : ∀ clients, pane.attachment ≠ .shared clients)
    (bytes : List UInt8) : relayOutput pane bytes = (pane, false) := by
  have hqueue : queueForSharedClients pane.attachment pane.handoverWaiters (.output pane.id bytes) =
      (pane.attachment, false) := by
    cases hattachment : pane.attachment with
    | shared clients => exact absurd hattachment (h clients)
    | none => rfl
    | exclusive holder => rfl
    | revoking holder => rfl
    | granting holder => rfl
  rw [relayOutput, hqueue]

/-- Departures, on any pane. -/
theorem arbitrated_departure_iff (revision : ℕ) (h : Arbitrated pane) (hmarked : MarkedPane pane)
    (keep : SharedClient → Bool) :
    Arbitrated (settleSharedDeparture (pane.retainClients keep).1 revision
        (pane.retainClients keep).2) ↔
      ∀ clients, pane.attachment = .shared clients → (∃ client ∈ clients, keep client = false) →
        Settles pane (clients.filter keep) := by
  by_cases hshared : ∃ clients, pane.attachment = .shared clients
  · obtain ⟨clients, hshared⟩ := hshared
    refine (arbitrated_retain_iff h hshared (hmarked clients hshared)).trans
      ⟨fun hcond clients' hc => ?_, fun hcond => hcond clients hshared⟩
    cases hshared.symm.trans hc
    exact hcond
  · have hnot : ∀ clients, pane.attachment ≠ .shared clients := not_exists.mp hshared
    rw [retain_of_not_shared hnot, settle_of_not_shared hnot]
    exact iff_of_true h fun clients hc => absurd hc (hnot clients)

variable {t : State} {action : Action}

/-- **One step** keeps the promise exactly when it is undisturbed. -/
theorem arbitrated_step_iff (h : Arbitrated s.pane) (hmarked : MarkedPane s.pane)
    (hstep : s.step action = some t) :
    Arbitrated t.pane ↔ s.Undisturbed action := by
  by_cases hshared : ∃ clients, s.pane.attachment = .shared clients
  · obtain ⟨clients, hshared⟩ := hshared
    have hclients := hmarked clients hshared
    cases action with
    | join processId peerProcessId clientId streamOnly relayingFor =>
      simp only [State.step, hshared] at hstep
      cases hstep
      exact iff_of_true (arbitrated_joined h (.inl hshared) ..) trivial
    | finish collapse =>
      cases hstep
      refine iff_of_true ?_ trivial
      simp only [finishHandoverWaiter]
      split_ifs
      · exact arbitrated_of_not_shared fun _ hc => by cases hc
      · exact ⟨h.smallest, h.told⟩
    | report attachment revision size =>
      cases hstep
      cases hfind : clients.find? (·.attachment = attachment) with
      | none =>
        refine iff_of_true ?_ fun clients' client hc hfind' => ?_
        · rw [reportSize]
          simpa only [hshared, hfind] using h
        · cases hshared.symm.trans hc
          rw [hfind] at hfind'
          cases hfind'
      | some client =>
        by_cases haccepts : accepts s.revision revision client
        · refine (arbitrated_reportSize_iff h hshared hclients hfind haccepts).trans
            ⟨fun hcond clients' client' hc hfind' _ => ?_,
              fun hcond => hcond clients client hshared hfind haccepts⟩
          cases hshared.symm.trans hc
          exact hcond
        · refine iff_of_true ?_ fun clients' client' hc hfind' haccepts' => ?_
          · rw [reportSize]
            simpa only [hshared, hfind, if_neg haccepts] using h
          · cases hshared.symm.trans hc
            cases hfind.symm.trans hfind'
            exact absurd haccepts' haccepts
    | resize revision size =>
      cases hstep
      by_cases hcurrent : revision.all (· = s.revision) = true
      · rw [if_pos hcurrent]
        constructor
        · intro hresized clients' hc _ hne
          exact (hresized.smallest clients' hc hne).unique (h.smallest clients' hc hne)
        · intro hcond
          by_cases hne : reports clients = []
          · refine arbitrated_of_unmeasured fun clients' hc => ?_
            cases hshared.symm.trans hc
            exact hne
          · rw [hcond clients hshared hcurrent hne]
            exact h
      · rw [if_neg hcurrent]
        exact iff_of_true h fun _ _ hcurrent' => absurd hcurrent' hcurrent
    | edit =>
      cases hstep
      refine (arbitrated_edit_iff h hshared).trans
        ⟨fun hcond clients' hc => ?_, fun hcond => hcond clients hshared⟩
      cases hshared.symm.trans hc
      exact hcond
    | leave clientId =>
      cases hstep
      refine (arbitrated_departure_iff s.revision h hmarked _).trans ?_
      simp [State.Undisturbed]
    | disconnect attachment =>
      cases hstep
      refine (arbitrated_departure_iff s.revision h hmarked _).trans ?_
      simp [State.Undisturbed]
    | evict stalled =>
      cases hstep
      refine (arbitrated_evict_iff s.revision h hshared hclients stalled).trans
        ⟨fun hcond clients' hc => ?_, fun hcond => hcond clients hshared⟩
      cases hshared.symm.trans hc
      exact hcond
    | output bytes died =>
      cases hstep
      refine (arbitrated_drainOutput_iff s.revision h hshared hclients bytes died).trans
        ⟨fun hcond clients' hc => ?_, fun hcond => hcond clients hshared⟩
      cases hshared.symm.trans hc
      exact hcond
    | clipboard frame =>
      cases hstep
      exact iff_of_true (arbitrated_clipboardOutput h frame) trivial
    | die attachment =>
      cases hstep
      exact iff_of_true (arbitrated_closeRelays h [attachment]) trivial
  · have hnot : ∀ clients, s.pane.attachment ≠ .shared clients := not_exists.mp hshared
    have hundisturbed : s.Undisturbed action := by
      cases action with
      | report => exact fun clients _ hc => absurd hc (hnot clients)
      | resize => exact fun clients hc => absurd hc (hnot clients)
      | edit => exact fun clients hc => absurd hc (hnot clients)
      | leave => exact fun clients hc => absurd hc (hnot clients)
      | disconnect => exact fun clients hc => absurd hc (hnot clients)
      | evict => exact fun clients hc => absurd hc (hnot clients)
      | output => exact fun clients hc => absurd hc (hnot clients)
      | join => trivial
      | finish => trivial
      | clipboard => trivial
      | die => trivial
    refine iff_of_true ?_ hundisturbed
    cases action with
    | join processId peerProcessId clientId streamOnly relayingFor =>
      rw [State.step] at hstep
      split at hstep
      · cases hstep
        exact arbitrated_joined h (.inr rfl) ..
      next clients hshared => exact absurd hshared (hnot clients)
      · cases hstep
    | finish collapse =>
      cases hstep
      simp only [finishHandoverWaiter]
      split_ifs
      · exact arbitrated_of_not_shared fun _ hc => by cases hc
      · exact ⟨h.smallest, h.told⟩
    | report attachment revision size =>
      cases hstep
      simp only [reportSize]
      exact h
    | resize revision size =>
      cases hstep
      split
      · exact arbitrated_of_not_shared hnot
      · exact h
    | edit =>
      cases hstep
      rwa [mapClients_of_not_shared hnot]
    | leave clientId =>
      cases hstep
      rwa [leaveShared, retain_of_not_shared hnot, settle_of_not_shared hnot]
    | disconnect attachment =>
      cases hstep
      rwa [removeSharedAttachment, retain_of_not_shared hnot, settle_of_not_shared hnot]
    | evict stalled =>
      cases hstep
      simpa [relayBackpressure, retain_of_not_shared hnot] using h
    | output bytes died =>
      cases hstep
      simpa [drainOutput, relayOutput_of_not_shared hnot, mapClients_of_not_shared hnot] using h
    | clipboard frame =>
      cases hstep
      exact arbitrated_clipboardOutput h frame
    | die attachment =>
      cases hstep
      rwa [mapClients_of_not_shared hnot]

theorem MarkedPane.reportSize (h : MarkedPane pane) (current attachment : ℕ) (revision : Option ℕ)
    (reported : ℕ × ℕ) :
    MarkedPane (reportSize pane current attachment revision reported) := by
  have hrecord : ∀ clients, pane.attachment = .shared clients →
      Marked (clients.map (record attachment reported)) := by
    intro clients hshared client hc
    obtain ⟨client, hmem, rfl⟩ := mem_map.mp hc
    rw [record]
    split
    · exact le_rfl
    · exact h clients hshared client hmem
  rw [Sizing.reportSize]
  split
  next clients hshared =>
    have hpane : ∀ size, MarkedPane { pane with
        attachment := .shared (clients.map (record attachment reported)), size := size } := by
      intro size clients' hc
      cases hc
      exact hrecord clients hshared
    split
    · dsimp only
      split_ifs
      · exact (hpane _).broadcast _ _
      · exact hpane _
      · exact h
    · exact h
  · exact h

/-- The marks stay within the queues. -/
theorem MarkedPane.step (h : MarkedPane s.pane) (hstep : s.step action = some t) :
    MarkedPane t.pane := by
  cases action with
  | join processId peerProcessId clientId streamOnly relayingFor =>
    have hnew : ∀ clients, Marked clients →
        MarkedPane (joined s clients processId peerProcessId clientId streamOnly relayingFor).pane := by
      intro clients hmarked clients' hc client hmem
      cases hc
      rcases mem_append.mp hmem with hmem | hmem
      · exact hmarked client hmem
      · rw [mem_singleton.mp hmem]
        exact Nat.zero_le _
    rw [State.step] at hstep
    split at hstep
    · cases hstep
      exact hnew [] nofun
    next clients hshared =>
      cases hstep
      exact hnew clients (h clients hshared)
    · cases hstep
  | finish collapse =>
    cases hstep
    simp only [finishHandoverWaiter]
    split_ifs
    · intro clients hc
      cases hc
    · exact h
  | report attachment revision size =>
    cases hstep
    exact h.reportSize _ _ _ _
  | resize revision size =>
    cases hstep
    split <;> exact h
  | edit =>
    cases hstep
    refine h.map fun clients hmarked => marked_map hmarked fun client => ?_
    split <;> exact ⟨rfl, rfl⟩
  | leave clientId =>
    cases hstep
    exact (h.retain _).settle _ _
  | disconnect attachment =>
    cases hstep
    exact (h.retain _).settle _ _
  | evict stalled =>
    cases hstep
    have hevicted : MarkedPane (relayBackpressure s.pane stalled).1 := by
      rw [relayBackpressure]
      split
      · intro clients hc
        simp only [collapseEmptyShared] at hc
        split at hc
        · cases hc
        · exact (h.retain _) clients hc
      · exact h
    dsimp only
    split
    · exact hevicted.settle _ _
    · exact hevicted
  | output bytes died =>
    cases hstep
    have hrelayed : MarkedPane (mapClients (relayOutput s.pane bytes).1 (closeRelays died)) :=
      MarkedPane.map (fun _ hc => h.queue _ hc) fun _ hmarked => hmarked.closeRelays died
    simp only [drainOutput]
    split
    · exact hrelayed.settle _ _
    · exact hrelayed
  | clipboard frame =>
    cases hstep
    simp only [clipboardOutput]
    split
    · exact fun _ hc => h.queue _ hc
    · exact h
  | die attachment =>
    cases hstep
    exact h.map fun clients hmarked => marked_map hmarked fun client => by simp

/-! ### Runs -/

def Next (s : State) (action : Action) (t : State) : Prop := s.step action = some t

/-- A pane that nobody is viewing yet: it is unheld, or shared with nobody while some attaches
wait to join it. -/
def Unviewed (pane : Pane) : Prop := pane.attachment = .none ∨ pane.attachment = .shared []

/-- **Arbitration**: in every state of every run of undisturbed steps, the pane runs at the
minimum of the remaining viewers' last accepted reports, and those that reported something else
have been queued the size since. -/
theorem arbitrated_of_run {s₀ s : State} {actions : List Action} (h₀ : Unviewed s₀.pane)
    (hrun : Run (Meeting State.Undisturbed Next) s₀ actions s) : Arbitrated s.pane := by
  have hstart : Arbitrated s₀.pane ∧ MarkedPane s₀.pane := by
    refine ⟨arbitrated_of_unmeasured fun clients hc => ?_, fun clients hc => ?_⟩ <;>
      rcases h₀ with hnone | hempty
    · rw [hnone] at hc
      cases hc
    · rw [hempty] at hc
      rw [← Attachment.shared.inj hc]
      rfl
    · rw [hnone] at hc
      cases hc
    · rw [hempty] at hc
      rw [← Attachment.shared.inj hc]
      exact nofun
  have hend : Arbitrated s.pane ∧ MarkedPane s.pane := by
    refine hrun.invariant (I := fun s => Arbitrated s.pane ∧ MarkedPane s.pane) hstart
      fun s action t h hstep => ?_
    exact ⟨(arbitrated_step_iff h.1 h.2 hstep.2).mpr hstep.1, h.2.step hstep.2⟩
  exact hend.1

/-- An edit, or a size that is not a viewer's. -/
def Action.isControl : Action → Bool
  | .edit | .resize .. => true
  | _ => false

/-- While no relay has ended, no other step can disturb the arbitration. -/
theorem undisturbed_of_open (hopen : ∀ clients, s.pane.attachment = .shared clients →
      ∀ client ∈ clients, client.relay.closed = false) (hcontrol : action.isControl = false) :
    s.Undisturbed action := by
  have hagreed : ∀ {clients : List SharedClient} {fallback : ℕ × ℕ},
      (∀ client ∈ clients, client.relay.closed = false) →
        Agreed clients (smallestSize (reports clients) fallback) := by
    intro clients fallback hclients hne
    have hliving : living clients = clients := filter_eq_self.mpr fun client hc => by
      rw [hclients client hc]
      rfl
    rw [hliving] at hne ⊢
    exact smallest_smallestSize hne fallback
  have hfilter : ∀ {clients : List SharedClient} (keep : SharedClient → Bool),
      s.pane.attachment = .shared clients → Settles s.pane (clients.filter keep) :=
    fun keep hshared _ => hagreed fun client hc => hopen _ hshared client (mem_of_mem_filter hc)
  cases action with
  | report attachment revision size =>
    intro clients client hshared _ _ remaining effective _
    refine hagreed fun client hc => ?_
    obtain ⟨client, hmem, rfl⟩ := mem_map.mp hc
    rw [record]
    split <;> exact hopen clients hshared client hmem
  | resize => cases hcontrol
  | edit => cases hcontrol
  | leave clientId => exact fun clients hshared _ => hfilter _ hshared
  | disconnect attachment => exact fun clients hshared _ => hfilter _ hshared
  | evict stalled => exact fun clients hshared _ => hfilter _ hshared
  | output bytes died =>
    rintro clients hshared ⟨client, hmem, hclosed⟩
    rw [hopen clients hshared client hmem] at hclosed
    cases hclosed
  | join => trivial
  | finish => trivial
  | clipboard => trivial
  | die => trivial

/-- A session with a pane nobody is viewing, at 80 by 24. -/
def unviewed : State where
  pane := {
    sessionId := 1
    id := 2
    exited := false
    attachment := .none
    attachmentClientId := none
    size := (80, 24)
    retained := []
    handedOver := none
    handoverWaiters := 0
    readerRunning := true }
  revision := 1
  nextAttachment := 1

/-- A step of a viewer, taken while no relay has ended. -/
def State.stepOpen (s : State) (action : Action) : Option State :=
  if action.isControl = false ∧ s.pane.viewers.all (!·.relay.closed) then s.step action else none

theorem undisturbed_of_stepOpen (h : s.stepOpen action = some t) :
    Meeting State.Undisturbed Next s action t := by
  rw [State.stepOpen] at h
  split at h
  next hopen =>
    refine ⟨undisturbed_of_open (fun clients hshared client hmem => ?_) hopen.1, h⟩
    rw [Pane.viewers, hshared] at hopen
    simpa using all_eq_true.mp hopen.2 client hmem
  · cases h

/-- Two viewers are measured, and the smaller one leaves: the other gets its size back. -/
theorem arbitrated_smallerLeaves : ∃ s : State,
    Run (Meeting State.Undisturbed Next) unviewed
      [.join 10 (some 10) "a" false none, .join 11 (some 11) "b" false none,
        .report 1 (some 1) (100, 30), .report 2 (some 1) (60, 40), .leave "b"] s ∧
      (s.pane.size = (100, 30) ∧ reports s.pane.viewers = [(100, 30)]) ∧ Arbitrated s.pane := by
  obtain ⟨s, hrun, hend⟩ := exists_run_of_foldlM (f := State.stepOpen)
    (P := fun s => s.pane.size = (100, 30) ∧ reports s.pane.viewers = [(100, 30)])
    [.join 10 (some 10) "a" false none, .join 11 (some 11) "b" false none,
      .report 1 (some 1) (100, 30), .report 2 (some 1) (60, 40), .leave "b"]
    (s := unviewed) (by decide)
  have hrun' := hrun.mono fun _ _ _ => undisturbed_of_stepOpen
  exact ⟨s, hrun', hend, arbitrated_of_run (.inl rfl) hrun'⟩

/-- A size event discovers that the smaller of two viewers has gone. It is dropped without being
settled, and the pane stays at its size. -/
theorem size_of_dropped_viewer : ∃ s : State,
    Run Next unviewed
      [.join 10 (some 10) "a" false none, .join 11 (some 11) "b" false none,
        .report 1 (some 1) (100, 30), .report 2 (some 1) (60, 40), .die 2,
        .report 1 (some 1) (120, 30)] s ∧
      (s.pane.size = (60, 30) ∧ reports s.pane.viewers = [(120, 30)]) ∧ ¬Arbitrated s.pane := by
  obtain ⟨s, hrun, hend⟩ := exists_run_of_foldlM (f := State.step)
    (P := fun s => s.pane.size = (60, 30) ∧ reports s.pane.viewers = [(120, 30)])
    [.join 10 (some 10) "a" false none, .join 11 (some 11) "b" false none,
      .report 1 (some 1) (100, 30), .report 2 (some 1) (60, 40), .die 2,
      .report 1 (some 1) (120, 30)]
    (s := unviewed) (by decide)
  refine ⟨s, hrun, hend, fun h => ?_⟩
  obtain ⟨hsize, hreports⟩ := hend
  have hshared : s.pane.attachment = .shared s.pane.viewers := by
    cases hattachment : s.pane.attachment <;> simp_all [Pane.viewers, reports]
  obtain ⟨r, hr, hcolumns⟩ := (h.smallest _ hshared (by rw [hreports]; exact nofun)).columns_mem
  rw [hreports, mem_singleton] at hr
  rw [hr, hsize] at hcolumns
  cases hcolumns

end Zetta.Zmux.Server.Sizing
