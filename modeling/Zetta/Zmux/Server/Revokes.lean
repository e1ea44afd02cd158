import Zetta.Zmux.Server.InReach

/-!
# Revokes that are asked and wake-ups that come

A pane under revoke waits for an answer of its holder, and the attaches that want it sleep until
somebody tells them that it has left that state. The revoke is sent at one moment to a table of
subscriptions that changes on its own, and the transition and the wake-up are two statements of
each handler.

* `heard_of_run`: in every run whose steps are `Answerable`, upgrades of the daemon included, the
  holder of a pane under revoke has been asked, and whoever still sleeps on a pane that is no
  longer being handed over is about to be woken.
* A holder that has not subscribed is not asked, and one that detaches wakes nobody
  (`nobody_asked`).
-/

namespace Zetta.Zmux.Server.Handover

open Function

variable {ι : Type}

/-! ### The daemon is replaced -/

/-- What an attachment comes back as: connections do not cross an upgrade. -/
def adoptAttachment : Attachment → Attachment
  | .granting _ => .shared []
  | .shared _ => .shared []
  | attachment => attachment

/-- The pane in the daemon that takes over. -/
def adoptPane (pane : Pane) : Pane :=
  { pane with
    attachment := adoptAttachment pane.attachment
    handedOver := none
    handoverWaiters := 0
    readerRunning := true }

/-- The daemon is replaced: requests and subscriptions end with their connections. -/
def State.upgrade (s : State ι) : State ι :=
  { s with
    pane := s.pane.map adoptPane
    task := fun _ => .idle
    subscribers := [] }

inductive Event (ι : Type)
  | daemon (action : Action ι)
  /-- The order in which a table is searched is unspecified, and may change. -/
  | rehash (subscribers : List Subscriber)
  | upgrade

/-! ### What is asked, and who is told -/

variable {holder : ℕ}

/-- A revoke is queued for the first subscription found, if it takes one. -/
theorem exists_enqueueRevoke {round : ℕ} {subscribers : List Subscriber}
    (h : ∃ subscriber ∈ subscribers, subscriber.processId = holder) :
    ∃ subscriber ∈ enqueueRevoke holder round false subscribers,
      subscriber.processId = holder ∧ round ∈ subscriber.revokes := by
  induction subscribers with
  | nil => simp at h
  | cons first rest ih =>
    rw [enqueueRevoke]
    split
    next hfirst =>
      rw [if_neg Bool.false_ne_true]
      exact ⟨_, List.mem_cons_self .., hfirst, by simp⟩
    next hother =>
      have hrest : ∃ subscriber ∈ rest, subscriber.processId = holder := by
        obtain ⟨subscriber, hmem, hholder⟩ := h
        rcases List.mem_cons.mp hmem with rfl | hmem
        · exact absurd hholder hother
        · exact ⟨subscriber, hmem, hholder⟩
      obtain ⟨subscriber, hmem, hasked⟩ := ih hrest
      exact ⟨subscriber, List.mem_cons_of_mem _ hmem, hasked⟩

/-- The present revoke is queued on, or has been delivered over, a subscription of a living
holder. -/
def State.Asked (s : State ι) : Prop :=
  ∀ pane holder, s.pane = some pane → pane.attachment = .revoking holder →
    s.alive holder = true →
    ∃ subscriber ∈ s.subscribers, subscriber.processId = holder ∧ s.round ∈ subscriber.revokes

/-- The pane is being handed over, in either direction. -/
def pending : Attachment → Bool
  | .revoking _ => true
  | .granting _ => true
  | _ => false

/-- A grant has been made, and its handler is about to wake whoever waits. -/
def State.Announcing (s : State ι) : Prop :=
  ∃ i processId clientId, s.task i = .replying processId clientId true

/-- Whoever sleeps is about to be woken. -/
def State.Watched (s : State ι) : Prop :=
  ∀ i attacher, s.task i = .waiting attacher false → s.Announcing

/-- Nobody sleeps on a pane that is not being handed over, or it is about to be woken. -/
def State.Awake (s : State ι) : Prop :=
  ∀ pane, s.pane = some pane → pending pane.attachment = false → s.Watched

/-- Nobody sleeps. -/
def State.Woken (s : State ι) : Prop := ∀ i attacher, s.task i ≠ .waiting attacher false

variable {s : State ι}

theorem State.Woken.awake (h : s.Woken) : s.Awake :=
  fun _ _ _ i attacher hi => absurd hi (h i attacher)

theorem woken_notifyAll (s : State ι) : s.notifyAll.Woken := by
  intro i attacher hi
  rw [notifyAll_task] at hi
  cases htask : s.task i with
  | waiting attacher' woken =>
    rw [htask] at hi
    cases hi
  | _ =>
    rw [htask] at hi
    cases hi

theorem awake_notifyAll (s : State ι) : s.notifyAll.Awake := (woken_notifyAll s).awake

theorem woken_releaseFailedHandover (s : State ι) (clientId : String) :
    (releaseFailedHandover s clientId).Woken := by
  rw [releaseFailedHandover]
  split
  · split
    · exact woken_notifyAll _
    · exact woken_notifyAll _
  · exact woken_notifyAll _

variable {t : State ι}

/-- A step after which no revoke is out. -/
theorem asked_of_not_revoking
    (h : ∀ pane' holder, t.pane = some pane' → pane'.attachment ≠ .revoking holder) : t.Asked :=
  fun pane' holder ht hrevoking => absurd hrevoking (h pane' holder ht)

/-- A step that asks nobody, and after which a revoke is out only if it was. -/
theorem State.Asked.mono (h : s.Asked)
    (hpane : ∀ pane' holder, t.pane = some pane' → pane'.attachment = .revoking holder →
      ∃ pane, s.pane = some pane ∧ pane.attachment = .revoking holder)
    (halive : ∀ p, t.alive p = true → s.alive p = true)
    (hsubscribers : t.subscribers = s.subscribers) (hround : t.round = s.round) : t.Asked := by
  intro pane' holder ht hrevoking hlives
  obtain ⟨pane, hs, hrevoking'⟩ := hpane pane' holder ht hrevoking
  rw [hsubscribers, hround]
  exact h pane holder hs hrevoking' (halive holder hlives)

/-! ### The condition -/

/-- The holder that an attach asks to hand the pane over. -/
def asks (pane : Pane) (attacher : Attacher) (forceShared : Bool) : Option ℕ :=
  match pane.attachment with
  | .exclusive holder =>
    if pane.exited ∨ forceShared ∨ (!attacher.streamOnly ∧ some holder = attacher.verifiedProcessId)
    then none else some holder
  | _ => none

/-- A holder that lives has a subscription, and its queue takes the revoke. -/
def State.Hears (s : State ι) (holder : ℕ) (full : Bool) : Prop :=
  s.alive holder = true → full = false ∧ ∃ subscriber ∈ s.subscribers, subscriber.processId = holder

/-- The steps after which a revoke is known to its holder, and no wake-up is missing: a holder is
asked when it can be, the subscription that carries the revoke stays, and nobody sleeps when a
holder detaches or a dead one is replaced. -/
def State.Answerable (s : State ι) : Event ι → Prop
  | .daemon (.attach _ attacher forceShared _ full) => ∀ pane holder, s.pane = some pane →
      asks pane attacher forceShared = some holder → s.Hears holder full
  | .daemon (.awaken i _ _ full) => ∀ attacher woken, s.task i = .waiting attacher woken →
      ∀ pane, s.pane = some pane →
      (∀ holder, asks pane attacher false = some holder → s.Hears holder full) ∧
      (s.deserted pane = true →
        (∀ j attacher', s.task j = .waiting attacher' false → j = i) ∨ s.Announcing)
  | .daemon (.detach caller _) => ∀ pane, s.pane = some pane → pane.attachment = .revoking caller →
      s.Watched
  | .daemon (.subscribe clientId _) => ∀ pane holder, s.pane = some pane →
      pane.attachment = .revoking holder → s.alive holder = true →
      ∃ subscriber ∈ s.subscribers, subscriber.clientId ≠ clientId ∧
        subscriber.processId = holder ∧ s.round ∈ subscriber.revokes
  | .daemon (.unsubscribe clientId) => ∀ pane holder, s.pane = some pane →
      pane.attachment = .revoking holder → s.alive holder = true →
      ∃ subscriber ∈ s.subscribers, subscriber.clientId ≠ clientId ∧
        subscriber.processId = holder ∧ s.round ∈ subscriber.revokes
  | .upgrade => ∀ pane holder, s.pane = some pane → pane.attachment = .revoking holder →
      s.alive holder = false
  | _ => True

variable [DecidableEq ι]

def State.event (s : State ι) : Event ι → Option (State ι)
  | .daemon action => s.step action
  | .rehash subscribers => if subscribers.Perm s.subscribers then some { s with subscribers } else none
  | .upgrade => some s.upgrade

/-! ### Revokes -/

variable {i : ι} {pane : Pane} {task : Task}

theorem asked_set_of_ne (h : ∀ holder, pane.attachment ≠ .revoking holder) :
    (s.set pane i task).Asked := by
  refine asked_of_not_revoking fun pane' holder ht => ?_
  cases ht
  exact h holder

/-- A request moves on, and leaves the pane under the revoke that was out. -/
theorem State.Asked.set (h : s.Asked) {pane' : Pane} (hpane : s.pane = some pane)
    (hattachment : pane'.attachment = pane.attachment) (i : ι) (task : Task) :
    (s.set pane' i task).Asked := by
  refine h.mono (fun pane'' holder ht hrevoking => ?_) (fun _ => id) rfl rfl
  cases ht
  exact ⟨pane, hpane, hattachment.symm.trans hrevoking⟩

variable {full : Bool}

/-- A holder is asked. -/
theorem asked_revoke (h : s.Hears holder full) (hrevoking : pane.attachment = .revoking holder)
    (i : ι) (task : Task) :
    ((s.revoke holder full).set pane i task).Asked := by
  intro pane' holder' ht hrevoking' hlives
  cases ht
  cases hrevoking.symm.trans hrevoking'
  obtain ⟨rfl, hsubscribed⟩ := h hlives
  exact exists_enqueueRevoke hsubscribed

variable {attacher : Attacher} {fault : Fault}

theorem asked_attachExclusive (h : ∀ holder, pane.attachment ≠ .revoking holder) :
    (attachExclusive s i pane attacher fault).Asked := by
  have hexclusive : ∀ holder, exclusiveAttachment attacher.clientProcessId ≠ .revoking holder := by
    cases attacher.clientProcessId <;> exact nofun
  rw [attachExclusive]
  split
  · exact asked_set_of_ne h
  · dsimp only
    split
    · exact asked_set_of_ne hexclusive
    · exact asked_set_of_ne hexclusive

theorem asked_attachShared (h : ∀ holder, pane.attachment ≠ .revoking holder) :
    (attachShared s i pane attacher fault).Asked := by
  rw [attachShared]
  split
  · split
    · exact asked_set_of_ne h
    · refine asked_of_not_revoking fun pane' holder ht => ?_
      cases ht
      simp
  · exact asked_set_of_ne h

theorem asked_attach (h : s.Asked) (hpane : s.pane = some pane) {forceShared : Bool}
    (hhears : ∀ holder, asks pane attacher forceShared = some holder → s.Hears holder full)
    (fault : Fault) : (attach s i pane attacher forceShared fault full).Asked := by
  have hrevoke : ∀ holder, pane.attachment = .exclusive holder →
      asks pane attacher forceShared = some holder →
      (attach.wait i attacher (s.revoke holder full)
        { pane with attachment := .revoking holder }).Asked :=
    fun holder _ hasks => asked_revoke (hhears holder hasks) rfl i _
  have hwait : (attach.wait i attacher s pane).Asked := by
    refine h.set hpane ?_ i _
    rfl
  rw [attach]
  split
  · exact h.set hpane rfl i .idle
  next hexited =>
    split
    next hshared =>
      split
      · exact asked_attachShared (by simp)
      next clients hclients => exact asked_attachShared (by rw [hclients]; simp)
      · split
        · exact h.set hpane rfl i .idle
        next hforce =>
          split
          next holder hexclusive =>
            have hstream : attacher.streamOnly = true := hshared.resolve_right hforce
            exact hrevoke holder hexclusive (by simp [asks, hexclusive, hexited, hforce, hstream])
          · exact hwait
    next hlocal =>
      have hlocal' : attacher.streamOnly = false ∧ forceShared = false := by simpa using hlocal
      split
      next hnone => exact asked_attachExclusive (by rw [hnone]; simp)
      next clients hclients => exact asked_attachShared (by rw [hclients]; simp)
      next holder hexclusive =>
        split
        · exact asked_attachExclusive (by rw [hexclusive]; simp)
        next hother =>
          refine hrevoke holder hexclusive ?_
          simp [asks, hexclusive, hexited, hlocal', hother]
      · exact hwait

/-- Whoever stops waiting leaves a revoke out as it was. -/
theorem finishHandoverWaiter_revoking {collapse : Bool}
    (h : (finishHandoverWaiter pane collapse).attachment = .revoking holder) :
    pane.attachment = .revoking holder := by
  simp only [finishHandoverWaiter] at h
  split at h
  · cases h
  · exact h

theorem asked_awaken (h : s.Asked) (hpane : s.pane = some pane)
    (hhears : ∀ holder, asks pane attacher false = some holder → s.Hears holder full)
    (expired : Bool) (fault : Fault) : (awaken s i pane attacher expired fault full).Asked := by
  have hfinished : ∀ (pane' : Pane) (collapse : Bool),
      (∀ holder, pane'.attachment ≠ .revoking holder) → ∀ holder,
      (finishHandoverWaiter pane' collapse).attachment ≠ .revoking holder :=
    fun pane' collapse hne holder heq => hne holder (finishHandoverWaiter_revoking heq)
  have hstay : ∀ collapse, (s.set (finishHandoverWaiter pane collapse) i .idle).Asked := by
    intro collapse
    refine h.mono (fun pane'' holder ht hrevoking => ?_) (fun _ => id) rfl rfl
    cases ht
    exact ⟨pane, hpane, finishHandoverWaiter_revoking hrevoking⟩
  have hagain : (awaken.again i attacher expired s pane).Asked := by
    rw [awaken.again]
    split
    · exact hstay true
    · exact h.set hpane rfl i _
  rw [awaken]
  split
  · exact hstay true
  next hexited =>
    split
    next clients hshared =>
      exact asked_attachShared (hfinished pane false (by rw [hshared]; simp))
    next hnone =>
      dsimp only
      split
      · exact asked_attachShared (by simp)
      · exact asked_attachExclusive (hfinished pane true (by rw [hnone]; simp))
    next holder hexclusive =>
      split
      · exact asked_attachExclusive (hfinished pane true (by rw [hexclusive]; simp))
      next hother =>
        have hasks : asks pane attacher false = some holder := by
          simp only [Bool.not_eq_true', Bool.not_eq_true] at hother hexited
          simp [asks, hexclusive, hexited, hother]
        rw [awaken.again]
        split
        · refine asked_revoke (hhears holder hasks) ?_ i _
          simp [finishHandoverWaiter]
        · exact asked_revoke (hhears holder hasks) rfl i _
    next holder hgranting =>
      split
      · exact hagain
      · exact asked_attachExclusive (hfinished pane.unhold true (by rintro _ ⟨⟩))
    next holder hrevoking =>
      split
      · exact hagain
      · exact asked_attachExclusive (hfinished pane.unhold true (by rintro _ ⟨⟩))

/-- **One step** of the daemon leaves no revoke unasked. -/
theorem asked_step {action : Action ι} (h : s.Asked) (hanswerable : s.Answerable (.daemon action))
    (hstep : s.step action = some t) : t.Asked := by
  -- A step that leaves attachments and subscriptions alone.
  have hkept : ∀ {t : State ι}, t.pane = s.pane → t.alive = s.alive →
      t.subscribers = s.subscribers → t.round = s.round → t.Asked :=
    fun hpane halive hsubscribers hround => h.mono
      (fun pane' holder ht hrevoking => ⟨pane', hpane ▸ ht, hrevoking⟩)
      (fun p hp => halive ▸ hp) hsubscribers hround
  have hnot : ∀ {t : State ι} {pane' : Pane}, t.pane = some pane' →
      (∀ holder, pane'.attachment ≠ .revoking holder) → t.Asked := by
    intro t pane' ht hne
    refine asked_of_not_revoking fun pane'' holder ht' => ?_
    cases ht.symm.trans ht'
    exact hne holder
  -- Viewers leave: a pane under revoke has none.
  have hdeparted : ∀ {f : Pane → Pane}, (∀ pane, ∃ emptied, Departed emptied pane (f pane)) →
      (s.onPane f).Asked := by
    intro f hf
    refine h.mono (fun pane' holder ht hrevoking => ?_) (fun _ => id) rfl rfl
    obtain ⟨pane, hs, rfl⟩ := Option.map_eq_some_iff.mp ht
    obtain ⟨emptied, hleft⟩ := hf pane
    rcases hleft.attachment with heq | ⟨clients, -, hnone | ⟨remaining, hshared, -⟩⟩
    · exact ⟨pane, hs, heq ▸ hrevoking⟩
    · exact nomatch hnone.symm.trans hrevoking
    · exact nomatch hshared.symm.trans hrevoking
  cases moves_of_step hstep with
  | refused => exact h
  | gone i hgone htask => exact hkept rfl rfl rfl rfl
  | @attach i pane attacher forceShared fault full htask hpane =>
    exact asked_attach h hpane (fun holder => hanswerable pane holder hpane) fault
  | @awaken i pane attacher woken expired fault full htask hpane =>
    exact asked_awaken h hpane (hanswerable attacher woken htask pane hpane).1 expired fault
  | sent htask =>
    split
    · exact hkept rfl rfl rfl rfl
    · exact hkept rfl rfl rfl rfl
  | @unsent i processId clientId grant htask =>
    rw [releaseFailedHandover]
    split
    next pane hpane =>
      split
      · exact hnot rfl (by rintro _ ⟨⟩)
      · exact hkept rfl rfl rfl rfl
    · exact hkept rfl rfl rfl rfl
  | snapshot hpane hrevoking => exact hnot rfl (by rintro _ ⟨⟩)
  | @seeded action pane screen hpane =>
    refine h.mono (fun pane' holder ht hrevoking => ⟨pane, hpane, ?_⟩) (fun _ => id) rfl rfl
    cases ht
    exact hrevoking
  | takeExclusive htask hpane hshared hsole => exact hnot rfl (by rintro _ ⟨⟩)
  | @resume i pane processId clientId flushed fault htask hpane =>
    have hexclusive : ∀ holder, exclusiveAttachment processId ≠ .revoking holder := by
      cases processId <;> rintro holder ⟨⟩
    rw [resumeGrant]
    split
    · dsimp only
      split
      · rw [releaseFailedHandover, set_pane]
        dsimp only
        rw [if_pos (.inr rfl)]
        exact hnot rfl (by rintro _ ⟨⟩)
      · exact asked_set_of_ne hexclusive
    · exact hnot rfl (by rintro _ ⟨⟩)
  | releaseExclusive hpane hheld hclient => exact hnot rfl (by rintro _ ⟨⟩)
  | detach hpane hheld => exact hnot rfl (by rintro _ ⟨⟩)
  | closePane hpane hheld => exact hnot rfl (by rintro _ ⟨⟩)
  | leaveShared => exact hdeparted fun pane => ⟨_, departed_retain pane s.revision _⟩
  | disconnect htask => exact hdeparted fun pane => ⟨_, departed_retain pane s.revision _⟩
  | evict => exact hdeparted fun pane => ⟨_, departed_evict pane s.revision _⟩
  | @output pane bytes hpane hdrain =>
    have hrelayed : State.onPane s (drainOutput · s.revision bytes) =
        { s with pane := some (drainOutput pane s.revision bytes) } := by
      rw [State.onPane, hpane, Option.map_some]
    rw [← hrelayed]
    exact hdeparted fun pane => ⟨_, departed_drainOutput pane s.revision bytes⟩
  | announce => exact hdeparted fun pane => ⟨_, departed_broadcastSize pane s.revision pane.size⟩
  | closeRelay => exact hdeparted fun pane => ⟨_, departed_closeRelay _ pane⟩
  | @die processId =>
    refine h.mono (fun pane' holder ht hrevoking => ⟨pane', ht, hrevoking⟩) (fun p hp => ?_) rfl rfl
    by_cases hself : p = processId
    · simp [hself] at hp
    · simpa [hself] using hp
  | sweep hpane hholder hdead => exact hnot rfl (by rintro _ ⟨⟩)
  | exit =>
    refine h.mono (fun pane' holder ht hrevoking => ?_) (fun _ => id) rfl rfl
    obtain ⟨pane, hs, rfl⟩ := Option.map_eq_some_iff.mp ht
    exact ⟨pane, hs, hrevoking⟩
  | remove => exact asked_of_not_revoking (by simp)
  | @subscribe clientId processId =>
    intro pane holder hpane hrevoking hlives
    obtain ⟨subscriber, hmem, hother, hasked⟩ := hanswerable pane holder hpane hrevoking hlives
    exact ⟨subscriber, List.mem_cons_of_mem _ (List.mem_filter.mpr ⟨hmem, by simpa using hother⟩),
      hasked⟩
  | @unsubscribe clientId =>
    intro pane holder hpane hrevoking hlives
    obtain ⟨subscriber, hmem, hother, hasked⟩ := hanswerable pane holder hpane hrevoking hlives
    exact ⟨subscriber, List.mem_filter.mpr ⟨hmem, by simpa using hother⟩, hasked⟩

/-! ### Wake-ups -/

/-- A request that announces no grant moves on, and does not go to sleep. -/
theorem State.Watched.set (h : s.Watched)
    (hquiet : ∀ processId clientId, s.task i ≠ .replying processId clientId true) (pane : Pane)
    (htask : ∀ attacher, task ≠ .waiting attacher false) :
    (s.set pane i task).Watched := by
  intro j attacher hj
  have hji : j ≠ i := by
    rintro rfl
    rw [set_task, update_self] at hj
    exact htask attacher hj
  rw [set_task, update_of_ne hji] at hj
  obtain ⟨k, processId, clientId, hk⟩ := h j attacher hj
  refine ⟨k, processId, clientId, (update_of_ne (fun hki => ?_) ..).trans hk⟩
  exact hquiet processId clientId (hki ▸ hk)

theorem watched_attachExclusive
    (h : ∀ task : Task, (∀ attacher, task ≠ .waiting attacher false) → ∀ pane',
      (s.set pane' i task).Watched) : (attachExclusive s i pane attacher fault).Watched := by
  rw [attachExclusive]
  split
  · exact h .idle (by simp) pane
  · dsimp only
    split
    · exact h .idle (by simp) _
    · exact h (.replying _ _ _) (by simp) _

theorem watched_attachShared
    (h : ∀ task : Task, (∀ attacher, task ≠ .waiting attacher false) → ∀ pane',
      (s.set pane' i task).Watched) : (attachShared s i pane attacher fault).Watched := by
  rw [attachShared]
  split
  · split
    · exact h .idle (by simp) pane
    · dsimp only
      split
      · exact h .idle (by simp) pane
      · exact h (.serving s.nextAttachment) (by simp) pane
  · exact h .idle (by simp) pane

/-- What is put in place while the pane is being handed over puts nobody to sleep for good. -/
theorem awake_set_of_pending (h : pending pane.attachment = true) : (s.set pane i task).Awake := by
  intro pane' ht hnot
  cases ht
  rw [h] at hnot
  cases hnot

theorem awake_attach (h : s.Awake) (hpane : s.pane = some pane) (htask : s.task i = .idle)
    (attacher : Attacher) (forceShared : Bool) (fault : Fault) (full : Bool) :
    (attach s i pane attacher forceShared fault full).Awake := by
  have hquiet : ∀ p c, s.task i ≠ .replying p c true := by rw [htask]; exact nofun
  have hset : pending pane.attachment = false → ∀ task : Task,
      (∀ attacher, task ≠ .waiting attacher false) → ∀ pane', (s.set pane' i task).Watched :=
    fun hnot task hne pane' => (h pane hpane hnot).set hquiet pane' hne
  have hsame : (s.set pane i .idle).Awake := by
    intro pane' ht hnot
    cases ht
    exact hset hnot .idle nofun pane
  have hwait : ∀ s' : State ι, (∃ holder, pane.attachment = .revoking holder) ∨
      (∃ holder, pane.attachment = .granting holder) → (attach.wait i attacher s' pane).Awake := by
    rintro s' (⟨holder, hheld⟩ | ⟨holder, hheld⟩)
    · exact awake_set_of_pending (by rw [show Pane.attachment _ = _ from hheld]; rfl)
    · exact awake_set_of_pending (by rw [show Pane.attachment _ = _ from hheld]; rfl)
  have hwatched : ∀ {t : State ι}, t.Watched → t.Awake := fun ht _ _ _ => ht
  rw [attach]
  split
  · exact hsame
  · split
    · split
      next hnone => exact hwatched (watched_attachShared (hset (by rw [hnone]; rfl)))
      next clients hclients => exact hwatched (watched_attachShared (hset (by rw [hclients]; rfl)))
      next hnone hshared =>
        split
        · exact hsame
        · split
          · exact awake_set_of_pending rfl
          next hexclusive =>
            refine hwait s ?_
            cases hattachment : pane.attachment with
            | none => exact absurd hattachment hnone
            | shared clients => exact absurd hattachment (hshared clients)
            | exclusive holder => exact absurd hattachment (hexclusive holder)
            | revoking holder => exact .inl ⟨holder, rfl⟩
            | granting holder => exact .inr ⟨holder, rfl⟩
    · split
      next hnone => exact hwatched (watched_attachExclusive (hset (by rw [hnone]; rfl)))
      next clients hclients => exact hwatched (watched_attachShared (hset (by rw [hclients]; rfl)))
      next holder hexclusive =>
        split
        · exact hwatched (watched_attachExclusive (hset (by rw [hexclusive]; rfl)))
        · exact awake_set_of_pending rfl
      next hnone hshared hexclusive =>
        refine hwait s ?_
        cases hattachment : pane.attachment with
        | none => exact absurd hattachment hnone
        | shared clients => exact absurd hattachment (hshared clients)
        | exclusive holder => exact absurd hattachment (hexclusive holder)
        | revoking holder => exact .inl ⟨holder, rfl⟩
        | granting holder => exact .inr ⟨holder, rfl⟩

@[simp]
theorem pending_finishHandoverWaiter (pane : Pane) (collapse : Bool) :
    pending (finishHandoverWaiter pane collapse).attachment = pending pane.attachment := by
  simp only [finishHandoverWaiter]
  split
  next h =>
    rw [h.2.2]
    rfl
  · rfl

theorem awake_awaken (h : s.Awake) (hpane : s.pane = some pane) {woken : Bool}
    (htask : s.task i = .waiting attacher woken) (hdead : s.deserted pane = true →
      (∀ j attacher', s.task j = .waiting attacher' false → j = i) ∨ s.Announcing) (expired : Bool)
    (fault : Fault) (full : Bool) :
    (awaken s i pane attacher expired fault full).Awake := by
  have hquiet : ∀ p c, s.task i ≠ .replying p c true := by rw [htask]; simp
  have hset : pending pane.attachment = false → ∀ task : Task,
      (∀ attacher, task ≠ .waiting attacher false) → ∀ pane', (s.set pane' i task).Watched :=
    fun hnot task hne pane' => (h pane hpane hnot).set hquiet pane' hne
  have hwatched : ∀ {t : State ι}, t.Watched → t.Awake := fun ht _ _ _ => ht
  have hagain : ∀ (s' : State ι) (pane' : Pane), pending pane'.attachment = true →
      (awaken.again i attacher expired s' pane').Awake := by
    intro s' pane' hpending
    rw [awaken.again]
    split
    · exact awake_set_of_pending (by rw [pending_finishHandoverWaiter, hpending])
    · exact awake_set_of_pending hpending
  -- Who takes the pane of a dead holder tells nobody.
  have hdeserted : s.deserted pane = true → ∀ task : Task,
      (∀ attacher, task ≠ .waiting attacher false) → ∀ pane', (s.set pane' i task).Watched := by
    intro hdeserted task hne pane' j attacher' hj
    have hji : j ≠ i := by
      rintro rfl
      rw [set_task, update_self] at hj
      exact hne attacher' hj
    rw [set_task, update_of_ne hji] at hj
    rcases hdead hdeserted with hself | ⟨k, p, c, hk⟩
    · exact absurd (hself j attacher' hj) hji
    · have hki : k ≠ i := by
        rintro rfl
        exact hquiet p c hk
      exact ⟨k, p, c, (update_of_ne hki ..).trans hk⟩
  rw [awaken]
  split
  · intro pane' ht hnot
    cases ht
    rw [pending_finishHandoverWaiter] at hnot
    exact hset hnot .idle (by simp) _
  next hexited =>
    split
    next clients hshared => exact hwatched (watched_attachShared (hset (by rw [hshared]; rfl)))
    next hnone =>
      dsimp only
      split
      · exact hwatched (watched_attachShared (hset (by rw [hnone]; rfl)))
      · exact hwatched (watched_attachExclusive (hset (by rw [hnone]; rfl)))
    next holder hexclusive =>
      split
      · exact hwatched (watched_attachExclusive (hset (by rw [hexclusive]; rfl)))
      · exact hagain _ _ rfl
    next holder hgranting =>
      split
      · exact hagain s pane (by rw [hgranting]; rfl)
      next hgone =>
        exact hwatched (watched_attachExclusive (hdeserted
          (by simp [State.deserted, hexited, hgranting, hgone])))
    next holder hrevoking =>
      split
      · exact hagain s pane (by rw [hrevoking]; rfl)
      next hgone =>
        exact hwatched (watched_attachExclusive (hdeserted
          (by simp [State.deserted, hexited, hrevoking, hgone])))

/-- **One step** of the daemon leaves nobody asleep on a pane that is not being handed over. -/
theorem awake_step {action : Action ι} (h : s.Awake) (hanswerable : s.Answerable (.daemon action))
    (hstep : s.step action = some t) : t.Awake := by
  have hwatched : ∀ {t : State ι}, t.Watched → t.Awake := fun ht _ _ _ => ht
  have hkept : ∀ {t : State ι}, t.pane = s.pane → t.task = s.task → t.Awake := by
    intro t hpane htask pane' ht hnot i attacher hi
    rw [State.Announcing, htask]
    exact h pane' (hpane ▸ ht) hnot i attacher (htask ▸ hi)
  -- Viewers leave a pane that is not being handed over.
  have hdeparted : ∀ {emptied : Prop} {pane pane' : Pane}, Departed emptied pane pane' →
      pending pane'.attachment = false → pending pane.attachment = false := by
    intro emptied pane pane' hleft hnot
    rcases hleft.attachment with heq | ⟨clients, hshared, -⟩
    · rwa [← heq]
    · rw [hshared]
      rfl
  have hleft : ∀ {f : Pane → Pane}, (∀ pane, ∃ emptied, Departed emptied pane (f pane)) →
      (s.onPane f).Awake := by
    intro f hf pane' ht hnot
    obtain ⟨pane, hs, rfl⟩ := Option.map_eq_some_iff.mp ht
    obtain ⟨emptied, hgone⟩ := hf pane
    exact h pane hs (hdeparted hgone hnot)
  cases moves_of_step hstep with
  | refused => exact h
  | gone i hgone htask => exact fun pane' ht => nomatch hgone.symm.trans ht
  | @attach i pane attacher forceShared fault full htask hpane =>
    exact awake_attach h hpane htask attacher forceShared fault full
  | @awaken i pane attacher woken expired fault full htask hpane =>
    exact awake_awaken h hpane htask (hanswerable attacher woken htask pane hpane).2 expired fault full
  | @sent i processId clientId grant htask =>
    cases grant with
    | true => exact awake_notifyAll _
    | false =>
      intro pane hpane hnot
      have hidle : ∀ attacher, Task.idle ≠ .waiting attacher false := by simp
      exact (h pane hpane hnot).set (i := i) (by rw [htask]; simp) pane hidle
  | unsent htask => exact (woken_releaseFailedHandover _ _).awake
  | snapshot hpane hrevoking => exact awake_notifyAll _
  | @seeded action pane screen hpane =>
    intro pane' ht hnot
    cases ht
    exact h pane hpane hnot
  | takeExclusive htask hpane hshared hsole => exact awake_set_of_pending rfl
  | @resume i pane processId clientId flushed fault htask hpane =>
    rw [resumeGrant]
    split
    · dsimp only
      split
      · exact (woken_releaseFailedHandover _ _).awake
      · -- The grant is about to be announced.
        exact hwatched fun _ _ _ => ⟨i, processId, clientId, update_self ..⟩
    · exact awake_notifyAll _
  | releaseExclusive hpane hheld hclient => exact awake_notifyAll _
  | @detach pane caller screen hpane hheld =>
    refine hwatched ?_
    cases hattachment : pane.attachment with
    | revoking holder =>
      rw [hattachment] at hheld
      cases hheld
      exact hanswerable pane hpane hattachment
    | none => exact h pane hpane (by rw [hattachment]; rfl)
    | exclusive holder => exact h pane hpane (by rw [hattachment]; rfl)
    | shared clients => exact h pane hpane (by rw [hattachment]; rfl)
    | granting holder =>
      rw [hattachment] at hheld
      cases hheld
  | closePane hpane hheld => exact awake_notifyAll _
  | leaveShared => exact awake_notifyAll _
  | @disconnect i attachment htask =>
    intro pane' ht hnot
    obtain ⟨pane, hs, rfl⟩ := Option.map_eq_some_iff.mp ht
    have hwatch := h pane hs (hdeparted (departed_retain pane s.revision _) hnot)
    have hidle : ∀ attacher, Task.idle ≠ .waiting attacher false := by simp
    exact hwatch.set (i := i) (by rw [htask]; simp) pane hidle
  | evict => exact hleft fun pane => ⟨_, departed_evict pane s.revision _⟩
  | @output pane bytes hpane hdrain =>
    intro pane' ht hnot
    cases ht
    exact h pane hpane (hdeparted (departed_drainOutput pane s.revision bytes) hnot)
  | announce => exact hleft fun pane => ⟨_, departed_broadcastSize pane s.revision pane.size⟩
  | closeRelay => exact hleft fun pane => ⟨_, departed_closeRelay _ pane⟩
  | die => exact hkept rfl rfl
  | sweep hpane hholder hdead => exact awake_notifyAll _
  | exit =>
    intro pane' ht hnot
    obtain ⟨pane, hs, rfl⟩ := Option.map_eq_some_iff.mp ht
    exact h pane hs hnot
  | remove => rintro pane' ⟨⟩
  | subscribe => exact hkept rfl rfl
  | unsubscribe => exact hkept rfl rfl

/-! ### Runs -/

/-- The steps of all parties, rehashes and upgrades included. -/
def Happens (s : State ι) (event : Event ι) (t : State ι) : Prop := s.event event = some t

theorem asked_event {event : Event ι} (h : s.Asked) (hanswerable : s.Answerable event)
    (hstep : s.event event = some t) : t.Asked := by
  cases event with
  | daemon action => exact asked_step h hanswerable hstep
  | rehash subscribers =>
    obtain ⟨hperm, hnext⟩ := Option.ite_none_right_eq_some.mp hstep
    cases hnext
    intro pane holder hpane hrevoking hlives
    obtain ⟨subscriber, hmem, hasked⟩ := h pane holder hpane hrevoking hlives
    exact ⟨subscriber, hperm.mem_iff.mpr hmem, hasked⟩
  | upgrade =>
    cases hstep
    intro pane' holder ht hrevoking hlives
    obtain ⟨pane, hpane, rfl⟩ := Option.map_eq_some_iff.mp ht
    -- Only a revoke crosses an upgrade as a revoke.
    have hbefore : pane.attachment = .revoking holder := by
      cases hattachment : pane.attachment <;> simp_all [adoptPane, adoptAttachment]
    exact absurd hlives (by simp [State.upgrade, hanswerable pane holder hpane hbefore])

theorem awake_event {event : Event ι} (h : s.Awake) (hanswerable : s.Answerable event)
    (hstep : s.event event = some t) : t.Awake := by
  cases event with
  | daemon action => exact awake_step h hanswerable hstep
  | rehash subscribers =>
    obtain ⟨hperm, hnext⟩ := Option.ite_none_right_eq_some.mp hstep
    cases hnext
    exact h
  | upgrade =>
    cases hstep
    exact State.Woken.awake nofun

/-- No revoke and no wake-up is lost. -/
structure Heard (s : State ι) : Prop where
  /-- A revoke from a living holder is queued on, or was delivered over, a subscription it has. -/
  asked : ∀ pane holder, s.pane = some pane → pane.attachment = .revoking holder →
    s.alive holder = true →
    ∃ subscriber ∈ s.subscribers, subscriber.processId = holder ∧ s.round ∈ subscriber.revokes
  /-- Whoever waits for a pane that is not being handed over is woken, or a grant is about to be
  announced. -/
  told : ∀ pane, s.pane = some pane → pending pane.attachment = false →
    ∀ i attacher woken, s.task i = .waiting attacher woken → woken = true ∨ s.Announcing
  /-- The announcement wakes everybody. -/
  announced : ∀ i processId clientId sent t, s.task i = .replying processId clientId true →
    s.step (.send i sent) = some t →
    ∀ j attacher woken, t.task j = .waiting attacher woken → woken = true

theorem woken_send {processId : ℕ} {clientId : String} {sent : Bool}
    (htask : s.task i = .replying processId clientId true) (hstep : s.step (.send i sent) = some t) :
    t.Woken := by
  cases sent with
  | true =>
    simp only [State.step, htask, if_true] at hstep
    cases hstep
    exact woken_notifyAll _
  | false =>
    simp only [State.step, htask, Bool.false_eq_true, if_false] at hstep
    cases hstep
    exact woken_releaseFailedHandover _ _

/-- **Heard**: in every state of every run of answerable steps, whatever their order. -/
theorem heard_of_run {s₀ s : State ι} {events : List (Event ι)} (h₀ : Initial s₀)
    (hrevoking : ∀ pane holder, s₀.pane = some pane → pane.attachment ≠ .revoking holder)
    (hrun : Run (Meeting State.Answerable Happens) s₀ events s) : Heard s := by
  have hawake : s₀.Awake := State.Woken.awake fun i attacher hi => nomatch (h₀.idle i).symm.trans hi
  obtain ⟨hasked, hawake⟩ := hrun.invariant (I := fun s => s.Asked ∧ s.Awake)
    ⟨asked_of_not_revoking hrevoking, hawake⟩ fun _ _ _ h hstep =>
      ⟨asked_event h.1 hstep.1 hstep.2, awake_event h.2 hstep.1 hstep.2⟩
  have hwoken : ∀ {t : State ι} {j attacher woken}, t.Woken →
      t.task j = .waiting attacher woken → woken = true := by
    intro t j attacher woken ht hj
    cases woken with
    | true => rfl
    | false => exact absurd hj (ht j attacher)
  refine ⟨hasked, fun pane hpane hnot i attacher woken hi => ?_,
    fun i processId clientId sent t htask hstep j attacher woken =>
      hwoken (woken_send htask hstep)⟩
  cases woken with
  | true => exact .inl rfl
  | false => exact .inr (hawake pane hpane hnot i attacher hi)

/-- The holder of a pane has subscribed, and a second client asks for the pane. -/
theorem heard_revoke : ∃ s : State (Fin 3),
    Run (Meeting State.Answerable Happens) unheld
      [.daemon (.subscribe "a" 1), .daemon (.attach 0 local1 false .none false),
        .daemon (.send 0 true), .daemon (.attach 1 local2 false .none false)] s ∧
      (s.pane.map (·.attachment)) = some (.revoking 1) ∧ Heard s := by
  obtain ⟨s, hrun, hend⟩ : ∃ s : State (Fin 3), Run (Meeting State.Answerable Happens) unheld
      [.daemon (.subscribe "a" 1), .daemon (.attach 0 local1 false .none false),
        .daemon (.send 0 true), .daemon (.attach 1 local2 false .none false)] s ∧
      (s.pane.map (·.attachment)) = some (.revoking 1) := by
    refine ⟨_, .cons ⟨?_, rfl⟩ (.cons ⟨?_, rfl⟩ (.cons ⟨trivial, rfl⟩ (.cons ⟨?_, rfl⟩
      (.nil _)))), rfl⟩
    · intro pane holder hpane hrevoking
      cases hpane
      cases hrevoking
    · intro pane holder hpane hasks
      cases hpane
      cases hasks
    · intro pane holder hpane hasks _
      cases hpane
      cases hasks
      exact ⟨rfl, ⟨"a", 1, []⟩, List.mem_cons_self .., rfl⟩
  refine ⟨s, hrun, hend, heard_of_run initial_unheld (fun pane holder hpane => ?_) hrun⟩
  cases hpane
  exact nofun

/-- The holder has no subscription when a second client asks for its pane; and a holder detaches
while a second client sleeps. -/
theorem nobody_asked :
    (∃ s : State (Fin 3), Run Happens unheld
      [.daemon (.attach 0 local1 false .none false), .daemon (.send 0 true),
        .daemon (.attach 1 local2 false .none false)] s ∧ ¬Heard s) ∧
    ∃ s : State (Fin 3), Run Happens unheld
      [.daemon (.subscribe "a" 1), .daemon (.attach 0 local1 false .none false),
        .daemon (.send 0 true), .daemon (.attach 1 local2 false .none false),
        .daemon (.detach 1 none)] s ∧ ¬Heard s := by
  constructor
  · obtain ⟨s, hrun, hrevoking, halive, hnobody⟩ := exists_run_of_foldlM (f := State.event)
      (P := fun s : State (Fin 3) => (s.pane.map (·.attachment)) = some (.revoking 1) ∧
        s.alive 1 = true ∧ s.subscribers = [])
      [.daemon (.attach 0 local1 false .none false), .daemon (.send 0 true),
        .daemon (.attach 1 local2 false .none false)] (s := unheld) (by decide)
    refine ⟨s, hrun, fun h => ?_⟩
    obtain ⟨pane, hpane, hholder⟩ := Option.map_eq_some_iff.mp hrevoking
    obtain ⟨subscriber, hmem, -⟩ := h.asked pane 1 hpane hholder halive
    rw [hnobody] at hmem
    cases hmem
  · obtain ⟨s, hrun, hunheld, hsleeps, hquiet⟩ := exists_run_of_foldlM (f := State.event)
      (P := fun s : State (Fin 3) => (s.pane.map (·.attachment)) = some .none ∧
        s.task 1 = .waiting local2 false ∧ ∀ i, (s.task i).replyingTo = none)
      [.daemon (.subscribe "a" 1), .daemon (.attach 0 local1 false .none false),
        .daemon (.send 0 true), .daemon (.attach 1 local2 false .none false),
        .daemon (.detach 1 none)] (s := unheld) (by decide)
    refine ⟨s, hrun, fun h => ?_⟩
    obtain ⟨pane, hpane, hnone⟩ := Option.map_eq_some_iff.mp hunheld
    rcases h.told pane hpane (by rw [hnone]; rfl) 1 local2 false hsleeps with hwoken | ⟨i, p, c, hi⟩
    · cases hwoken
    · have := hquiet i
      rw [hi] at this
      cases this

end Zetta.Zmux.Server.Handover
