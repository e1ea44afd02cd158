import Zetta.Zmux.Server.Departures

/-!
# One reader per terminal

A terminal that two parties read is split between them byte by byte. `Sound` says that a living
process which has the descriptor, or is about to be sent it, is the one the pane records; the
daemon reads a pane only when nobody is recorded.

* `oneReader_of_run`: every run whose steps are `Steady` keeps this.
* A grant that resumes after its flush does not look whether the pane is still its own: the
  daemon reads a terminal that another client has taken meanwhile (`grant_overrides`).
-/

namespace Zetta.Zmux.Server.Handover

open Function

variable {ι : Type}

/-- The descriptor is about to be sent to the process. -/
def State.Replying (s : State ι) (processId : ℕ) : Prop :=
  ∃ i, (s.task i).replyingTo = some processId

/-- The process lives and has the descriptor, or is about to be sent it. -/
def State.Claims (s : State ι) (processId : ℕ) : Prop :=
  s.alive processId = true ∧ (s.holds processId = true ∨ s.Replying processId)

/-- Nobody but the recorded holder has a claim to the terminal. -/
structure Sound (s : State ι) : Prop where
  held : ∀ pane, s.pane = some pane → ∀ p, s.Claims p → holderOf pane.attachment = some p
  one : ∀ p q, s.Claims p → s.Claims q → p = q

/-- **The promise**: whenever the daemon may read the terminal, no living client has it, and at
most one has it at any time; a reply that is still to be sent goes to the recorded holder. -/
structure OneReader (s : State ι) : Prop where
  daemon : ∀ pane, s.pane = some pane → drainReads pane.attachment = true →
    ∀ p, s.alive p = true → s.holds p = false
  client : ∀ p q, s.alive p = true → s.holds p = true → s.alive q = true → s.holds q = true →
    p = q
  reply : ∀ pane, s.pane = some pane → ∀ p, s.alive p = true → s.Replying p →
    holderOf pane.attachment = some p

variable {s : State ι}

theorem Sound.oneReader (h : Sound s) : OneReader s where
  daemon pane hpane hdrain p halive := by
    by_contra hholds
    have := h.held pane hpane p ⟨halive, .inl (by simpa using hholds)⟩
    rw [holderOf_of_drainReads hdrain] at this
    cases this
  client p q hp hp' hq hq' := h.one p q ⟨hp, .inl hp'⟩ ⟨hq, .inl hq'⟩
  reply pane hpane p halive hreplying := h.held pane hpane p ⟨halive, .inr hreplying⟩

/-! ### Claims -/

variable {p : ℕ}

@[simp]
theorem claims_notifyAll : s.notifyAll.Claims p ↔ s.Claims p := by
  simp [State.Claims, State.Replying]

@[simp]
theorem claims_revoke {holder : ℕ} {full : Bool} :
    (s.revoke holder full).Claims p ↔ s.Claims p := Iff.rfl

variable {t : State ι}

/-- What gives nobody a claim, and takes the pane from nobody who has one. -/
theorem Sound.mono (h : Sound s) (hclaims : ∀ p, t.Claims p → s.Claims p)
    (hpane : ∀ pane', t.pane = some pane' → ∃ pane, s.pane = some pane ∧ ∀ p, t.Claims p →
      holderOf pane.attachment = some p → holderOf pane'.attachment = some p) : Sound t where
  held pane' ht p hp := by
    obtain ⟨pane, hs, hkept⟩ := hpane pane' ht
    exact hkept p hp (h.held pane hs p (hclaims p hp))
  one p q hp hq := h.one p q (hclaims p hp) (hclaims q hq)

variable {pane : Pane}

/-- A process gives up the descriptor, and the pane with it. -/
theorem sound_giveBack (h : Sound s) {caller : ℕ} (hnot : ¬s.Replying caller)
    (hpane : s.pane = some pane) (hcaller : ∀ p, holderOf pane.attachment = some p → p = caller)
    (hclaims : ∀ p, t.Claims p → (s.giveBack caller).Claims p) : Sound t := by
  have hnobody : ∀ p, ¬t.Claims p := by
    intro p hp
    obtain ⟨halive, hp⟩ := hclaims p hp
    by_cases hself : p = caller
    · subst hself
      rcases hp with hholds | hreplying
      · simp [State.giveBack] at hholds
      · exact hnot hreplying
    · refine hself (hcaller p (h.held pane hpane p ⟨halive, hp.imp_left fun hholds => ?_⟩))
      simpa [State.giveBack, hself] using hholds
  exact ⟨fun _ _ p hp => absurd hp (hnobody p), fun p _ hp => absurd hp (hnobody p)⟩

/-- A daemon that has just got the pane: no request is under way, and nobody has the descriptor
but the process that the pane records, if there is one. -/
structure Initial (s : State ι) : Prop where
  idle : ∀ i, s.task i = .idle
  holds : ∀ pane, s.pane = some pane → ∀ p, s.holds p = true ↔ holderOf pane.attachment = some p
  gone : s.pane = none → ∀ p, s.holds p = false

theorem Initial.not_replying (h : Initial s) (p : ℕ) : ¬s.Replying p := by
  rintro ⟨i, hi⟩
  rw [h.idle i] at hi
  cases hi

theorem Initial.sound (h : Initial s) : Sound s where
  held pane hpane p hp := (h.holds pane hpane p).mp (hp.2.resolve_right (h.not_replying p))
  one p q hp hq := by
    have hp' := hp.2.resolve_right (h.not_replying p)
    have hq' := hq.2.resolve_right (h.not_replying q)
    cases hpane : s.pane with
    | none =>
      rw [h.gone hpane p] at hp'
      cases hp'
    | some pane =>
      exact Option.some.inj
        (((h.holds pane hpane p).mp hp').symm.trans ((h.holds pane hpane q).mp hq'))

/-- Viewers leave. -/
theorem Sound.onPane (h : Sound s) {f : Pane → Pane}
    (hf : ∀ pane, ∃ emptied, Departed emptied pane (f pane)) : Sound (s.onPane f) := by
  refine h.mono (fun _ => id) fun pane' ht => ?_
  obtain ⟨pane, hpane, rfl⟩ := Option.map_eq_some_iff.mp ht
  obtain ⟨emptied, hdeparted⟩ := hf pane
  exact ⟨pane, hpane, fun p _ hp => hdeparted.holderOf hp⟩

variable {clientId : String}

/-- A handover that did not complete: whoever has a claim is recorded under another request. -/
theorem sound_releaseFailedHandover (h : Sound s) (hnobody : ∀ pane, s.pane = some pane →
      pane.attachmentClientId = none ∨ pane.attachmentClientId = some clientId →
      ∀ p, ¬s.Claims p) : Sound (releaseFailedHandover s clientId) := by
  rw [releaseFailedHandover]
  split
  next pane hpane =>
    split_ifs with hrecorded
    · refine h.mono (fun p hp => claims_notifyAll.mp hp) fun pane' ht =>
        ⟨pane, hpane, fun p hp _ => ?_⟩
      exact absurd (claims_notifyAll.mp hp) (hnobody pane hpane hrecorded p)
    · exact h.mono (fun p hp => claims_notifyAll.mp hp) fun pane' ht => ⟨pane', ht, fun _ _ => id⟩
  · exact h.mono (fun p hp => claims_notifyAll.mp hp) fun pane' ht => ⟨pane', ht, fun _ _ => id⟩

variable [DecidableEq ι] {i : ι} {task : Task}

/-- A request that has no reply to send moves on. -/
theorem replying_of_update (htask : task.replyingTo = none)
    (h : ∃ j, (update s.task i task j).replyingTo = some p) : s.Replying p := by
  obtain ⟨j, hj⟩ := h
  by_cases hji : j = i
  · rw [hji, update_self, htask] at hj
    cases hj
  · rw [update_of_ne hji] at hj
    exact ⟨j, hj⟩

theorem claims_of_set (htask : task.replyingTo = none) (h : (s.set pane i task).Claims p) :
    s.Claims p :=
  ⟨h.1, h.2.imp id (replying_of_update htask)⟩

/-! ### The pieces of the handlers -/

/-- A request that has no reply to send leaves the pane to whoever has a claim. -/
theorem sound_set (hone : ∀ p q, s.Claims p → s.Claims q → p = q)
    (hpane : ∀ p, s.Claims p → holderOf pane.attachment = some p) (htask : task.replyingTo = none) :
    Sound (s.set pane i task) where
  held pane' ht p hp := by
    cases ht
    exact hpane p (claims_of_set htask hp)
  one p q hp hq := hone p q (claims_of_set htask hp) (claims_of_set htask hq)

/-- A request is about to send the descriptor, which nobody else has. -/
theorem sound_replying {processId : ℕ} {grant : Bool} (hself : ∀ p, s.Claims p → p = processId)
    (hpane : holderOf pane.attachment = some processId) :
    Sound (s.set pane i (.replying processId clientId grant)) := by
  have hclaims : ∀ p, (s.set pane i (.replying processId clientId grant)).Claims p →
      p = processId := by
    rintro p ⟨halive, hholds | ⟨j, hj⟩⟩
    · exact hself p ⟨halive, .inl hholds⟩
    · rw [set_task] at hj
      by_cases hji : j = i
      · rw [hji, update_self] at hj
        exact (Option.some.inj hj).symm
      · rw [update_of_ne hji] at hj
        exact hself p ⟨halive, .inr ⟨j, hj⟩⟩
  refine ⟨fun pane' ht p hp => ?_, fun p q hp hq => (hclaims p hp).trans (hclaims q hq).symm⟩
  cases ht
  rw [hclaims p hp, hpane]

variable {attacher : Attacher} {fault : Fault}

/-- The client takes the descriptor, which nobody else has. -/
theorem sound_attachExclusive (hpane : ∀ p, s.Claims p → holderOf pane.attachment = some p)
    (hself : ∀ p, s.Claims p → p = attacher.clientProcessId) (hnamed : attacher.clientProcessId ≠ 0) :
    Sound (attachExclusive s i pane attacher fault) := by
  have hone : ∀ p q, s.Claims p → s.Claims q → p = q :=
    fun p q hp hq => (hself p hp).trans (hself q hq).symm
  have hholder := holderOf_exclusiveAttachment hnamed
  rw [attachExclusive]
  split_ifs
  · exact sound_set hone hpane rfl
  · -- The descriptor could not be prepared: nobody is sent it.
    exact sound_set hone (fun p hp => hself p hp ▸ hholder) rfl
  · exact sound_replying hself hholder

/-- The client joins the viewers. -/
theorem sound_attachShared (hone : ∀ p q, s.Claims p → s.Claims q → p = q)
    (hpane : ∀ p, s.Claims p → holderOf pane.attachment = some p) :
    Sound (attachShared s i pane attacher fault) := by
  rw [attachShared]
  split
  next clients hshared =>
    have hnobody : ∀ p, ¬s.Claims p := fun p hp => by
      have := hpane p hp
      rw [hshared] at this
      cases this
    split_ifs
    · exact sound_set hone hpane rfl
    · exact sound_set (s := { s with nextAttachment := s.nextAttachment + 1 }) hone
        (fun p hp => absurd hp (hnobody p)) rfl
    · exact sound_set (s := { s with nextAttachment := s.nextAttachment + 1 }) hone
        (fun p hp => absurd hp (hnobody p)) rfl
  · exact sound_set hone hpane rfl

/-! ### One step -/

/-- The steps after which the terminal still has one reader:
a request names its process; a reply that fails is the only reply to a process that does not have
the descriptor yet, unless the pane has gone to another request; a grant resumes while the pane
is still its own; and no process gives up a descriptor that it is still being sent. -/
def State.Steady (s : State ι) : Action ι → Prop
  | .attach _ attacher _ _ _ => attacher.clientProcessId ≠ 0
  | .awaken i _ _ _ => ∀ attacher woken, s.task i = .waiting attacher woken →
      attacher.clientProcessId ≠ 0
  | .send i false => ∀ processId clientId grant, s.task i = .replying processId clientId grant →
      ∀ pane, s.pane = some pane →
      pane.attachmentClientId = none ∨ pane.attachmentClientId = some clientId →
      ∀ p, s.alive p = true → s.holds p = false ∧ ∀ j, j ≠ i → (s.task j).replyingTo ≠ some p
  | .resume i _ _ => ∀ processId clientId, s.task i = .flushing processId clientId →
      processId ≠ 0 ∧ ∀ pane, s.pane = some pane → pane.attachment = .granting processId
  | .snapshot caller _ => ¬s.Replying caller
  | .releaseExclusive caller _ => ¬s.Replying caller
  | .detach caller _ => ¬s.Replying caller
  | .closePane caller => ¬s.Replying caller
  | _ => True

theorem sound_attach (h : Sound s) (hpane : s.pane = some pane)
    (hnamed : attacher.clientProcessId ≠ 0) (forceShared : Bool) (fault : Fault) (full : Bool) :
    Sound (attach s i pane attacher forceShared fault full) := by
  have hheld := h.held pane hpane
  have hwait : ∀ (s' : State ι) (pane' : Pane), (∀ p, s'.Claims p ↔ s.Claims p) →
      holderOf pane'.attachment = holderOf pane.attachment →
      Sound (attach.wait i attacher s' pane') := by
    intro s' pane' hclaims hholder
    refine sound_set (fun p q hp hq => h.one p q ((hclaims p).mp hp) ((hclaims q).mp hq))
      (fun p hp => ?_) rfl
    exact hholder.trans (hheld p ((hclaims p).mp hp))
  -- A pane that nobody holds becomes shared.
  have hunheld : pane.attachment = .none → ∀ p, ¬s.Claims p := fun hnone p hp => by
    have := hheld p hp
    rw [hnone] at this
    cases this
  rw [attach]
  split_ifs with hexited hshared hforce
  · exact sound_set h.one hheld rfl
  · split
    next hnone => exact sound_attachShared h.one fun p hp => absurd hp (hunheld hnone p)
    · exact sound_attachShared h.one hheld
    · exact sound_set h.one hheld rfl
  · split
    next hnone => exact sound_attachShared h.one fun p hp => absurd hp (hunheld hnone p)
    · exact sound_attachShared h.one hheld
    · split
      next holder hexclusive =>
        exact hwait _ _ (fun p => claims_revoke) (by rw [hexclusive]; rfl)
      · exact hwait s pane (fun p => Iff.rfl) rfl
  · split
    next hnone =>
      exact sound_attachExclusive hheld (fun p hp => absurd hp (hunheld hnone p)) hnamed
    · exact sound_attachShared h.one hheld
    next holder hexclusive =>
      split_ifs with hself
      · refine sound_attachExclusive hheld (fun p hp => ?_) hnamed
        -- The process that attaches is the holder itself.
        have hholder := hheld p hp
        rw [hexclusive] at hholder
        have hverified : attacher.verifiedProcessId = some p := hself.symm.trans hholder
        simpa using (Option.mem_filter_iff.mp hverified).2
      · exact hwait _ _ (fun p => claims_revoke) (by rw [hexclusive]; rfl)
    · exact hwait s pane (fun p => Iff.rfl) rfl

theorem sound_awaken (h : Sound s) (hpane : s.pane = some pane)
    (hnamed : attacher.clientProcessId ≠ 0) (expired : Bool) (fault : Fault) (full : Bool) :
    Sound (awaken s i pane attacher expired fault full) := by
  have hheld := h.held pane hpane
  have hfinished : ∀ collapse p, s.Claims p →
      holderOf (finishHandoverWaiter pane collapse).attachment = some p :=
    fun collapse p hp => (holderOf_finishHandoverWaiter pane collapse).trans (hheld p hp)
  have hagain : ∀ (s' : State ι) (pane' : Pane), (∀ p, s'.Claims p ↔ s.Claims p) →
      holderOf pane'.attachment = holderOf pane.attachment →
      Sound (awaken.again i attacher expired s' pane') := by
    intro s' pane' hclaims hholder
    have hone : ∀ p q, s'.Claims p → s'.Claims q → p = q :=
      fun p q hp hq => h.one p q ((hclaims p).mp hp) ((hclaims q).mp hq)
    have hheld' : ∀ p, s'.Claims p → holderOf pane'.attachment = some p :=
      fun p hp => hholder.trans (hheld p ((hclaims p).mp hp))
    rw [awaken.again]
    split_ifs
    · exact sound_set hone
        (fun p hp => (holderOf_finishHandoverWaiter pane' true).trans (hheld' p hp)) rfl
    · exact sound_set hone hheld' rfl
  -- A pane that nobody lives to hold can be taken.
  have hdead : ∀ holder, (pane.attachment = .granting holder ∨ pane.attachment = .revoking holder) →
      ¬s.alive holder → Sound (attachExclusive s i (finishHandoverWaiter pane.unhold true) attacher
        fault) := by
    intro holder hattachment hgone
    have hnobody : ∀ p, ¬s.Claims p := by
      intro p hp
      have hholder := hheld p hp
      rcases hattachment with hgranting | hrevoking
      · rw [hgranting] at hholder
        cases hholder
      · rw [hrevoking] at hholder
        cases hholder
        exact hgone hp.1
    exact sound_attachExclusive (fun p hp => absurd hp (hnobody p))
      (fun p hp => absurd hp (hnobody p)) hnamed
  rw [awaken]
  split
  · exact sound_set h.one (hfinished true) rfl
  · split
    · exact sound_attachShared h.one (hfinished false)
    next hnone =>
      have hnobody : ∀ p, ¬s.Claims p := fun p hp => by
        have := hheld p hp
        rw [hnone] at this
        cases this
      dsimp only
      split_ifs
      · exact sound_attachShared h.one fun p hp => absurd hp (hnobody p)
      · exact sound_attachExclusive (hfinished true) (fun p hp => absurd hp (hnobody p)) hnamed
    next holder hexclusive =>
      split_ifs with hself
      · refine sound_attachExclusive (hfinished true) (fun p hp => ?_) hnamed
        -- The process that attaches is the holder itself.
        have hholder := hheld p hp
        rw [hexclusive] at hholder
        have hverified : attacher.verifiedProcessId = some p := hself.2.symm.trans hholder
        simpa using (Option.mem_filter_iff.mp hverified).2
      · exact hagain _ _ (fun p => claims_revoke) (by rw [hexclusive]; rfl)
    next holder hgranting =>
      split_ifs with halive
      · exact hagain s pane (fun p => Iff.rfl) rfl
      · exact hdead holder (.inl hgranting) halive
    next holder hrevoking =>
      split_ifs with halive
      · exact hagain s pane (fun p => Iff.rfl) rfl
      · exact hdead holder (.inr hrevoking) halive

/-- The second critical section of a grant, while the pane is still its own. -/
theorem sound_resumeGrant (h : Sound s) (hpane : s.pane = some pane) {processId : ℕ}
    (hnamed : processId ≠ 0) (hgranting : pane.attachment = .granting processId) (clientId : String)
    (flushed : Bool) (fault : Fault) :
    Sound (resumeGrant s i pane processId clientId flushed fault) := by
  have hnobody : ∀ p, ¬s.Claims p := fun p hp => by
    have := h.held pane hpane p hp
    rw [hgranting] at this
    cases this
  have hset : ∀ (pane' : Pane) (task : Task), task.replyingTo = none →
      Sound (s.set pane' i task) := fun pane' task htask =>
    sound_set h.one (fun p hp => absurd hp (hnobody p)) htask
  rw [resumeGrant]
  split_ifs
  · refine sound_releaseFailedHandover (hset _ .idle rfl) fun _ _ _ p hp => ?_
    exact hnobody p (claims_of_set rfl hp)
  · exact sound_replying (fun p hp => absurd hp (hnobody p)) (holderOf_exclusiveAttachment hnamed)
  · exact (hset pane.unhold.resumeReader .idle rfl).mono (fun p hp => claims_notifyAll.mp hp)
      fun pane' ht => ⟨pane', ht, fun _ _ => id⟩

/-- **One step** that is steady leaves the terminal with one reader. -/
theorem sound_step {action : Action ι} (h : Sound s) (hsteady : s.Steady action)
    (hstep : s.step action = some t) : Sound t := by
  -- A step that says nothing about who has the terminal.
  have hsame : ∀ {t : State ι}, (∀ p, t.Claims p → s.Claims p) →
      (∀ pane', t.pane = some pane' → ∃ pane, s.pane = some pane ∧
        holderOf pane'.attachment = holderOf pane.attachment) → Sound t :=
    fun hclaims hpane => h.mono hclaims fun pane' ht => by
      obtain ⟨pane, hs, heq⟩ := hpane pane' ht
      exact ⟨pane, hs, fun p _ hp => heq.trans hp⟩
  have hnotify : ∀ {t : State ι}, Sound t → Sound t.notifyAll := fun ht =>
    ht.mono (fun p hp => claims_notifyAll.mp hp) fun pane' hpane => ⟨pane', hpane, fun _ _ => id⟩
  cases moves_of_step hstep with
  | refused => exact h
  | gone i hpane htask =>
    exact hsame (fun p hp => ⟨hp.1, hp.2.imp id (replying_of_update rfl)⟩) fun pane' ht =>
      ⟨pane', ht, rfl⟩
  | attach htask hpane => exact sound_attach h hpane hsteady _ _ _
  | @awaken i pane attacher woken expired fault full htask hpane =>
    exact sound_awaken h hpane (hsteady attacher woken htask) expired fault full
  | @sent i processId clientId grant htask =>
    have hsent : Sound { s with
        task := update s.task i .idle
        holds := update s.holds processId true } := by
      refine hsame (fun p hp => ⟨hp.1, ?_⟩) fun pane' ht => ⟨pane', ht, rfl⟩
      rcases hp.2 with hholds | hreplying
      · by_cases hself : p = processId
        · exact .inr ⟨i, by rw [htask, hself]; rfl⟩
        · exact .inl (by simpa [hself] using hholds)
      · exact .inr (replying_of_update rfl hreplying)
    split_ifs
    · exact hnotify hsent
    · exact hsent
  | @unsent i processId clientId grant htask =>
    have hidle : ∀ p, (∃ j, (update s.task i .idle j).replyingTo = some p) →
        s.Replying p := fun p => replying_of_update rfl
    refine sound_releaseFailedHandover
      (hsame (fun p hp => ⟨hp.1, hp.2.imp id (hidle p)⟩) fun pane' ht => ⟨pane', ht, rfl⟩)
      fun pane hpane hrecorded p hp => ?_
    obtain ⟨hholds, hothers⟩ := hsteady processId clientId grant htask pane hpane hrecorded p hp.1
    rcases hp.2 with hheld | ⟨j, hj⟩
    · rw [hholds] at hheld
      cases hheld
    · by_cases hji : j = i
      · simp [hji, Task.replyingTo] at hj
      · simp only [update_of_ne hji] at hj
        exact hothers j hji hj
  | snapshot hpane hrevoking =>
    refine sound_giveBack h hsteady hpane (fun p hp => ?_) fun p hp => claims_notifyAll.mp hp
    rw [hrevoking] at hp
    exact (Option.some.inj hp).symm
  | @seeded action pane screen hpane =>
    exact hsame (fun _ => id) fun pane' ht => ⟨pane, hpane, by rw [← Option.some.inj ht]⟩
  | takeExclusive htask hpane hshared hsole =>
    refine sound_set h.one (fun p hp => ?_) rfl
    have := h.held _ hpane p hp
    rw [hshared] at this
    cases this
  | @resume i pane processId clientId flushed fault htask hpane =>
    obtain ⟨hnamed, hgranting⟩ := hsteady processId clientId htask
    exact sound_resumeGrant h hpane hnamed (hgranting pane hpane) clientId flushed fault
  | releaseExclusive hpane hheld hclient =>
    refine sound_giveBack h hsteady hpane (fun p hp => ?_) fun p hp => claims_notifyAll.mp hp
    rcases hheld with hholder | hgranting
    · exact Option.some.inj (hp.symm.trans hholder)
    · rw [hgranting] at hp
      cases hp
  | detach hpane hheld =>
    exact sound_giveBack h hsteady hpane (fun p hp => Option.some.inj (hp.symm.trans hheld))
      fun p hp => hp
  | closePane hpane hheld =>
    exact sound_giveBack h hsteady hpane (fun p hp => Option.some.inj (hp.symm.trans hheld))
      fun p hp => claims_notifyAll.mp hp
  | leaveShared => exact hnotify (h.onPane fun pane => ⟨_, departed_retain pane s.revision _⟩)
  | @disconnect i attachment htask =>
    have hleft : Sound (s.onPane (removeSharedAttachment · s.revision attachment)) :=
      h.onPane fun pane => ⟨_, departed_retain pane s.revision _⟩
    exact hleft.mono (fun p hp => ⟨hp.1, hp.2.imp id (replying_of_update rfl)⟩) fun pane' ht =>
      ⟨pane', ht, fun _ _ => id⟩
  | evict => exact h.onPane fun pane => ⟨_, departed_evict pane s.revision _⟩
  | @output pane bytes hpane hdrain =>
    refine h.mono (fun _ => id) fun pane' ht => ⟨pane, hpane, fun p _ hp => ?_⟩
    cases ht
    exact (departed_drainOutput pane s.revision bytes).holderOf hp
  | announce => exact h.onPane fun pane => ⟨_, departed_broadcastSize pane s.revision pane.size⟩
  | closeRelay => exact h.onPane fun pane => ⟨_, departed_closeRelay _ pane⟩
  | @die processId =>
    refine hsame (fun p hp => ⟨?_, hp.2⟩) fun pane' ht => ⟨pane', ht, rfl⟩
    have halive := hp.1
    by_cases hself : p = processId
    · simp [hself] at halive
    · simpa [hself] using halive
  | @sweep pane holder hpane hholder hdead =>
    -- The holder is dead, so nobody has a claim.
    refine h.mono (fun p hp => claims_notifyAll.mp hp) fun pane' ht =>
      ⟨pane, hpane, fun p hp hp' => ?_⟩
    cases hholder.symm.trans hp'
    have halive := (claims_notifyAll.mp hp).1
    rw [show State.alive _ holder = s.alive holder from rfl, hdead] at halive
    cases halive
  | exit =>
    exact hsame (fun _ => id) fun pane' ht => by
      obtain ⟨pane, hs, rfl⟩ := Option.map_eq_some_iff.mp ht
      exact ⟨pane, hs, rfl⟩
  | remove => exact h.mono (fun _ => id) fun pane' ht => by cases ht
  | subscribe => exact hsame (fun _ => id) fun pane' ht => ⟨pane', ht, rfl⟩
  | unsubscribe => exact hsame (fun _ => id) fun pane' ht => ⟨pane', ht, rfl⟩

/-! ### Runs -/

/-- The steps of all parties. -/
def Next (s : State ι) (action : Action ι) (t : State ι) : Prop := s.step action = some t

/-- **One reader**: in every state of every run of steady steps, whatever their order. -/
theorem oneReader_of_run {s₀ s : State ι} {actions : List (Action ι)} (h₀ : Initial s₀)
    (hrun : Run (Meeting State.Steady Next) s₀ actions s) : OneReader s :=
  (hrun.invariant h₀.sound fun _ _ _ h hstep => sound_step h hstep.1 hstep.2).oneReader

/-- A pane that nobody holds, and processes that all live. -/
def unheld : State (Fin 3) where
  pane := some {
    sessionId := 1
    id := 2
    exited := false
    attachment := .none
    attachmentClientId := none
    size := (80, 24)
    retained := []
    handedOver := none
    handoverWaiters := 0
    readerRunning := true }
  task _ := .idle
  subscribers := []
  round := 0
  revision := 1
  nextAttachment := 1
  windows := false
  alive _ := true
  holds _ := false

theorem initial_unheld : Initial unheld where
  idle _ := rfl
  holds pane hpane p := by
    cases hpane
    simp [unheld, holderOf]
  gone h := nomatch h

def local1 : Attacher := ⟨1, some 1, "a", false, none⟩

def local2 : Attacher := ⟨2, some 2, "b", false, none⟩

/-- A second client asks for a pane, and its holder hands it over. -/
theorem oneReader_handedOver : ∃ s : State (Fin 3),
    Run (Meeting State.Steady Next) unheld
      [.attach 0 local1 false .none false, .send 0 true, .attach 1 local2 false .none false,
        .snapshot 1 [], .awaken 1 false .none false] s ∧
      (s.holds 1 = false ∧ s.task 1 = .serving 1) ∧ OneReader s := by
  obtain ⟨s, hrun, hend⟩ : ∃ s : State (Fin 3), Run (Meeting State.Steady Next) unheld
      [.attach 0 local1 false .none false, .send 0 true, .attach 1 local2 false .none false,
        .snapshot 1 [], .awaken 1 false .none false] s ∧
      (s.holds 1 = false ∧ s.task 1 = .serving 1) := by
    refine ⟨_, .cons ⟨?_, rfl⟩ (.cons ⟨?_, rfl⟩ (.cons ⟨?_, rfl⟩ (.cons ⟨?_, rfl⟩
      (.cons ⟨?_, rfl⟩ (.nil _))))), rfl, rfl⟩
    · exact Nat.one_ne_zero
    · trivial
    · exact Nat.succ_ne_zero 1
    · rintro ⟨i, hi⟩
      revert i
      decide
    · intro attacher woken h
      cases h
      exact Nat.succ_ne_zero 1
  exact ⟨s, hrun, hend, oneReader_of_run initial_unheld hrun⟩

/-- A viewer's grant is being flushed when the viewer releases the pane and another client takes
it. The flush fails: the daemon reads the terminal that the other client has. -/
theorem grant_overrides : ∃ s : State (Fin 3),
    Run Next unheld
      [.attach 0 local1 true .none false, .takeExclusive 1 1 "a" .none, .releaseExclusive 1 "a",
        .attach 2 local2 false .none false, .send 2 true, .resume 1 false .none] s ∧
      ¬OneReader s := by
  obtain ⟨s, hrun, hdrain, halive, hholds⟩ := exists_run_of_foldlM (f := State.step)
    (P := fun s : State (Fin 3) => (s.pane.map fun pane => drainReads pane.attachment) = some true ∧
      s.alive 2 = true ∧ s.holds 2 = true)
    [.attach 0 local1 true .none false, .takeExclusive 1 1 "a" .none, .releaseExclusive 1 "a",
      .attach 2 local2 false .none false, .send 2 true, .resume 1 false .none]
    (s := unheld) (by decide)
  refine ⟨s, hrun, fun h => ?_⟩
  obtain ⟨pane, hpane, hdrain⟩ := Option.map_eq_some_iff.mp hdrain
  have := h.daemon pane hpane hdrain 2 halive
  rw [hholds] at this
  cases this

end Zetta.Zmux.Server.Handover
