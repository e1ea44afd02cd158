import Zetta.Zmux.Server.Revokes
import Zetta.Zmux.Server.SecretCheck

/-!
# Who may attach a protected session

An attach of a protected session is let through on a secret that was verified with the sessions
lock released, so everything is decided again under the lock; or, with no secret, because the
client is in the middle of handing one of the session's panes over. The latter rests on what the
panes record of handovers.

* `admitted_of_run`: in every run whose steps are `Forgetful`, whoever is let through has proved
  the secret of the verifier then in force, or is the process of a handover that is not resolved;
  a client that is refused gets nothing but the refusal, and owns nothing.
* A set that is found empty because its queues are closed leaves the record behind: its process
  is let through without a secret, to a pane that nobody has (`admitted_without_secret`).
-/

namespace Zetta.Zmux.Server

open Function
open SecretCheck (Authentication VerifiedSession)

namespace Handover

variable {ι : Type}

/-! ### Handovers that are not resolved -/

/-- The process whose answer to a revoke a step accepts. -/
def State.answers (s : State ι) : Action ι → Option ℕ
  | .snapshot caller _ =>
    if s.pane.any (·.attachment = .revoking caller) then some caller else none
  | _ => none

/-- The process the transport vouched for, of the client whose attach a step moves on. -/
def State.joiner (s : State ι) : Action ι → Option ℕ
  | .attach _ attacher _ _ _ => attacher.verifiedProcessId
  | .awaken i _ _ _ =>
    match s.task i with
    | .waiting attacher _ => attacher.verifiedProcessId
    | _ => none
  | _ => none

/-- The process that has answered a revoke whose handover is not resolved. A step resolves it when
the process joins the pane again, the pane becomes unheld or goes, or another client takes it. -/
def unresolved (s : State ι) (action : Action ι) (t : State ι) (answered : Option ℕ) : Option ℕ :=
  match s.answers action with
  | some caller => some caller
  | none =>
    match t.pane.map Pane.attachment with
    | some (.shared _) =>
      if t.nextAttachment ≠ s.nextAttachment ∧ s.joiner action = answered then none else answered
    | some (.granting _) => answered
    | _ => none

/-- A pane that is shared, or on its way back to one viewer. -/
def sharing : Attachment → Bool
  | .shared _ => true
  | .granting _ => true
  | _ => false

/-- A record of a handover is one of a handover that is not resolved. -/
def State.Recorded (s : State ι) (answered : Option ℕ) : Prop :=
  ∀ pane record, s.pane = some pane → pane.handedOver = some record →
    answered = some record.clientProcessId ∧ sharing pane.attachment = true

/-- The steps, beyond those that settle, by which no pane becomes unheld or is taken while a
handover is recorded. -/
def State.Forgets (s : State ι) : Action ι → Prop
  | .awaken i _ _ _ => ∀ attacher woken, s.task i = .waiting attacher woken →
      ∀ pane, s.pane = some pane → s.deserted pane = true → pane.handedOver = none
  | .send i false => ∀ processId clientId grant, s.task i = .replying processId clientId grant →
      ∀ pane, s.pane = some pane →
      pane.attachmentClientId = none ∨ pane.attachmentClientId = some clientId →
      pane.handedOver = none
  | .resume i false _ => ∀ processId clientId, s.task i = .flushing processId clientId →
      ∀ pane, s.pane = some pane → pane.handedOver = none
  | .releaseExclusive caller clientId => ∀ pane, s.pane = some pane →
      pane.attachment = .granting caller →
      pane.attachmentClientId = none ∨ pane.attachmentClientId = some clientId →
      pane.handedOver = none
  | _ => True

variable {pane : Pane} {s : State ι}

theorem answers_of_sharing (hpane : s.pane = some pane) (hsharing : sharing pane.attachment = true)
    (action : Action ι) : s.answers action = none := by
  cases action with
  | snapshot caller screen =>
    refine if_neg fun hrevoking => ?_
    rw [hpane, Option.any_some, decide_eq_true_eq] at hrevoking
    rw [hrevoking] at hsharing
    cases hsharing
  | _ => rfl

variable {action : Action ι} {answered : Option ℕ} {pane' : Pane} {t : State ι}

theorem unresolved_of_sharing (hanswers : s.answers action = none) (ht : t.pane = some pane')
    (hsharing : sharing pane'.attachment = true)
    (hjoined : t.nextAttachment = s.nextAttachment ∨ s.joiner action ≠ answered) :
    unresolved s action t answered = answered := by
  rw [unresolved, hanswers, ht]
  cases hattachment : pane'.attachment with
  | shared clients =>
    simp only [Option.map_some, hattachment]
    refine if_neg fun h => ?_
    rcases hjoined with hnext | hother
    · exact h.1 hnext
    · exact hother h.2
  | granting holder => simp only [Option.map_some, hattachment]
  | none =>
    rw [hattachment] at hsharing
    cases hsharing
  | exclusive holder =>
    rw [hattachment] at hsharing
    cases hsharing
  | revoking holder =>
    rw [hattachment] at hsharing
    cases hsharing

theorem recorded_none (h : ∀ pane', t.pane = some pane' → pane'.handedOver = none) :
    t.Recorded answered :=
  fun pane' _ ht hrecord => nomatch (h pane' ht).symm.trans hrecord

/-- A pane that is not shared has no record. -/
theorem State.Recorded.of_not_sharing (h : s.Recorded answered) (hpane : s.pane = some pane)
    (hnot : sharing pane.attachment = false) : pane.handedOver = none := by
  cases hrecord : pane.handedOver with
  | none => rfl
  | some record =>
    have := (h pane record hpane hrecord).2
    rw [hnot] at this
    cases this

/-- What is recorded after a step was recorded before it. -/
theorem State.Recorded.kept (h : s.Recorded answered) (hpane : s.pane = some pane)
    (ht : t.pane = some pane') (hrecord : ∀ record', pane'.handedOver = some record' →
      (∃ record, pane.handedOver = some record ∧ record.clientProcessId = record'.clientProcessId) ∧
      sharing pane'.attachment = true ∧
      (t.nextAttachment = s.nextAttachment ∨
        s.joiner action ≠ some record'.clientProcessId)) :
    t.Recorded (unresolved s action t answered) := by
  intro pane'' record' ht' hrecord'
  cases ht.symm.trans ht'
  obtain ⟨⟨record, hbefore, hsame⟩, hsharing, hjoined⟩ := hrecord record' hrecord'
  obtain ⟨hanswered, hshared⟩ := h pane record hpane hbefore
  rw [hsame] at hanswered
  rw [← hanswered] at hjoined
  rw [unresolved_of_sharing (answers_of_sharing hpane hshared action) ht hsharing hjoined]
  exact ⟨hanswered, hsharing⟩

variable [DecidableEq ι] {i : ι} {attacher : Attacher} {fault : Fault}

theorem recorded_attachExclusive (h : pane.handedOver = none) :
    (attachExclusive s i pane attacher fault).Recorded answered := by
  refine recorded_none fun pane' ht => ?_
  rw [attachExclusive] at ht
  split at ht
  · cases ht
    exact h
  · dsimp only at ht
    split at ht
    · cases ht
      exact h
    · cases ht
      exact h

/-- A viewer joins; if it is the client that handed the pane over, the record goes. -/
theorem recorded_attachShared {joined : Pane} (h : s.Recorded answered) (hpane : s.pane = some pane)
    (hjoiner : s.joiner action = attacher.verifiedProcessId)
    (hrecord : ∀ record, joined.handedOver = some record →
      pane.handedOver = some record ∧ sharing joined.attachment = true) :
    (attachShared s i joined attacher fault).Recorded
      (unresolved s action (attachShared s i joined attacher fault) answered) := by
  have hsame : ∀ {t : State ι}, t.pane = some joined → t.nextAttachment = s.nextAttachment →
      t.Recorded (unresolved s action t answered) := by
    intro t ht hnext
    refine h.kept hpane ht fun record' hrecord' => ?_
    obtain ⟨hbefore, hsharing⟩ := hrecord record' hrecord'
    exact ⟨⟨record', hbefore, rfl⟩, hsharing, .inl hnext⟩
  generalize hjoin : attachShared s i joined attacher fault = t
  rw [attachShared] at hjoin
  split at hjoin
  next clients hshared =>
    split at hjoin
    · subst hjoin
      exact hsame rfl rfl
    · subst hjoin
      refine h.kept hpane rfl fun record' hrecord' => ?_
      obtain ⟨hkept, hother⟩ := Option.filter_eq_some_iff.mp hrecord'
      exact ⟨⟨record', (hrecord record' hkept).1, rfl⟩, rfl, .inr fun heq => by
        rw [hjoiner] at heq
        simp [heq] at hother⟩
  · subst hjoin
    exact hsame rfl rfl

theorem recorded_attach (h : s.Recorded answered) (hpane : s.pane = some pane) (attacher : Attacher)
    (forceShared : Bool) (fault : Fault) (full : Bool) :
    (attach s i pane attacher forceShared fault full).Recorded
      (unresolved s (.attach i attacher forceShared fault full)
        (attach s i pane attacher forceShared fault full) answered) := by
  set action : Action ι := .attach i attacher forceShared fault full
  have hno := h.of_not_sharing hpane
  have hsame : ∀ {t : State ι} {pane' : Pane}, t.pane = some pane' →
      pane'.attachment = pane.attachment → pane'.handedOver = pane.handedOver →
      t.nextAttachment = s.nextAttachment → t.Recorded (unresolved s action t answered) := by
    intro t pane' ht hattachment hhandedOver hnext
    refine h.kept hpane ht fun record' hrecord' => ?_
    rw [hhandedOver] at hrecord'
    rw [hattachment]
    exact ⟨⟨record', hrecord', rfl⟩, (h pane record' hpane hrecord').2, .inl hnext⟩
  have hwait : ∀ (s' : State ι) (pane' : Pane), pane'.handedOver = none →
      (attach.wait i attacher s' pane').Recorded (unresolved s action (attach.wait i attacher s' pane')
        answered) := by
    intro s' pane' hnone
    refine recorded_none fun pane'' ht => ?_
    cases ht
    exact hnone
  have hstay : (attach.wait i attacher s pane).Recorded
      (unresolved s action (attach.wait i attacher s pane) answered) :=
    hsame rfl rfl rfl rfl
  generalize hattach : attach s i pane attacher forceShared fault full = t
  rw [attach] at hattach
  split at hattach
  · subst hattach
    exact hsame rfl rfl rfl rfl
  · split at hattach
    · split at hattach
      next hnone =>
        subst hattach
        refine recorded_attachShared h hpane rfl fun record hrecord => ?_
        cases (hno (by rw [hnone]; rfl)).symm.trans hrecord
      next clients hclients =>
        subst hattach
        exact recorded_attachShared h hpane rfl fun record hrecord =>
          ⟨hrecord, by rw [hclients]; rfl⟩
      · split at hattach
        · subst hattach
          exact hsame rfl rfl rfl rfl
        · split at hattach
          next holder hexclusive =>
            subst hattach
            exact hwait _ _ (hno (by rw [hexclusive]; rfl))
          · subst hattach
            exact hstay
    · split at hattach
      next hnone =>
        subst hattach
        exact recorded_attachExclusive (hno (by rw [hnone]; rfl))
      next clients hclients =>
        subst hattach
        exact recorded_attachShared h hpane rfl fun record hrecord =>
          ⟨hrecord, by rw [hclients]; rfl⟩
      next holder hexclusive =>
        split at hattach
        · subst hattach
          exact recorded_attachExclusive (hno (by rw [hexclusive]; rfl))
        · subst hattach
          exact hwait _ _ (hno (by rw [hexclusive]; rfl))
      · subst hattach
        exact hstay

theorem recorded_awaken (h : s.Recorded answered) (hpane : s.pane = some pane) {woken : Bool}
    (htask : s.task i = .waiting attacher woken)
    (hdeserted : s.deserted pane = true → pane.handedOver = none) (expired : Bool) (fault : Fault)
    (full : Bool) :
    (awaken s i pane attacher expired fault full).Recorded
      (unresolved s (.awaken i expired fault full)
        (awaken s i pane attacher expired fault full) answered) := by
  set action : Action ι := .awaken i expired fault full
  have hjoiner : s.joiner action = attacher.verifiedProcessId := by
    simp only [action, State.joiner, htask]
  have hno := h.of_not_sharing hpane
  -- Whoever stops waiting keeps the record with the attachment, or drops both.
  have hfinish : ∀ (pane' : Pane) (collapse : Bool) (record : RevokeHandover),
      pane'.handedOver = pane.handedOver → pane'.attachment = pane.attachment →
      (finishHandoverWaiter pane' collapse).handedOver = some record →
      pane.handedOver = some record ∧
        sharing (finishHandoverWaiter pane' collapse).attachment = true := by
    intro pane' collapse record hhandedOver hattachment hrecord
    simp only [finishHandoverWaiter] at hrecord ⊢
    split at hrecord
    · cases hrecord
    next hkeep =>
      rw [if_neg hkeep]
      rw [hhandedOver] at hrecord
      exact ⟨hrecord, by rw [hattachment]; exact (h pane record hpane hrecord).2⟩
  have hgone : ∀ (pane' : Pane), pane'.handedOver = none → ∀ collapse,
      (finishHandoverWaiter pane' collapse).handedOver = none := by
    intro pane' hnone collapse
    simp only [finishHandoverWaiter]
    split
    · rfl
    · exact hnone
  have hset : ∀ {t : State ι} {pane' : Pane}, t.pane = some pane' →
      t.nextAttachment = s.nextAttachment →
      (∀ record, pane'.handedOver = some record →
        pane.handedOver = some record ∧ sharing pane'.attachment = true) →
      t.Recorded (unresolved s action t answered) := by
    intro t pane' ht hnext hrecord
    refine h.kept hpane ht fun record' hrecord' => ?_
    exact ⟨⟨record', (hrecord record' hrecord').1, rfl⟩, (hrecord record' hrecord').2, .inl hnext⟩
  have hagain : (awaken.again i attacher expired s pane).Recorded
      (unresolved s action (awaken.again i attacher expired s pane) answered) := by
    rw [awaken.again]
    split
    · exact hset rfl rfl fun record => hfinish pane true record rfl rfl
    · exact hset rfl rfl fun record hrecord => ⟨hrecord, (h pane record hpane hrecord).2⟩
  generalize hawaken : awaken s i pane attacher expired fault full = t
  rw [awaken] at hawaken
  split at hawaken
  · subst hawaken
    exact hset rfl rfl fun record => hfinish pane true record rfl rfl
  next hexited =>
    split at hawaken
    next clients hshared =>
      subst hawaken
      exact recorded_attachShared h hpane hjoiner fun record => hfinish pane false record rfl rfl
    next hnone =>
      have hrecord := hgone pane (hno (by rw [hnone]; rfl)) true
      dsimp only at hawaken
      split at hawaken
      · subst hawaken
        exact recorded_attachShared h hpane hjoiner fun record hsome => by
          cases hrecord.symm.trans hsome
      · subst hawaken
        exact recorded_attachExclusive hrecord
    next holder hexclusive =>
      have hrecord := hno (by rw [hexclusive]; rfl)
      split at hawaken
      · subst hawaken
        exact recorded_attachExclusive (hgone pane hrecord true)
      · subst hawaken
        refine recorded_none fun pane' ht => ?_
        rw [awaken.again] at ht
        split at ht
        · cases ht
          exact hgone { pane with attachment := .revoking holder } hrecord true
        · cases ht
          exact hrecord
    next holder hgranting =>
      split at hawaken
      · subst hawaken
        exact hagain
      next hdead =>
        subst hawaken
        have hrecord := hdeserted (by simp [State.deserted, hexited, hgranting, hdead])
        exact recorded_attachExclusive (hgone pane.unhold hrecord true)
    next holder hrevoking =>
      split at hawaken
      · subst hawaken
        exact hagain
      · subst hawaken
        exact recorded_attachExclusive (hgone pane.unhold (hno (by rw [hrevoking]; rfl)) true)

/-- **One step** that forgets leaves no record but of a handover that is not resolved. -/
theorem recorded_step (h : s.Recorded answered) (hsettles : s.Settles action)
    (hforgets : s.Forgets action) (hstep : s.step action = some t) :
    t.Recorded (unresolved s action t answered) := by
  have hgone : ∀ {t : State ι} {pane' : Pane} {answered' : Option ℕ}, t.pane = some pane' →
      pane'.handedOver = none → t.Recorded answered' := by
    intro t pane' answered' ht hnone
    refine recorded_none fun pane'' ht' => ?_
    cases ht.symm.trans ht'
    exact hnone
  have hsame : ∀ {t : State ι} {pane pane' : Pane}, s.pane = some pane → t.pane = some pane' →
      pane'.attachment = pane.attachment → pane'.handedOver = pane.handedOver →
      t.nextAttachment = s.nextAttachment → t.Recorded (unresolved s action t answered) := by
    intro t pane pane' hpane ht hattachment hhandedOver hnext
    refine h.kept hpane ht fun record' hrecord' => ?_
    rw [hhandedOver] at hrecord'
    rw [hattachment]
    exact ⟨⟨record', hrecord', rfl⟩, (h pane record' hpane hrecord').2, .inl hnext⟩
  have hkept : ∀ {t : State ι}, t.pane = s.pane → t.nextAttachment = s.nextAttachment →
      t.Recorded (unresolved s action t answered) := by
    intro t ht hnext
    cases hpane : s.pane with
    | none => exact recorded_none fun pane' ht' => nomatch (ht.trans hpane).symm.trans ht'
    | some pane => exact hsame hpane (ht.trans hpane) rfl rfl hnext
  -- A client has the pane: nothing is recorded.
  have hheld : ∀ {pane : Pane} {holder : ℕ}, s.pane = some pane →
      holderOf pane.attachment = some holder → pane.handedOver = none := by
    intro pane holder hpane hholder
    refine h.of_not_sharing hpane ?_
    cases hattachment : pane.attachment with
    | none => rfl
    | exclusive p => rfl
    | revoking p => rfl
    | shared clients =>
      rw [hattachment] at hholder
      cases hholder
    | granting p =>
      rw [hattachment] at hholder
      cases hholder
  have hdeparted : ∀ {t : State ι} {emptied : Prop} {pane pane' : Pane}, s.pane = some pane →
      t.pane = some pane' → t.nextAttachment = s.nextAttachment → Departed emptied pane pane' →
      (emptied → pane.handoverWaiters = 0 → pane.handedOver = none) →
      t.Recorded (unresolved s action t answered) := by
    intro t emptied pane pane' hpane ht hnext hleft hemptied
    refine h.kept hpane ht fun record' hrecord' => ?_
    have hbefore : ∃ record, pane.handedOver = some record ∧
        record.clientProcessId = record'.clientProcessId := by
      rcases hleft.handover with heq | hnone
      · rw [hrecord'] at heq
        obtain ⟨record, hrecord, hsame⟩ := Option.map_eq_some_iff.mp heq.symm
        exact ⟨record, hrecord, hsame⟩
      · exact nomatch hnone.symm.trans hrecord'
    refine ⟨hbefore, ?_, .inl hnext⟩
    obtain ⟨record, hrecord, -⟩ := hbefore
    have hsharing := (h pane record hpane hrecord).2
    rcases hleft.attachment with heq | ⟨clients, hshared, hnone | ⟨remaining, hshared', -⟩⟩
    · rwa [heq]
    · -- The set is empty, and the record has gone with it.
      have hnotnone : pane.attachment ≠ .none := by rw [hshared]; simp
      have hwaiters := (hleft.waited hnone).resolve_left hnotnone
      rcases (hleft.forgotten hnone).resolve_left hnotnone with hgone' | hempty
      · exact nomatch hgone'.symm.trans hrecord'
      · exact nomatch (hemptied hempty hwaiters).symm.trans hrecord
    · rw [hshared']
      rfl
  have hleft : ∀ {t : State ι} {f : Pane → Pane} {emptied : Pane → Prop}, t.pane = s.pane.map f →
      t.nextAttachment = s.nextAttachment → (∀ pane, Departed (emptied pane) pane (f pane)) →
      (∀ pane, s.pane = some pane → emptied pane → pane.handoverWaiters = 0 →
        pane.handedOver = none) → t.Recorded (unresolved s action t answered) := by
    intro t f emptied ht hnext hf hemptied
    cases hpane : s.pane with
    | none => exact recorded_none fun pane' ht' => by rw [ht, hpane] at ht'; cases ht'
    | some pane =>
      rw [hpane, Option.map_some] at ht
      exact hdeparted hpane ht hnext (hf pane) (hemptied pane hpane)
  cases moves_of_step hstep with
  | refused => exact hkept rfl rfl
  | gone i hnone htask => exact recorded_none fun pane' ht => nomatch hnone.symm.trans ht
  | attach htask hpane => exact recorded_attach h hpane _ _ _ _
  | @awaken i pane attacher woken expired fault full htask hpane =>
    exact recorded_awaken h hpane htask (hforgets attacher woken htask pane hpane) _ _ _
  | @sent i processId clientId grant htask =>
    cases grant with
    | true => exact hkept rfl rfl
    | false => exact hkept rfl rfl
  | @unsent i processId clientId grant htask =>
    generalize hreleased : releaseFailedHandover _ clientId = t'
    rw [releaseFailedHandover] at hreleased
    split at hreleased
    next pane hpane =>
      split at hreleased
      next hrecorded =>
        subst hreleased
        exact hgone rfl (hforgets processId clientId grant htask pane hpane hrecorded)
      · subst hreleased
        exact hkept rfl rfl
    · subst hreleased
      exact hkept rfl rfl
  | @snapshot pane caller screen hpane hrevoking =>
    intro pane' record ht hrecord
    cases ht
    cases hrecord
    have hanswers : s.answers (.snapshot caller screen) = some caller := by
      simp [State.answers, hpane, hrevoking]
    rw [unresolved, hanswers]
    exact ⟨rfl, rfl⟩
  | @seeded _ pane screen hpane => exact hsame hpane rfl rfl rfl rfl
  | @takeExclusive i pane clients caller clientId fault htask hpane hshared hsole =>
    refine h.kept hpane rfl fun record' hrecord' => ⟨⟨record', hrecord', rfl⟩, rfl, .inl rfl⟩
  | @resume i pane processId clientId flushed fault htask hpane =>
    generalize hresumed : resumeGrant s i pane processId clientId flushed fault = t'
    rw [resumeGrant] at hresumed
    split at hresumed
    · dsimp only at hresumed
      split at hresumed
      · rw [releaseFailedHandover, set_pane] at hresumed
        dsimp only at hresumed
        rw [if_pos (.inr rfl)] at hresumed
        subst hresumed
        exact hgone rfl rfl
      · subst hresumed
        exact hgone rfl rfl
    next hflushed =>
      obtain rfl : flushed = false := by simpa using hflushed
      subst hresumed
      exact hgone rfl (hforgets processId clientId htask pane hpane)
  | @releaseExclusive pane caller clientId hpane hrelease hclient =>
    rcases hrelease with hholder | hgranting
    · have hrecord := hheld hpane hholder
      exact hgone rfl hrecord
    · exact hgone rfl (hforgets pane hpane hgranting hclient)
  | @detach pane caller screen hpane hholder =>
    have hrecord := hheld hpane hholder
    exact hgone rfl hrecord
  | @closePane pane caller hpane hholder =>
    have hrecord := hheld hpane hholder
    exact hgone rfl hrecord
  | leaveShared =>
    exact hleft rfl rfl (fun pane => departed_retain pane s.revision _) fun pane hpane hstarved =>
      hsettles pane hpane hstarved.1 hstarved.2
  | @disconnect i attachment htask =>
    exact hleft rfl rfl (fun pane => departed_retain pane s.revision _) fun pane hpane hstarved =>
      hsettles attachment htask pane hpane hstarved.1 hstarved.2
  | evict =>
    exact hleft rfl rfl (fun pane => departed_evict pane s.revision _) fun pane hpane hempty =>
      hsettles pane hpane hempty.1 hempty.2
  | @output pane bytes hpane hdrain =>
    exact hdeparted hpane rfl rfl (departed_drainOutput pane s.revision bytes) (hsettles pane hpane)
  | announce =>
    exact hleft rfl rfl (fun pane => departed_broadcastSize pane s.revision pane.size) hsettles
  | closeRelay =>
    exact hleft rfl rfl (fun pane => departed_closeRelay _ pane) fun _ _ => False.elim
  | die => exact hkept rfl rfl
  | @sweep pane holder hpane hholder hdead =>
    have hrecord := hheld hpane hholder
    exact hgone rfl hrecord
  | exit =>
    cases hpane : s.pane with
    | none => exact recorded_none fun pane' ht => by simp [State.onPane, hpane] at ht
    | some pane =>
      refine h.kept hpane (by rw [State.onPane, hpane, Option.map_some]) fun record' hrecord' => ?_
      exact ⟨⟨record', hrecord', rfl⟩, (h pane record' hpane hrecord').2, .inl rfl⟩
  | remove => exact recorded_none (by simp)
  | subscribe => exact hkept rfl rfl
  | unsubscribe => exact hkept rfl rfl

end Handover

namespace Authorize

open Handover

/-- What an attach request asks for. -/
structure Request where
  attacher : Attacher
  secret : Option String
  paneId : Option ℕ
  forceShared : Bool
  deriving DecidableEq

/-- Why a client may not have the session. -/
inductive Refusal
  | doesNotExist
  /-- A remote client may only attach to an offered session. -/
  | notShared
  /-- The session is scoped to the process that backgrounded it. -/
  | outOfScope (owner : ℕ)
  | authenticationRequired
  | authenticationFailed
  deriving DecidableEq

/-- Where a request stands. -/
inductive Place
  | idle
  /-- About to look at the session, with what it has proved so far. -/
  | asking (request : Request) (proof : Option VerifiedSession)
  /-- Waits for its turn to check the secret. -/
  | queued (request : Request) (secret : String) (proof : Option VerifiedSession)
  /-- Checks the secret with no lock held. -/
  | checking (request : Request) (secret : String) (proof : Option VerifiedSession)
      (authentication : Authentication)
  /-- The refusal has been sent. -/
  | refused (refusal : Refusal)
  /-- The client has been let through. -/
  | admitted
  deriving DecidableEq

structure Session (ι : Type) where
  authentication : Option Authentication
  offered : Bool
  owner : Option ℕ
  /-- The session's panes, in order. -/
  ids : List ℕ
  panes : ℕ → Handover.State ι
  /-- The processes whose handovers are not resolved, by pane (not in the source). -/
  answered : ℕ → Option ℕ

structure State (ι : Type) where
  /-- None once the session has ended. -/
  session : Option (Session ι)
  place : ι → Place
  /-- The identity of the next verifier, and what verifiers there have been. -/
  nextIdentity : ℕ
  verifiers : ℕ → String

variable {ι : Type}

/-- Whether `client` may see and attach this session. -/
def Session.isInScopeFor (session : Session ι) (client : Option ℕ) : Bool :=
  session.offered || session.owner = none || session.owner = client

/-- Whether the client is the holder answering a handover the daemon itself asked for. -/
def Session.answersHandover (session : Session ι) (clientProcessId : ℕ) : Bool :=
  session.ids.any fun id => (session.panes id).pane.any fun pane =>
    (pane.attachment = .revoking clientProcessId || pane.attachment = .granting clientProcessId) ||
      pane.handedOver.any (·.clientProcessId = clientProcessId)

/-- What one pass of `authorize_attach` comes to. -/
inductive Verdict
  | refused (refusal : Refusal)
  | authorized
  | check (secret : String)

/-- One pass of `authorize_attach`, under the lock. -/
def authorizeAttach (session : Option (Session ι)) (request : Request)
    (proof : Option VerifiedSession) : Verdict :=
  match session with
  | none => .refused .doesNotExist
  | some session =>
    let verified := request.attacher.verifiedProcessId
    if request.attacher.streamOnly && !session.offered then
      .refused .notShared
    else if !session.isInScopeFor verified then
      .refused (.outOfScope (session.owner.getD 0))
    else
      let authentication := session.authentication.filter fun _ =>
        !verified.any session.answersHandover
      if authentication.all fun authentication => proof.any authentication.authorizes then
        .authorized
      else
        match request.secret with
        | none => .refused .authenticationRequired
        | some secret => .check secret

inductive Event (ι : Type)
  | ask (i : ι) (request : Request)
  /-- One pass of `authorize_attach`; on success with the attach that it is made for. -/
  | look (i : ι) (fault : Fault) (full : Bool)
  /-- The turn to check comes, or the refusal window is found open. -/
  | read (i : ι) (refusing : Bool)
  /-- The check has ended; `exhausted` when it does not start again for a replaced verifier. -/
  | record (i : ι) (exhausted : Bool)
  /-- What happens to one of the session's panes, attaches apart. -/
  | pane (id : ℕ) (action : Handover.Action ι)
  /-- A pane is opened. -/
  | openPane (id : ℕ) (pane : Pane)
  /-- The session is protected, or protected anew. -/
  | protect (verifier : String)
  /-- The session is offered, or scoped to a process. -/
  | rescope (offered : Bool) (owner : Option ℕ)
  | end_

variable [DecidableEq ι]

def State.put (s : State ι) (i : ι) (place : Place) : State ι :=
  { s with place := update s.place i place }

/-- The session with one step of a pane taken. -/
def Session.stepPane (session : Session ι) (id : ℕ) (action : Handover.Action ι) : Option (Session ι) :=
  ((session.panes id).step action).map fun t => { session with
    panes := update session.panes id t
    answered := update session.answered id
      (unresolved (session.panes id) action t (session.answered id)) }

/-- The pane that an attach is for: the one it names, or the first that has not ended. -/
def Session.paneFor (session : Session ι) (paneId : Option ℕ) : Option ℕ :=
  match paneId with
  | some id => if id ∈ session.ids then some id else none
  | none => session.ids.find? fun id => (session.panes id).pane.any (!·.exited)

def State.step (opens : String → String → Bool) (s : State ι) : Event ι → Option (State ι)
  | .ask i request =>
    match s.place i with
    | .idle => some (s.put i (.asking request none))
    | _ => none
  | .look i fault full =>
    match s.place i with
    | .asking request proof =>
      match authorizeAttach s.session request proof with
      | .refused refusal => some (s.put i (.refused refusal))
      | .check secret => some (s.put i (.queued request secret proof))
      | .authorized =>
        match s.session with
        | none => none
        | some session =>
          let session := { session with
            owner := if session.offered then session.owner
              else some request.attacher.clientProcessId }
          match session.paneFor request.paneId with
          | none => some { s.put i .admitted with session := some session }
          | some id =>
            (session.stepPane id
              (.attach i request.attacher request.forceShared fault full)).map fun session =>
                { s.put i .admitted with session := some session }
    | _ => none
  | .read i refusing =>
    match s.place i with
    | .queued request secret proof =>
      match s.session.bind (·.authentication) with
      | none => some (s.put i (.asking request proof))
      | some authentication =>
        if refusing then some (s.put i (.refused .authenticationFailed))
        else some (s.put i (.checking request secret proof authentication))
    | _ => none
  | .record i exhausted =>
    match s.place i with
    | .checking request secret proof authentication =>
      match s.session.bind (·.authentication) with
      | none => some (s.put i (.asking request proof))
      | some current =>
        if current.isSameVerifier authentication then
          match authentication.verify opens secret with
          | some verified => some (s.put i (.asking request (some verified)))
          | none => some (s.put i (.refused .authenticationFailed))
        else if exhausted then
          some (s.put i (.refused .authenticationFailed))
        else
          some (s.put i (.queued request secret proof))
    | _ => none
  | .pane id action =>
    match action with
    | .attach .. => none
    | action =>
      s.session.bind fun session =>
        if id ∈ session.ids then
          (session.stepPane id action).map fun session => { s with session := some session }
        else
          none
  | .openPane id pane =>
    s.session.bind fun session =>
      if id ∉ session.ids ∧ pane.handedOver = none ∧ pane.handoverWaiters = 0 then
        some { s with session := some { session with
          ids := session.ids ++ [id]
          panes := update session.panes id { session.panes id with
            pane := some pane
            task := fun _ => .idle }
          answered := update session.answered id none } }
      else
        none
  | .protect verifier =>
    s.session.map fun session => { s with
      session := some { session with
        authentication := some ⟨s.nextIdentity, verifier⟩ }
      nextIdentity := s.nextIdentity + 1
      verifiers := update s.verifiers s.nextIdentity verifier }
  | .rescope offered owner =>
    s.session.map fun session => { s with session := some { session with offered, owner } }
  | .end_ => some { s with session := none }

/-! ### What is proved -/

/-- What a request has proved, it has proved with its own secret. -/
def Proved (opens : String → String → Bool) (s : State ι) (request : Request)
    (proof : Option VerifiedSession) : Prop :=
  ∀ verified, proof = some verified → verified.identity < s.nextIdentity ∧
    ∃ secret, request.secret = some secret ∧ opens (s.verifiers verified.identity) secret = true

/-- A verifier is known by its identity. -/
def Known (s : State ι) (authentication : Authentication) : Prop :=
  authentication.identity < s.nextIdentity ∧
    s.verifiers authentication.identity = authentication.verifier

/-- A request at this place has proved what it carries. -/
def PlaceSound (opens : String → String → Bool) (s : State ι) : Place → Prop
  | .asking request proof => Proved opens s request proof
  | .queued request secret proof => request.secret = some secret ∧ Proved opens s request proof
  | .checking request secret proof authentication =>
    request.secret = some secret ∧ Known s authentication ∧ Proved opens s request proof
  | _ => True

structure Sound (opens : String → String → Bool) (s : State ι) : Prop where
  known : ∀ session authentication, s.session = some session →
    session.authentication = some authentication → Known s authentication
  place : ∀ i, PlaceSound opens s (s.place i)
  recorded : ∀ session, s.session = some session → ∀ id ∈ session.ids,
    (session.panes id).Recorded (session.answered id)

/-- The steps of panes that leave no record of a handover behind. -/
def State.Forgetful (s : State ι) : Event ι → Prop
  | .pane id action => ∀ session, s.session = some session →
      (session.panes id).Settles action ∧ (session.panes id).Forgets action
  | _ => True

section Place

variable {opens : String → String → Bool} {s t : State ι}

variable {request : Request} {proof : Option VerifiedSession}

omit [DecidableEq ι] in
theorem Proved.of_eq (h : Proved opens s request proof) (hnext : t.nextIdentity = s.nextIdentity)
    (hverifiers : t.verifiers = s.verifiers) : Proved opens t request proof := by
  intro verified hproof
  rw [hnext, hverifiers]
  exact h verified hproof

variable {place : Place}

omit [DecidableEq ι] in
theorem PlaceSound.of_eq (h : PlaceSound opens s place) (hnext : t.nextIdentity = s.nextIdentity)
    (hverifiers : t.verifiers = s.verifiers) :
    PlaceSound opens t place := by
  cases place with
  | asking request proof => exact Proved.of_eq h hnext hverifiers
  | queued request secret proof => exact ⟨h.1, h.2.of_eq hnext hverifiers⟩
  | checking request secret proof authentication =>
    exact ⟨h.1, by rw [Known, hnext, hverifiers]; exact h.2.1, h.2.2.of_eq hnext hverifiers⟩
  | _ => trivial

/-- A request moves to a place where it has proved what it carries. -/
theorem Sound.put (h : Sound opens s) (i : ι) (hplace : PlaceSound opens s place) :
    Sound opens (s.put i place) where
  known := h.known
  place j := by
    by_cases hji : j = i
    · rw [State.put, hji]
      dsimp only
      rw [update_self]
      exact hplace.of_eq rfl rfl
    · rw [State.put]
      dsimp only
      rw [update_of_ne hji]
      exact (h.place j).of_eq rfl rfl
  recorded := h.recorded

omit [DecidableEq ι] in
/-- The session changes in what proofs do not rest on. -/
theorem Sound.withSession (h : Sound opens s) {session session' : Session ι}
    (hsession : s.session = some session)
    (hauthentication : session'.authentication = session.authentication)
    (hrecorded : ∀ id ∈ session'.ids, (session'.panes id).Recorded (session'.answered id)) :
    Sound opens { s with session := some session' } where
  known session'' authentication hs ha := by
    cases hs
    exact h.known session authentication hsession (hauthentication ▸ ha)
  place j := (h.place j).of_eq rfl rfl
  recorded session'' hs := by
    cases hs
    exact hrecorded

variable {authentication : Authentication} {secret : String}

omit [DecidableEq ι] in
/-- A secret that opens the verifier proves it. -/
theorem Known.proved (h : Known s authentication) {verified : VerifiedSession}
    (hsecret : request.secret = some secret)
    (hverified : authentication.verify opens secret = some verified) :
    Proved opens s request (some verified) := by
  intro verified' heq
  cases heq
  rw [Authentication.verify] at hverified
  split at hverified
  next hopens =>
    cases hverified
    exact ⟨h.1, secret, hsecret, by rw [h.2]; exact hopens⟩
  · cases hverified

variable {verifier : String}

omit [DecidableEq ι] in
/-- A new verifier replaces none that a proof was made against. -/
theorem Proved.protect (h : Proved opens s request proof)
    (hnext : t.nextIdentity = s.nextIdentity + 1)
    (hverifiers : t.verifiers = update s.verifiers s.nextIdentity verifier) :
    Proved opens t request proof := by
  intro verified hproof
  obtain ⟨hlt, hopens⟩ := h verified hproof
  rw [hnext, hverifiers, update_of_ne hlt.ne]
  exact ⟨Nat.lt_succ_of_lt hlt, hopens⟩

omit [DecidableEq ι] in
theorem Known.protect (h : Known s authentication) (hnext : t.nextIdentity = s.nextIdentity + 1)
    (hverifiers : t.verifiers = update s.verifiers s.nextIdentity verifier) :
    Known t authentication := by
  rw [Known, hnext, hverifiers, update_of_ne h.1.ne]
  exact ⟨Nat.lt_succ_of_lt h.1, h.2⟩

omit [DecidableEq ι] in
theorem PlaceSound.protect (h : PlaceSound opens s place)
    (hnext : t.nextIdentity = s.nextIdentity + 1)
    (hverifiers : t.verifiers = update s.verifiers s.nextIdentity verifier) :
    PlaceSound opens t place := by
  cases place with
  | asking request proof => exact Proved.protect h hnext hverifiers
  | queued request secret proof => exact ⟨h.1, h.2.protect hnext hverifiers⟩
  | checking request secret proof authentication =>
    exact ⟨h.1, h.2.1.protect hnext hverifiers, h.2.2.protect hnext hverifiers⟩
  | _ => trivial

omit [DecidableEq ι] in
/-- What is checked is the request's own secret. -/
theorem secret_of_check {session : Option (Session ι)}
    (h : authorizeAttach session request proof = .check secret) :
    request.secret = some secret := by
  unfold authorizeAttach at h
  cases session with
  | none => cases h
  | some session =>
    dsimp only at h
    split_ifs at h
    split at h
    · cases h
    next hsecret =>
      cases h
      exact hsecret

end Place

variable {session : Session ι} {id : ℕ}

/-- A pane takes a step that leaves no record behind. -/
theorem recorded_stepPane {session' : Session ι} {action : Handover.Action ι}
    (hrecorded : ∀ id ∈ session.ids, (session.panes id).Recorded (session.answered id))
    (hsettles : (session.panes id).Settles action) (hforgets : (session.panes id).Forgets action)
    (hmem : id ∈ session.ids) (hstep : session.stepPane id action = some session') :
    session'.authentication = session.authentication ∧
      ∀ id ∈ session'.ids, (session'.panes id).Recorded (session'.answered id) := by
  obtain ⟨t, ht, rfl⟩ := Option.map_eq_some_iff.mp hstep
  refine ⟨rfl, fun id' hid' => ?_⟩
  by_cases hid : id' = id
  · subst hid
    dsimp only
    rw [update_self, update_self]
    exact recorded_step (hrecorded id' hmem) hsettles hforgets ht
  · dsimp only
    rw [update_of_ne hid, update_of_ne hid]
    exact hrecorded id' hid'

omit [DecidableEq ι] in
theorem mem_of_paneFor {paneId : Option ℕ} (h : session.paneFor paneId = some id) :
    id ∈ session.ids := by
  unfold Session.paneFor at h
  split at h
  · split at h
    next hmem =>
      cases h
      exact hmem
    · cases h
  · exact List.mem_of_find?_eq_some h

omit [DecidableEq ι] in
/-- An attach leaves no record behind. -/
theorem action_exempt (pane : Handover.State ι) (i : ι) (request : Request) (fault : Fault)
    (full : Bool) :
    pane.Settles (.attach i request.attacher request.forceShared fault full) ∧
      pane.Forgets (.attach i request.attacher request.forceShared fault full) :=
  ⟨trivial, trivial⟩

variable {event : Event ι} {opens : String → String → Bool} {s t : State ι}

/-- **One step** that forgets keeps what requests have proved, and what panes have recorded. -/
theorem sound_step (h : Sound opens s) (hforgetful : s.Forgetful event)
    (hstep : s.step opens event = some t) : Sound opens t := by
  cases event with
  | ask i request =>
    simp only [State.step] at hstep
    split at hstep
    · cases hstep
      exact h.put i fun proof hproof => absurd hproof (Option.not_mem_none proof)
    · cases hstep
  | look i fault full =>
    simp only [State.step] at hstep
    split at hstep
    next request proof hplace =>
      have hproved : Proved opens s request proof := by
        have := h.place i
        rwa [hplace] at this
      split at hstep
      · cases hstep
        exact h.put i trivial
      next secret hverdict =>
        cases hstep
        exact h.put i ⟨secret_of_check hverdict, hproved⟩
      · split at hstep
        · cases hstep
        next session hsession =>
          have hput : Sound opens (s.put i .admitted) := h.put i trivial
          -- The owner is all that changes in the session before the pane is attached.
          generalize howned : ({ session with
            owner := if session.offered then session.owner
              else some request.attacher.clientProcessId } : Session ι) = owned at hstep
          have hauthentication : owned.authentication = session.authentication := by rw [← howned]
          have hrecorded : ∀ id ∈ owned.ids,
              (owned.panes id).Recorded (owned.answered id) := by
            rw [← howned]
            exact h.recorded session hsession
          split at hstep
          · cases hstep
            exact hput.withSession hsession hauthentication hrecorded
          next id hpane =>
            obtain ⟨session', hsession', rfl⟩ := Option.map_eq_some_iff.mp hstep
            obtain ⟨hsame, hrecorded'⟩ := recorded_stepPane hrecorded
              (action_exempt _ i request fault full).1 (action_exempt _ i request fault full).2
              (mem_of_paneFor hpane) hsession'
            exact hput.withSession hsession (hsame.trans hauthentication) hrecorded'
    · cases hstep
  | read i refusing =>
    simp only [State.step] at hstep
    split at hstep
    next request secret proof hplace =>
      obtain ⟨hsecret, hproved⟩ : request.secret = some secret ∧ Proved opens s request proof := by
        have := h.place i
        rwa [hplace] at this
      split at hstep
      · cases hstep
        exact h.put i hproved
      next authentication hcurrent =>
        obtain ⟨session, hsession, hauthentication⟩ := Option.bind_eq_some_iff.mp hcurrent
        have hknown := h.known session authentication hsession hauthentication
        split at hstep
        · cases hstep
          exact h.put i trivial
        · cases hstep
          exact h.put i ⟨hsecret, hknown, hproved⟩
    · cases hstep
  | record i exhausted =>
    simp only [State.step] at hstep
    split at hstep
    next request secret proof authentication hplace =>
      obtain ⟨hsecret, hknown, hproved⟩ : request.secret = some secret ∧ Known s authentication ∧
          Proved opens s request proof := by
        have := h.place i
        rwa [hplace] at this
      split at hstep
      · cases hstep
        exact h.put i hproved
      · split at hstep
        · split at hstep
          next verified hverified =>
            cases hstep
            exact h.put i (hknown.proved hsecret hverified)
          · cases hstep
            exact h.put i trivial
        · split at hstep
          · cases hstep
            exact h.put i trivial
          · cases hstep
            exact h.put i ⟨hsecret, hproved⟩
    · cases hstep
  | pane id action =>
    simp only [State.step] at hstep
    split at hstep
    · cases hstep
    next hattach =>
      obtain ⟨session, hsession, hstep⟩ := Option.bind_eq_some_iff.mp hstep
      obtain ⟨hsettles, hforgets⟩ := hforgetful session hsession
      split at hstep
      next hmem =>
        obtain ⟨session', hsession', rfl⟩ := Option.map_eq_some_iff.mp hstep
        obtain ⟨hauthentication, hrecorded⟩ := recorded_stepPane (h.recorded session hsession)
          hsettles hforgets hmem hsession'
        exact h.withSession hsession hauthentication hrecorded
      · cases hstep
  | openPane id pane =>
    simp only [State.step] at hstep
    obtain ⟨session, hsession, hstep⟩ := Option.bind_eq_some_iff.mp hstep
    split at hstep
    next hopen =>
      cases hstep
      refine h.withSession hsession rfl fun id' hid' => ?_
      dsimp only
      by_cases hid : id' = id
      · rw [hid, update_self, update_self]
        refine recorded_none fun pane' hpane' => ?_
        cases hpane'
        exact hopen.2.1
      · rw [update_of_ne hid, update_of_ne hid]
        refine h.recorded session hsession id' ?_
        exact (List.mem_append.mp hid').resolve_right fun hnew => hid (List.mem_singleton.mp hnew)
    · cases hstep
  | protect verifier =>
    obtain ⟨session, hsession, rfl⟩ := Option.map_eq_some_iff.mp hstep
    refine ⟨fun session' authentication hsession' hauthentication => ?_, fun j => ?_,
      fun session' hsession' => ?_⟩
    · cases hsession'
      cases hauthentication
      exact ⟨Nat.lt_succ_self _, update_self ..⟩
    · exact (h.place j).protect rfl rfl
    · cases hsession'
      exact h.recorded session hsession
  | rescope offered owner =>
    obtain ⟨session, hsession, rfl⟩ := Option.map_eq_some_iff.mp hstep
    exact h.withSession hsession rfl (h.recorded session hsession)
  | end_ =>
    cases hstep
    exact ⟨by simp, fun j => (h.place j).of_eq rfl rfl, by simp⟩

/-! ### Every run -/

/-- A process that holds a pane mid-handover, or whose answer to a revoke is not resolved. -/
def Session.MidHandover (session : Session ι) (processId : ℕ) : Prop :=
  ∃ id ∈ session.ids, (∃ pane, (session.panes id).pane = some pane ∧
    (pane.attachment = .revoking processId ∨ pane.attachment = .granting processId)) ∨
    session.answered id = some processId

/-- What a step does to the clients it lets through, and to those it refuses. -/
structure Guards (opens : String → String → Bool) (s t : State ι) : Prop where
  /-- Whoever is let through has proved its own secret, or is in the middle of a handover. -/
  admitted : ∀ i, s.place i ≠ .admitted → t.place i = .admitted →
    ∃ request proof session, s.place i = .asking request proof ∧ s.session = some session ∧
      ∀ authentication, session.authentication = some authentication →
        (∃ secret, request.secret = some secret ∧ opens authentication.verifier secret = true) ∨
        ∃ p, request.attacher.verifiedProcessId = some p ∧ session.MidHandover p
  /-- A refusal changes nothing, and tells at most whose a session is that is not offered. -/
  refused : ∀ i refusal, s.place i ≠ .refused refusal → t.place i = .refused refusal →
    t.session = s.session ∧ ∀ owner, refusal = .outOfScope owner →
      ∃ session, s.session = some session ∧ session.offered = false ∧ session.owner = some owner
  /-- A client that is refused stays refused. -/
  stays : ∀ i refusal, s.place i = .refused refusal → t.place i = .refused refusal

omit [DecidableEq ι] in
/-- The daemon takes a client to be answering a handover only while its handover is open. -/
theorem midHandover_of_answersHandover {p : ℕ}
    (hrecorded : ∀ id ∈ session.ids, (session.panes id).Recorded (session.answered id))
    (h : session.answersHandover p = true) : session.MidHandover p := by
  obtain ⟨id, hmem, hpane⟩ := List.any_eq_true.mp h
  obtain ⟨pane, hpane, hanswers⟩ := (Option.any_eq_true _ _).mp hpane
  refine ⟨id, hmem, ?_⟩
  rw [Bool.or_eq_true, Bool.or_eq_true, decide_eq_true_eq, decide_eq_true_eq] at hanswers
  rcases hanswers with hheld | hhandedOver
  · exact .inl ⟨pane, hpane, hheld⟩
  · obtain ⟨record, hrecord, hp⟩ := (Option.any_eq_true _ _).mp hhandedOver
    rw [decide_eq_true_eq] at hp
    exact .inr (hp ▸ (hrecorded id hmem pane record hpane hrecord).1)

variable {proof : Option VerifiedSession} {request : Request}

omit [DecidableEq ι] in
/-- What one pass lets through. -/
theorem proof_of_authorized (h : Sound opens s) (hsession : s.session = some session)
    (hproved : Proved opens s request proof)
    (hverdict : authorizeAttach s.session request proof = .authorized)
    {authentication : Authentication}
    (hauthentication : session.authentication = some authentication) :
    (∃ secret, request.secret = some secret ∧ opens authentication.verifier secret = true) ∨
      ∃ p, request.attacher.verifiedProcessId = some p ∧ session.MidHandover p := by
  unfold authorizeAttach at hverdict
  rw [hsession] at hverdict
  dsimp only at hverdict
  split at hverdict
  · cases hverdict
  · split at hverdict
    · cases hverdict
    · split at hverdict
      next hall =>
        rw [hauthentication] at hall
        by_cases hanswers : request.attacher.verifiedProcessId.any session.answersHandover = true
        · -- The handover exempts the client.
          obtain ⟨p, hp, hanswers⟩ := (Option.any_eq_true _ _).mp hanswers
          exact .inr ⟨p, hp, midHandover_of_answersHandover (h.recorded session hsession) hanswers⟩
        · -- What the client has proved is the verifier in force.
          rw [Option.filter_some, if_pos (by simpa using hanswers), Option.all_some] at hall
          obtain ⟨verified, hproof, hauthorizes⟩ := (Option.any_eq_true _ _).mp hall
          rw [Authentication.authorizes, decide_eq_true_eq] at hauthorizes
          obtain ⟨-, secret, hsecret, hopens⟩ := hproved verified hproof
          have hknown := (h.known session authentication hsession hauthentication).2
          rw [hauthorizes] at hknown
          exact .inl ⟨secret, hsecret, hknown ▸ hopens⟩
      · split at hverdict
        · cases hverdict
        · cases hverdict

omit [DecidableEq ι] in
/-- A refusal names the owner of a session that is not offered, or nobody. -/
theorem owner_of_outOfScope {session : Option (Session ι)} {owner : ℕ}
    (h : authorizeAttach session request proof = .refused (.outOfScope owner)) :
    ∃ session', session = some session' ∧ session'.offered = false ∧ session'.owner = some owner := by
  unfold authorizeAttach at h
  cases session with
  | none => cases h
  | some session =>
    dsimp only at h
    split at h
    · cases h
    · split at h
      next hscope =>
        rw [Session.isInScopeFor, Bool.not_eq_true', Bool.or_eq_false_iff, Bool.or_eq_false_iff,
          decide_eq_false_iff_not, decide_eq_false_iff_not] at hscope
        obtain ⟨p, hp⟩ := Option.ne_none_iff_exists'.mp hscope.1.2
        rw [hp] at h
        refine ⟨session, rfl, hscope.1.1, ?_⟩
        rw [hp]
        exact congrArg some (Refusal.outOfScope.inj (Verdict.refused.inj h))
      · split_ifs at h
        split at h
        · cases h
        · cases h

/-- A request that is still being decided. -/
def Place.isOpen : Place → Bool
  | .refused _ | .admitted => false
  | _ => true

/-- Where one step takes a request. -/
inductive Moved (s t : State ι) (i : ι) : Prop
  | stays (h : t.place i = s.place i)
  | goesOn (hs : (s.place i).isOpen = true) (ht : (t.place i).isOpen = true)
  | refused {refusal : Refusal} (hs : (s.place i).isOpen = true) (ht : t.place i = .refused refusal)
      (hsession : t.session = s.session)
      (hscope : ∀ owner, refusal = .outOfScope owner →
        ∃ session, s.session = some session ∧ session.offered = false ∧ session.owner = some owner)
  | admitted {request : Request} {proof : Option VerifiedSession} {session : Session ι}
      (hs : s.place i = .asking request proof) (hsession : s.session = some session)
      (hverdict : authorizeAttach s.session request proof = .authorized)
      (ht : t.place i = .admitted)

theorem State.put_place (s : State ι) (i : ι) (place : Place) : (s.put i place).place i = place :=
  update_self ..

theorem moved_step (hstep : s.step opens event = some t) (j : ι) : Moved s t j := by
  -- A step at another request leaves this one where it is.
  have hother : ∀ {i : ι} {place : Place}, t.place = (s.put i place).place → j ≠ i →
      Moved s t j := by
    intro i place ht hji
    refine .stays ?_
    rw [ht, State.put]
    exact update_of_ne hji ..
  have hat : ∀ {i : ι} {place : Place}, t.place = (s.put i place).place → t.place i = place := by
    intro i place ht
    rw [ht, State.put_place]
  cases event with
  | ask i request =>
    simp only [State.step] at hstep
    split at hstep
    next hplace =>
      cases hstep
      by_cases hji : j = i
      · subst hji
        exact .goesOn (by rw [hplace]; rfl) (by rw [State.put_place]; rfl)
      · exact hother rfl hji
    · cases hstep
  | look i fault full =>
    simp only [State.step] at hstep
    split at hstep
    next request proof hplace =>
      by_cases hji : j = i
      · subst hji
        split at hstep
        next refusal hverdict =>
          cases hstep
          exact .refused (by rw [hplace]; rfl) (State.put_place ..) rfl fun owner howner =>
            owner_of_outOfScope (howner ▸ hverdict)
        · cases hstep
          exact .goesOn (by rw [hplace]; rfl) (by rw [State.put_place]; rfl)
        next hverdict =>
          split at hstep
          · cases hstep
          next session hsession =>
            refine .admitted hplace hsession hverdict ?_
            split at hstep
            · cases hstep
              exact State.put_place ..
            · obtain ⟨session', -, rfl⟩ := Option.map_eq_some_iff.mp hstep
              exact State.put_place ..
      · split at hstep
        · cases hstep
          exact hother rfl hji
        · cases hstep
          exact hother rfl hji
        · split at hstep
          · cases hstep
          · split at hstep
            · cases hstep
              exact @hother i .admitted rfl hji
            · obtain ⟨session', -, rfl⟩ := Option.map_eq_some_iff.mp hstep
              exact @hother i .admitted rfl hji
    · cases hstep
  | read i refusing =>
    simp only [State.step] at hstep
    split at hstep
    next request secret proof hplace =>
      by_cases hji : j = i
      · subst hji
        have hopen : (s.place j).isOpen = true := by rw [hplace]; rfl
        split at hstep
        · cases hstep
          exact .goesOn hopen (by rw [State.put_place]; rfl)
        · split at hstep
          · cases hstep
            exact .refused hopen (State.put_place ..) rfl (by simp)
          · cases hstep
            exact .goesOn hopen (by rw [State.put_place]; rfl)
      · split at hstep
        · cases hstep
          exact hother rfl hji
        · split at hstep
          · cases hstep
            exact hother rfl hji
          · cases hstep
            exact hother rfl hji
    · cases hstep
  | record i exhausted =>
    simp only [State.step] at hstep
    split at hstep
    next request secret proof authentication hplace =>
      have hput : ∃ place, t = s.put i place ∧
          (place = .refused .authenticationFailed ∨ place.isOpen = true) := by
        split at hstep
        · exact ⟨_, (Option.some.inj hstep).symm, .inr rfl⟩
        · split at hstep
          · split at hstep
            · exact ⟨_, (Option.some.inj hstep).symm, .inr rfl⟩
            · exact ⟨_, (Option.some.inj hstep).symm, .inl rfl⟩
          · split at hstep
            · exact ⟨_, (Option.some.inj hstep).symm, .inl rfl⟩
            · exact ⟨_, (Option.some.inj hstep).symm, .inr rfl⟩
      obtain ⟨place, rfl, hrefused | hopen⟩ := hput
      · by_cases hji : j = i
        · subst hji
          have hscope : ∀ owner, Refusal.authenticationFailed ≠ .outOfScope owner := by simp
          exact .refused (by rw [hplace]; rfl) (by rw [State.put_place, hrefused]) rfl
            fun owner howner => absurd howner (hscope owner)
        · exact hother rfl hji
      · by_cases hji : j = i
        · subst hji
          exact .goesOn (by rw [hplace]; rfl) (by rw [State.put_place, hopen])
        · exact hother rfl hji
    · cases hstep
  | pane id action =>
    simp only [State.step] at hstep
    split at hstep
    · cases hstep
    · obtain ⟨session, -, hstep⟩ := Option.bind_eq_some_iff.mp hstep
      split at hstep
      · obtain ⟨session', -, rfl⟩ := Option.map_eq_some_iff.mp hstep
        exact .stays rfl
      · cases hstep
  | openPane id pane =>
    simp only [State.step] at hstep
    obtain ⟨session, -, hstep⟩ := Option.bind_eq_some_iff.mp hstep
    split at hstep
    · cases hstep
      exact .stays rfl
    · cases hstep
  | protect verifier =>
    obtain ⟨session, -, rfl⟩ := Option.map_eq_some_iff.mp hstep
    exact .stays rfl
  | rescope offered owner =>
    obtain ⟨session, -, rfl⟩ := Option.map_eq_some_iff.mp hstep
    exact .stays rfl
  | end_ =>
    cases hstep
    exact .stays rfl

/-- **One step** from a sound state guards the session. -/
theorem guards_step (h : Sound opens s) (hstep : s.step opens event = some t) :
    Guards opens s t where
  admitted i hs ht := by
    cases moved_step hstep i with
    | stays heq => exact absurd (heq ▸ ht) hs
    | goesOn _ hopen =>
      rw [ht] at hopen
      cases hopen
    | refused _ hrefused => exact nomatch ht.symm.trans hrefused
    | @admitted request proof session hplace hsession hverdict =>
      refine ⟨request, proof, session, hplace, hsession, fun authentication hauthentication => ?_⟩
      have hproved := h.place i
      rw [hplace] at hproved
      exact proof_of_authorized h hsession hproved hverdict hauthentication
  refused i refusal hs ht := by
    cases moved_step hstep i with
    | stays heq => exact absurd (heq ▸ ht) hs
    | goesOn _ hopen =>
      rw [ht] at hopen
      cases hopen
    | refused _ hrefused hsession hscope =>
      cases ht.symm.trans hrefused
      exact ⟨hsession, hscope⟩
    | admitted _ _ _ hadmitted => exact nomatch ht.symm.trans hadmitted
  stays i refusal hs := by
    have hclosed : (s.place i).isOpen ≠ true := by rw [hs]; exact Bool.false_ne_true
    cases moved_step hstep i with
    | stays heq => exact heq.trans hs
    | goesOn hopen => exact absurd hopen hclosed
    | refused hopen => exact absurd hopen hclosed
    | admitted hplace => exact nomatch hs.symm.trans hplace

/-- No request has been made, and no pane has been handed over. -/
structure Starts (s : State ι) : Prop where
  idle : ∀ i, s.place i = .idle
  known : ∀ session authentication, s.session = some session →
    session.authentication = some authentication → Known s authentication
  panes : ∀ session, s.session = some session → ∀ id ∈ session.ids,
    ∀ pane, (session.panes id).pane = some pane → pane.handedOver = none

/-- **Attached only with proof**, after every run of steps that leave no record of a handover
behind: whatever the next step is, it guards the session. -/
theorem admitted_of_run {opens : String → String → Bool} {s₀ s t : State ι}
    {events : List (Event ι)} {event : Event ι} (h₀ : Starts s₀)
    (hrun : Run (Meeting State.Forgetful fun s event t => s.step opens event = some t) s₀ events s)
    (hstep : s.step opens event = some t) : Guards opens s t := by
  have hsound : Sound opens s₀ := {
    known := h₀.known
    place := fun i => by rw [h₀.idle i]; trivial
    recorded := fun session hsession id hid => recorded_none (h₀.panes session hsession id hid) }
  refine guards_step ?_ hstep
  exact hrun.invariant hsound fun _ _ _ h hnext => sound_step h hnext.1 hnext.2

/-- An offered session with one pane, and no verifier yet. -/
def offered : State (Fin 3) where
  session := some ⟨none, true, none, [1], fun _ => unheld, fun _ => none⟩
  place _ := .idle
  nextIdentity := 0
  verifiers _ := ""

theorem starts_offered : Starts offered where
  idle _ := rfl
  known session authentication hsession hauthentication := by
    cases hsession
    cases hauthentication
  panes session hsession id _ pane hpane := by
    cases hsession
    cases hpane
    rfl

def opensEqual (verifier secret : String) : Bool := verifier = secret

/-- The session is protected, and a client proves its secret. -/
def proving : List (Event (Fin 3)) :=
  [.protect "v", .ask 1 ⟨local2, some "v", some 1, false⟩, .look 1 .none false, .read 1 false,
    .record 1 false]

theorem admitted_proving : ∃ s t : State (Fin 3),
    Run (Meeting State.Forgetful fun s event t => s.step opensEqual event = some t) offered
      proving s ∧
    s.step opensEqual (.look 1 .none false) = some t ∧ t.place 1 = .admitted ∧
    Guards opensEqual s t := by
  obtain ⟨s, hrun, hadmitted⟩ := exists_run_of_foldlM (f := State.step opensEqual)
    (P := fun s : State (Fin 3) =>
      ((s.step opensEqual (.look 1 .none false)).map (·.place 1)) = some .admitted)
    proving (s := offered) (by decide)
  obtain ⟨t, ht, hplace⟩ := Option.map_eq_some_iff.mp hadmitted
  have hforgetful : Run (Meeting State.Forgetful
      fun s event t => s.step opensEqual event = some t) offered proving s := by
    have hnone : ∀ event ∈ proving, ∀ s : State (Fin 3), s.Forgetful event := by
      intro event hevent s
      simp only [proving, List.mem_cons, List.not_mem_nil, or_false] at hevent
      rcases hevent with rfl | rfl | rfl | rfl | rfl <;> trivial
    exact (hrun.meeting hnone).mono fun s _ _ hnext => ⟨hnext.1 s, hnext.2⟩
  exact ⟨s, t, hforgetful, ht, hplace, admitted_of_run starts_offered hforgetful ht⟩

/-- The holder of a pane hands it over, the client that joins is lost, and the pane is nobody's. -/
def abandoned : List (Event (Fin 3)) :=
  [.ask 0 ⟨local1, none, some 1, false⟩, .look 0 .none false, .pane 1 (.send 0 true)] ++ proving ++
    [.look 1 .none false, .pane 1 (.snapshot 1 []), .pane 1 (.awaken 1 false .none false),
      .pane 1 (.closeRelay 1), .pane 1 (.output [65]), .ask 2 ⟨local1, none, some 1, false⟩]

/-- A client whose handover was resolved long ago is let through without a secret, to a pane that
nobody has: what it handed over is still recorded. -/
theorem admitted_without_secret : ∃ s t : State (Fin 3),
    Run (fun s event t => s.step opensEqual event = some t) offered abandoned s ∧
    s.step opensEqual (.look 2 .none false) = some t ∧ ¬Guards opensEqual s t := by
  obtain ⟨s, hrun, hplace, hsession, hadmitted⟩ := exists_run_of_foldlM (f := State.step opensEqual)
    (P := fun s : State (Fin 3) => s.place 2 = .asking ⟨local1, none, some 1, false⟩ none ∧
      (s.session.any fun session => session.authentication = some ⟨0, "v"⟩ ∧
        session.ids = [1] ∧ session.answered 1 = none ∧
        (session.panes 1).pane.map Pane.attachment = some .none) = true ∧
      ((s.step opensEqual (.look 2 .none false)).map (·.place 2)) = some .admitted)
    abandoned (s := offered) (by decide)
  obtain ⟨t, ht, hadmitted⟩ := Option.map_eq_some_iff.mp hadmitted
  refine ⟨s, t, hrun, ht, fun h => ?_⟩
  obtain ⟨session, hsession, heq⟩ := (Option.any_eq_true _ _).mp hsession
  obtain ⟨hauthentication, hids, hanswered, hattachment⟩ := of_decide_eq_true heq
  obtain ⟨request, proof, session', hasking, hsession', hproof⟩ :=
    h.admitted 2 (by rw [hplace]; simp) hadmitted
  obtain ⟨rfl, -⟩ := Place.asking.inj (hplace.symm.trans hasking)
  cases hsession.symm.trans hsession'
  rcases hproof _ hauthentication with ⟨secret, hsecret, -⟩ | ⟨p, -, id, hid, hopen⟩
  · cases hsecret
  · obtain rfl : id = 1 := by rwa [hids, List.mem_singleton] at hid
    rcases hopen with ⟨pane, hpane, hheld⟩ | hopen
    · rw [hpane, Option.map_some] at hattachment
      rw [Option.some.inj hattachment] at hheld
      rcases hheld with hheld | hheld <;> cases hheld
    · exact nomatch hanswered.symm.trans hopen

end Authorize
end Zetta.Zmux.Server
