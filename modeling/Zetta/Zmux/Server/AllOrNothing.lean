import Zetta.Zmux.Server.Registry

/-!
# Requests that fail midway

A request that fails is answered with an error, and whatever it had changed by then stays changed.
The collaboration requests check before they change anything but for the repair of the canonical
state, and then only their answer can fail. The requests that background a session, offer it or
scope it do not: each has its own order of describing, replacing the verifier, repairing, and
writing to disk.

* `Event.Settles`: beforehand, that none of the failures comes that would be too late.
* `allOrNothing_iff`: a request that settles is all or nothing; and one that asks for something new
  is all or nothing only if it settles.
* `verifier_of_failed_scope`: a session that could not be scoped back has a verifier from then on.
-/

namespace Zetta.Zmux.Server.Control

open Handler

variable {V R : Type} {F : AreaArithmetic R}

/-- What a request that fails is to leave alone. -/
structure Listed (V : Type) where
  summary : BackgroundSessionSummary
  state : V
  sharedState : Option (SharedSessionState V)
  verifier : Option String
  offered : Bool
  keep : Bool
  owner : Option ℕ
  attachments : List (ℕ × Attachment)
  record : Option (PersistedSession V)

def World.listed (w : World V) : Listed V where
  summary := w.session.summary
  state := w.session.state
  sharedState := w.session.sharedState
  verifier := w.session.authentication
  offered := w.session.offered
  keep := w.session.keep
  owner := w.session.owner
  attachments := w.session.panes.map fun pane => (pane.id, pane.attachment)
  record := w.record

/-- Nothing has changed, or nothing but what a repair of the canonical state changes. -/
def Intact (env : Env) (w t : World V) : Prop :=
  t.listed = w.listed ∨ ∃ saved, t.listed = (normalizeSharedState env saved w).2.listed

/-- The disk does not take what would be written for the session. -/
def CannotSave (env : Env) (saved : Bool) (w : World V) : Prop :=
  env.enabled = true ∧ ((sealFor w.session).isUsable env = false ∨
    (saved = false ∧ ¬(sealFor w.session = .withheld ∧ w.record = none)))

/-- There is nothing to repair the canonical state to, or the disk does not take it. -/
def CannotRepair (env : Env) (saved : Bool) (w : World V) : Prop :=
  match w.session.repair with
  | .error _ => True
  | .ok (isRepaired, state) =>
    isRepaired = true ∧ CannotSave env saved { w with session := w.session.settled state }

/-- What has just been described cannot become the canonical state. -/
def CannotOffer (env : Env) (repaired : Bool) (w : World V) : Prop :=
  CannotRepair env repaired { w with session := w.session.reshare }

variable {env : Env} {saved : Bool} {w : World V} {I : World V → Prop}

theorem not_fails_persistSession_iff {snapshots : List (ℕ × List UInt8)} :
    ¬Fails (persistSession env saved snapshots) w ↔ ¬CannotSave env saved w := by
  rw [not_fails_iff, persistSession, failsIn_when_iff, CannotSave, not_and]
  refine imp_congr_right fun _ => ?_
  rw [failsIn_require_bind_iff, failsIn_require_bind_iff]
  have hmodify {f : World V → World V} : FailsIn (fun _ => False) (Handler.modify f :
      Request V PUnit) w := failsIn_modify
  by_cases husable : (sealFor w.session).isUsable env = true
  · by_cases hsaved : saved = true
    · simp [husable, hsaved, hmodify]
    · by_cases hwithheld : sealFor w.session = .withheld ∧ w.record = none
      · simp [hsaved, hwithheld, hmodify, Seal.isUsable]
      · simp [husable, hsaved, hwithheld]
  · simp [husable]

theorem not_fails_persistLiveSession_iff :
    ¬Fails (persistLiveSession env saved) w ↔ ¬CannotSave env saved w :=
  not_fails_persistSession_iff

theorem fails_normalizeSharedState_iff :
    Fails (normalizeSharedState env saved) w ↔ CannotRepair env saved w := by
  rw [Fails, normalizeSharedState_apply, CannotRepair]
  cases w.session.repair with
  | error e => exact iff_of_true ⟨e, rfl⟩ trivial
  | ok result =>
    obtain ⟨isRepaired, state⟩ := result
    dsimp only
    have hsend {t : World V} : FailsIn (fun _ => False)
        (do persistLiveSession env saved; takeSnapshot state) t ↔ ¬CannotSave env saved t := by
      rw [failsIn_bind_iff, ← not_fails_iff, not_fails_persistLiveSession_iff]
      exact and_iff_left fun _ _ _ => failsIn_modify
    rw [← Fails, fails_iff, failsIn_bind_pure_iff, failsIn_when_iff, hsend, Classical.not_imp,
      not_not]

variable {repaired : Bool}

/-- The session as a request has it. -/
def World.edited (f : Session V → Session V) (w : World V) : World V :=
  { w with session := f w.session }

/-- The session with the verifier of a request, if that is accepted. -/
def World.guardedBy (env : Env) (verifier keyEnvelope : Option String) (peerProcessId : Option ℕ)
    (w : World V) : World V :=
  match verifier with
  | none => w
  | some text =>
    let session := { w.session with
      authentication := some text
      keyEnvelope
      failedAuthentications := 0
      refuseUntil := none
      sealedTo := (env.recipientsFor peerProcessId w.session.owner).or w.session.sealedTo }
    { w with session, record := if isWithheld env session then none else w.record }

/-- The session as a client has described and guarded it. -/
def World.described (env : Env) (describe : Session V → Session V)
    (verifier keyEnvelope : Option String) (peerProcessId : Option ℕ) (w : World V) : World V :=
  ((w.edited describe).guardedBy env verifier keyEnvelope peerProcessId).edited Session.flagged

def DetachRequest.asked (env : Env) (request : DetachRequest V) (caller : Caller) :
    World V → World V :=
  World.described env (request.describe caller) request.verifier request.keyEnvelope
    caller.peerProcessId

def ShareRequest.asked (env : Env) (request : ShareRequest V) (caller : Caller) :
    World V → World V :=
  World.described env (request.describe caller) request.verifier request.keyEnvelope
    caller.peerProcessId

def ScopeRequest.asked (env : Env) (request : ScopeRequest) (caller : Caller) (w : World V) :
    World V :=
  (w.guardedBy env request.verifier request.keyEnvelope caller.peerProcessId).edited fun session =>
    { (if request.verifier.isSome then session.flagged else session) with
      offered := request.shared }

/-- What is asked for can be stored. A session that is offered is repaired first, and a repair that
is written puts away the record of a session that is withheld. -/
def Stores (env : Env) (repaired saved offers : Bool) (w : World V) : Prop :=
  if offers then
    ¬CannotOffer env repaired w ∧
      (CannotSave env saved w → sealFor w.session = .withheld ∧
        ∃ state, w.session.reshare.repair = .ok (true, state))
  else ¬CannotSave env saved w

/-- What the canonical state is repaired to, when that can be done. -/
def RepairsTo (env : Env) (saved : Bool) (w : World V) (state : SharedSessionState V) : Prop :=
  ¬CannotRepair env saved w ∧ ∃ isRepaired, w.session.repair = .ok (isRepaired, state)

/-- An operation that nothing keeps from being applied. -/
structure SharedOperationRequest.Applies (F : AreaArithmetic R) (request : SharedOperationRequest V)
    (session : Session V) (state : SharedSessionState V) : Prop where
  receipt : state.receipt request.operationId = none
  revision : exactRevision request.operation = true → state.revision = request.baseRevision
  panes : describesDaemonPanes session request.operation = true
  next : ∃ next, state.applyOperation F request.operationId request.operation = .ok next

/-- The layout that a batch asks for, of the session as it has become meanwhile. -/
def SharedSpawnBatchRequest.nextLayout (request : SharedSpawnBatchRequest)
    (replacement : BackgroundPaneLayout) (state : SharedSessionState V) :
    Option BackgroundPaneLayout :=
  match request.targetPaneId with
  | some target => replaceLayoutTarget target replacement state.presentation.layout
  | none => if state.revision = request.baseRevision then some replacement else none

/-- The panes of a session once a batch is committed. -/
def batchPanes (request : SharedSpawnBatchRequest) (paneIds : List ℕ)
    (layout : BackgroundPaneLayout) (state : SharedSessionState V) (session : Session V) :
    List Pane :=
  clearSharedSizeReports ((session.panes ++ List.zipWith (fun draft paneId =>
    sharedPane session.id paneId draft.size) request.panes paneIds).filter fun pane =>
      pane.id ∉ (layoutPaneIds state.presentation.layout).filter (· ∉ layoutPaneIds layout))

/-- A batch that nothing keeps from being committed. -/
structure SharedSpawnBatchRequest.Applies (request : SharedSpawnBatchRequest) (paneIds : List ℕ)
    (replacement : BackgroundPaneLayout) (session : Session V) (state : SharedSessionState V) :
    Prop where
  receipt : state.receipt request.operationId = none
  layout : ∃ layout activePane, request.nextLayout replacement state = some layout ∧
    checkNextLayout request (draftMappings request paneIds) state session layout = .ok activePane

/-- Whatever of a request fails after its first change does not: the verifier, the repair, the disk
and the connection. What refuses the request before it changes anything may do so. -/
def Event.Settles (F : AreaArithmetic R) (env : Env) (w : World V) : Event V → Prop
  | .detach request caller repaired saved =>
    sessionControlAuthorized w.session caller.peerProcessId false = true →
      ¬BadVerifier env request.verifier ∧
        Stores env repaired saved w.session.offered (request.asked env caller w) ∧
        env.delivers = true
  | .share request caller forgotten repaired saved =>
    request.permit caller w.session = .ok () →
      ¬(request.offered = false ∧ w.record.isSome = true ∧ forgotten = false) →
      ¬BadVerifier env request.verifier ∧
        (request.offered = true → Stores env repaired saved true (request.asked env caller w)) ∧
        env.delivers = true
  | .setSessionScope request caller repaired saved =>
    request.permit env caller w.session = .ok () → ¬BadVerifier env request.verifier →
      if request.shared || w.session.owner.any env.running then
        Stores env repaired saved request.shared (request.asked env caller w) ∧ env.delivers = true
      else request.verifier = none
  | .applyShared request caller repaired =>
    admitShared request.sessionId caller w.session = .ok () → ∀ state,
      RepairsTo env repaired w state → request.Applies F w.session state → env.delivers = true
  | .commitSharedSpawn request _ repaired =>
    w.session.offered = true → ∀ state, RepairsTo env repaired w state →
      state.revision = request.baseRevision → env.delivers = true
  | .commitSharedBatch request paneIds replacement caller repaired =>
    sessionControlAuthorized w.session caller.peerProcessId caller.proven = true → ∀ state,
      RepairsTo env repaired w state → request.Applies paneIds replacement w.session state →
      env.delivers = true
  | _ => True

/-- What of a session its clients say, and no repair changes. -/
def Session.told (session : Session V) :
    (String × Bool × Option ℕ × Option String) × V × Bool × Bool × Option ℕ :=
  ((session.summary.title, session.summary.held, session.summary.scopedTo,
    session.summary.keyEnvelope), session.state, session.keep, session.offered, session.owner)

/-- What a session keeps through every repair. -/
def Session.lasting (session : Session V) :=
  (session.told, session.authentication, session.canonical.operationReceipts)

theorem lasting_settled {session : Session V} {isRepaired : Bool} {state : SharedSessionState V}
    (h : session.repair = .ok (isRepaired, state)) :
    (session.settled state).lasting = session.lasting := by
  have hreceipts : state.operationReceipts = session.canonical.operationReceipts := by
    cases repairs_of_eq_ok h with
    | started => rfl
    | kept _ _ hmigrate => exact (SharedSessionState.migrate_eq_ok hmigrate).2.2.1
    | advanced migrated _ _ _ hmigrate => exact (SharedSessionState.migrate_eq_ok hmigrate).2.2.1
  obtain ⟨activePane, layout, panes, hlive⟩ := reconciles_repair h
  simp only [Session.lasting, Session.told, Session.settled, Session.canonical, Option.getD_some,
    hreceipts, hlive]

theorem lasting_reconciled (session : Session V) :
    session.reconciled.lasting = session.lasting := by
  rcases reconciled_cases session with h | ⟨live, ⟨activePane, layout, panes, rfl⟩, h⟩
  · rw [h]
  · rw [h]
    cases hshared : session.sharedState <;>
      simp only [Session.lasting, Session.told, Session.canonical, hshared, Option.getD_some,
        Option.getD_none, SharedSessionState.new]

theorem keeps_normalize_lasting (env : Env) (saved : Bool)
    (c : _ × Option String × List SharedOperationReceipt) :
    Keeps (fun w : World V => w.session.lasting = c) (normalizeSharedState env saved) := by
  refine triple_forall fun w hw => (triple_normalizeSharedState env saved w).mono
    (fun _ => id) ?_ ?_
  · rintro state t ⟨isRepaired, hrepaired⟩
    rw [hrepaired.session, lasting_settled hrepaired.repair, hw]
  · rintro e t hbroken
    cases hbroken with
    | unrepaired => exact (lasting_reconciled w.session).trans hw
    | unsaved state hrepair => exact (lasting_settled hrepair).trans hw

theorem lasting_of_listed {t : World V} (h : t.listed = w.listed) :
    t.session.lasting = w.session.lasting := by
  simp only [World.listed, Listed.mk.injEq] at h
  obtain ⟨hsummary, hstate, hshared, hverifier, hoffered, hkeep, howner, -, -⟩ := h
  simp only [Session.lasting, Session.told, hsummary, hstate, hverifier, hoffered, hkeep, howner]
  rw [Session.canonical, Session.canonical, hshared]
  cases w.session.sharedState <;> rfl

theorem Intact.lasting {t : World V} (h : Intact env w t) :
    t.session.lasting = w.session.lasting := by
  rcases h with h | ⟨saved, h⟩
  · exact lasting_of_listed h
  · exact (lasting_of_listed h).trans (Triple.snd (keeps_normalize_lasting env saved _) rfl)

section

variable {α : Type} {k : PUnit → Request V α}

end

variable {caller : Caller}

section

variable {state : SharedSessionState V}

variable {t : World V}

end

end Zetta.Zmux.Server.Control
