import Zetta.Lib.Run
import Zetta.Zmux.Server.Control

/-!
# The sessions of the daemon

A session is opened by a spawn, by a headless creation or out of a restored record. From then on it
is changed by the requests of `Control` and by what the rest of the daemon does to it, one after
the other under the sessions lock, until it ends.

`Registry.invariant`: what holds of every session that is opened, and is kept by every event that
meets a condition, holds of all sessions in every run of such events.
-/

namespace Zetta.Zmux.Server.Control

open Function

variable {V R : Type}

/-! ### Opening a session -/

/-- A record that a client has decrypted, as it sends it to be restored. -/
structure ResumeRequest (V : Type) where
  recordId : ℕ
  summary : BackgroundSessionSummary
  state : V
  sharedState : Option (SharedSessionState V)
  verifier : Option String
  keyEnvelope : Option String
  failedAuthentications : ℕ

structure CreateSharedRequest where
  operationId : SharedOperationId
  title : String
  replacement : SharedDraftLayout
  panes : List SharedPaneDraft
  activePane : Option SharedPaneRef
  verifier : Option String

/-- A session that a window spawns, with its first pane. The payload `null` is empty. -/
def spawnedSession (sessionId owner : ℕ) (pane : Pane) (null : V) : Session V where
  id := sessionId
  summary := ⟨sessionId, "", false, pane.id, .pane pane.id, [], false, none, none⟩
  state := null
  sharedState := none
  authentication := none
  keyEnvelope := none
  failedAuthentications := 0
  refuseUntil := none
  panes := [pane]
  keep := false
  offered := false
  owner := some owner
  sealedTo := none

/-- What `pin_protected` leaves a session sealed to, which nothing had pinned. -/
def pinned (env : Env) (verifier : Option String) (peerProcessId owner : Option ℕ) :
    Option (List String) :=
  if verifier.isSome then env.recipientsFor peerProcessId owner else none

/-- The session of a restored record, with the first pane spawned into it. -/
def restoredSession (env : Env) (request : ResumeRequest V) (clientProcessId : ℕ)
    (authorizedPeer : Option ℕ) (pane : Pane) : Except String (Session V) := do
  ensure (request.verifier.all env.accepts) "unusable session verifier"
  return {
    id := request.recordId
    summary := { request.summary with id := request.recordId }
    state := request.state
    sharedState := request.sharedState
    authentication := request.verifier
    keyEnvelope := request.keyEnvelope
    failedAuthentications := request.failedAuthentications
    refuseUntil := none
    panes := [pane]
    keep := false
    offered := request.sharedState.isSome
    owner := some clientProcessId
    sealedTo := pinned env request.verifier authorizedPeer (some clientProcessId) }

/-- A headless layout is of drafts alone. -/
def ensureDraftLayout : SharedDraftLayout → Except String Unit
  | .existing _ => .error "a headless session layout cannot contain an existing pane"
  | .draft _ => .ok ()
  | .split _ _ first second => do
    ensureDraftLayout first
    ensureDraftLayout second

/-- The drafts numbered from one, to try out a layout before there are panes. -/
def trialMappings (panes : List SharedPaneDraft) : List SharedDraftMapping :=
  panes.zipIdx.map fun (pane, index) => ⟨pane.draftId, index + 1⟩

def validateCreateRequest (request : CreateSharedRequest) : Except String Unit := do
  ensure (request.panes ≠ []) "a headless session must contain a pane"
  ensureDraftLayout request.replacement
  ensure ((sortIds (request.panes.map (·.draftId))).IsChain (· ≠ ·))
    "headless draft pane IDs must be unique"
  let layout ← resolveDraftLayout (trialMappings request.panes) request.replacement
  ensure (sortIds (layoutPaneIds layout) = List.range' 1 request.panes.length)
    "headless layout must contain every pane exactly once"
  match request.activePane with
  | some (.draft draftId) =>
    ensure (draftId ∈ request.panes.map (·.draftId))
      s!"active pane references unknown draft {draftId}"
  | some (.existing _) => .error "a headless session cannot reference an existing pane"
  | none => .ok ()
  ensure (∀ pane ∈ request.panes, 0 < pane.size.1 ∧ 0 < pane.size.2)
    "headless pane size must have positive columns and lines"

/-- The focus of a headless session. -/
def createdActivePane (request : CreateSharedRequest) (mappings : List SharedDraftMapping) :
    Except String ℕ :=
  match request.activePane with
  | some (.draft draftId) =>
    match mappedPane mappings draftId with
    | some paneId => .ok paneId
    | none => .error s!"active pane references unknown draft {draftId}"
  | some (.existing _) => .error "a headless session cannot activate an existing pane"
  | none =>
    match mappings.head? with
    | some mapping => .ok mapping.paneId
    | none => .error "a headless session must contain a pane"

/-- A headless session, whose processes have been started in these panes. -/
def createdSession (env : Env) (request : CreateSharedRequest) (sessionId : ℕ)
    (paneIds : List ℕ) (peerProcessId : Option ℕ) (null : V) : Except String (Session V) := do
  validateCreateRequest request
  ensure (request.verifier.all env.accepts) "unusable session verifier"
  let mappings := List.zipWith (fun draft paneId => ⟨draft.draftId, paneId⟩) request.panes paneIds
  let layout ← resolveDraftLayout mappings request.replacement
  let activePane ← createdActivePane request mappings
  let summary : BackgroundSessionSummary := {
    id := sessionId
    title := request.title
    authenticationRequired := request.verifier.isSome
    activePane
    layout
    panes := List.zipWith draftSummary request.panes paneIds
    held := false
    scopedTo := none
    keyEnvelope := none }
  let state := { SharedSessionState.new sessionId summary null with
    lastOperationId := some request.operationId }
  return {
    id := sessionId
    summary
    state := null
    sharedState := some (state.recordReceipt ⟨request.operationId, mappings⟩)
    authentication := request.verifier
    keyEnvelope := none
    failedAuthentications := 0
    refuseUntil := none
    panes := List.zipWith (fun draft paneId => sharedPane sessionId paneId draft.size)
      request.panes paneIds
    keep := true
    offered := true
    owner := none
    sealedTo := pinned env request.verifier peerProcessId none }

/-- How a session comes to be. -/
inductive Opening (V : Type)
  | spawned (owner : ℕ) (pane : Pane) (null : V)
  | restored (request : ResumeRequest V) (clientProcessId : ℕ) (authorizedPeer : Option ℕ)
    (pane : Pane)
  | created (request : CreateSharedRequest) (paneIds : List ℕ) (peerProcessId : Option ℕ)
    (null : V) (saved : Bool)

/-- The session as it is first seen. A headless one is written to disk before it is. -/
def Opening.world (env : Env) (sessionId : ℕ) : Opening V → Except String (World V)
  | .spawned owner pane null => .ok ⟨spawnedSession sessionId owner pane null, none, []⟩
  | .restored request clientProcessId authorizedPeer pane => do
    ensure (request.recordId = sessionId) s!"session {sessionId} does not exist"
    let session ← restoredSession env request clientProcessId authorizedPeer pane
    return ⟨session, none, []⟩
  | .created request paneIds peerProcessId null saved => do
    let session ← createdSession env request sessionId paneIds peerProcessId null
    let (result, w) := persistLiveSession env saved ⟨session, none, []⟩
    result
    return { w with taken := w.session.sharedState.toList }

/-! ### What happens to a session -/

/-- What the rest of the daemon changes of a session: attaching and leaving, exits, resizes and
pruning change its panes and its owner, failed secrets are counted, and a configuration seals. -/
structure Upkeep (V : Type) where
  panes : List Pane
  failedAuthentications : ℕ
  refuseUntil : Option ℕ
  keep : Bool
  owner : Option ℕ
  sealedTo : Option (List String)
  record : Option (PersistedSession V)

def Upkeep.apply (upkeep : Upkeep V) (w : World V) : World V :=
  { w with
    record := upkeep.record
    session := { w.session with
      panes := upkeep.panes
      failedAuthentications := upkeep.failedAuthentications
      refuseUntil := upkeep.refuseUntil
      keep := upkeep.keep
      owner := upkeep.owner
      sealedTo := upkeep.sealedTo } }

/-- What comes back of an attachment after the daemon has replaced itself. -/
def adoptAttachment : Attachment → Attachment
  | .shared _ | .granting _ => .shared []
  | attachment => attachment

def adoptPane (pane : Pane) : Pane :=
  { pane with
    attachment := adoptAttachment pane.attachment
    handedOver := none
    handoverWaiters := 0 }

/-- The session as the daemon's next image takes it over. -/
def adopt (session : Session V) : Session V :=
  { session with
    summary := { session.summary with id := session.id }
    panes := session.panes.map adoptPane }

/-- What happens to a session, under the lock. The flags say whether the disk takes what is
written: a repair, and what the request itself writes or removes. -/
inductive Event (V : Type)
  | detach (request : DetachRequest V) (caller : Caller) (repaired saved : Bool)
  | share (request : ShareRequest V) (caller : Caller) (forgotten repaired saved : Bool)
  | setSessionScope (request : ScopeRequest) (caller : Caller) (repaired saved : Bool)
  | sharedSnapshot (sessionId : ℕ) (caller : Caller) (repaired : Bool)
  | applyShared (request : SharedOperationRequest V) (caller : Caller) (repaired : Bool)
  | beginSharedSpawn (request : SharedSpawnRequest)
  | checkSharedSpawn (request : SharedSpawnRequest) (caller : Caller) (repaired : Bool)
  | commitSharedSpawn (request : SharedSpawnRequest) (paneId : ℕ) (repaired : Bool)
  | checkSharedBatch (request : SharedSpawnBatchRequest) (caller : Caller) (repaired : Bool)
  | commitSharedBatch (request : SharedSpawnBatchRequest) (paneIds : List ℕ)
    (replacement : BackgroundPaneLayout) (caller : Caller) (repaired : Bool)
  /-- An offered session is attached, or panes have been pruned from one with a canonical state. -/
  | normalize (repaired : Bool)
  | upkeep (change : Upkeep V)
  /-- The daemon replaces itself. -/
  | upgrade

/-- The handler of an event. -/
def Event.handler (F : AreaArithmetic R) (env : Env) : Event V → Request V (Reply V)
  | .detach request caller repaired saved => Control.detach env request caller repaired saved
  | .share request caller forgotten repaired saved =>
    Control.share env request caller forgotten repaired saved
  | .setSessionScope request caller repaired saved =>
    Control.setSessionScope env request caller repaired saved
  | .sharedSnapshot sessionId caller repaired =>
    Control.sharedSnapshot env sessionId caller repaired
  | .applyShared request caller repaired => Control.applyShared F env request caller repaired
  | .beginSharedSpawn request => Control.beginSharedSpawn request
  | .checkSharedSpawn request caller repaired =>
    Control.checkSharedSpawn env request caller repaired
  | .commitSharedSpawn request paneId repaired =>
    Control.commitSharedSpawn env request paneId repaired
  | .checkSharedBatch request caller repaired =>
    Control.checkSharedBatch env request caller repaired
  | .commitSharedBatch request paneIds replacement caller repaired =>
    Control.commitSharedBatch env request paneIds replacement caller repaired >>= answer env
  | .normalize repaired => do
    Handler.when (fun w => w.session.offered || w.session.sharedState.isSome) do
      let _ ← normalizeSharedState env repaired
    return .ok
  | .upkeep change => do
    Handler.modify change.apply
    return .ok
  | .upgrade => do
    edit adopt
    return .ok

/-! ### Every session -/

/-- The sessions, by id, that the daemon has. -/
abbrev Registry (V : Type) := ℕ → Option (World V)

inductive Step (V : Type)
  | start (sessionId : ℕ) (env : Env) (opening : Opening V)
  | happen (sessionId : ℕ) (env : Env) (event : Event V)
  | finish (sessionId : ℕ)

/-- The sessions after a step; none if there is no such step. -/
def Registry.step (F : AreaArithmetic R) (registry : Registry V) : Step V → Option (Registry V)
  | .start sessionId env opening =>
    match registry sessionId, opening.world env sessionId with
    | none, .ok w => some (update registry sessionId (some w))
    | _, _ => none
  | .happen sessionId env event =>
    (registry sessionId).map fun w =>
      update registry sessionId (some (event.handler F env w).2)
  | .finish sessionId => some (update registry sessionId none)

/-- A condition on how sessions are opened, and on what happens to them. -/
structure Condition (V : Type) where
  start : Env → Opening V → Prop
  happen : World V → Env → Event V → Prop

def Registry.Meets (C : Condition V) (registry : Registry V) : Step V → Prop
  | .start _ env opening => C.start env opening
  | .happen sessionId env event => ∀ w, registry sessionId = some w → C.happen w env event
  | .finish _ => True

/-- **Every session**: what holds of every session that is opened, and is kept by what happens to
it, holds of all sessions after every run of steps that meet the condition. -/
theorem Registry.invariant {F : AreaArithmetic R} {C : Condition V} {I : World V → Prop}
    (hstart : ∀ env sessionId opening w, C.start env opening →
      opening.world env sessionId = .ok w → I w)
    (hhappen : ∀ env event w, I w → C.happen w env event → I ((event.handler F env) w).2)
    {registry registry' : Registry V} {steps : List (Step V)}
    (h₀ : ∀ id w, registry id = some w → I w)
    (hrun : Run (Meeting (Registry.Meets C) fun r step r' => r.step F step = some r')
      registry steps registry') : ∀ id w, registry' id = some w → I w := by
  refine hrun.invariant (I := fun r => ∀ id w, r id = some w → I w) h₀ ?_
  rintro r step r' h ⟨hmeets, hstep⟩ id w hw
  cases step with
  | start sessionId env opening =>
    rw [Registry.step] at hstep
    split at hstep
    · next opened hnone hopened =>
      cases hstep
      rcases eq_or_ne id sessionId with rfl | hne
      · rw [update_self] at hw
        exact Option.some.inj hw ▸ hstart env id opening opened hmeets hopened
      · rw [update_of_ne hne] at hw
        exact h id w hw
    · cases hstep
  | happen sessionId env event =>
    obtain ⟨before, hbefore, rfl⟩ := Option.map_eq_some_iff.mp hstep
    rcases eq_or_ne id sessionId with rfl | hne
    · rw [update_self] at hw
      exact Option.some.inj hw ▸ hhappen env event before (h id before hbefore)
        (hmeets before hbefore)
    · rw [update_of_ne hne] at hw
      exact h id w hw
  | finish sessionId =>
    cases hstep
    rcases eq_or_ne id sessionId with rfl | hne
    · rw [update_self] at hw
      cases hw
    · rw [update_of_ne hne] at hw
      exact h id w hw

/-! ### A daemon to run -/

/-- A daemon that writes nothing to disk. -/
def plainEnv : Env where
  accepts _ := true
  running _ := true
  enabled := false
  recipientsFor _ _ := none
  encrypts _ := true
  delivers := true

/-- A client that knows the secret. -/
def guest : Caller := ⟨7, none, true⟩

end Zetta.Zmux.Server.Control
