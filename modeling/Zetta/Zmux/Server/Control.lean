import Zetta.Lib.Handler
import Zetta.Zmux.Server.Pane
import Zetta.Zmux.SharedState

/-!
# Control requests on a session

A session is described by its clients: its summary and its tab payload come with the requests that
background it, offer it or scope it. What it really has is its panes. While it is offered it also
has a canonical collaboration state, which is repaired against the panes before it is used.

The requests of this file run under the sessions lock, one after the other, on one session and on
its record on disk. They read and write both as they go, and an error leaves what was written.

* `normalizeSharedState` is the repair, `summaryFromDaemonPanes` what it rebuilds the summary from.
* `detach`, `share` and `setSessionScope` decide whose the session is, and how it is described.
* `sharedSnapshot`, `applyShared`, `beginSharedSpawn`, `checkSharedSpawn`, `commitSharedSpawn`,
  `checkSharedBatch` and `commitSharedBatch` are collaboration: a spawn is checked, its processes
  are started with the lock released, and it is committed.
* `answer` is how a request ends that has not failed by then.
-/

namespace Zetta.Zmux.Server.Control

open Handler

/-- A session, as its control requests see it. The tab payload `V` is opaque. -/
structure Session (V : Type) where
  id : ℕ
  summary : BackgroundSessionSummary
  state : V
  sharedState : Option (SharedSessionState V)
  /-- The verifier of the session's secret. -/
  authentication : Option String
  keyEnvelope : Option String
  failedAuthentications : ℕ
  refuseUntil : Option ℕ
  panes : List Pane
  keep : Bool
  offered : Bool
  owner : Option ℕ
  sealedTo : Option (List String)

/-- What a session's writes to disk are encrypted to. -/
inductive Seal
  | store
  | recipients (values : List String)
  | withheld
  deriving DecidableEq

/-- What is written to disk for a session, and the seal it is written under. -/
structure PersistedSession (V : Type) where
  id : ℕ
  summary : BackgroundSessionSummary
  state : V
  sharedState : Option (SharedSessionState V)
  verifier : Option String
  keyEnvelope : Option String
  failedAuthentications : ℕ
  snapshots : List (ℕ × List UInt8)
  sealedUnder : Seal

/-- What the requests on one session read and write. -/
structure World (V : Type) where
  session : Session V
  /-- The session's record on disk. -/
  record : Option (PersistedSession V)
  /-- The snapshots of the canonical state taken to be sent or broadcast, in order. -/
  taken : List (SharedSessionState V)

/-- What the daemon finds around it. -/
structure Env where
  /-- Whether a verifier meets the cost policy. -/
  accepts : String → Bool
  running : ℕ → Bool
  /-- Whether anything is being persisted. -/
  enabled : Bool
  /-- `RecipientGrants::for_session`, of the protecting peer and the owner. -/
  recipientsFor : Option ℕ → Option ℕ → Option (List String)
  /-- Whether recipients can be encrypted to. -/
  encrypts : List String → Bool
  /-- Whether the connection takes the answer. -/
  delivers : Bool

/-- Who asks: the process named in the envelope, the one the transport vouched for, and whether
the secret of the verifier in force has been proved. -/
structure Caller where
  clientProcessId : ℕ
  peerProcessId : Option ℕ
  proven : Bool

abbrev Request (V : Type) := Handler (World V) String

variable {V R : Type}

/-! ### The panes of a session -/

section

variable (session : Session V)

def Session.livePaneIds : List ℕ :=
  (session.panes.filter (!·.exited)).map (·.id)

def paneIsHeldBy (pane : Pane) (clientProcessId : ℕ) : Bool :=
  match pane.attachment with
  | .exclusive holder | .revoking holder | .granting holder => holder = clientProcessId
  | .shared clients => clients.any (·.processId = clientProcessId)
  | .none => false

def Session.isHeldBy (clientProcessId : ℕ) : Bool :=
  session.panes.any (paneIsHeldBy · clientProcessId)

/-- Whether a window is showing the session right now. -/
def Session.isHeld : Bool :=
  session.panes.any fun pane =>
    match pane.attachment with
    | .exclusive _ => true
    | _ => false

def Session.isAvailable : Bool :=
  (session.keep || session.offered) && session.panes.any (!·.exited) &&
    (session.offered || !session.isHeld)

/-- A vouched-for peer that owns or holds the session. -/
def sessionIdentityAuthorized (peerProcessId : Option ℕ) : Bool :=
  peerProcessId.any fun processId =>
    session.owner = some processId || session.isHeldBy processId

def sessionControlAuthorized (peerProcessId : Option ℕ) (proven : Bool) : Bool :=
  session.authentication.isNone || sessionIdentityAuthorized session peerProcessId || proven

def unpublishedPaneSummary (pane : Pane) : BackgroundPaneSummary where
  id := pane.id
  label := s!"pane-{pane.id}"
  profile := ""
  configuredCommand := ""
  application := ""
  foregroundCommand := none
  terminalTitle := none
  workingDirectory := none
  state := if pane.exited then .exited else .running
  exit := none

/-- Counts the distinct live leaves of a layout. -/
def liveLayoutCoverage (layout : BackgroundPaneLayout) (live : List ℕ) : ℕ :=
  ((layoutPaneIds layout).filter (· ∈ live)).eraseDups.length

/-- Retains each live leaf once, and drops the splits that lose a child; also what has been seen. -/
def retainDaemonPanesInLayout (live : List ℕ) :
    BackgroundPaneLayout → List ℕ → Option BackgroundPaneLayout × List ℕ
  | .pane paneId, seen =>
    if paneId ∈ live ∧ paneId ∉ seen then (some (.pane paneId), paneId :: seen) else (none, seen)
  | .split axis firstRatio first second, seen =>
    let (first, seen) := retainDaemonPanesInLayout live first seen
    let (second, seen) := retainDaemonPanesInLayout live second seen
    match first, second with
    | some first, some second => (some (.split axis firstRatio first second), seen)
    | some layout, none => (some layout, seen)
    | none, some layout => (some layout, seen)
    | none, none => (none, seen)

def DEFAULT_BACKGROUND_PANE_SPLIT_RATIO : UInt16 := BACKGROUND_PANE_SPLIT_RATIO_SCALE / 2

/-- A pane beside what there is. -/
def appendPane (layout : Option BackgroundPaneLayout) (paneId : ℕ) : BackgroundPaneLayout :=
  match layout with
  | some layout => .split "horizontal" DEFAULT_BACKGROUND_PANE_SPLIT_RATIO layout (.pane paneId)
  | none => .pane paneId

def firstLayoutPaneId : BackgroundPaneLayout → ℕ
  | .pane paneId => paneId
  | .split _ _ first _ => firstLayoutPaneId first

/-- Reconciles the summary with the panes that are live. -/
def summaryFromDaemonPanes (previous : SharedSessionState V) :
    Except String BackgroundSessionSummary :=
  let live := session.livePaneIds
  if live = [] then .error s!"session {session.id} has no live daemon-owned panes" else
  let described := (session.summary.panes ++ previous.summary.panes).filter (·.id ∈ live)
  let panes := (described ++ (session.panes.filter (!·.exited)).map unpublishedPaneSummary)
    |>.eraseDupsBy fun pane pane' => pane.id = pane'.id
  let sourceLayout :=
    if liveLayoutCoverage session.summary.layout live <
        liveLayoutCoverage previous.presentation.layout live then
      previous.presentation.layout
    else session.summary.layout
  let (retained, laidOut) := retainDaemonPanesInLayout live sourceLayout []
  let missing := (panes.map (·.id)).filter (· ∉ laidOut)
  match missing.foldl (fun layout paneId => some (appendPane layout paneId)) retained with
  | none => .error "a live daemon-owned pane is always placed in the layout"
  | some layout =>
    .ok { session.summary with
      id := session.id
      activePane :=
        if session.summary.activePane ∈ live then session.summary.activePane
        else if previous.presentation.activePane ∈ live then previous.presentation.activePane
        else firstLayoutPaneId layout
      layout
      panes }

def summaryMatchesDaemonPanes (summary : BackgroundSessionSummary) (session : Session V) : Bool :=
  sortIds summary.paneIds = sortIds session.livePaneIds

/-- The canonical state, or the first one. -/
def Session.canonical : SharedSessionState V :=
  session.sharedState.getD (.new session.id session.summary session.state)

/-- A session as it is offered, which is not quite as its client described it. -/
def catalogSummary : BackgroundSessionSummary :=
  let summary :=
    match summaryFromDaemonPanes session session.canonical with
    | .ok summary => summary
    | .error _ => session.summary
  { summary with
    held := session.isHeld
    keyEnvelope := session.keyEnvelope
    scopedTo := if session.offered then none else session.owner }

/-- Strips what a protected session must not reveal. -/
def forPublicCatalog (summary : BackgroundSessionSummary) : BackgroundSessionSummary :=
  if summary.authenticationRequired then
    { summary with
      title := "Protected session"
      activePane := 0
      layout := .pane 0
      panes := [] }
  else summary

/-! ### Reading and writing -/

def edit (f : Session V → Session V) : Request V PUnit :=
  Handler.modify fun w => { w with session := f w.session }

/-- A snapshot of the canonical state goes into an answer or an event. -/
def takeSnapshot (state : SharedSessionState V) : Request V PUnit :=
  Handler.modify fun w => { w with taken := w.taken ++ [state] }

/-- What the session's writes are sealed to. -/
def sealFor : Seal :=
  if session.authentication.isNone then .store
  else (session.sealedTo.map Seal.recipients).getD .withheld

def persistedSession (snapshots : List (ℕ × List UInt8)) : PersistedSession V where
  id := session.id
  summary := session.summary
  state := session.state
  sharedState := session.sharedState
  verifier := session.authentication
  keyEnvelope := session.keyEnvelope
  failedAuthentications := session.failedAuthentications
  snapshots := snapshots
  sealedUnder := sealFor session

/-- Whether the store can encrypt under a seal. -/
def Seal.isUsable (env : Env) : Seal → Bool
  | .recipients values => env.encrypts values
  | .store | .withheld => true

/-- Writes a record under its seal; `saved` when the disk takes it. A write that fails leaves the
record that there was. -/
def persistSession (env : Env) (saved : Bool) (snapshots : List (ℕ × List UInt8)) :
    Request V PUnit :=
  Handler.when (fun _ => env.enabled) do
    Handler.require (fun w => (sealFor w.session).isUsable env) "parsing recipients"
    Handler.require (fun w => saved || (sealFor w.session = .withheld && w.record.isNone))
      "writing the session record"
    Handler.modify fun w => { w with
      record :=
        if sealFor w.session = .withheld then none
        else some (persistedSession w.session snapshots) }

def persistLiveSession (env : Env) (saved : Bool) : Request V PUnit := do
  let snapshots ← Handler.get fun w => w.session.panes.map fun pane => (pane.id, pane.retained)
  persistSession env saved snapshots

/-- Removes the record of a session that is there; `forgotten` when the disk lets it. -/
def forgetPersistedSession (forgotten : Bool) : Request V PUnit :=
  Handler.when (fun w => w.record.isSome) do
    Handler.require (fun _ => forgotten) "forgetting the session record"
    Handler.modify fun w => { w with record := none }

end

/-- Whether nothing of a session may be left on disk. -/
def isWithheld (env : Env) (session : Session V) : Bool :=
  env.enabled && (!(sealFor session).isUsable env || sealFor session = .withheld)

/-- Pins a session that has just been protected, and tells the store. -/
def protectedBy (env : Env) (peerProcessId : Option ℕ) : Request V PUnit := do
  edit fun session => { session with
    sealedTo := (env.recipientsFor peerProcessId session.owner).or session.sealedTo }
  Handler.modify fun w => if isWithheld env w.session then { w with record := none } else w

/-- A verifier that comes with a request is not one. -/
def BadVerifier (env : Env) (verifier : Option String) : Prop :=
  ∃ text, verifier = some text ∧ env.accepts text = false

/-- A verifier that comes with a request replaces the session's. -/
def protect (env : Env) (verifier keyEnvelope : Option String) (peerProcessId : Option ℕ) :
    Request V PUnit :=
  match verifier with
  | none => pure ⟨⟩
  | some verifier => do
    Handler.require (fun _ => env.accepts verifier) "unusable session verifier"
    edit fun session => { session with
      authentication := some verifier
      keyEnvelope
      failedAuthentications := 0
      refuseUntil := none }
    protectedBy env peerProcessId

/-! ### The canonical state -/

/-- Repairs the canonical state against the live panes. A repair of a state that there was gets a
revision of its own, is written to disk and is broadcast. -/
def normalizeSharedState (env : Env) (saved : Bool) : Request V (SharedSessionState V) := do
  let state ← Handler.read fun w => w.session.canonical.migrate
  let live ← Handler.read fun w => summaryFromDaemonPanes w.session state
  let hadSharedState ← Handler.get fun w => w.session.sharedState.isSome
  let catalogChanged ← Handler.get fun w => decide (w.session.summary ≠ live)
  edit fun session => { session with summary := live }
  let (presentationChanged, next) ← Handler.read fun _ => { state with summary := live }.normalize
  let isRepaired := hadSharedState &&
    (catalogChanged || state.summary ≠ live || presentationChanged)
  let next := if isRepaired then { next with revision := nextRevision next.revision } else next
  edit fun session => { session with sharedState := some next }
  Handler.when (fun _ => isRepaired) do
    persistLiveSession env saved
    takeSnapshot next
  return next

/-- What a repair of the canonical state comes to: whether there is one, and the state. -/
def Session.repair (session : Session V) : Except String (Bool × SharedSessionState V) := do
  let state ← session.canonical.migrate
  let live ← summaryFromDaemonPanes session state
  let (presentationChanged, next) ← { state with summary := live }.normalize
  let isRepaired := session.sharedState.isSome &&
    (session.summary ≠ live || state.summary ≠ live || presentationChanged)
  return (isRepaired,
    if isRepaired then { next with revision := nextRevision next.revision } else next)

/-- How a repair goes: there was no state yet, or nothing to repair, or there was. -/
inductive Repairs (session : Session V) : Bool → SharedSessionState V → Prop
  | started (summary : BackgroundSessionSummary) (presentation : SharedPresentationState)
    (hnone : session.sharedState = none) :
    Repairs session false { session.canonical with summary, presentation }
  | kept (state : SharedSessionState V) (hsome : session.sharedState.isSome = true)
    (hmigrate : session.canonical.migrate = .ok state) : Repairs session false state
  | advanced (state : SharedSessionState V) (summary : BackgroundSessionSummary)
    (presentation : SharedPresentationState) (hsome : session.sharedState.isSome = true)
    (hmigrate : session.canonical.migrate = .ok state) :
    Repairs session true
      { state with summary, presentation, revision := nextRevision state.revision }

variable {session : Session V} {isRepaired : Bool} {state : SharedSessionState V}

theorem repairs_of_eq_ok (h : session.repair = .ok (isRepaired, state)) :
    Repairs session isRepaired state := by
  obtain ⟨migrated, hmigrate, h⟩ := bind_eq_ok.mp h
  obtain ⟨live, hlive, h⟩ := bind_eq_ok.mp h
  obtain ⟨⟨presented, next⟩, hnormalize, h⟩ := bind_eq_ok.mp h
  obtain ⟨⟨presentation, rfl⟩, hkept⟩ := SharedSessionState.normalize_eq_ok hnormalize
  obtain ⟨hisRepaired, rfl⟩ := Prod.mk.inj (Except.ok.inj h)
  dsimp only at hkept ⊢
  rw [hisRepaired]
  cases hstate : session.sharedState with
  | none =>
    -- A state that has just been started is of the current version.
    have hmigrated : migrated = session.canonical := by
      have hcanonical : session.canonical.migrate = .ok session.canonical :=
        if_pos (by rw [Session.canonical, hstate]; rfl)
      exact Except.ok.inj (hmigrate.symm.trans hcanonical)
    subst hmigrated
    rw [hstate] at hisRepaired
    obtain rfl : isRepaired = false := hisRepaired.symm
    exact .started live presentation hstate
  | some shared =>
    have hsome : session.sharedState.isSome = true := by rw [hstate]; rfl
    cases isRepaired with
    | false =>
      rw [hsome, Bool.true_and, Bool.or_eq_false_iff, Bool.or_eq_false_iff] at hisRepaired
      obtain ⟨⟨-, hsummary⟩, rfl⟩ := hisRepaired
      have hlive' : migrated.summary = live := by simpa using hsummary
      have hsame := hkept rfl
      subst hlive'
      rw [hsame]
      exact .kept migrated hsome hmigrate
    | true => exact .advanced migrated live presentation hsome hmigrate

/-- The session's summary, but for what follows from its panes. -/
def Reconciles (session : Session V) (live : BackgroundSessionSummary) : Prop :=
  ∃ activePane layout panes,
    live = { session.summary with id := session.id, activePane, layout, panes }

theorem reconciles_of_daemonPanes {previous : SharedSessionState V}
    {live : BackgroundSessionSummary} (h : summaryFromDaemonPanes session previous = .ok live) :
    Reconciles session live := by
  simp only [summaryFromDaemonPanes] at h
  split at h
  · cases h
  split at h
  · cases h
  · exact ⟨_, _, _, (Except.ok.inj h).symm⟩

/-- The session with what its repair comes to. -/
def Session.settled (session : Session V) (state : SharedSessionState V) : Session V :=
  { session with summary := state.summary, sharedState := some state }

/-- What a repair that fails leaves of the session: the summary may have been reconciled. -/
def Session.reconciled (session : Session V) : Session V :=
  match session.canonical.migrate with
  | .error _ => session
  | .ok state =>
    match summaryFromDaemonPanes session state with
    | .error _ => session
    | .ok live => { session with summary := live }

/-- **The repair**, all of it: what it comes to is put in place, written and sent. -/
theorem normalizeSharedState_apply (env : Env) (saved : Bool) (w : World V) :
    normalizeSharedState env saved w =
      match w.session.repair with
      | .error e => (.error e, { w with session := w.session.reconciled })
      | .ok (isRepaired, state) =>
        (do
          Handler.when (fun _ => isRepaired) do
            persistLiveSession env saved
            takeSnapshot state
          return state : Request V (SharedSessionState V))
          { w with session := w.session.settled state } := by
  rw [normalizeSharedState, read_bind]
  cases hmigrate : w.session.canonical.migrate with
  | error e =>
    have hrepair : w.session.repair = .error e := by rw [Session.repair, hmigrate]; rfl
    rw [hrepair, Session.reconciled, hmigrate]
  | ok state =>
    dsimp only
    rw [read_bind]
    cases hlive : summaryFromDaemonPanes w.session state with
    | error e =>
      have hrepair : w.session.repair = .error e := by
        simp only [Session.repair, hmigrate, hlive, bind, Except.bind]
      rw [hrepair, Session.reconciled, hmigrate]
      simp only [hlive]
    | ok live =>
      dsimp only
      rw [get_bind, get_bind, edit, modify_bind, read_bind]
      cases hnormalize : { state with summary := live }.normalize with
      | error e =>
        have hrepair : w.session.repair = .error e := by
          simp only [Session.repair, hmigrate, hlive, hnormalize, bind, Except.bind]
        rw [hrepair, Session.reconciled, hmigrate]
        simp only [hlive]
      | ok result =>
        obtain ⟨presented, next⟩ := result
        have hsummary : next.summary = live := by
          obtain ⟨⟨presentation, rfl⟩, -⟩ := SharedSessionState.normalize_eq_ok hnormalize
          rfl
        dsimp only
        generalize hisRepaired : (w.session.sharedState.isSome && (decide (w.session.summary ≠ live) ||
          decide (state.summary ≠ live) || presented)) = isRepaired
        generalize hfinal : (if isRepaired = true then
          { next with revision := nextRevision next.revision } else next) = final
        have hrepair : w.session.repair = .ok (isRepaired, final) := by
          simp only [Session.repair, hmigrate, hlive, hnormalize, bind, Except.bind, hisRepaired,
            hfinal]
          rfl
        have hfinalSummary : final.summary = live := by
          rw [← hfinal, ← hsummary]
          split <;> rfl
        have hsettled : w.session.settled final =
            { w.session with summary := live, sharedState := some final } := by
          rw [← hfinalSummary]
          rfl
        rw [hrepair]
        dsimp only
        rw [hsettled]
        rfl

/-- A repair has succeeded; one that there was something to repair in is written and sent. -/
structure Repaired (w₀ : World V) (isRepaired : Bool) (state : SharedSessionState V)
    (w : World V) : Prop where
  repair : w₀.session.repair = .ok (isRepaired, state)
  session : w.session = w₀.session.settled state
  taken : w.taken = if isRepaired then w₀.taken ++ [state] else w₀.taken

/-- A repair has failed, or what it comes to could not be written. -/
inductive Broken (w₀ : World V) : World V → Prop
  | unrepaired (h : w₀.session.repair.toOption = none) :
    Broken w₀ { w₀ with session := w₀.session.reconciled }
  | unsaved (state : SharedSessionState V) (h : w₀.session.repair = .ok (true, state)) :
    Broken w₀ { w₀ with session := w₀.session.settled state }

theorem reconciles_repair (h : session.repair = .ok (isRepaired, state)) :
    Reconciles session state.summary := by
  obtain ⟨migrated, hmigrate, h⟩ := bind_eq_ok.mp h
  obtain ⟨live, hlive, h⟩ := bind_eq_ok.mp h
  obtain ⟨⟨presented, next⟩, hnormalize, h⟩ := bind_eq_ok.mp h
  obtain ⟨⟨presentation, rfl⟩, -⟩ := SharedSessionState.normalize_eq_ok hnormalize
  obtain ⟨-, rfl⟩ := Prod.mk.inj (Except.ok.inj h)
  dsimp only
  split
  · exact reconciles_of_daemonPanes hlive
  · exact reconciles_of_daemonPanes hlive

theorem reconciled_cases (session : Session V) : session.reconciled = session ∨
    ∃ live, Reconciles session live ∧ session.reconciled = { session with summary := live } := by
  rw [Session.reconciled]
  split
  · exact .inl rfl
  split
  · exact .inl rfl
  next live hlive => exact .inr ⟨live, reconciles_of_daemonPanes hlive, rfl⟩

/-- What a write leaves on disk for a session. -/
inductive Saves (env : Env) (w : World V) (snapshots : List (ℕ × List UInt8)) :
    Option (PersistedSession V) → Prop
  | disabled (h : env.enabled = false) : Saves env w snapshots w.record
  | withheld (h : sealFor w.session = .withheld) : Saves env w snapshots none
  | written (h : sealFor w.session ≠ .withheld) (henabled : env.enabled = true) :
    Saves env w snapshots (some (persistedSession w.session snapshots))

variable {P : World V → Prop} {env : Env} {saved : Bool} {Q : PUnit → World V → Prop}
  {E : String → World V → Prop}

/-- A write that fails leaves the record as it was, and none touches anything else. -/
theorem triple_persistSession {snapshots : List (ℕ × List UInt8)}
    (hok : ∀ w record, P w → Saves env w snapshots record → Q ⟨⟩ { w with record })
    (herror : ∀ w e, P w → E e w) : Triple P (persistSession env saved snapshots) Q E := by
  rw [persistSession]
  refine triple_when ?_ fun w hw hdisabled => hok w w.record hw (.disabled hdisabled)
  refine triple_bind (Q := fun _ w => P w ∧ env.enabled = true) ?_ fun _ => ?_
  · exact triple_require (fun _ hw _ => hw) fun w hw _ => herror w _ hw.1
  refine triple_bind (Q := fun _ w => P w ∧ env.enabled = true) ?_ fun _ => ?_
  · exact triple_require (fun _ hw _ => hw) fun w hw _ => herror w _ hw.1
  refine triple_modify fun w hw => ?_
  split
  next hseal => exact hok w none hw.1 (.withheld hseal)
  next hseal => exact hok w _ hw.1 (.written hseal hw.2)

theorem triple_persistLiveSession (hok : ∀ w record, P w →
      Saves env w (w.session.panes.map fun pane => (pane.id, pane.retained)) record →
      Q ⟨⟩ { w with record }) (herror : ∀ w e, P w → E e w) :
    Triple P (persistLiveSession env saved) Q E := by
  rw [persistLiveSession]
  refine triple_bind (Q := fun snapshots w => P w ∧
    snapshots = w.session.panes.map fun pane => (pane.id, pane.retained)) ?_ fun snapshots => ?_
  · exact triple_get fun w hw => ⟨hw, rfl⟩
  · refine triple_persistSession (fun w record hw hsaves => hok w record hw.1 ?_)
      fun w e hw => herror w e hw.1
    exact hw.2 ▸ hsaves

theorem triple_normalizeSharedState (env : Env) (saved : Bool) (w₀ : World V) :
    Triple (· = w₀) (normalizeSharedState env saved)
      (fun state w => ∃ isRepaired, Repaired w₀ isRepaired state w) (fun _ w => Broken w₀ w) := by
  rintro w rfl
  rw [normalizeSharedState_apply]
  cases hrepair : w.session.repair with
  | error e => exact .unrepaired (by rw [hrepair]; rfl)
  | ok result =>
    obtain ⟨isRepaired, state⟩ := result
    dsimp only
    refine (triple_bind (P := (· = { w with session := w.session.settled state }))
      (Q := fun _ t => Repaired w isRepaired state t) (E := fun _ t => Broken w t)
      (triple_when ?_ ?_) fun _ => triple_pure fun t ht => ⟨isRepaired, ht⟩) _ rfl
    · refine triple_fact ?_
      rintro rfl
      refine triple_bind (Q := fun _ t => ∃ record, t =
        { w with record, session := w.session.settled state })
        (triple_persistLiveSession ?_ ?_) fun _ => triple_modify ?_
      · rintro t record rfl -
        exact ⟨record, rfl⟩
      · rintro t e rfl
        exact .unsaved state hrepair
      · rintro t ⟨record, rfl⟩
        exact ⟨hrepair, rfl, rfl⟩
    · rintro t rfl rfl
      exact ⟨hrepair, rfl, rfl⟩

/-- The sizes that viewers reported are forgotten, those of relays apart. -/
def clearSharedSizeReports (panes : List Pane) : List Pane :=
  panes.map fun pane =>
    match pane.attachment with
    | .shared clients => { pane with
        attachment := .shared <| clients.map fun client =>
          if client.relayingFor = none then { client with size := none } else client }
    | _ => pane

/-- The state takes what has just been described of the session. -/
def Session.reshare (session : Session V) : Session V :=
  { session with sharedState := some { session.canonical with
      summary := { session.summary with id := session.id }
      state := session.state } }

/-- The session takes what has just been done to its canonical state. -/
def Session.withCanonical (session : Session V) (state : SharedSessionState V)
    (panes : List Pane) : Session V :=
  { session with
    summary := state.summary
    state := state.state
    sharedState := some state
    panes }

/-- The summary follows the verifier. -/
def Session.flagged (session : Session V) : Session V :=
  { session with summary := { session.summary with
      authenticationRequired := session.authentication.isSome } }

/-! ### Backgrounding, offering and scoping -/

/-- What has just been described becomes, once repaired, the canonical state. -/
def offer (env : Env) (repaired : Bool) : Request V PUnit := do
  edit Session.reshare
  let _ ← normalizeSharedState env repaired

/-- There is no canonical state any more. -/
def withdraw : Request V PUnit := edit fun session => { session with sharedState := none }

/-- How a request is answered, when it is not with an error. -/
inductive Reply (V : Type)
  | ok
  | snapshot (state : SharedSessionState V)
  | applied (state : SharedSessionState V)
  | conflict (state : SharedSessionState V)
  | spawned (mappings : List SharedDraftMapping) (state : SharedSessionState V)
  deriving DecidableEq

/-- Sends an answer, the last thing that a request does: one that cannot be sent is an error too. -/
def answer (env : Env) (reply : Reply V) : Request V (Reply V) := do
  Handler.require (fun _ => env.delivers) "writing the answer"
  return reply

structure DetachRequest (V : Type) where
  sessionId : ℕ
  summary : BackgroundSessionSummary
  state : V
  verifier : Option String
  keyEnvelope : Option String
  /-- The screens, by pane. -/
  snapshots : List (ℕ × List UInt8)

/-- The detaching client lets go of a pane, and leaves its screen. -/
def releasePane (clientProcessId : ℕ) (snapshots : List (ℕ × List UInt8)) (pane : Pane) : Pane :=
  let seed (pane : Pane) : Pane :=
    { pane with retained := (snapshots.lookup pane.id).getD pane.retained }
  match pane.attachment with
  | .exclusive holder | .revoking holder =>
    if holder = clientProcessId then seed pane.unhold.resumeReader else pane
  | .none => seed pane
  | .shared _ | .granting _ => pane

/-- What the detaching client says of the session. -/
def DetachRequest.describe (request : DetachRequest V) (caller : Caller) (session : Session V) :
    Session V :=
  { session with
    summary := { request.summary with id := session.id }
    state := request.state
    keep := true
    owner := if session.offered then session.owner else some caller.clientProcessId }

/-- Backgrounds a session. The flags are whether the disk takes a repair and the record. -/
def detach (env : Env) (request : DetachRequest V) (caller : Caller) (repaired saved : Bool) :
    Request V (Reply V) := do
  Handler.require (fun w => sessionControlAuthorized w.session caller.peerProcessId false)
    s!"session {request.sessionId} is protected and can only be detached by its owner or current holder"
  edit (request.describe caller)
  protect env request.verifier request.keyEnvelope caller.peerProcessId
  edit Session.flagged
  Handler.when (fun w => w.session.offered) (offer env repaired)
  edit fun session => { session with
    panes := session.panes.map (releasePane caller.clientProcessId request.snapshots) }
  persistSession env saved request.snapshots
  answer env .ok

structure ShareRequest (V : Type) where
  sessionId : ℕ
  summary : BackgroundSessionSummary
  state : V
  verifier : Option String
  keyEnvelope : Option String
  offered : Bool

/-- What may share a session, and when it may be scoped back. -/
def ShareRequest.permit (request : ShareRequest V) (caller : Caller) (session : Session V) :
    Except String Unit := do
  let holder :=
    if session.authentication.isSome then caller.peerProcessId else some caller.clientProcessId
  ensure (holder.any session.isHeldBy ∨ (session.authentication.isSome ∧
      sessionControlAuthorized session caller.peerProcessId caller.proven))
    s!"session {request.sessionId} cannot be shared by a client that is not showing it"
  match session.panes.find? fun pane => 1 < pane.viewers.length with
  | some pane =>
    ensure request.offered
      s!"this session is still open in {pane.viewers.length} windows, so it cannot be scoped back to one; close it in the others first"
  | none => .ok ()

/-- What the showing client says of the session. -/
def ShareRequest.describe (request : ShareRequest V) (caller : Caller) (session : Session V) :
    Session V :=
  { session with
    summary := { request.summary with id := session.id }
    state := request.state
    offered := request.offered
    owner := if request.offered then session.owner else some caller.clientProcessId }

/-- Offers, or withdraws, a session its client is still showing. -/
def share (env : Env) (request : ShareRequest V) (caller : Caller)
    (forgotten repaired saved : Bool) : Request V (Reply V) := do
  Handler.read fun w => request.permit caller w.session
  Handler.when (fun _ => !request.offered) (forgetPersistedSession forgotten)
  edit (request.describe caller)
  protect env request.verifier request.keyEnvelope caller.peerProcessId
  edit Session.flagged
  (if request.offered then do offer env repaired; persistLiveSession env saved else withdraw)
  answer env .ok

/-- Whether a stranger may still offer a protected session whose owner is gone. -/
def strandedSessionMayBeOffered (env : Env) (session : Session V) (shared replacesVerifier : Bool) :
    Bool :=
  shared && !replacesVerifier && !session.owner.any env.running

structure ScopeRequest where
  sessionId : ℕ
  shared : Bool
  verifier : Option String
  keyEnvelope : Option String
  streamOnly : Bool

def ScopeRequest.permit (env : Env) (request : ScopeRequest) (caller : Caller)
    (session : Session V) : Except String Unit := do
  ensure (∀ pane ∈ session.panes, pane.attachment = .none)
    s!"session {request.sessionId} is on screen; share or unshare it from the window showing it"
  ensure (sessionControlAuthorized session caller.peerProcessId caller.proven ∨
      (¬request.streamOnly ∧
        strandedSessionMayBeOffered env session request.shared request.verifier.isSome))
    s!"session {request.sessionId} is protected and can only be changed by its owner or current holder"

/-- Scopes a session that nobody shows to one process, or shares it with every process. -/
def setSessionScope (env : Env) (request : ScopeRequest) (caller : Caller)
    (repaired saved : Bool) : Request V (Reply V) := do
  Handler.read fun w => request.permit env caller w.session
  protect env request.verifier request.keyEnvelope caller.peerProcessId
  Handler.when (fun _ => request.verifier.isSome) (edit Session.flagged)
  Handler.require (fun w => request.shared || w.session.owner.any env.running)
    s!"session {request.sessionId} has no window to scope it back to; attach it first, and it becomes that window's again"
  edit fun session => { session with offered := request.shared }
  (if request.shared then offer env repaired else withdraw)
  persistLiveSession env saved
  answer env .ok

/-! ### Collaboration -/

/-- Who may collaborate on the session. -/
def admitShared (sessionId : ℕ) (caller : Caller) (session : Session V) : Except String Unit := do
  ensure session.offered s!"session {sessionId} is not offered for shared collaboration"
  ensure (sessionControlAuthorized session caller.peerProcessId caller.proven)
    s!"shared session {sessionId} is not authorized for this client"

/-- The canonical state, for a client that missed something. -/
def sharedSnapshot (env : Env) (sessionId : ℕ) (caller : Caller) (repaired : Bool) :
    Request V (Reply V) := do
  Handler.read fun w => admitShared sessionId caller w.session
  let state ← normalizeSharedState env repaired
  takeSnapshot state
  answer env (.snapshot state)

structure SharedOperationRequest (V : Type) where
  sessionId : ℕ
  baseRevision : ℕ
  operationId : SharedOperationId
  operation : SharedSessionOperation V

/-- The operations that replace more than they name, and so need the exact revision. -/
def exactRevision : SharedSessionOperation V → Bool
  | .replaceTab .. | .setLayout .. | .setTabState .. => true
  | _ => false

/-- What keeps an operation from being applied. -/
def failureMessage : Failure → String
  | .error message | .unexpected message => message

/-- Whether the daemon's panes are those that an operation describes. -/
def describesDaemonPanes (session : Session V) : SharedSessionOperation V → Bool
  | .replaceTab summary _ => summaryMatchesDaemonPanes summary session
  | _ => true

/-- The panes that are left of an operation: a closed one goes. -/
def panesAfter (operation : SharedSessionOperation V) (panes : List Pane) : List Pane :=
  match operation with
  | .closePane paneId => panes.eraseP (·.id = paneId)
  | _ => panes

/-- Applies one collaboration operation. What is applied is broadcast, and answered. -/
def applyShared (F : AreaArithmetic R) (env : Env) (request : SharedOperationRequest V)
    (caller : Caller) (repaired : Bool) : Request V (Reply V) := do
  Handler.read fun w => admitShared request.sessionId caller w.session
  let state ← normalizeSharedState env repaired
  if (state.receipt request.operationId).isSome then do
    takeSnapshot state
    answer env (.applied state)
  else if exactRevision request.operation ∧ state.revision ≠ request.baseRevision then do
    takeSnapshot state
    answer env (.conflict state)
  else do
    Handler.require (fun w => describesDaemonPanes w.session request.operation)
      "shared tab state must describe exactly the daemon pane set"
    match state.validateOperation F request.operation with
    | .error _ => do
      takeSnapshot state
      answer env (.conflict state)
    | .ok () => do
      let next ← Handler.read fun _ =>
        (state.applyOperation F request.operationId request.operation).mapError failureMessage
      edit fun session => { session.withCanonical next
          (panesAfter request.operation (clearSharedSizeReports session.panes)) with
        summary := { next.summary with id := session.id } }
      takeSnapshot next
      takeSnapshot next
      answer env (.applied next)

structure SharedSpawnRequest where
  sessionId : ℕ
  baseRevision : ℕ
  operationId : SharedOperationId
  program : Option String
  workingDirectory : Option String
  size : ℕ × ℕ

/-- The first check of a shared spawn. The secret is proved after it, with the lock released. -/
def beginSharedSpawn (request : SharedSpawnRequest) : Request V (Reply V) := do
  Handler.require (fun w => w.session.offered)
    s!"session {request.sessionId} is not offered for shared collaboration"
  return .ok

/-- The second one, before the process is started. Nothing keeps the session offered meanwhile. -/
def checkSharedSpawn (env : Env) (request : SharedSpawnRequest) (caller : Caller)
    (repaired : Bool) : Request V (Reply V) := do
  Handler.require (fun w => sessionControlAuthorized w.session caller.peerProcessId caller.proven)
    s!"shared session {request.sessionId} is not authorized for this client"
  let state ← normalizeSharedState env repaired
  if state.revision ≠ request.baseRevision then do
    takeSnapshot state
    answer env (.conflict state)
  else return .ok

/-- A pane that has just been created for sharing. -/
def sharedPane (sessionId paneId : ℕ) (size : ℕ × ℕ) : Pane where
  sessionId := sessionId
  id := paneId
  exited := false
  attachment := .shared []
  attachmentClientId := none
  size := size
  retained := []
  handedOver := none
  handoverWaiters := 0
  readerRunning := true

def spawnedPaneSummary (request : SharedSpawnRequest) (paneId : ℕ) : BackgroundPaneSummary where
  id := paneId
  label := s!"pane-{paneId}"
  profile := ""
  configuredCommand := ""
  application := request.program.getD ""
  foregroundCommand := none
  terminalTitle := none
  workingDirectory := request.workingDirectory
  state := .running
  exit := none

/-- The canonical state with a spawned pane beside the others. -/
def withSpawned (request : SharedSpawnRequest) (paneId : ℕ) (state : SharedSessionState V) :
    SharedSessionState V :=
  let layout := appendPane (some state.summary.layout) paneId
  SharedSessionState.recordReceipt { state with
    summary := { state.summary with
      panes := state.summary.panes ++ [spawnedPaneSummary request paneId]
      layout
      activePane := paneId }
    presentation := { state.presentation with layout, activePane := paneId }
    revision := nextRevision state.revision
    lastOperationId := some request.operationId } ⟨request.operationId, []⟩

/-- Commits a shared spawn once its process has started. -/
def commitSharedSpawn (env : Env) (request : SharedSpawnRequest) (paneId : ℕ) (repaired : Bool) :
    Request V (Reply V) := do
  Handler.require (fun w => w.session.offered)
    s!"session {request.sessionId} is not offered for shared collaboration"
  let state ← normalizeSharedState env repaired
  if state.revision ≠ request.baseRevision then do
    takeSnapshot state
    answer env (.conflict state)
  else do
    let next := withSpawned request paneId state
    edit fun session => session.withCanonical next (clearSharedSizeReports
      (session.panes ++ [sharedPane session.id paneId request.size]))
    takeSnapshot next
    takeSnapshot next
    answer env (.spawned [] next)

inductive SharedDraftLayout
  | existing (paneId : ℕ)
  | draft (draftId : ℕ)
  | split (axis : String) (firstRatio : UInt16) (first second : SharedDraftLayout)

inductive SharedPaneRef
  | existing (paneId : ℕ)
  | draft (draftId : ℕ)

structure SharedPaneDraft where
  draftId : ℕ
  metadata : BackgroundPaneSummary
  size : ℕ × ℕ

structure SharedSpawnBatchRequest where
  sessionId : ℕ
  baseRevision : ℕ
  operationId : SharedOperationId
  targetPaneId : Option ℕ
  replacement : SharedDraftLayout
  panes : List SharedPaneDraft
  activePane : Option SharedPaneRef

/-- The pane that a draft has become. -/
def mappedPane (mappings : List SharedDraftMapping) (draftId : ℕ) : Option ℕ :=
  (mappings.find? (·.draftId = draftId)).map (·.paneId)

def resolveDraftLayout (mappings : List SharedDraftMapping) :
    SharedDraftLayout → Except String BackgroundPaneLayout
  | .existing paneId => .ok (.pane paneId)
  | .draft draftId =>
    match mappedPane mappings draftId with
    | some paneId => .ok (.pane paneId)
    | none => .error s!"layout references unknown draft {draftId}"
  | .split axis firstRatio first second => do
    ensure (axis = "horizontal" ∨ axis = "vertical") s!"invalid split axis {axis}"
    ensure (0 < firstRatio ∧ firstRatio < BACKGROUND_PANE_SPLIT_RATIO_SCALE) "invalid split ratio"
    let first ← resolveDraftLayout mappings first
    let second ← resolveDraftLayout mappings second
    return .split axis firstRatio first second

/-- Puts a layout in the place of the first leaf of an id, if there is one. -/
def replaceLayoutTarget (target : ℕ) (replacement : BackgroundPaneLayout) :
    BackgroundPaneLayout → Option BackgroundPaneLayout
  | .pane paneId => if paneId = target then some replacement else none
  | .split axis firstRatio first second =>
    match replaceLayoutTarget target replacement first with
    | some first => some (.split axis firstRatio first second)
    | none => (replaceLayoutTarget target replacement second).map (.split axis firstRatio first ·)

def SharedSpawnBatchRequest.validate (request : SharedSpawnBatchRequest) : Except String Unit := do
  ensure (request.panes ≠ []) "a shared spawn batch must contain a pane"
  ensure ((sortIds (request.panes.map (·.draftId))).IsChain (· ≠ ·))
    "shared draft pane IDs must be unique"

/-- What a batch, or a copy of it, is told when its receipt is there. -/
def retried (state : SharedSessionState V) (receipt : SharedOperationReceipt) :
    Request V (Reply V) := do
  takeSnapshot state
  return .spawned receipt.draftMappings state

/-- Checks a batch before its processes are started. -/
def checkSharedBatch (env : Env) (request : SharedSpawnBatchRequest) (caller : Caller)
    (repaired : Bool) : Request V (Reply V) := do
  Handler.read fun _ => request.validate
  Handler.read fun w => admitShared request.sessionId caller w.session
  let state ← normalizeSharedState env repaired
  match state.receipt request.operationId with
  | some receipt => retried state receipt >>= answer env
  | none =>
    if request.targetPaneId = none ∧ state.revision ≠ request.baseRevision then do
      takeSnapshot state
      answer env (.conflict state)
    else return .ok

/-- The processes of a batch, each with its pane. -/
def draftMappings (request : SharedSpawnBatchRequest) (paneIds : List ℕ) :
    List SharedDraftMapping :=
  List.zipWith (fun draft paneId => ⟨draft.draftId, paneId⟩) request.panes paneIds

/-- What a draft is described as once it runs. -/
def draftSummary (draft : SharedPaneDraft) (paneId : ℕ) : BackgroundPaneSummary :=
  { draft.metadata with id := paneId, state := .running, exit := none }

/-- The focus that a batch asks for. -/
def nextActivePane (request : SharedSpawnBatchRequest) (mappings : List SharedDraftMapping)
    (state : SharedSessionState V) : Except String ℕ :=
  match request.activePane with
  | some (.existing paneId) => .ok paneId
  | some (.draft draftId) =>
    match mappedPane mappings draftId with
    | some paneId => .ok paneId
    | none => .error s!"active pane references unknown draft {draftId}"
  | none => .ok state.presentation.activePane

/-- The checks of a layout that a batch is about to put in place, and the focus in it. -/
def checkNextLayout (request : SharedSpawnBatchRequest) (mappings : List SharedDraftMapping)
    (state : SharedSessionState V) (session : Session V) (layout : BackgroundPaneLayout) :
    Except String ℕ := do
  ensure (layoutPaneIds layout).Nodup "shared layout contains a pane more than once"
  ensure (∀ mapping ∈ mappings, mapping.paneId ∈ layoutPaneIds layout)
    "every spawned draft must appear exactly once in the replacement layout"
  ensure (∀ paneId ∈ layoutPaneIds layout,
      paneId ∈ session.panes.map (·.id) ∨ paneId ∈ mappings.map (·.paneId))
    "shared layout references a pane the daemon does not hold"
  let activePane ← nextActivePane request mappings state
  ensure (activePane ∈ layoutPaneIds layout) "active shared pane is not in the layout"
  return activePane

/-- The canonical state that a batch leaves. -/
def withBatch (request : SharedSpawnBatchRequest) (paneIds : List ℕ)
    (layout : BackgroundPaneLayout) (activePane : ℕ) (state : SharedSessionState V) :
    SharedSessionState V :=
  let removed := (layoutPaneIds state.presentation.layout).filter (· ∉ layoutPaneIds layout)
  SharedSessionState.recordReceipt { state with
    summary := { state.summary with
      panes := (state.summary.panes ++ List.zipWith draftSummary request.panes paneIds).filter
        (·.id ∉ removed)
      layout
      activePane }
    presentation := {
      layout
      activePane
      minimizedPanes := state.presentation.minimizedPanes.filter (· ∉ removed)
      maximizedPane := state.presentation.maximizedPane.filter (· ∉ removed) }
    revision := nextRevision state.revision
    lastOperationId := some request.operationId }
    ⟨request.operationId, draftMappings request paneIds⟩

/-- Commits a batch once its processes have started, in these panes. -/
def commitSharedBatch (env : Env) (request : SharedSpawnBatchRequest) (paneIds : List ℕ)
    (replacement : BackgroundPaneLayout) (caller : Caller) (repaired : Bool) :
    Request V (Reply V) := do
  Handler.require (fun w => sessionControlAuthorized w.session caller.peerProcessId caller.proven)
    s!"shared session {request.sessionId} is not authorized for this client"
  let state ← normalizeSharedState env repaired
  match state.receipt request.operationId with
  | some receipt => retried state receipt
  | none =>
    let nextLayout :=
      match request.targetPaneId with
      | some target => replaceLayoutTarget target replacement state.presentation.layout
      | none => if state.revision = request.baseRevision then some replacement else none
    match nextLayout with
    | none => do
      takeSnapshot state
      return .conflict state
    | some layout => do
      let mappings := draftMappings request paneIds
      let activePane ← Handler.read fun w =>
        checkNextLayout request mappings state w.session layout
      let removed := (layoutPaneIds state.presentation.layout).filter (· ∉ layoutPaneIds layout)
      let next := withBatch request paneIds layout activePane state
      edit fun session =>
        let added := List.zipWith (fun draft paneId => sharedPane session.id paneId draft.size)
          request.panes paneIds
        session.withCanonical next
          (clearSharedSizeReports ((session.panes ++ added).filter (·.id ∉ removed)))
      takeSnapshot next
      takeSnapshot next
      return .spawned mappings next

/-! ### What leaves the session alone -/

variable {I : Session V → Prop}

theorem keeps_takeSnapshot (state : SharedSessionState V) :
    Keeps (fun w => I w.session) (takeSnapshot state) :=
  keeps_modify fun _ => id

theorem keeps_persistSession (env : Env) (saved : Bool) (snapshots : List (ℕ × List UInt8)) :
    Keeps (fun w => I w.session) (persistSession env saved snapshots) :=
  triple_persistSession (fun _ _ h _ => h) fun _ _ => id

theorem keeps_persistLiveSession (env : Env) (saved : Bool) :
    Keeps (fun w => I w.session) (persistLiveSession env saved) :=
  triple_persistLiveSession (fun _ _ h _ => h) fun _ _ => id

theorem triple_answer {P : World V → Prop} {Q : Reply V → World V → Prop}
    {E : String → World V → Prop} {env : Env} {reply : Reply V} (hok : ∀ w, P w → Q reply w)
    (herror : ∀ w e, P w → E e w) : Triple P (answer env reply) Q E :=
  triple_bind (Q := fun _ => P)
    (triple_require (fun _ hw _ => hw) fun w hw _ => herror w _ hw) fun _ =>
      triple_pure hok

theorem keeps_answer {P : World V → Prop} (env : Env) (reply : Reply V) :
    Keeps P (answer env reply) := triple_answer (fun _ => id) fun _ _ => id

theorem keeps_edit {f : Session V → Session V} (h : ∀ session, I session → I (f session)) :
    Keeps (fun w => I w.session) (edit f) :=
  keeps_modify fun w hw => h w.session hw

end Zetta.Zmux.Server.Control
