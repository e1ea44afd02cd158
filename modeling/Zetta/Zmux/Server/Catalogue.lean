import Zetta.Zmux.Server.Registry

/-!
# What the catalogue reveals

The daemon publishes a summary of each session that can be attached, to whoever can read the
catalogue or ask for the list. The summary of a protected session is to say no more than that it
is there. What decides is not the verifier but a flag in the summary, which clients send.

* `Flagged` is the invariant that carries the flag, and `keeps_handler` the step: each handler
  keeps it, if the summaries that it is sent are `Faithful`.
* `hides_of_run`: in every run from an empty daemon whose steps are faithful, no protected session
  is described, and daemons that differ in no more than such descriptions publish the same.
* `shown_after_replacing`: a whole-tab replacement whose summary does not ask for authentication
  lays a protected session open.
-/

namespace Zetta.Zmux.Server.Control

open Handler

variable {V R : Type} {F : AreaArithmetic R}

/-- What is published under an id, and what the list answers. -/
def published (registry : Registry V) (sessionId : ℕ) : Option BackgroundSessionSummary :=
  (registry sessionId).bind fun w =>
    if w.session.isAvailable then some (forPublicCatalog (catalogSummary w.session)) else none

/-- A placeholder: nothing of the session is described. -/
structure Hides (summary : BackgroundSessionSummary) : Prop where
  title : summary.title = "Protected session"
  activePane : summary.activePane = 0
  layout : summary.layout = .pane 0
  panes : summary.panes = []

/-- The sessions differ in their title, panes and layout at most, and only if protected. What is
to be seen of them otherwise is the same. -/
structure Alike (session session' : Session V) : Prop where
  id : session.id = session'.id
  authentication : session.authentication = session'.authentication
  keyEnvelope : session.keyEnvelope = session'.keyEnvelope
  offered : session.offered = session'.offered
  owner : session.owner = session'.owner
  isHeld : session.isHeld = session'.isHeld
  isAvailable : session.isAvailable = session'.isAvailable
  unprotected : session.authentication = none → session = session'

/-! ### The flag -/

/-- The summary is the session's, and asks for authentication if there is a verifier. -/
structure Flagged (session : Session V) : Prop where
  id : session.summary.id = session.id
  flag : session.authentication.isSome = true → session.summary.authenticationRequired = true

variable {session : Session V}

/-- The catalogue's summary is flagged as the session's is. -/
theorem catalogSummary_of_flagged (h : Flagged session) :
    (catalogSummary session).id = session.id ∧
      (catalogSummary session).authenticationRequired = session.summary.authenticationRequired := by
  rw [catalogSummary]
  split
  next live hlive =>
    obtain ⟨activePane, layout, panes, rfl⟩ := reconciles_of_daemonPanes hlive
    exact ⟨rfl, rfl⟩
  next => exact ⟨h.id, rfl⟩

/-- The whole of what is published of a protected session. -/
theorem forPublicCatalog_of_flagged (h : Flagged session)
    (hprotected : session.authentication.isSome = true) :
    forPublicCatalog (catalogSummary session) =
      ⟨session.id, "Protected session", true, 0, .pane 0, [], session.isHeld,
        if session.offered then none else session.owner, session.keyEnvelope⟩ := by
  obtain ⟨hid, hflag⟩ := catalogSummary_of_flagged h
  rw [h.flag hprotected] at hflag
  rw [forPublicCatalog, if_pos hflag, hid, hflag]
  rfl

/-- **Alike** sessions that are flagged are published alike. -/
theorem forPublicCatalog_of_alike {session' : Session V} (h : Flagged session)
    (h' : Flagged session') (halike : Alike session session') :
    forPublicCatalog (catalogSummary session) = forPublicCatalog (catalogSummary session') := by
  cases hauthentication : session.authentication with
  | none => rw [halike.unprotected hauthentication]
  | some verifier =>
    have hprotected : session.authentication.isSome = true := by rw [hauthentication]; rfl
    have hprotected' := halike.authentication ▸ hprotected
    rw [forPublicCatalog_of_flagged h hprotected, forPublicCatalog_of_flagged h' hprotected',
      halike.id, halike.isHeld, halike.offered, halike.owner, halike.keyEnvelope]

/-! ### Every handler keeps the flag -/

/-- A repair leaves the flag, and the state it returns has the session's summary. -/
theorem triple_normalize_flagged (env : Env) (saved : Bool) (w₀ : World V)
    (h : Flagged w₀.session) :
    Triple (· = w₀) (normalizeSharedState env saved)
      (fun state w => (Flagged w.session ∧ state.summary = w.session.summary ∧
        w.session.authentication = w₀.session.authentication ∧
        w.session.livePaneIds = w₀.session.livePaneIds) ∧
        ∃ isRepaired, w₀.session.repair = .ok (isRepaired, state))
      (fun _ w => Flagged w.session) := by
  have hlive : ∀ {live sharedState}, Reconciles w₀.session live →
      Flagged { w₀.session with summary := live, sharedState } := by
    rintro live sharedState ⟨activePane, layout, panes, rfl⟩
    exact ⟨rfl, h.flag⟩
  refine (triple_normalizeSharedState env saved w₀).mono (fun _ => id) ?_ ?_
  · rintro state w ⟨isRepaired, hrepaired⟩
    rw [hrepaired.session]
    exact ⟨⟨hlive (reconciles_repair hrepaired.repair), rfl, rfl, rfl⟩, isRepaired,
      hrepaired.repair⟩
  · rintro e w hbroken
    cases hbroken with
    | unrepaired _ =>
      change Flagged w₀.session.reconciled
      rcases reconciled_cases w₀.session with hsame | ⟨live, hreconciles, hdescribed⟩
      · rw [hsame]
        exact h
      · rw [hdescribed]
        exact hlive hreconciles
    | unsaved state hrepair => exact hlive (reconciles_repair hrepair)

theorem triple_normalize_keeps (env : Env) (saved : Bool) :
    Triple (fun w : World V => Flagged w.session) (normalizeSharedState env saved)
      (fun state w => Flagged w.session ∧ state.summary = w.session.summary)
      (fun _ w => Flagged w.session) :=
  triple_forall fun w₀ h => (triple_normalize_flagged env saved w₀ h).mono
    (fun _ => id) (fun _ _ hw => ⟨hw.1.1, hw.1.2.1⟩) fun _ _ => id

/-- Whatever it does, a flagged session stays flagged. -/
abbrev KeepsFlag (V : Type) {α : Type} (m : Request V α) : Prop :=
  Keeps (fun w : World V => Flagged w.session) m

theorem keeps_normalize (env : Env) (saved : Bool) :
    KeepsFlag V (normalizeSharedState env saved) :=
  (triple_normalize_keeps env saved).mono (fun _ => id) (fun _ _ hw => hw.1) fun _ _ => id

theorem keeps_offer (env : Env) (repaired : Bool) :
    KeepsFlag V (offer env repaired) := by
  refine keeps_bind (keeps_edit fun session hs => ⟨hs.id, hs.flag⟩) fun _ => ?_
  exact keeps_bind (keeps_normalize env repaired) fun _ => keeps_pure _

theorem keeps_withdraw : KeepsFlag V withdraw :=
  keeps_edit fun _ hs => ⟨hs.id, hs.flag⟩

variable {env : Env}

/-- A request that fails on its verifier leaves a flagged session, if it finds one; without a
verifier a flagged session stays so. -/
theorem triple_protect_flagged {verifier keyEnvelope : Option String} {peerProcessId : Option ℕ}
    {N : Prop} (hN : N → verifier = none) :
    Triple
      (fun w : World V => w.session.summary.id = w.session.id ∧
        (BadVerifier env verifier → Flagged w.session) ∧ (N → Flagged w.session))
      (protect env verifier keyEnvelope peerProcessId)
      (fun _ w => w.session.summary.id = w.session.id ∧ (N → Flagged w.session))
      (fun _ w => Flagged w.session) := by
  cases verifier with
  | none => exact triple_pure fun w hw => ⟨hw.1, hw.2.2⟩
  | some text =>
    rw [protect]
    refine triple_bind (Q := fun _ w => w.session.summary.id = w.session.id)
      (triple_require (fun w hw _ => hw.1) fun w hw hbad => hw.2.1 ⟨text, rfl, hbad⟩)
      fun _ => ?_
    refine triple_bind (Q := fun _ w => w.session.summary.id = w.session.id)
      (triple_modify fun w hw => hw) fun _ => ?_
    refine triple_bind (Q := fun _ w => w.session.summary.id = w.session.id)
      (triple_modify fun w hw => hw) fun _ => triple_modify fun w hw => ?_
    have hid : w.session.summary.id = w.session.id := hw
    split
    · exact ⟨hid, fun hn => nomatch hN hn⟩
    · exact ⟨hid, fun hn => nomatch hN hn⟩

/-- The flag follows the verifier. -/
theorem flagged_flagged (h : session.summary.id = session.id) :
    Flagged session.flagged where
  id := h
  flag h := h

/-! ### One handler after the other -/

/-- What a whole-tab replacement finds that is carried out. -/
structure Replaces (F : AreaArithmetic R) (session : Session V) (caller : Caller)
    (request : SharedOperationRequest V) (summary : BackgroundSessionSummary) (payload : V) :
    Prop where
  operation : request.operation = .replaceTab summary payload
  admitted : admitShared request.sessionId caller session = .ok ()
  describes : summaryMatchesDaemonPanes summary session = true
  valid : ∃ isRepaired state, session.repair = .ok (isRepaired, state) ∧
    state.receipt request.operationId = none ∧ state.revision = request.baseRevision ∧
    state.validateOperation F request.operation = .ok ()

/-- The summaries that a client sends of a protected session ask for authentication: all that are
applied, and those of requests that fail on their verifier. -/
def Faithful (F : AreaArithmetic R) (w : World V) (env : Env) : Event V → Prop
  | .detach request caller _ _ =>
    sessionControlAuthorized w.session caller.peerProcessId false = true →
    BadVerifier env request.verifier → w.session.authentication.isSome = true →
    request.summary.authenticationRequired = true
  | .share request caller forgotten _ _ =>
    request.permit caller w.session = .ok () →
    (request.offered = true ∨ w.record.isSome = false ∨ forgotten = true) →
    BadVerifier env request.verifier → w.session.authentication.isSome = true →
    request.summary.authenticationRequired = true
  | .applyShared request caller _ =>
    ∀ summary payload, Replaces F w.session caller request summary payload →
    w.session.authentication.isSome = true → summary.authenticationRequired = true
  | _ => True

/-- A verifier in a restored record comes with a summary that asks for authentication. -/
def Opening.Faithful (env : Env) : Opening V → Prop
  | .restored request _ _ _ =>
    request.verifier.all env.accepts = true → request.verifier.isSome = true →
    request.summary.authenticationRequired = true
  | _ => True

variable {caller : Caller} {repaired : Bool} {w₀ : World V}

theorem keeps_detach {request : DetachRequest V} {saved : Bool} (h : Flagged w₀.session)
    (hfaithful : Faithful F w₀ env (.detach request caller repaired saved)) :
    Triple (· = w₀) (detach env request caller repaired saved)
      (fun _ w => Flagged w.session) (fun _ w => Flagged w.session) := by
  rw [detach]
  refine triple_bind (Q := fun _ w => w = w₀ ∧
      sessionControlAuthorized w₀.session caller.peerProcessId false = true)
    (triple_require ?_ ?_) fun _ => triple_fact fun hadmitted => ?_
  · rintro w rfl hauthorized
    exact ⟨rfl, hauthorized⟩
  · rintro w rfl -
    exact h
  refine triple_bind (Q := fun _ w => w.session.summary.id = w.session.id ∧
      (BadVerifier env request.verifier → Flagged w.session) ∧ (False → Flagged w.session))
    (triple_modify ?_) fun _ => ?_
  · rintro w rfl
    exact ⟨rfl, fun hbad => ⟨rfl, hfaithful hadmitted hbad⟩, False.elim⟩
  refine triple_bind (triple_protect_flagged False.elim) fun _ => ?_
  refine triple_bind (Q := fun _ w => Flagged w.session)
    (triple_modify fun w hw => flagged_flagged hw.1) fun _ => ?_
  refine keeps_bind (keeps_when (keeps_offer env repaired)) fun _ => ?_
  refine keeps_bind (keeps_edit fun session hs => ⟨hs.id, hs.flag⟩) fun _ => ?_
  exact keeps_bind (keeps_persistSession env saved _) fun _ => keeps_answer env _

theorem keeps_share {request : ShareRequest V} {forgotten saved : Bool} (h : Flagged w₀.session)
    (hfaithful : Faithful F w₀ env (.share request caller forgotten repaired saved)) :
    Triple (· = w₀) (share env request caller forgotten repaired saved)
      (fun _ w => Flagged w.session) (fun _ w => Flagged w.session) := by
  rw [share]
  refine triple_bind (Q := fun _ w => w = w₀ ∧ request.permit caller w₀.session = .ok ())
    (triple_read ?_ ?_) fun _ => triple_fact fun hadmitted => ?_
  · rintro w _ rfl hadmitted
    exact ⟨rfl, hadmitted⟩
  · rintro w e rfl -
    exact h
  -- The record goes first; the request fails if it does not.
  refine triple_bind (Q := fun _ w => w.session = w₀.session ∧
      (request.offered = true ∨ w₀.record.isSome = false ∨ forgotten = true))
    (triple_when (triple_when ?_ ?_) ?_) fun _ => triple_fact fun hforgot => ?_
  · refine triple_bind (Q := fun _ w => w = w₀ ∧ forgotten = true)
      (triple_require ?_ ?_) fun _ => triple_modify ?_
    · rintro w ⟨⟨rfl, -⟩, -⟩ hforgotten
      exact ⟨rfl, hforgotten⟩
    · rintro w ⟨⟨rfl, -⟩, -⟩ -
      exact h
    · rintro w ⟨rfl, hforgotten⟩
      exact ⟨rfl, .inr (.inr hforgotten)⟩
  · rintro w ⟨rfl, -⟩ hrecord
    exact ⟨rfl, .inr (.inl hrecord)⟩
  · rintro w rfl hoffered
    exact ⟨rfl, .inl (by simpa using hoffered)⟩
  refine triple_bind (Q := fun _ w => w.session.summary.id = w.session.id ∧
      (BadVerifier env request.verifier → Flagged w.session) ∧ (False → Flagged w.session))
    (triple_modify ?_) fun _ => ?_
  · rintro w hsession
    refine ⟨rfl, fun hbad => ⟨rfl, fun hprotected => ?_⟩, False.elim⟩
    exact hfaithful hadmitted hforgot hbad (hsession ▸ hprotected)
  refine triple_bind (triple_protect_flagged False.elim) fun _ => ?_
  refine triple_bind (Q := fun _ w => Flagged w.session)
    (triple_modify fun w hw => flagged_flagged hw.1) fun _ => ?_
  refine keeps_bind (triple_ite (fun _ => ?_) fun _ => keeps_withdraw) fun _ =>
    keeps_answer env _
  exact keeps_bind (keeps_offer env repaired) fun _ => keeps_persistLiveSession env saved

theorem keeps_setSessionScope (env : Env) (request : ScopeRequest) (caller : Caller)
    (repaired saved : Bool) :
    KeepsFlag V (setSessionScope env request caller repaired saved) := by
  rw [setSessionScope]
  refine keeps_bind (keeps_read _) fun _ => ?_
  refine triple_bind ((triple_protect_flagged (N := request.verifier = none) id).mono
    (fun w hw => ⟨hw.id, fun _ => hw, fun _ => hw⟩) (fun _ _ => id) fun _ _ => id) fun _ => ?_
  refine triple_bind (Q := fun _ w => Flagged w.session) (triple_when ?_ ?_)
    fun _ => ?_
  · exact triple_modify fun w hw => flagged_flagged hw.1.1
  · rintro w hw hnone
    exact hw.2 (by simpa using hnone)
  refine keeps_bind (keeps_read _) fun _ => ?_
  refine keeps_bind (keeps_edit fun session hs => ⟨hs.id, hs.flag⟩) fun _ => ?_
  refine keeps_bind (triple_ite (fun _ => keeps_offer env repaired) fun _ =>
    keeps_withdraw) fun _ => ?_
  exact keeps_bind (keeps_persistLiveSession env saved) fun _ => keeps_answer env _

/-- A canonical state with the session's own summary, but for what follows from its panes. -/
theorem flagged_withCanonical {state : SharedSessionState V} {panes : List Pane}
    (h : Flagged session) (hid : state.summary.id = session.summary.id)
    (hflag : state.summary.authenticationRequired = session.summary.authenticationRequired) :
    Flagged (session.withCanonical state panes) where
  id := hid.trans h.id
  flag hprotected := hflag.trans (h.flag hprotected)

variable (state : SharedSessionState V) {m : Request V (Reply V)}

/-- A snapshot is taken on the way. -/
theorem keeps_taken (hm : KeepsFlag V m) : KeepsFlag V (do takeSnapshot state; m) :=
  keeps_bind (keeps_takeSnapshot state) fun _ => hm

theorem keeps_answerWith (env : Env) (reply : Reply V) :
    KeepsFlag V (do takeSnapshot state; answer env reply) :=
  keeps_taken state (keeps_answer env reply)

theorem keeps_sharedSnapshot (env : Env) (sessionId : ℕ) (caller : Caller) (repaired : Bool) :
    KeepsFlag V (sharedSnapshot env sessionId caller repaired) := by
  refine keeps_bind (keeps_read _) fun _ => ?_
  exact keeps_bind (keeps_normalize env repaired) fun state => keeps_answerWith state env _

theorem keeps_applyShared {request : SharedOperationRequest V} (h : Flagged w₀.session)
    (hfaithful : Faithful F w₀ env (.applyShared request caller repaired)) :
    Triple (· = w₀) (applyShared F env request caller repaired)
      (fun _ w => Flagged w.session) (fun _ w => Flagged w.session) := by
  rw [applyShared]
  refine triple_bind
    (Q := fun _ w => w = w₀ ∧ admitShared request.sessionId caller w₀.session = .ok ())
    (triple_read ?_ ?_) fun _ => triple_fact fun hadmitted => ?_
  · rintro w _ rfl hadmitted
    exact ⟨rfl, hadmitted⟩
  · rintro w e rfl -
    exact h
  refine triple_bind (triple_normalize_flagged env repaired w₀ h) fun state =>
    triple_fact ?_
  rintro ⟨isRepaired, hrepair⟩
  refine triple_ite (fun _ => ?_) fun hreceipt => ?_
  · exact (keeps_answerWith state env _).mono (fun _ hw => hw.1) (fun _ _ => id) fun _ _ => id
  refine triple_ite (fun _ => ?_) fun hexact => ?_
  · exact (keeps_answerWith state env _).mono (fun _ hw => hw.1) (fun _ _ => id) fun _ _ => id
  refine triple_bind (Q := fun _ w => (Flagged w.session ∧
      state.summary = w.session.summary ∧ w.session.authentication = w₀.session.authentication) ∧
      describesDaemonPanes w₀.session request.operation = true)
    (triple_require ?_ fun w hw _ => hw.1) fun _ => triple_fact fun hdescribes => ?_
  · rintro w ⟨hflagged, hsummary, hauthentication, hlive⟩ hdescribes
    refine ⟨⟨hflagged, hsummary, hauthentication⟩, ?_⟩
    cases hoperation : request.operation with
    | replaceTab summary payload =>
      rw [hoperation] at hdescribes
      rwa [describesDaemonPanes, summaryMatchesDaemonPanes, hlive] at hdescribes
    | _ => rfl
  split
  · exact (keeps_answerWith state env _).mono (fun _ hw => hw.1) (fun _ _ => id) fun _ _ => id
  next hvalid =>
  refine triple_bind (Q := fun next w => (Flagged w.session ∧
      state.summary = w.session.summary ∧ w.session.authentication = w₀.session.authentication) ∧
      state.applyOperation F request.operationId request.operation = .ok next)
    (triple_read ?_ fun w _ hw _ => hw.1) fun next => triple_fact fun hnext => ?_
  · rintro w next hw happly
    refine ⟨hw, ?_⟩
    cases happlied : state.applyOperation F request.operationId request.operation with
    | error e => rw [happlied] at happly; cases happly
    | ok applied => rw [happlied] at happly; exact congrArg _ (Except.ok.inj happly)
  refine triple_bind (Q := fun _ (w : World V) => Flagged w.session)
    (triple_modify ?_) fun _ => keeps_taken next (keeps_answerWith next env _)
  -- The session takes the flag of the operation, which is faithful.
  rintro w ⟨hflagged, hsummary, hauthentication⟩
  refine ⟨rfl, fun hprotected => ?_⟩
  have hflag := (SharedSessionState.frame_applyOperation hnext).flag
  rw [hsummary] at hflag
  refine hflag.trans ?_
  cases hoperation : request.operation with
  | replaceTab summary payload =>
    rw [hoperation] at hdescribes hexact hvalid
    refine hfaithful summary payload ⟨hoperation, hadmitted, hdescribes, isRepaired, state,
      hrepair, ?_, ?_, ?_⟩ (hauthentication ▸ hprotected)
    · simpa using hreceipt
    · exact not_not.mp fun hne => hexact ⟨rfl, hne⟩
    · rw [hoperation]; exact hvalid
  | _ => exact hflagged.flag hprotected

theorem keeps_checkSharedSpawn (env : Env) (request : SharedSpawnRequest) (caller : Caller)
    (repaired : Bool) :
    KeepsFlag V (checkSharedSpawn env request caller repaired) := by
  refine keeps_bind (keeps_read _) fun _ => ?_
  refine keeps_bind (keeps_normalize env repaired) fun state => ?_
  exact triple_ite (fun _ => keeps_answerWith state env _) fun _ => keeps_pure _

/-- The canonical state that is put in place is the session's, but for its panes. -/
theorem keeps_commit {next : SharedSessionState V} {panes : Session V → List Pane}
    (hm : KeepsFlag V m)
    (hid : next.summary.id = state.summary.id)
    (hflag : next.summary.authenticationRequired = state.summary.authenticationRequired) :
    Triple (fun w => Flagged w.session ∧ state.summary = w.session.summary)
      (do
        edit fun session => session.withCanonical next (panes session)
        takeSnapshot next
        takeSnapshot next
        m)
      (fun _ w => Flagged w.session) (fun _ w => Flagged w.session) := by
  refine triple_bind (Q := fun _ (w : World V) => Flagged w.session)
    (triple_modify ?_) fun _ => keeps_taken next (keeps_taken next hm)
  rintro w ⟨hflagged, hsummary⟩
  exact flagged_withCanonical hflagged (hsummary ▸ hid) (hsummary ▸ hflag)

theorem keeps_commitSharedSpawn (env : Env) (request : SharedSpawnRequest) (paneId : ℕ)
    (repaired : Bool) :
    KeepsFlag V (commitSharedSpawn env request paneId repaired) := by
  refine keeps_bind (keeps_read _) fun _ => ?_
  refine triple_bind (triple_normalize_keeps env repaired) fun state => ?_
  refine triple_ite (fun _ => ?_) fun _ =>
    keeps_commit state (keeps_answer env _) rfl rfl
  exact (keeps_answerWith state env _).mono (fun _ hw => hw.1) (fun _ _ => id) fun _ _ => id

theorem keeps_retried (receipt : SharedOperationReceipt) :
    KeepsFlag V (retried state receipt) :=
  keeps_taken state (keeps_pure _)

theorem keeps_checkSharedBatch (env : Env) (request : SharedSpawnBatchRequest) (caller : Caller)
    (repaired : Bool) :
    KeepsFlag V (checkSharedBatch env request caller repaired) := by
  refine keeps_bind (keeps_read _) fun _ => ?_
  refine keeps_bind (keeps_read _) fun _ => ?_
  refine keeps_bind (keeps_normalize env repaired) fun state => ?_
  split
  · exact keeps_bind (keeps_retried state _) fun reply => keeps_answer env reply
  · exact triple_ite (fun _ => keeps_answerWith state env _) fun _ => keeps_pure _

theorem keeps_commitSharedBatch (env : Env) (request : SharedSpawnBatchRequest)
    (paneIds : List ℕ) (replacement : BackgroundPaneLayout) (caller : Caller) (repaired : Bool) :
    KeepsFlag V (commitSharedBatch env request paneIds replacement caller repaired) := by
  have hanswer : ∀ (state : SharedSessionState V) reply,
      Triple (fun w => Flagged w.session ∧ state.summary = w.session.summary)
        (do takeSnapshot state; return reply)
        (fun _ w => Flagged w.session) (fun _ w => Flagged w.session) := fun state reply =>
    (keeps_taken state (keeps_pure reply)).mono (fun _ hw => hw.1) (fun _ _ => id) fun _ _ => id
  refine keeps_bind (keeps_read _) fun _ => ?_
  refine triple_bind (triple_normalize_keeps env repaired) fun state => ?_
  split
  · exact hanswer state _
  dsimp only
  split
  · exact hanswer state _
  · refine triple_bind (triple_read (fun _ _ hw _ => hw) fun _ _ hw _ => hw.1)
      fun activePane => ?_
    exact keeps_commit state (keeps_pure _) rfl rfl

/-- **One event** that is faithful keeps the flag. -/
theorem keeps_handler {event : Event V} {w : World V} (h : Flagged w.session)
    (hfaithful : Faithful F w env event) : Flagged ((event.handler F env) w).2.session := by
  have hkeeps : ∀ {m : Request V (Reply V)},
      KeepsFlag V m → Flagged (m w).2.session :=
    fun hm => hm.snd h
  have htriple : ∀ {m : Request V (Reply V)}, Triple (· = w) m
      (fun _ w => Flagged w.session) (fun _ w => Flagged w.session) → Flagged (m w).2.session := by
    intro m hm
    have hw := hm w rfl
    rcases hmw : m w with ⟨e | a, t⟩ <;> rwa [hmw] at hw
  cases event with
  | detach request caller repaired saved => exact htriple (keeps_detach h hfaithful)
  | share request caller forgotten repaired saved => exact htriple (keeps_share h hfaithful)
  | setSessionScope request caller repaired saved =>
    exact hkeeps (keeps_setSessionScope env request caller repaired saved)
  | sharedSnapshot sessionId caller repaired =>
    exact hkeeps (keeps_sharedSnapshot env sessionId caller repaired)
  | applyShared request caller repaired => exact htriple (keeps_applyShared h hfaithful)
  | beginSharedSpawn request =>
    exact hkeeps (keeps_bind (keeps_read _) fun _ => keeps_pure _)
  | checkSharedSpawn request caller repaired =>
    exact hkeeps (keeps_checkSharedSpawn env request caller repaired)
  | commitSharedSpawn request paneId repaired =>
    exact hkeeps (keeps_commitSharedSpawn env request paneId repaired)
  | checkSharedBatch request caller repaired =>
    exact hkeeps (keeps_checkSharedBatch env request caller repaired)
  | commitSharedBatch request paneIds replacement caller repaired =>
    exact hkeeps (keeps_bind
      (keeps_commitSharedBatch env request paneIds replacement caller repaired) fun reply =>
        keeps_answer env reply)
  | normalize repaired =>
    refine hkeeps (keeps_bind (keeps_when ?_) fun _ => keeps_pure _)
    exact keeps_bind (keeps_normalize env repaired) fun _ => keeps_pure _
  | upkeep change => exact ⟨h.id, h.flag⟩
  | upgrade => exact ⟨rfl, h.flag⟩

/-- **Opening** a session that is faithful flags it. -/
theorem flagged_world {sessionId : ℕ} {opening : Opening V} {w : World V}
    (hfaithful : opening.Faithful env) (h : opening.world env sessionId = .ok w) :
    Flagged w.session := by
  cases opening with
  | spawned owner pane null =>
    cases h
    exact ⟨rfl, fun hnone => Bool.noConfusion hnone⟩
  | restored request clientProcessId authorizedPeer pane =>
    simp only [Opening.world, restoredSession, check_bind_eq_ok, ensure_eq_ok] at h
    obtain ⟨-, h⟩ := h
    obtain ⟨session, hsession, h⟩ := bind_eq_ok.mp h
    obtain ⟨haccepts, hsession⟩ := check_bind_eq_ok.mp hsession
    cases h
    cases hsession
    exact ⟨rfl, hfaithful (ensure_eq_ok.mp haccepts)⟩
  | created request paneIds peerProcessId null saved =>
    obtain ⟨session, hsession, h⟩ := bind_eq_ok.mp h
    have hflagged : Flagged session := by
      simp only [createdSession, check_bind_eq_ok] at hsession
      obtain ⟨-, -, hsession⟩ := hsession
      obtain ⟨layout, -, hsession⟩ := bind_eq_ok.mp hsession
      obtain ⟨activePane, -, hsession⟩ := bind_eq_ok.mp hsession
      exact Except.ok.inj hsession ▸ ⟨rfl, id⟩
    have hsaved : Flagged (persistLiveSession env saved ⟨session, none, []⟩).2.session :=
      (keeps_persistLiveSession env saved).snd hflagged
    rcases hresult : persistLiveSession env saved ⟨session, none, []⟩ with ⟨result, w'⟩
    rw [hresult] at h hsaved
    obtain ⟨-, -, h⟩ := bind_eq_ok.mp h
    exact Except.ok.inj h ▸ hsaved

/-- The condition: clients send faithful summaries. -/
def faithful (F : AreaArithmetic R) : Condition V where
  start env opening := opening.Faithful env
  happen := Faithful F

/-- The daemon has come to these sessions by faithful steps. -/
def Reaches (F : AreaArithmetic R) (steps : List (Step V)) (registry : Registry V) : Prop :=
  Run (Meeting (Registry.Meets (faithful F)) fun r step r' => r.step F step = some r')
    (fun _ => none) steps registry

theorem flagged_of_reaches {steps : List (Step V)} {registry : Registry V}
    (h : Reaches F steps registry) :
    ∀ sessionId w, registry sessionId = some w → Flagged w.session :=
  Registry.invariant (fun _ _ _ _ => flagged_world) (fun _ _ _ => keeps_handler)
    (fun _ _ hnone => (Option.some_ne_none _ hnone.symm).elim) h

/-- **The catalogue** says nothing of a protected session, and daemons whose sessions are alike
publish the same, after all runs whose steps are faithful. -/
theorem hides_of_run {steps : List (Step V)} {registry : Registry V}
    (h : Reaches F steps registry) :
    (∀ sessionId w summary, registry sessionId = some w → w.session.authentication.isSome = true →
      published registry sessionId = some summary → Hides summary) ∧
    ∀ steps' registry', Reaches F steps' registry' →
      (∀ sessionId, Option.Rel (fun w w' => Alike w.session w'.session) (registry sessionId)
        (registry' sessionId)) → published registry = published registry' := by
  have hflagged := flagged_of_reaches h
  constructor
  · intro sessionId w summary hw hprotected hpublished
    rw [published, hw, Option.bind_some] at hpublished
    rw [forPublicCatalog_of_flagged (hflagged sessionId w hw) hprotected] at hpublished
    obtain ⟨-, hpublished⟩ := Option.ite_none_right_eq_some.mp hpublished
    cases hpublished
    exact ⟨rfl, rfl, rfl, rfl⟩
  · intro steps' registry' h' halike
    have hflagged' := flagged_of_reaches h'
    funext sessionId
    have hrel := halike sessionId
    rw [published, published]
    cases hw : registry sessionId with
    | none =>
      rw [hw] at hrel
      cases hw' : registry' sessionId with
      | none => rfl
      | some w' => rw [hw'] at hrel; cases hrel
    | some w =>
      rw [hw] at hrel
      cases hw' : registry' sessionId with
      | none => rw [hw'] at hrel; cases hrel
      | some w' =>
        rw [hw'] at hrel
        cases hrel with
        | some halike =>
          rw [Option.bind_some, Option.bind_some, halike.isAvailable,
            forPublicCatalog_of_alike (hflagged sessionId w hw) (hflagged' sessionId w' hw') halike]

/-! ### A whole-tab replacement -/

/-- A protected session with one pane. -/
def secret (title : String) : Opening ℕ :=
  .created
    ⟨⟨"c", 1⟩, title, .draft 0, [⟨0, SharedSessionState.plainPane 0, (80, 24)⟩], none, some "v"⟩
    [1] none 0 true

/-- The daemon that has it alone. -/
def secretly (title : String) : Registry ℕ :=
  Function.update (fun _ => none) 1 ((secret title).world plainEnv 1).toOption

/-- The tab of the session is replaced, and authentication is or is not asked for. -/
def replaced (authenticationRequired : Bool) : Step ℕ :=
  .happen 1 plainEnv (.applyShared
    ⟨1, 0, ⟨"c", 2⟩, .replaceTab ⟨1, "Secret", authenticationRequired, 1, .pane 1,
      [SharedSessionState.plainPane 1], false, none, none⟩ 0⟩ guest true)

theorem reaches_secretly (title : String) :
    Reaches AreaArithmetic.exact [.start 1 plainEnv (secret title)] (secretly title) :=
  .cons ⟨trivial, rfl⟩ (.nil _)

/-- A replacement that asks for authentication is faithful. -/
theorem reaches_replaced : ∃ registry,
    Reaches AreaArithmetic.exact [.start 1 plainEnv (secret "Secret"), replaced true] registry ∧
    ((registry 1).any fun w => w.session.authentication.isSome) = true ∧
    (published registry 1).isSome = true := by
  have hstep : ((Registry.step AreaArithmetic.exact (secretly "Secret") (replaced true)).any
      fun registry => ((registry 1).any fun w => w.session.authentication.isSome) &&
        (published registry 1).isSome) = true := by decide
  obtain ⟨registry, hregistry, hboth⟩ := (Option.any_eq_true _ _).mp hstep
  obtain ⟨hprotected, hpublished⟩ := Bool.and_eq_true_iff.mp hboth
  refine ⟨registry, (reaches_secretly "Secret").snoc ⟨fun w _ => ?_, hregistry⟩, hprotected,
    hpublished⟩
  intro summary payload hreplaces _
  obtain ⟨rfl, -⟩ := SharedSessionOperation.replaceTab.inj hreplaces.operation
  rfl

theorem hides_secretly : (∃ registry summary,
    Reaches AreaArithmetic.exact [.start 1 plainEnv (secret "Secret"), replaced true] registry ∧
      published registry 1 = some summary ∧ Hides summary) ∧
    published (secretly "Secret") = published (secretly "Other") := by
  constructor
  · obtain ⟨registry, hreaches, hprotected, hpublished⟩ := reaches_replaced
    obtain ⟨w, hw, hprotected⟩ := (Option.any_eq_true _ _).mp hprotected
    obtain ⟨summary, hsummary⟩ := Option.isSome_iff_exists.mp hpublished
    exact ⟨registry, summary, hreaches, hsummary,
      (hides_of_run hreaches).1 1 w summary hw hprotected hsummary⟩
  · refine (hides_of_run (reaches_secretly "Secret")).2 _ _ (reaches_secretly "Other")
      fun sessionId => ?_
    rcases eq_or_ne sessionId 1 with rfl | hne
    · exact .some ⟨rfl, rfl, rfl, rfl, rfl, rfl, rfl, fun hnone => nomatch hnone⟩
    · rw [secretly, secretly, Function.update_of_ne hne, Function.update_of_ne hne]
      exact .none

/-- After a replacement whose summary does not ask for authentication, a protected session is
published as it is. -/
theorem shown_after_replacing : ∃ registry : Registry ℕ,
    Run (fun r step r' => Registry.step AreaArithmetic.exact r step = some r') (fun _ => none)
      [.start 1 plainEnv (secret "Secret"), replaced false] registry ∧
    ∃ w summary, registry 1 = some w ∧ w.session.authentication.isSome = true ∧
      published registry 1 = some summary ∧ ¬Hides summary := by
  obtain ⟨registry, hrun, hprotected, hshown⟩ := exists_run_of_foldlM
    (f := Registry.step AreaArithmetic.exact)
    (P := fun r : Registry ℕ => ((r 1).any fun w => w.session.authentication.isSome) = true ∧
      ((published r 1).any fun summary => summary.title = "Secret") = true)
    [.start 1 plainEnv (secret "Secret"), replaced false] (s := fun _ => none) (by decide)
  obtain ⟨w, hw, hprotected⟩ := (Option.any_eq_true _ _).mp hprotected
  obtain ⟨summary, hsummary, htitle⟩ := (Option.any_eq_true _ _).mp hshown
  refine ⟨registry, hrun, w, summary, hw, hprotected, hsummary, fun hhides => ?_⟩
  rw [hhides.title] at htitle
  simp at htitle

end Zetta.Zmux.Server.Control
