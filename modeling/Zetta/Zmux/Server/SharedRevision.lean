import Zetta.Lib.Versions
import Zetta.Zmux.Server.Registry

/-!
# The revision of a shared session

Every snapshot of a canonical state that the daemon sends carries a revision, and a viewer that
has this revision takes the snapshot for what it has. The revision is advanced by what is applied
and by what is repaired. Detaching, offering and scoping put a summary and a payload in place as
well, and leave it to the repair to notice.

* `Identified` is the invariant, about all that has been taken to be sent. `settles_normalize` is
  the repair, `identified_step` the step.
* `identifies_of_run`: in every run whose steps are `Orderly` the revision identifies what has been
  sent, never goes back, and a viewer that follows it has what was sent last.
* `same_revision_after_sharing`: a session that is offered again under another title is sent under
  the revision that it had.
-/

namespace Zetta.Zmux.Server.Control

open Handler

variable {V R : Type} {F : AreaArithmetic R}

/-! ### What has been sent -/

/-- A session, and the snapshots of it that have been sent. Those that have been taken wait. -/
structure Broadcasts (V : Type) where
  world : World V
  sent : List (SharedSessionState V)

inductive Action (V : Type)
  | happen (env : Env) (event : Event V)
  /-- One of the snapshots that wait is sent: each by its own thread, once it has released the
  lock. -/
  | send (index : ℕ)
  /-- The connection that one of them is for is gone. -/
  | drop (index : ℕ)

def Broadcasts.step (F : AreaArithmetic R) (s : Broadcasts V) : Action V → Option (Broadcasts V)
  | .happen env event => some { s with world := ((event.handler F env) s.world).2 }
  | .send index =>
    s.world.taken[index]?.map fun snapshot =>
      ⟨{ s.world with taken := s.world.taken.eraseIdx index }, s.sent ++ [snapshot]⟩
  | .drop index => some { s with world := { s.world with taken := s.world.taken.eraseIdx index } }

abbrev revision : SharedSessionState V → ℕ := SharedSessionState.revision

/-- The revision identifies what is sent, in order, and whoever follows it misses nothing. -/
structure Identifies (sent : List (SharedSessionState V)) : Prop where
  equal : ∀ a ∈ sent, ∀ b ∈ sent, a.revision = b.revision → a = b
  ordered : (sent.map revision).Pairwise (· ≤ ·)
  followed : ∀ first rest, sent = first :: rest →
    some (rest.foldl (follow revision) first) = sent.getLast?

/-! ### What a step may find -/

/-- A canonical state is not started anew once one has been sent, and its revision has room. -/
structure Ready (log : List (SharedSessionState V)) (session : Session V) : Prop where
  starts : session.sharedState = none → log = []
  room : session.canonical.revision + 1 < MAX_REVISION

/-- What is described of a session is what its canonical state has; or no snapshot of this revision
has been taken; or there is something to repair in it. -/
def Redescribes (log : List (SharedSessionState V)) (session : Session V)
    (summary : BackgroundSessionSummary) (payload : V) : Prop :=
  ({ session with summary, state := payload } : Session V).reshare.sharedState =
      session.sharedState ∨
    (∀ k ∈ log, k.revision ≠ session.canonical.revision) ∨
    ∃ state, ({ session with summary, state := payload } : Session V).reshare.repair =
      .ok (true, state)

/-- The summary that is in place once the verifier of a request is. -/
def flaggedSummary (summary : BackgroundSessionSummary) (session : Session V)
    (verifier : Option String) : BackgroundSessionSummary :=
  { summary with
    id := session.id
    authenticationRequired := (verifier.or session.authentication).isSome }

/-- What is in place of a session once it is scoped. -/
def scopedSummary (session : Session V) (verifier : Option String) : BackgroundSessionSummary :=
  if verifier.isSome then { session.summary with authenticationRequired := true }
  else session.summary

/-- The condition on an event. -/
def Orderly (log : List (SharedSessionState V)) (w : World V) (env : Env) : Event V → Prop
  | .detach request caller _ _ =>
    sessionControlAuthorized w.session caller.peerProcessId false = true →
    request.verifier.all env.accepts = true → w.session.offered = true →
    Ready log w.session ∧ Redescribes log w.session
      (flaggedSummary request.summary w.session request.verifier) request.state
  | .share request caller _ _ _ =>
    request.permit caller w.session = .ok () → request.verifier.all env.accepts = true →
    request.offered = true →
    Ready log w.session ∧ Redescribes log w.session
      (flaggedSummary request.summary w.session request.verifier) request.state
  | .setSessionScope request caller _ _ =>
    request.permit env caller w.session = .ok () → request.verifier.all env.accepts = true →
    request.shared = true →
    Ready log w.session ∧
      Redescribes log w.session (scopedSummary w.session request.verifier) w.session.state
  | .sharedSnapshot sessionId caller _ =>
    admitShared sessionId caller w.session = .ok () → Ready log w.session
  | .applyShared request caller _ =>
    admitShared request.sessionId caller w.session = .ok () → Ready log w.session
  | .checkSharedSpawn _ caller _ =>
    sessionControlAuthorized w.session caller.peerProcessId caller.proven = true →
    Ready log w.session
  | .commitSharedSpawn _ _ _ => w.session.offered = true → Ready log w.session
  | .checkSharedBatch request caller _ =>
    admitShared request.sessionId caller w.session = .ok () → Ready log w.session
  | .commitSharedBatch _ _ _ caller _ =>
    sessionControlAuthorized w.session caller.peerProcessId caller.proven = true →
    Ready log w.session
  | .normalize _ =>
    (w.session.offered || w.session.sharedState.isSome) = true → Ready log w.session
  | .beginSharedSpawn _ | .upkeep _ | .upgrade => True

/-- What has been taken, in order: first what has been sent, then what waits. -/
def Broadcasts.log (s : Broadcasts V) : List (SharedSessionState V) := s.sent ++ s.world.taken

/-- The condition on a step: snapshots are sent in the order in which they were taken. -/
def Broadcasts.Orderly (s : Broadcasts V) : Action V → Prop
  | .happen env event => Control.Orderly s.log s.world env event
  | .send index => index = 0
  | .drop _ => True

/-! ### What holds of all that has been taken -/

/-- Everything taken is up to a state, and is the state itself if it has its revision. -/
structure Tracks (log : List (SharedSessionState V)) (state : SharedSessionState V) : Prop where
  upTo : ∀ k ∈ log, UpTo revision k state
  version : ∀ k ∈ log, k.revision = state.revision → state.version = SHARED_SESSION_STATE_VERSION

structure Identified (log : List (SharedSessionState V)) (session : Session V) : Prop where
  versioned : Versioned revision log
  tracks : ∀ state, session.sharedState = some state → Tracks log state

/-- The canonical state may be sent. -/
structure Settled (log : List (SharedSessionState V)) (state : SharedSessionState V)
    (session : Session V) : Prop where
  versioned : Versioned revision log
  tracks : Tracks log state
  sharedState : session.sharedState = some state
  version : state.version = SHARED_SESSION_STATE_VERSION

theorem nextRevision_of_lt {n : ℕ} (h : n < MAX_REVISION) : nextRevision n = n + 1 :=
  min_eq_left h

variable {log : List (SharedSessionState V)} {state : SharedSessionState V} {session : Session V}

theorem identified_nil : Identified [] session := ⟨.nil, fun _ _ => ⟨nofun, nofun⟩⟩

/-- What is never sent need not be looked at. -/
theorem Identified.sublist {log' : List (SharedSessionState V)} (h : Identified log session)
    (hlog : log'.Sublist log) : Identified log' session where
  versioned := h.versioned.sublist hlog
  tracks state hstate :=
    ⟨fun k hk => (h.tracks state hstate).upTo k (hlog.subset hk),
      fun k hk => (h.tracks state hstate).version k (hlog.subset hk)⟩

/-- A state that is newer than all that has been taken. -/
theorem tracks_of_lt (h : ∀ k ∈ log, k.revision < state.revision) : Tracks log state where
  upTo k hk := upTo_of_lt (h k hk)
  version k hk heq := absurd heq (h k hk).ne

/-- Taking a snapshot of the state. -/
theorem Tracks.concat (h : Tracks log state)
    (hversion : state.version = SHARED_SESSION_STATE_VERSION) :
    Tracks (log ++ [state]) state where
  upTo k hk := by
    rcases List.mem_append.mp hk with hk | hk
    · exact h.upTo k hk
    · obtain rfl := List.mem_singleton.mp hk
      exact UpTo.refl k
  version _ _ _ := hversion

theorem Settled.take (h : Settled log state session) : Settled (log ++ [state]) state session :=
  { h with
    versioned := h.versioned.concat h.tracks.upTo
    tracks := h.tracks.concat h.version }

theorem Settled.identified (h : Settled log state session) : Identified log session where
  versioned := h.versioned
  tracks _ hstate := Option.some.inj (h.sharedState.symm.trans hstate) ▸ h.tracks

/-! ### The repair -/

/-- The canonical state tracks what has been taken, or is about to be repaired. -/
structure Mendable (log : List (SharedSessionState V)) (session : Session V) : Prop where
  versioned : Versioned revision log
  tracks : ∀ state, session.sharedState = some state → Tracks log state ∨
    ((∀ k ∈ log, k.revision ≤ state.revision) ∧ ∃ next, session.repair = .ok (true, next))

theorem Identified.mendable (h : Identified log session) : Mendable log session :=
  ⟨h.versioned, fun state hstate => .inl (h.tracks state hstate)⟩

theorem canonical_of_some (h : session.sharedState = some state) : session.canonical = state := by
  rw [Session.canonical, h, Option.getD_some]

/-- What a repair comes to may be sent. -/
theorem tracks_repair {isRepaired : Bool} (hready : Ready log session) (h : Mendable log session)
    (hrepair : session.repair = .ok (isRepaired, state)) :
    Tracks log state ∧ state.version = SHARED_SESSION_STATE_VERSION ∧
      state.revision < MAX_REVISION := by
  cases repairs_of_eq_ok hrepair with
  | started summary presentation hnone =>
    have hcanonical : session.canonical = .new session.id session.summary session.state := by
      rw [Session.canonical, hnone, Option.getD_none]
    rw [hready.starts hnone, hcanonical]
    exact ⟨⟨(by simp), (by simp)⟩, rfl, (by decide : 0 < MAX_REVISION)⟩
  | kept _ hsome hmigrate =>
    obtain ⟨shared, hshared⟩ := Option.isSome_iff_exists.mp hsome
    obtain ⟨hversion, hrevision, -, hsame⟩ := SharedSessionState.migrate_eq_ok hmigrate
    have hroom := hready.room
    rw [canonical_of_some hshared] at hsame hrevision hroom
    have htracks : Tracks log shared := by
      rcases h.tracks shared hshared with htracks | ⟨-, next, hnext⟩
      · exact htracks
      · rw [hrepair] at hnext
        cases hnext
    refine ⟨⟨fun k hk => ?_, fun _ _ _ => hversion⟩, hversion, by omega⟩
    -- A snapshot of this revision is the state, which was of the current version already.
    refine ⟨(htracks.upTo k hk).1.trans hrevision.ge, fun heq => ?_⟩
    have heq' : k.revision = shared.revision := heq.trans hrevision
    rw [hsame (htracks.version k hk heq')]
    exact (htracks.upTo k hk).2 heq'
  | advanced migrated summary presentation hsome hmigrate =>
    obtain ⟨shared, hshared⟩ := Option.isSome_iff_exists.mp hsome
    obtain ⟨hversion, hrevision, -, -⟩ := SharedSessionState.migrate_eq_ok hmigrate
    have hroom := hready.room
    rw [canonical_of_some hshared] at hrevision hroom
    have hnext : nextRevision migrated.revision = shared.revision + 1 := by
      rw [hrevision, nextRevision_of_lt (by omega)]
    have hle : ∀ k ∈ log, k.revision ≤ shared.revision := fun k hk => by
      rcases h.tracks shared hshared with htracks | ⟨hle, -⟩
      · exact (htracks.upTo k hk).1
      · exact hle k hk
    refine ⟨tracks_of_lt fun k hk => ?_, hversion, ?_⟩
    · have := hle k hk
      dsimp only
      omega
    · dsimp only
      omega

/-- Everything sent, and what is taken to be sent, has the revision that identifies it. -/
abbrev World.Identified (sent : List (SharedSessionState V)) (w : World V) : Prop :=
  Control.Identified (sent ++ w.taken) w.session

/-- What a request does from a state in `P` leaves the revision an identity, also if it fails. -/
abbrev Identifying {α : Type} (sent : List (SharedSessionState V)) (P : World V → Prop)
    (m : Request V α) : Prop :=
  Triple P m (fun _ w => w.Identified sent) (fun _ w => w.Identified sent)

/-- **The repair** leaves a state that may be sent; and if it fails, what there was. -/
theorem settles_normalize {sent : List (SharedSessionState V)} {w₀ : World V} (env : Env)
    (saved : Bool) (hready : Ready (sent ++ w₀.taken) w₀.session)
    (h : Mendable (sent ++ w₀.taken) w₀.session) :
    Triple (· = w₀) (normalizeSharedState env saved)
      (fun state w => Settled (sent ++ w.taken) state w.session ∧ state.revision < MAX_REVISION)
      (fun _ w => w.Identified sent) := by
  refine (triple_normalizeSharedState env saved w₀).mono (fun _ => id) ?_ ?_
  · rintro state w ⟨isRepaired, hrepaired⟩
    obtain ⟨htracks, hversion, hroom⟩ := tracks_repair hready h hrepaired.repair
    have hsettled : Settled (sent ++ w₀.taken) state w.session :=
      ⟨h.versioned, htracks, by rw [hrepaired.session, Session.settled], hversion⟩
    refine ⟨?_, hroom⟩
    rw [hrepaired.taken]
    split
    · rw [← List.append_assoc]
      exact hsettled.take
    · exact hsettled
  · rintro e w hbroken
    cases hbroken with
    | unrepaired hnone =>
      -- A repair that is due does not fail before the state is in place.
      have hkept : w₀.Identified sent := by
        refine ⟨h.versioned, fun state hstate => ?_⟩
        rcases h.tracks state hstate with htracks | ⟨-, next, hnext⟩
        · exact htracks
        · rw [hnext] at hnone
          cases hnone
      change Control.Identified (sent ++ w₀.taken) w₀.session.reconciled
      rcases reconciled_cases w₀.session with hsame | ⟨live, -, hdescribed⟩
      · rw [hsame]
        exact hkept
      · rw [hdescribed]
        exact ⟨hkept.versioned, hkept.tracks⟩
    | unsaved state hrepair =>
      obtain ⟨htracks, hversion, -⟩ := tracks_repair hready h hrepair
      exact Settled.identified ⟨h.versioned, htracks, rfl, hversion⟩

/-! ### What is put in place of a session -/

/-- The repair looks at no more than this of a session. -/
theorem repair_congr {session' : Session V} (hid : session.id = session'.id)
    (hsummary : session.summary = session'.summary) (hstate : session.state = session'.state)
    (hshared : session.sharedState = session'.sharedState) (hpanes : session.panes = session'.panes) :
    session.repair = session'.repair := by
  obtain ⟨⟩ := session
  obtain ⟨⟩ := session'
  dsimp only at hid hsummary hstate hshared hpanes
  subst hid hsummary hstate hshared hpanes
  rfl

/-- A summary, a payload and a verifier have been put in place; the panes, the canonical state and
what has been taken are as they were. -/
structure InPlace (w₀ : World V) (summary : BackgroundSessionSummary) (payload : V)
    (authentication : Option String) (offered : Bool) (w : World V) : Prop where
  offered : w.session.offered = offered
  id : w.session.id = w₀.session.id
  summary : w.session.summary = summary
  state : w.session.state = payload
  authentication : w.session.authentication = authentication
  panes : w.session.panes = w₀.session.panes
  sharedState : w.session.sharedState = w₀.session.sharedState
  taken : w.taken = w₀.taken

variable {sent : List (SharedSessionState V)} {w₀ : World V} {summary : BackgroundSessionSummary}
  {payload : V} {authentication : Option String} {offered : Bool}

theorem InPlace.identified {w : World V} (h : InPlace w₀ summary payload authentication offered w)
    (h₀ : w₀.Identified sent) : w.Identified sent where
  versioned := h.taken ▸ h₀.versioned
  tracks state hstate := h.taken ▸ h₀.tracks state (h.sharedState.symm.trans hstate)

variable {env : Env} {repaired : Bool} {caller : Caller}

theorem inPlace_protect {verifier keyEnvelope : Option String} {peerProcessId : Option ℕ} :
    Triple (InPlace w₀ summary payload authentication offered)
      (protect env verifier keyEnvelope peerProcessId)
      (fun _ w => InPlace w₀ summary payload (verifier.or authentication) offered w ∧
        verifier.all env.accepts = true)
      (fun _ w => InPlace w₀ summary payload authentication offered w) := by
  cases verifier with
  | none => exact triple_pure fun w hw => ⟨hw, rfl⟩
  | some text =>
    rw [protect]
    refine triple_bind (Q := fun _ w => InPlace w₀ summary payload authentication offered w ∧
        env.accepts text = true)
      (triple_require (fun w hw haccepts => ⟨hw, haccepts⟩) fun w hw _ => hw)
      fun _ => triple_fact fun haccepts => ?_
    refine triple_bind (Q := fun _ w => InPlace w₀ summary payload (some text) offered w)
      (triple_modify fun w hw => { hw with authentication := rfl }) fun _ => ?_
    refine triple_bind (Q := fun _ w => InPlace w₀ summary payload (some text) offered w)
      (triple_modify fun w hw => { hw with }) fun _ => triple_modify fun w hw => ?_
    have hplace : InPlace w₀ summary payload (some text) offered w := hw
    split
    · exact ⟨{ hplace with }, haccepts⟩
    · exact ⟨hplace, haccepts⟩

/-- **Offering** what is in place. -/
theorem identified_offer (h₀ : w₀.Identified sent) (hready : Ready (sent ++ w₀.taken) w₀.session)
    (hredescribes : Redescribes (sent ++ w₀.taken) w₀.session summary payload) :
    Identifying sent (InPlace w₀ summary payload authentication offered) (offer env repaired) := by
  refine triple_bind (Q := fun _ w => Ready (sent ++ w.taken) w.session ∧
    Mendable (sent ++ w.taken) w.session) (triple_modify fun w hw => ?_) fun _ => ?_
  · -- Of the canonical state only what is described has changed.
    have hrevision : w.session.canonical.revision = w₀.session.canonical.revision := by
      rw [Session.canonical, Session.canonical, hw.sharedState]
      cases w₀.session.sharedState <;> rfl
    have hshared : w.session.reshare.sharedState =
        ({ w₀.session with summary, state := payload } : Session V).reshare.sharedState := by
      simp only [Session.reshare, Session.canonical, hw.sharedState, hw.id, hw.summary, hw.state]
    have hrepair : w.session.reshare.repair =
        ({ w₀.session with summary, state := payload } : Session V).reshare.repair :=
      repair_congr hw.id hw.summary hw.state hshared hw.panes
    have hle : ∀ k ∈ sent ++ w₀.taken, k.revision ≤ w₀.session.canonical.revision := by
      intro k hk
      cases hstate : w₀.session.sharedState with
      | none => rw [hready.starts hstate] at hk; cases hk
      | some state =>
        rw [canonical_of_some hstate]
        exact ((h₀.tracks state hstate).upTo k hk).1
    dsimp only
    rw [hw.taken]
    refine ⟨⟨(by rintro ⟨⟩), ?_⟩, ⟨h₀.versioned, fun state hstate => ?_⟩⟩
    · rw [@canonical_of_some V { w.session.canonical with
        summary := { w.session.summary with id := w.session.id }, state := w.session.state } _ rfl]
      exact hrevision ▸ hready.room
    · have hstate' : state.revision = w₀.session.canonical.revision :=
        Option.some.inj hstate ▸ hrevision
      rcases hredescribes with hsame | hunseen | hdue
      · exact .inl (h₀.tracks state (hsame.symm.trans (hshared.symm.trans hstate)))
      · exact .inl (tracks_of_lt fun k hk => hstate' ▸ lt_of_le_of_ne (hle k hk) (hunseen k hk))
      · exact .inr ⟨fun k hk => hstate' ▸ hle k hk, hrepair ▸ hdue⟩
  · refine triple_forall fun w hw => ?_
    refine triple_bind (settles_normalize env repaired hw.1 hw.2) fun state => ?_
    exact triple_pure fun _ hsettled => hsettled.1.identified

/-! ### One handler after the other -/

variable {f : Session V → Session V}

/-- What keeps the canonical state, and takes nothing. -/
theorem identified_edit (hf : ∀ session, (f session).sharedState = session.sharedState) :
    Keeps (fun w => w.Identified sent) (edit f) :=
  keeps_modify fun w hw => ⟨hw.versioned, fun state hstate =>
    hw.tracks state ((hf w.session).symm.trans hstate)⟩

theorem identified_persistSession (env : Env) (saved : Bool)
    (snapshots : List (ℕ × List UInt8)) :
    Keeps (fun w : World V => w.Identified sent)
      (persistSession env saved snapshots) :=
  triple_persistSession (fun _ _ h _ => h) fun _ _ => id

theorem identified_persistLiveSession (env : Env) (saved : Bool) :
    Keeps (fun w : World V => w.Identified sent)
      (persistLiveSession env saved) :=
  triple_persistLiveSession (fun _ _ h _ => h) fun _ _ => id

theorem identified_withdraw :
    Keeps (fun w : World V => w.Identified sent) withdraw :=
  keeps_modify fun _ hw => ⟨hw.versioned, nofun⟩

theorem identified_detach {request : DetachRequest V} {saved : Bool}
    (h₀ : w₀.Identified sent)
    (horderly : Orderly (sent ++ w₀.taken) w₀ env (.detach request caller repaired saved)) :
    Identifying sent (· = w₀) (detach env request caller repaired saved) := by
  rw [detach]
  refine triple_bind (Q := fun _ w => w = w₀ ∧
      sessionControlAuthorized w₀.session caller.peerProcessId false = true)
    (triple_require ?_ ?_) fun _ => triple_fact fun hadmitted => ?_
  · rintro w rfl hauthorized
    exact ⟨rfl, hauthorized⟩
  · rintro w rfl -
    exact h₀
  refine triple_bind (Q := fun _ w => InPlace w₀ { request.summary with
      id := w₀.session.id } request.state w₀.session.authentication w₀.session.offered w)
    (triple_modify ?_) fun _ => ?_
  · rintro w rfl
    exact ⟨rfl, rfl, rfl, rfl, rfl, rfl, rfl, rfl⟩
  refine triple_bind (inPlace_protect.mono (fun _ => id) (fun _ _ => id)
    fun _ _ hw => hw.identified h₀) fun _ => triple_fact fun haccepts => ?_
  refine triple_bind (Q := fun _ w => InPlace w₀
      (flaggedSummary request.summary w₀.session request.verifier) request.state
      (request.verifier.or w₀.session.authentication) w₀.session.offered w)
    (triple_modify ?_) fun _ => ?_
  · rintro w hw
    refine { hw with summary := ?_ }
    simp only [Session.flagged, flaggedSummary, hw.summary, hw.authentication]
  refine triple_bind (Q := fun _ (w : World V) => w.Identified sent)
    (triple_when ?_ fun w hw _ => hw.identified h₀) fun _ => ?_
  · intro w hw
    obtain ⟨hready, hredescribes⟩ :=
      horderly hadmitted haccepts (hw.1.offered.symm.trans hw.2)
    exact identified_offer h₀ hready hredescribes w hw.1
  refine keeps_bind (identified_edit fun _ => rfl) fun _ => ?_
  exact keeps_bind (identified_persistSession env saved _) fun _ => keeps_answer env _

theorem identified_share {request : ShareRequest V} {forgotten saved : Bool}
    (h₀ : w₀.Identified sent)
    (horderly : Orderly (sent ++ w₀.taken) w₀ env (.share request caller forgotten repaired saved)) :
    Identifying sent (· = w₀) (share env request caller forgotten repaired saved) := by
  rw [share]
  refine triple_bind (Q := fun _ w => w = w₀ ∧ request.permit caller w₀.session = .ok ())
    (triple_read ?_ ?_) fun _ => triple_fact fun hadmitted => ?_
  · rintro w _ rfl hadmitted
    exact ⟨rfl, hadmitted⟩
  · rintro w e rfl -
    exact h₀
  refine triple_bind (Q := fun _ w => InPlace w₀ w₀.session.summary w₀.session.state
      w₀.session.authentication w₀.session.offered w)
    (triple_when (triple_when ?_ ?_) ?_) fun _ => ?_
  · refine triple_bind (Q := fun _ w => w = w₀)
      (triple_require (fun w hw _ => hw.1.1) ?_) fun _ => triple_modify ?_
    · rintro w ⟨⟨rfl, -⟩, -⟩ -
      exact h₀
    · rintro w rfl
      exact ⟨rfl, rfl, rfl, rfl, rfl, rfl, rfl, rfl⟩
  · rintro w ⟨rfl, -⟩ -
    exact ⟨rfl, rfl, rfl, rfl, rfl, rfl, rfl, rfl⟩
  · rintro w rfl -
    exact ⟨rfl, rfl, rfl, rfl, rfl, rfl, rfl, rfl⟩
  refine triple_bind (Q := fun _ w => InPlace w₀ { request.summary with
      id := w₀.session.id } request.state w₀.session.authentication request.offered w)
    (triple_modify fun w hw => { hw with
      offered := rfl
      summary := by simp only [ShareRequest.describe, hw.id]
      state := rfl }) fun _ => ?_
  refine triple_bind (inPlace_protect.mono (fun _ => id) (fun _ _ => id)
    fun _ _ hw => hw.identified h₀) fun _ => triple_fact fun haccepts => ?_
  refine triple_bind (Q := fun _ w => InPlace w₀
      (flaggedSummary request.summary w₀.session request.verifier) request.state
      (request.verifier.or w₀.session.authentication) request.offered w)
    (triple_modify ?_) fun _ => ?_
  · rintro w hw
    refine { hw with summary := ?_ }
    simp only [Session.flagged, flaggedSummary, hw.summary, hw.authentication]
  refine triple_bind (Q := fun _ (w : World V) => w.Identified sent)
    (triple_ite (fun hoffered => ?_) fun _ => ?_) fun _ => keeps_answer env _
  · obtain ⟨hready, hredescribes⟩ := horderly hadmitted haccepts hoffered
    exact triple_bind (identified_offer h₀ hready hredescribes) fun _ =>
      identified_persistLiveSession env saved
  · exact identified_withdraw.mono (fun _ hw => hw.identified h₀) (fun _ _ => id)
      fun _ _ => id

theorem identified_setSessionScope {request : ScopeRequest} {saved : Bool}
    (h₀ : w₀.Identified sent) (horderly : Orderly (sent ++ w₀.taken) w₀ env
      (.setSessionScope request caller repaired saved)) :
    Identifying sent (· = w₀) (setSessionScope env request caller repaired saved) := by
  rw [setSessionScope]
  refine triple_bind (Q := fun _ w => InPlace w₀ w₀.session.summary w₀.session.state
      w₀.session.authentication w₀.session.offered w ∧
      request.permit env caller w₀.session = .ok ())
    (triple_read ?_ ?_) fun _ => triple_fact fun hadmitted => ?_
  · rintro w _ rfl hadmitted
    exact ⟨⟨rfl, rfl, rfl, rfl, rfl, rfl, rfl, rfl⟩, hadmitted⟩
  · rintro w e rfl -
    exact h₀
  refine triple_bind (inPlace_protect.mono (fun _ => id) (fun _ _ => id)
    fun _ _ hw => hw.identified h₀) fun _ => triple_fact fun haccepts => ?_
  refine triple_bind (Q := fun _ w => InPlace w₀
      (scopedSummary w₀.session request.verifier) w₀.session.state
      (request.verifier.or w₀.session.authentication) w₀.session.offered w)
    (triple_when (triple_modify ?_) ?_) fun _ => ?_
  · rintro w ⟨hw, hsome⟩
    refine { hw with summary := ?_ }
    obtain ⟨text, htext⟩ := Option.isSome_iff_exists.mp hsome
    simp only [Session.flagged, scopedSummary, hw.summary, hw.authentication, htext,
      Option.isSome_some, Option.some_or, if_true]
  · rintro w hw hnone
    exact { hw with summary := by rw [hw.summary, scopedSummary, if_neg (by simp [hnone])] }
  refine triple_bind (Q := fun _ w => InPlace w₀
      (scopedSummary w₀.session request.verifier) w₀.session.state
      (request.verifier.or w₀.session.authentication) w₀.session.offered w)
    (triple_require (fun _ hw _ => hw) fun _ hw _ => hw.identified h₀) fun _ => ?_
  refine triple_bind (Q := fun _ w => InPlace w₀
      (scopedSummary w₀.session request.verifier) w₀.session.state
      (request.verifier.or w₀.session.authentication) request.shared w)
    (triple_modify fun w hw => { hw with offered := rfl }) fun _ => ?_
  refine triple_bind (Q := fun _ (w : World V) => w.Identified sent)
    (triple_ite (fun hshared => ?_) fun _ => ?_) fun _ => ?_
  · obtain ⟨hready, hredescribes⟩ := horderly hadmitted haccepts hshared
    exact identified_offer h₀ hready hredescribes
  · exact identified_withdraw.mono (fun _ hw => hw.identified h₀) (fun _ _ => id)
      fun _ _ => id
  exact keeps_bind (identified_persistLiveSession env saved) fun _ => keeps_answer env _

theorem settled_take :
    Triple (fun w : World V => Settled (sent ++ w.taken) state w.session)
      (takeSnapshot state) (fun _ w => Settled (sent ++ w.taken) state w.session)
      (fun _ w => w.Identified sent) := by
  refine triple_modify fun w hw => ?_
  dsimp only
  rw [← List.append_assoc]
  exact hw.take

variable {m : Request V (Reply V)}

/-- A snapshot is taken, and then nothing more of the state is changed. -/
theorem settled_taken (hm : Keeps (fun w : World V =>
      w.Identified sent) m) :
    Identifying sent (fun w : World V => Settled (sent ++ w.taken) state w.session)
      (do takeSnapshot state; m) :=
  triple_bind settled_take fun _ =>
    hm.mono (fun _ hw => hw.identified) (fun _ _ => id) fun _ _ => id

theorem settled_answer {reply : Reply V} :
    Identifying sent (fun w : World V => Settled (sent ++ w.taken) state w.session)
      (do takeSnapshot state; answer env reply) := settled_taken (keeps_answer env reply)

/-- What is done to the state advances its revision, and is announced and answered. -/
theorem settled_commit {next : SharedSessionState V}
    (hm : Keeps (fun w : World V => w.Identified sent) m)
    (hf : ∀ session, (f session).sharedState = some next) (hversion : next.version = state.version)
    (hroom : state.revision < MAX_REVISION)
    (hrevision : next.revision = nextRevision state.revision) :
    Identifying sent (fun w : World V => Settled (sent ++ w.taken) state w.session)
      (do edit f; takeSnapshot next; takeSnapshot next; m) := by
  refine triple_bind (Q := fun _ (w : World V) => Settled (sent ++ w.taken) next w.session)
    (triple_modify fun w hw => ?_) fun _ =>
      triple_bind settled_take fun _ => settled_taken hm
  refine ⟨hw.versioned, tracks_of_lt fun k hk => ?_, hf _, hversion.trans hw.version⟩
  have hle : k.revision ≤ state.revision := (hw.tracks.upTo k hk).1
  rw [hrevision, nextRevision_of_lt hroom]
  omega

section

variable (h₀ : w₀.Identified sent)

include h₀

/-- What is done once the state has been repaired. -/
theorem identified_normalizing {m : SharedSessionState V → Request V (Reply V)}
    (hready : Ready (sent ++ w₀.taken) w₀.session)
    (hm : ∀ state, state.revision < MAX_REVISION →
      Identifying sent (fun w => Settled (sent ++ w.taken) state w.session) (m state)) :
    Identifying sent (· = w₀) (normalizeSharedState env repaired >>= m) :=
  triple_bind (settles_normalize env repaired hready h₀.mendable) fun state =>
    triple_fact (hm state)

/-- A request that is admitted goes on; one that is not changes nothing. -/
theorem identified_admitted {f : World V → Except String Unit} {m : Request V (Reply V)}
    (hm : f w₀ = .ok () → Identifying sent (· = w₀) m) :
    Identifying sent (· = w₀) (Handler.read f >>= fun _ => m) := by
  refine triple_bind (Q := fun _ w => w = w₀ ∧ f w₀ = .ok ()) (triple_read ?_ ?_)
    fun _ => triple_fact hm
  · rintro w _ rfl hadmitted
    exact ⟨rfl, hadmitted⟩
  · rintro w e rfl -
    exact h₀

theorem identified_required {p : World V → Bool} {e : String} {m : Request V (Reply V)}
    (hm : p w₀ = true → Identifying sent (· = w₀) m) :
    Identifying sent (· = w₀) (Handler.require p e >>= fun _ => m) := by
  refine identified_admitted h₀ fun hadmitted => hm ?_
  by_contra hnot
  rw [if_neg hnot] at hadmitted
  cases hadmitted

theorem identified_sharedSnapshot {sessionId : ℕ}
    (horderly : Orderly (sent ++ w₀.taken) w₀ env (.sharedSnapshot sessionId caller repaired)) :
    Identifying sent (· = w₀) (sharedSnapshot env sessionId caller repaired) :=
  identified_admitted h₀ fun hadmitted =>
    identified_normalizing h₀ (horderly hadmitted) fun _ _ => settled_answer

theorem identified_applyShared {request : SharedOperationRequest V}
    (horderly : Orderly (sent ++ w₀.taken) w₀ env (.applyShared request caller repaired)) :
    Identifying sent (· = w₀) (applyShared F env request caller repaired) := by
  refine identified_admitted h₀ fun hadmitted =>
    identified_normalizing h₀ (horderly hadmitted) fun state hroom => ?_
  refine triple_ite (fun _ => settled_answer) fun _ => ?_
  refine triple_ite (fun _ => settled_answer) fun _ => ?_
  refine triple_bind
    (Q := fun _ (w : World V) => Settled (sent ++ w.taken) state w.session)
    (triple_require (fun _ hw _ => hw) fun _ hw _ => hw.identified) fun _ => ?_
  split
  · exact settled_answer
  refine triple_bind (Q := fun next w => Settled (sent ++ w.taken) state w.session ∧
      state.applyOperation F request.operationId request.operation = .ok next)
    (triple_read ?_ fun _ _ hw _ => hw.identified) fun next =>
      triple_fact fun hnext => ?_
  · intro w next hw happly
    refine ⟨hw, ?_⟩
    cases happlied : state.applyOperation F request.operationId request.operation with
    | error e => rw [happlied] at happly; cases happly
    | ok applied => rw [happlied] at happly; exact congrArg _ (Except.ok.inj happly)
  · have happlied := SharedSessionState.frame_applyOperation hnext
    exact settled_commit (keeps_answer env _) (fun _ => rfl) happlied.version hroom
      happlied.revision

theorem identified_checkSharedSpawn {request : SharedSpawnRequest}
    (horderly : Orderly (sent ++ w₀.taken) w₀ env (.checkSharedSpawn request caller repaired)) :
    Identifying sent (· = w₀) (checkSharedSpawn env request caller repaired) := by
  refine identified_required h₀ fun hadmitted =>
    identified_normalizing h₀ (horderly hadmitted) fun _ _ => ?_
  exact triple_ite (fun _ => settled_answer) fun _ =>
    triple_pure fun _ hw => hw.identified

theorem identified_commitSharedSpawn {request : SharedSpawnRequest} {paneId : ℕ}
    (horderly : Orderly (sent ++ w₀.taken) w₀ env (.commitSharedSpawn request paneId repaired)) :
    Identifying sent (· = w₀) (commitSharedSpawn env request paneId repaired) := by
  refine identified_required h₀ fun hoffered =>
    identified_normalizing h₀ (horderly hoffered) fun state hroom => ?_
  exact triple_ite (fun _ => settled_answer) fun _ =>
    settled_commit (keeps_answer env _) (fun _ => rfl) rfl hroom rfl

variable {request : SharedSpawnBatchRequest}

theorem identified_checkSharedBatch
    (horderly : Orderly (sent ++ w₀.taken) w₀ env (.checkSharedBatch request caller repaired)) :
    Identifying sent (· = w₀) (checkSharedBatch env request caller repaired) := by
  refine identified_admitted h₀ fun _ => identified_admitted h₀ fun hadmitted => ?_
  refine identified_normalizing h₀ (horderly hadmitted) fun state _ => ?_
  split
  · refine triple_bind (settled_taken (keeps_pure _)) fun reply => ?_
    exact keeps_answer env reply
  · exact triple_ite (fun _ => settled_answer) fun _ =>
      triple_pure fun _ hw => hw.identified

theorem identified_commitSharedBatch {paneIds : List ℕ} {replacement : BackgroundPaneLayout}
    (horderly : Orderly (sent ++ w₀.taken) w₀ env
      (.commitSharedBatch request paneIds replacement caller repaired)) :
    Identifying sent (· = w₀) (commitSharedBatch env request paneIds replacement caller repaired) := by
  refine identified_required h₀ fun hadmitted =>
    identified_normalizing h₀ (horderly hadmitted) fun state hroom => ?_
  split
  · exact settled_taken (keeps_pure _)
  dsimp only
  split
  · exact settled_taken (keeps_pure _)
  · exact triple_bind (triple_read (fun _ _ hw _ => hw)
      fun _ _ hw _ => hw.identified) fun _ =>
        settled_commit (keeps_pure _) (fun _ => rfl) rfl hroom rfl

/-- **One event** that is orderly keeps the revision an identity. -/
theorem identified_handler {event : Event V} (horderly : Orderly (sent ++ w₀.taken) w₀ env event) :
    Identified (sent ++ ((event.handler F env) w₀).2.taken) ((event.handler F env) w₀).2.session := by
  have htriple : ∀ {m : Request V (Reply V)}, Identifying sent (· = w₀) m →
      Identified (sent ++ (m w₀).2.taken) (m w₀).2.session := by
    intro m hm
    have hw := hm w₀ rfl
    rcases hmw : m w₀ with ⟨e | a, t⟩ <;> rwa [hmw] at hw
  cases event with
  | detach request caller repaired saved => exact htriple (identified_detach h₀ horderly)
  | share request caller forgotten repaired saved => exact htriple (identified_share h₀ horderly)
  | setSessionScope request caller repaired saved =>
    exact htriple (identified_setSessionScope h₀ horderly)
  | sharedSnapshot sessionId caller repaired =>
    exact htriple (identified_sharedSnapshot h₀ horderly)
  | applyShared request caller repaired => exact htriple (identified_applyShared h₀ horderly)
  | beginSharedSpawn request =>
    refine htriple (identified_required h₀ fun _ => triple_pure ?_)
    rintro w rfl
    exact h₀
  | checkSharedSpawn request caller repaired =>
    exact htriple (identified_checkSharedSpawn h₀ horderly)
  | commitSharedSpawn request paneId repaired =>
    exact htriple (identified_commitSharedSpawn h₀ horderly)
  | checkSharedBatch request caller repaired =>
    exact htriple (identified_checkSharedBatch h₀ horderly)
  | commitSharedBatch request paneIds replacement caller repaired =>
    exact htriple (triple_bind (identified_commitSharedBatch h₀ horderly) fun reply =>
      keeps_answer env reply)
  | normalize repaired =>
    refine htriple (triple_bind
      (Q := fun _ (w : World V) => w.Identified sent)
      (triple_when ?_ ?_) fun _ => keeps_pure _)
    · refine (triple_fact (p := (w₀.session.offered || w₀.session.sharedState.isSome) = true)
        fun hshared => ?_).mono (P := fun w => w = w₀ ∧
          (w₀.session.offered || w₀.session.sharedState.isSome) = true) ?_ (fun _ _ => id)
          fun _ _ => id
      · exact triple_bind (settles_normalize env repaired (horderly hshared) h₀.mendable)
          fun _ => triple_pure fun _ hw => hw.1.identified
      · rintro w ⟨rfl, hshared⟩
        exact ⟨rfl, hshared⟩
    · rintro w rfl -
      exact h₀
  | upkeep change => exact ⟨h₀.versioned, h₀.tracks⟩
  | upgrade => exact ⟨h₀.versioned, h₀.tracks⟩

end

theorem identified_step {s t : Broadcasts V} {action : Action V}
    (h : Identified s.log s.world.session) (horderly : s.Orderly action)
    (hstep : s.step F action = some t) : Identified t.log t.world.session := by
  cases action with
  | happen env event =>
    cases hstep
    exact identified_handler h horderly
  | send index =>
    obtain rfl : index = 0 := horderly
    obtain ⟨snapshot, hsnapshot, rfl⟩ := Option.map_eq_some_iff.mp hstep
    -- The first of those that wait joins those that are sent.
    have hlog : s.sent ++ [snapshot] ++ s.world.taken.eraseIdx 0 = s.log := by
      cases htaken : s.world.taken with
      | nil => rw [htaken] at hsnapshot; cases hsnapshot
      | cons first rest =>
        rw [htaken] at hsnapshot
        cases hsnapshot
        rw [Broadcasts.log, htaken, List.append_assoc]
        rfl
    change Identified (s.sent ++ [snapshot] ++ s.world.taken.eraseIdx 0) s.world.session
    rw [hlog]
    exact h
  | drop index =>
    cases hstep
    exact h.sublist ((List.Sublist.refl _).append (List.eraseIdx_sublist ..))

/-- A session is opened with nothing taken of it, or with its canonical state. -/
theorem identified_world {sessionId : ℕ} {opening : Opening V} {w : World V}
    (h : opening.world env sessionId = .ok w) : Identified w.taken w.session := by
  cases opening with
  | spawned owner pane null =>
    cases h
    exact identified_nil
  | restored request clientProcessId authorizedPeer pane =>
    obtain ⟨-, h⟩ := check_bind_eq_ok.mp h
    obtain ⟨session, -, h⟩ := bind_eq_ok.mp h
    cases h
    exact identified_nil
  | created request paneIds peerProcessId null saved =>
    obtain ⟨session, hsession, h⟩ := bind_eq_ok.mp h
    obtain ⟨state, hstate, hversion⟩ : ∃ state, session.sharedState = some state ∧
        state.version = SHARED_SESSION_STATE_VERSION := by
      simp only [createdSession, check_bind_eq_ok] at hsession
      obtain ⟨-, -, hsession⟩ := hsession
      obtain ⟨layout, -, hsession⟩ := bind_eq_ok.mp hsession
      obtain ⟨activePane, -, hsession⟩ := bind_eq_ok.mp hsession
      cases hsession
      exact ⟨_, rfl, rfl⟩
    have hkept : (persistLiveSession env saved ⟨session, none, []⟩).2.session = session :=
      (keeps_persistLiveSession (I := (· = session)) env saved).snd rfl
    rcases hresult : persistLiveSession env saved ⟨session, none, []⟩ with ⟨result, w'⟩
    rw [hresult] at h hkept
    obtain ⟨-, -, h⟩ := bind_eq_ok.mp h
    cases h
    have hsettled : Settled [] state w'.session :=
      ⟨.nil, ⟨nofun, nofun⟩, hkept ▸ hstate, hversion⟩
    have htaken : w'.session.sharedState.toList = [state] := by rw [hsettled.sharedState]; rfl
    change Identified w'.session.sharedState.toList w'.session
    rw [htaken]
    exact hsettled.take.identified

theorem identifies_of_versioned {sent : List (SharedSessionState V)}
    (h : Versioned revision sent) : Identifies sent where
  equal _ ha _ hb heq := h.eq_of_number_eq ha hb heq
  ordered := h.ordered
  followed first rest hsent := by
    subst hsent
    rw [h.follow, List.getLast?_eq_some_getLast]

/-- **The revision identifies the state**, after all runs whose steps are orderly, from a session
of which it identifies what has been taken so far, as of one that has just been opened
(`identified_world`). -/
theorem identifies_of_run {s t : Broadcasts V} {actions : List (Action V)}
    (h₀ : Identified s.log s.world.session)
    (hrun : Run (Meeting Broadcasts.Orderly fun s action t => s.step F action = some t) s actions t) :
    Identifies t.sent := by
  have hidentified : Identified t.log t.world.session := by
    exact hrun.invariant (I := fun s => Identified s.log s.world.session) h₀
      fun s action t h ⟨horderly, hstep⟩ => identified_step h horderly hstep
  exact identifies_of_versioned (List.pairwise_append.mp hidentified.versioned).1

/-! ### Offering a session again -/

/-- A session that its window shows, in one pane. -/
def shown : Broadcasts ℕ where
  world := ⟨spawnedSession 1 5 { sharedPane 1 1 (80, 24) with attachment := .exclusive 5 } 0,
    none, []⟩
  sent := []

/-- Its window offers it, under a title. -/
def offering (title : String) : Action ℕ :=
  .happen plainEnv (.share ⟨1, ⟨1, title, false, 1, .pane 1, [SharedSessionState.plainPane 1],
    false, none, none⟩, 0, none, none, true⟩ ⟨5, some 5, false⟩ true true true)

/-- A viewer asks for a snapshot. -/
def asking : Action ℕ := .happen plainEnv (.sharedSnapshot 1 guest true)

/-- A viewer replaces the payload. -/
def replacing : Action ℕ :=
  .happen plainEnv (.applyShared ⟨1, 0, ⟨"c", 1⟩, .setTabState 9⟩ guest true)

theorem identifies_shown : ∃ t, Run (Meeting Broadcasts.Orderly
      fun s action t => Broadcasts.step AreaArithmetic.exact s action = some t) shown
      [offering "a", asking, .send 0, replacing, .send 0, .send 0] t ∧
    t.sent.map revision = [0, 1, 1] ∧ Identifies t.sent := by
  have hready : ∀ {log : List (SharedSessionState ℕ)} {session : Session ℕ},
      session.sharedState.isSome = true → session.canonical.revision + 1 < MAX_REVISION →
      Ready log session := fun hsome hroom =>
    ⟨fun hnone => absurd hsome (by rw [hnone]; decide), hroom⟩
  have hrun : Run (Meeting Broadcasts.Orderly
      fun s action t => Broadcasts.step AreaArithmetic.exact s action = some t) shown
      [offering "a", asking, .send 0, replacing, .send 0, .send 0] _ :=
    .cons ⟨fun _ _ _ => ⟨⟨fun _ => rfl, by decide⟩, .inr (.inl nofun)⟩, rfl⟩ <|
    .cons ⟨fun _ => hready (by decide) (by decide), rfl⟩ <|
    .cons ⟨rfl, rfl⟩ <|
    .cons ⟨fun _ => hready (by decide) (by decide), rfl⟩ <|
    .cons ⟨rfl, rfl⟩ <|
    .cons ⟨rfl, rfl⟩ (.nil _)
  exact ⟨_, hrun, by decide, identifies_of_run (s := shown) identified_nil hrun⟩

/-- A session that is offered again under another title keeps the revision that has been sent. -/
theorem same_revision_after_sharing : ∃ t,
    Run (fun s action t => Broadcasts.step AreaArithmetic.exact s action = some t) shown
      [offering "a", asking, .send 0, offering "b", asking, .send 0] t ∧ ¬Identifies t.sent := by
  obtain ⟨t, hrun, hrevisions, htitles⟩ := exists_run_of_foldlM
    (f := Broadcasts.step AreaArithmetic.exact)
    (P := fun t : Broadcasts ℕ => t.sent.map revision = [0, 0] ∧
      t.sent.map (·.summary.title) = ["a", "b"])
    [offering "a", asking, .send 0, offering "b", asking, .send 0] (s := shown) (by decide)
  refine ⟨t, hrun, fun h => ?_⟩
  -- The two snapshots have one revision, and so would be one.
  obtain ⟨a, b, hsent⟩ : ∃ a b, t.sent = [a, b] :=
    List.length_eq_two.mp (by simpa using congrArg List.length hrevisions)
  rw [hsent] at h hrevisions htitles
  obtain ⟨ha, hb⟩ : a.revision = 0 ∧ b.revision = 0 := by simpa using hrevisions
  obtain ⟨ha', hb'⟩ : a.summary.title = "a" ∧ b.summary.title = "b" := by simpa using htitles
  have heq := h.equal a (by simp) b (by simp) (ha.trans hb.symm)
  rw [← heq, ha'] at hb'
  simp at hb'

end Zetta.Zmux.Server.Control
