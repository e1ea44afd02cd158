import Zetta.Zmux.Server.Registry

/-!
# What protected records are sealed to

A session with a verifier is written to disk under recipients of its own, to which it is pinned
when it is protected or, later, when a client configures that owns or holds it. They are looked up
by process: the one that protects the session, or else the session's owner. Nothing but the
transport can vouch for a process; the envelope's own claim is what a session's owner is taken
from.

* `RecipientGrants` is the table that recipients are looked up in, `Daemon` the sessions with it.
* `Suitable` says whose recipients a session may be pinned to, and `History` remembers what it
  needs: who configured what, and for which owners and holders the transport has vouched.
* `sealed_of_run`: in every run in which no session is pinned through an owner or a holder that
  only a claim has made one, protected sessions are written under suitable recipients or withheld.
* `sealed_to_stranger`: a session spawned in another process's name is written to that one's.
-/

namespace Zetta.Zmux.Server.Control

open Handler Function

variable {V R : Type} {F : AreaArithmetic R}

/-! ### The grants -/

/-- How many clients' choices are remembered. -/
def MAX_GRANTS : ℕ := 64

/-- The recipients each client the daemon could vouch for last configured. -/
structure RecipientGrants where
  /-- What the daemon was started with, until anybody configures. -/
  startup : Option (List String)
  /-- By process, the most recent last. -/
  byProcess : List (ℕ × List String)

namespace RecipientGrants

def startingWith (recipients : Option (List String)) : RecipientGrants :=
  ⟨recipients.filter (· ≠ []), []⟩

/-- Forgets what exited processes configured. -/
def forgetExited (grants : RecipientGrants) (isRunning : ℕ → Bool) : RecipientGrants :=
  { grants with byProcess := grants.byProcess.filter fun choice => isRunning choice.1 }

/-- Records a configuration. Unvouched-for, it still ends the startup trust. -/
def configured (grants : RecipientGrants) (peer : Option ℕ) (recipients : List String)
    (isRunning : ℕ → Bool) : RecipientGrants :=
  match peer with
  | none => { grants with startup := none }
  | some peer =>
    let others := (grants.forgetExited isRunning).byProcess.filter (·.1 ≠ peer)
    let choices := others ++ [(peer, recipients)]
    { startup := none
      byProcess := if MAX_GRANTS < choices.length then choices.tail else choices }

def configuredBy (grants : RecipientGrants) (process : ℕ) : Option (List String) :=
  (grants.byProcess.find? (·.1 = process)).map (·.2)

/-- What a session protected by `peer` may be sealed to: what `peer` configured, or else its
owner, or the startup recipients nobody has replaced yet. -/
def forSession (grants : RecipientGrants) (peer owner : Option ℕ) : Option (List String) :=
  (((peer.bind grants.configuredBy).or (owner.bind grants.configuredBy)).filter (· ≠ [])).or
    grants.startup

variable {grants : RecipientGrants} {process : ℕ} {recipients : List String}

theorem mem_of_configuredBy (h : grants.configuredBy process = some recipients) :
    (process, recipients) ∈ grants.byProcess := by
  obtain ⟨choice, hfind, rfl⟩ := Option.map_eq_some_iff.mp h
  have hprocess : choice.1 = process := by simpa using List.find?_some hfind
  exact hprocess ▸ List.mem_of_find?_eq_some hfind

variable {isRunning : ℕ → Bool} {choice : ℕ × List String}

theorem mem_of_forgetExited (h : choice ∈ (grants.forgetExited isRunning).byProcess) :
    choice ∈ grants.byProcess :=
  List.mem_of_mem_filter h

/-- The table has been told of nothing but configurations. -/
theorem mem_of_configured {peer : Option ℕ}
    (h : choice ∈ (grants.configured peer recipients isRunning).byProcess) :
    choice ∈ grants.byProcess ∨ ∃ process, peer = some process ∧ choice = (process, recipients) := by
  cases peer with
  | none => exact .inl h
  | some process =>
    have hchoices : choice ∈ (grants.forgetExited isRunning).byProcess.filter (·.1 ≠ process) ++
        [(process, recipients)] := by
      simp only [configured] at h
      split at h
      · exact List.mem_of_mem_tail h
      · exact h
    rcases List.mem_append.mp hchoices with hother | hthis
    · exact .inl (mem_of_forgetExited (List.mem_of_mem_filter hother))
    · exact .inr ⟨process, rfl, List.mem_singleton.mp hthis⟩

theorem configured_startup {peer : Option ℕ} :
    (grants.configured peer recipients isRunning).startup = none := by
  cases peer <;> rfl

/-- Whose choice it is that a session is pinned to. -/
theorem forSession_eq_some {peer owner : Option ℕ}
    (h : grants.forSession peer owner = some recipients) :
    (∃ process, peer = some process ∧ grants.configuredBy process = some recipients) ∨
    (peer.bind grants.configuredBy = none ∧
      ∃ process, owner = some process ∧ grants.configuredBy process = some recipients) ∨
    grants.startup = some recipients := by
  rcases Option.or_eq_some_iff.mp h with hchosen | ⟨-, hstartup⟩
  · obtain ⟨hchosen, -⟩ := Option.filter_eq_some_iff.mp hchosen
    rcases Option.or_eq_some_iff.mp hchosen with hpeer | ⟨hnone, howner⟩
    · exact .inl (Option.bind_eq_some_iff.mp hpeer)
    · exact .inr (.inl ⟨hnone, Option.bind_eq_some_iff.mp howner⟩)
  · exact .inr (.inr hstartup)

end RecipientGrants

/-! ### What a request does to the pin and to the record -/

/-- A request replaces the verifier of the session, and pins it. -/
def Event.protects (env : Env) (w : World V) : Event V → Bool
  | .detach request caller _ _ =>
    sessionControlAuthorized w.session caller.peerProcessId false &&
      request.verifier.any env.accepts
  | .share request caller forgotten _ _ =>
    (request.permit caller w.session).isOk && (request.offered || w.record.isNone || forgotten) &&
      request.verifier.any env.accepts
  | .setSessionScope request caller _ _ =>
    (request.permit env caller w.session).isOk && request.verifier.any env.accepts
  | _ => false

/-- Who asks. -/
def Event.caller : Event V → Option Caller
  | .detach _ caller _ _ | .share _ caller _ _ _ | .setSessionScope _ caller _ _
  | .sharedSnapshot _ caller _ | .applyShared _ caller _ | .checkSharedSpawn _ caller _
  | .checkSharedBatch _ caller _ | .commitSharedBatch _ _ _ caller _ => some caller
  | .beginSharedSpawn _ | .commitSharedSpawn _ _ _ | .normalize _ | .upkeep _ | .upgrade => none

/-- The client that a request makes the session's owner, by its own claim. -/
def Event.recorded (w : World V) : Event V → Option Caller
  | .detach _ caller _ _ => if w.session.offered then none else some caller
  | .share request caller _ _ _ => if request.offered then none else some caller
  | _ => none

/-- The owner that a request finds when it pins the session. -/
def Event.owner (w : World V) (event : Event V) : Option ℕ :=
  ((event.recorded w).map (·.clientProcessId)).or w.session.owner

/-- The session is pinned as it was and has this owner, and its record is what it was or gone. -/
structure Before (owner : Option ℕ) (w₀ w : World V) : Prop where
  authentication : w.session.authentication = w₀.session.authentication
  sealedTo : w.session.sealedTo = w₀.session.sealedTo
  owner : w.session.owner = owner
  record : w.record = w₀.record ∨ w.record = none

/-- The session is pinned as it was, or to what the caller or this owner may choose; and what has
been written of it has been written under its seal. -/
structure Guarded (env : Env) (protects : Prop) (peer owner : Option ℕ) (w₀ w : World V) :
    Prop where
  pin : (w.session.authentication = w₀.session.authentication ∧
      w.session.sealedTo = w₀.session.sealedTo) ∨
    (protects ∧ w.session.authentication.isSome = true ∧ w.session.owner = owner ∧
      w.session.sealedTo = (env.recipientsFor peer owner).or w₀.session.sealedTo)
  record : w.record = w₀.record ∨ w.record = none ∨
    ∃ record, w.record = some record ∧ record.verifier = w.session.authentication ∧
      record.sealedUnder = sealFor w.session ∧ sealFor w.session ≠ .withheld

variable {w w₀ : World V}

theorem Before.guarded {env : Env} {protects : Prop} {peer owner owner' : Option ℕ}
    (h : Before owner' w₀ w) : Guarded env protects peer owner w₀ w where
  pin := .inl ⟨h.authentication, h.sealedTo⟩
  record := h.record.imp_right .inl

section

variable {env : Env} {protects : Prop} {peer owner : Option ℕ} {w₀ : World V}

/-- What leaves the verifier, the pin and the owner alone. -/
theorem Guarded.edited {w : World V} {session : Session V} (h : Guarded env protects peer owner w₀ w)
    (hauthentication : session.authentication = w.session.authentication)
    (hsealedTo : session.sealedTo = w.session.sealedTo) (howner : session.owner = w.session.owner) :
    Guarded env protects peer owner w₀ { w with session } := by
  have hseal : sealFor session = sealFor w.session := by
    rw [sealFor, sealFor, hauthentication, hsealedTo]
  constructor
  · change (session.authentication = _ ∧ session.sealedTo = _) ∨
      (_ ∧ session.authentication.isSome = true ∧ session.owner = _ ∧ session.sealedTo = _)
    rw [hauthentication, hsealedTo, howner]
    exact h.pin
  · change _ ∨ _ ∨ ∃ record, w.record = some record ∧ record.verifier = session.authentication ∧
      record.sealedUnder = sealFor session ∧ sealFor session ≠ .withheld
    rw [hauthentication, hseal]
    exact h.record

/-- A record is written under the seal of the session. -/
theorem Guarded.saved {w : World V} {snapshots : List (ℕ × List UInt8)}
    {record : Option (PersistedSession V)} (h : Guarded env protects peer owner w₀ w)
    (hsaves : Saves env w snapshots record) :
    Guarded env protects peer owner w₀ { w with record } := by
  refine ⟨h.pin, ?_⟩
  cases hsaves with
  | disabled _ => exact h.record
  | withheld _ => exact .inr (.inl rfl)
  | written hseal _ => exact .inr (.inr ⟨_, rfl, rfl, rfl, hseal⟩)

theorem guarded_persistSession (saved : Bool) (snapshots : List (ℕ × List UInt8)) :
    Keeps (Guarded env protects peer owner w₀) (persistSession env saved snapshots) :=
  triple_persistSession (fun _ _ h hsaves => h.saved hsaves) fun _ _ => id

theorem guarded_persistLiveSession (saved : Bool) :
    Keeps (Guarded env protects peer owner w₀) (persistLiveSession env saved) :=
  triple_persistLiveSession (fun _ _ h hsaves => h.saved hsaves) fun _ _ => id

variable (state : SharedSessionState V)

theorem guarded_takeSnapshot :
    Keeps (Guarded env protects peer owner w₀) (takeSnapshot state) :=
  keeps_modify fun _ h => ⟨h.pin, h.record⟩

variable {f : Session V → Session V}

theorem guarded_edit (hf : ∀ session, (f session).authentication = session.authentication ∧
      (f session).sealedTo = session.sealedTo ∧ (f session).owner = session.owner) :
    Keeps (Guarded env protects peer owner w₀) (edit f) :=
  keeps_modify fun w h => h.edited (hf w.session).1 (hf w.session).2.1 (hf w.session).2.2

theorem guarded_normalizeSharedState (saved : Bool) :
    Keeps (Guarded env protects peer owner w₀) (normalizeSharedState env saved) := by
  refine keeps_bind (keeps_read _) fun state => ?_
  refine keeps_bind (keeps_read _) fun live => ?_
  refine keeps_bind (keeps_get _) fun _ => ?_
  refine keeps_bind (keeps_get _) fun _ => ?_
  refine keeps_bind (guarded_edit fun _ => ⟨rfl, rfl, rfl⟩) fun _ => ?_
  refine keeps_bind (keeps_read _) fun result => ?_
  refine keeps_bind (guarded_edit fun _ => ⟨rfl, rfl, rfl⟩) fun _ => ?_
  refine keeps_bind (keeps_when ?_) fun _ => keeps_pure _
  exact keeps_bind (guarded_persistLiveSession saved) fun _ => guarded_takeSnapshot _

variable {m : Request V (Reply V)}

theorem guarded_taken (hm : Keeps (Guarded env protects peer owner w₀) m) :
    Keeps (Guarded env protects peer owner w₀) (do takeSnapshot state; m) :=
  keeps_bind (guarded_takeSnapshot state) fun _ => hm

theorem guarded_answer (reply : Reply V) :
    Keeps (Guarded env protects peer owner w₀) (do takeSnapshot state; answer env reply) :=
  guarded_taken state (keeps_answer env reply)

theorem guarded_commit (next : SharedSessionState V)
    (hm : Keeps (Guarded env protects peer owner w₀) m)
    (hf : ∀ session, (f session).authentication = session.authentication ∧
      (f session).sealedTo = session.sealedTo ∧ (f session).owner = session.owner) :
    Keeps (Guarded env protects peer owner w₀)
      (do edit f; takeSnapshot next; takeSnapshot next; m) :=
  keeps_bind (guarded_edit hf) fun _ => guarded_taken next (guarded_taken next hm)

theorem guarded_sharedSnapshot (sessionId : ℕ) (caller : Caller) (repaired : Bool) :
    Keeps (Guarded env protects peer owner w₀) (sharedSnapshot env sessionId caller repaired) :=
  keeps_bind (keeps_read _) fun _ =>
    keeps_bind (guarded_normalizeSharedState repaired) fun state => guarded_answer state _

theorem guarded_applyShared (request : SharedOperationRequest V) (caller : Caller)
    (repaired : Bool) :
    Keeps (Guarded env protects peer owner w₀) (applyShared F env request caller repaired) := by
  refine keeps_bind (keeps_read _) fun _ => ?_
  refine keeps_bind (guarded_normalizeSharedState repaired) fun state => ?_
  refine triple_ite (fun _ => guarded_answer state _) fun _ => ?_
  refine triple_ite (fun _ => guarded_answer state _) fun _ => ?_
  refine keeps_bind (keeps_read _) fun _ => ?_
  split
  · exact guarded_answer state _
  · refine keeps_bind (keeps_read _) fun next => ?_
    exact guarded_commit next (keeps_answer env _) fun _ => ⟨rfl, rfl, rfl⟩

theorem guarded_checkSharedSpawn (request : SharedSpawnRequest) (caller : Caller)
    (repaired : Bool) :
    Keeps (Guarded env protects peer owner w₀) (checkSharedSpawn env request caller repaired) := by
  refine keeps_bind (keeps_read _) fun _ => ?_
  refine keeps_bind (guarded_normalizeSharedState repaired) fun state => ?_
  exact triple_ite (fun _ => guarded_answer state _) fun _ => keeps_pure _

theorem guarded_commitSharedSpawn (request : SharedSpawnRequest) (paneId : ℕ) (repaired : Bool) :
    Keeps (Guarded env protects peer owner w₀)
      (commitSharedSpawn env request paneId repaired) := by
  refine keeps_bind (keeps_read _) fun _ => ?_
  refine keeps_bind (guarded_normalizeSharedState repaired) fun state => ?_
  refine triple_ite (fun _ => guarded_answer state _) fun _ => ?_
  exact guarded_commit _ (keeps_answer env _) fun _ => ⟨rfl, rfl, rfl⟩

variable (request : SharedSpawnBatchRequest)

theorem guarded_checkSharedBatch (caller : Caller) (repaired : Bool) :
    Keeps (Guarded env protects peer owner w₀) (checkSharedBatch env request caller repaired) := by
  refine keeps_bind (keeps_read _) fun _ => ?_
  refine keeps_bind (keeps_read _) fun _ => ?_
  refine keeps_bind (guarded_normalizeSharedState repaired) fun state => ?_
  split
  · refine keeps_bind (guarded_taken state (keeps_pure _)) fun reply => ?_
    exact keeps_answer env reply
  · exact triple_ite (fun _ => guarded_answer state _) fun _ => keeps_pure _

theorem guarded_commitSharedBatch (paneIds : List ℕ) (replacement : BackgroundPaneLayout)
    (caller : Caller) (repaired : Bool) :
    Keeps (Guarded env protects peer owner w₀)
      (commitSharedBatch env request paneIds replacement caller repaired) := by
  refine keeps_bind (keeps_read _) fun _ => ?_
  refine keeps_bind (guarded_normalizeSharedState repaired) fun state => ?_
  split
  · exact guarded_taken state (keeps_pure _)
  dsimp only
  split
  · exact guarded_taken state (keeps_pure _)
  · refine keeps_bind (keeps_read _) fun activePane => ?_
    exact guarded_commit _ (keeps_pure _) fun _ => ⟨rfl, rfl, rfl⟩

theorem guarded_offer (repaired : Bool) :
    Keeps (Guarded env protects peer owner w₀) (offer env repaired) := by
  refine keeps_bind (guarded_edit fun _ => ⟨rfl, rfl, rfl⟩) fun _ => ?_
  exact keeps_bind (guarded_normalizeSharedState repaired) fun _ => keeps_pure _

theorem guarded_withdraw : Keeps (Guarded env protects peer owner w₀) withdraw :=
  guarded_edit fun _ => ⟨rfl, rfl, rfl⟩

/-- A verifier that comes with a request pins the session to what the caller or its owner has
configured, or leaves it pinned as it was. -/
theorem guarded_protect {verifier keyEnvelope : Option String}
    (hprotects : ∀ text, verifier = some text → env.accepts text = true → protects) :
    Triple (Before owner w₀) (protect env verifier keyEnvelope peer)
      (fun _ => Guarded env protects peer owner w₀) (fun _ => Before owner w₀) := by
  cases verifier with
  | none => exact triple_pure fun _ h => h.guarded
  | some text =>
    rw [protect]
    refine triple_bind (Q := fun _ w => Before owner w₀ w ∧ env.accepts text = true)
      (triple_require (fun _ h haccepts => ⟨h, haccepts⟩) fun _ h _ => h) fun _ => ?_
    refine triple_fact fun haccepts => ?_
    have hprotects := hprotects text rfl haccepts
    rintro w h
    -- The pin is decided in the session as it is once the verifier is in it.
    have hpinned : Guarded env protects peer owner w₀ { w with session := { w.session with
        authentication := some text
        keyEnvelope
        failedAuthentications := 0
        refuseUntil := none
        sealedTo := (env.recipientsFor peer w.session.owner).or w.session.sealedTo } } := by
      refine ⟨.inr ⟨hprotects, rfl, h.owner, ?_⟩, h.record.imp_right .inl⟩
      rw [← h.sealedTo, ← h.owner]
    change Guarded env protects peer owner w₀ (if _ then _ else _)
    split
    · exact ⟨hpinned.pin, .inr (.inl rfl)⟩
    · exact hpinned

end

/-- The request has changed nothing yet, but may have forgotten the record. -/
structure Unchanged (w₀ w : World V) : Prop where
  session : w.session = w₀.session
  record : w.record = w₀.record ∨ w.record = none

theorem unchanged_refl (w : World V) : Unchanged w w := ⟨rfl, .inl rfl⟩

theorem Unchanged.before (h : Unchanged w₀ w) : Before w₀.session.owner w₀ w := by
  constructor
  · rw [h.session]
  · rw [h.session]
  · rw [h.session]
  · exact h.record

theorem triple_describe {f : Session V → Session V} {E : String → World V → Prop}
    (hf : ∀ session, (f session).authentication = session.authentication ∧
      (f session).sealedTo = session.sealedTo) :
    Triple (Unchanged w₀) (edit f) (fun _ => Before (f w₀.session).owner w₀) E := by
  refine triple_modify fun w h => ?_
  constructor
  · exact (hf w.session).1.trans (by rw [h.session])
  · exact (hf w.session).2.trans (by rw [h.session])
  · change (f w.session).owner = _
    rw [h.session]
  · exact h.record

/-- A handler that starts as `w` ends guarded. -/
abbrev Guards (env : Env) (w : World V) (event : Event V) {α : Type} (m : Request V α) : Prop :=
  Triple (· = w) m
    (fun _ => Guarded env (event.protects env w = true) (event.caller.bind (·.peerProcessId))
      (event.owner w) w)
    (fun _ => Guarded env (event.protects env w = true) (event.caller.bind (·.peerProcessId))
      (event.owner w) w)

theorem guards_detach (env : Env) (request : DetachRequest V) (caller : Caller)
    (repaired saved : Bool) (w : World V) :
    Guards env w (.detach request caller repaired saved)
      (detach env request caller repaired saved) := by
  rw [Guards, detach]
  refine triple_bind (Q := fun _ t => Unchanged w t ∧
    sessionControlAuthorized w.session caller.peerProcessId false = true)
    (triple_require ?_ ?_) fun _ => ?_
  · rintro t rfl hauthorized
    exact ⟨unchanged_refl t, hauthorized⟩
  · rintro t rfl -
    exact (unchanged_refl t).before.guarded
  refine triple_fact fun hauthorized => ?_
  refine triple_bind (triple_describe fun _ => ⟨rfl, rfl⟩) fun _ => ?_
  have hprotects : ∀ text, request.verifier = some text → env.accepts text = true →
      Event.protects env w (.detach request caller repaired saved) = true := by
    intro text htext haccepts
    rw [Event.protects, hauthorized, htext, Option.any_some, haccepts]
    rfl
  have howner : Event.owner w (.detach request caller repaired saved) =
      (request.describe caller w.session).owner := by
    rw [Event.owner, Event.recorded, DetachRequest.describe]
    split <;> rfl
  rw [howner]
  refine triple_bind ((guarded_protect hprotects).mono (fun _ => id) (fun _ _ => id)
    fun _ _ h => h.guarded) fun _ => ?_
  refine keeps_bind (guarded_edit fun _ => ⟨rfl, rfl, rfl⟩) fun _ => ?_
  refine keeps_bind (keeps_when (guarded_offer repaired)) fun _ => ?_
  refine keeps_bind (guarded_edit fun _ => ⟨rfl, rfl, rfl⟩) fun _ => ?_
  exact keeps_bind (guarded_persistSession saved _) fun _ => keeps_answer env _

theorem guards_share (env : Env) (request : ShareRequest V) (caller : Caller)
    (forgotten repaired saved : Bool) (w : World V) :
    Guards env w (.share request caller forgotten repaired saved)
      (share env request caller forgotten repaired saved) := by
  rw [Guards, share]
  refine triple_bind (Q := fun _ t => t = w ∧ request.permit caller w.session = .ok ())
    (triple_read ?_ ?_) fun _ => ?_
  · rintro t ⟨⟩ rfl hadmit
    exact ⟨rfl, hadmit⟩
  · rintro t e rfl -
    exact (unchanged_refl t).before.guarded
  refine triple_fact fun hadmit => ?_
  -- The record of a session that is withdrawn is forgotten, or nothing more happens.
  refine triple_bind (Q := fun _ t => Unchanged w t ∧
    (request.offered || w.record.isNone || forgotten) = true) (E := fun _ => Guarded env _ _ _ w)
    (triple_when ?_ ?_) fun _ => ?_
  · refine triple_when ?_ ?_
    · refine triple_bind (Q := fun _ t => t = w ∧ forgotten = true)
        (triple_require ?_ ?_) fun _ => triple_modify ?_
      · rintro t ⟨⟨rfl, -⟩, -⟩ hforgotten
        exact ⟨rfl, hforgotten⟩
      · rintro t ⟨⟨rfl, -⟩, -⟩ -
        exact (unchanged_refl t).before.guarded
      · rintro t ⟨rfl, hforgotten⟩
        exact ⟨⟨rfl, .inr rfl⟩, by rw [hforgotten, Bool.or_true]⟩
    · rintro t ⟨rfl, -⟩ hrecord
      refine ⟨unchanged_refl t, ?_⟩
      rw [Option.isSome_eq_false_iff.mp hrecord, Bool.or_true, Bool.true_or]
  · rintro t rfl hoffered
    have hoffered' : request.offered = true := by simpa using hoffered
    exact ⟨unchanged_refl t, by rw [hoffered']; rfl⟩
  refine triple_fact fun hforgotten => ?_
  refine triple_bind (triple_describe fun _ => ⟨rfl, rfl⟩) fun _ => ?_
  have hprotects : ∀ text, request.verifier = some text → env.accepts text = true →
      Event.protects env w (.share request caller forgotten repaired saved) = true := by
    intro text htext haccepts
    rw [Event.protects, hadmit, hforgotten, htext, Option.any_some, haccepts]
    rfl
  have howner : Event.owner w (.share request caller forgotten repaired saved) =
      (request.describe caller w.session).owner := by
    rw [Event.owner, Event.recorded, ShareRequest.describe]
    split <;> rfl
  rw [howner]
  refine triple_bind ((guarded_protect hprotects).mono (fun _ => id) (fun _ _ => id)
    fun _ _ h => h.guarded) fun _ => ?_
  refine keeps_bind (guarded_edit fun _ => ⟨rfl, rfl, rfl⟩) fun _ => ?_
  refine keeps_bind (triple_ite (fun _ => ?_) fun _ => guarded_withdraw)
    fun _ => keeps_answer env _
  exact keeps_bind (guarded_offer repaired) fun _ => guarded_persistLiveSession saved

theorem guards_setSessionScope (env : Env) (request : ScopeRequest) (caller : Caller)
    (repaired saved : Bool) (w : World V) :
    Guards env w (.setSessionScope request caller repaired saved)
      (setSessionScope env request caller repaired saved) := by
  rw [Guards, setSessionScope]
  refine triple_bind (Q := fun _ t => Before w.session.owner w t ∧
    request.permit env caller w.session = .ok ()) (triple_read ?_ ?_) fun _ => ?_
  · rintro t ⟨⟩ rfl hadmit
    exact ⟨(unchanged_refl t).before, hadmit⟩
  · rintro t e rfl -
    exact (unchanged_refl t).before.guarded
  refine triple_fact fun hadmit => ?_
  have hprotects : ∀ text, request.verifier = some text → env.accepts text = true →
      Event.protects env w (.setSessionScope request caller repaired saved) = true := by
    intro text htext haccepts
    rw [Event.protects, hadmit, htext, Option.any_some, haccepts]
    rfl
  have howner : Event.owner w (.setSessionScope request caller repaired saved) = w.session.owner :=
    rfl
  rw [howner]
  refine triple_bind ((guarded_protect hprotects).mono (fun _ => id) (fun _ _ => id)
    fun _ _ h => h.guarded) fun _ => ?_
  refine keeps_bind
    (keeps_when (guarded_edit fun _ => ⟨rfl, rfl, rfl⟩)) fun _ => ?_
  refine keeps_bind (keeps_read _) fun _ => ?_
  refine keeps_bind (guarded_edit fun _ => ⟨rfl, rfl, rfl⟩) fun _ => ?_
  refine keeps_bind (triple_ite (fun _ => guarded_offer repaired)
    fun _ => guarded_withdraw) fun _ => ?_
  exact keeps_bind (guarded_persistLiveSession saved) fun _ => keeps_answer env _

/-- **One request**, but for what the rest of the daemon does, leaves the session guarded. -/
theorem guarded_handler {env : Env} {event : Event V} (hrequest : ∀ change, event ≠ .upkeep change) :
    Guarded env (event.protects env w = true) (event.caller.bind (·.peerProcessId))
      (event.owner w) w (event.handler F env w).2 := by
  have hkeeps : ∀ {m : Request V (Reply V)},
      Keeps (Guarded env (event.protects env w = true)
        (event.caller.bind (·.peerProcessId)) (event.owner w) w) m →
      Guarded env (event.protects env w = true) (event.caller.bind (·.peerProcessId))
        (event.owner w) w (m w).2 :=
    fun h => h.snd (unchanged_refl w).before.guarded
  cases event with
  | detach request caller repaired saved =>
    exact (guards_detach env request caller repaired saved w).snd rfl
  | share request caller forgotten repaired saved =>
    exact (guards_share env request caller forgotten repaired saved w).snd rfl
  | setSessionScope request caller repaired saved =>
    exact (guards_setSessionScope env request caller repaired saved w).snd rfl
  | sharedSnapshot sessionId caller repaired =>
    exact hkeeps (guarded_sharedSnapshot sessionId caller repaired)
  | applyShared request caller repaired => exact hkeeps (guarded_applyShared request caller repaired)
  | beginSharedSpawn request =>
    exact hkeeps (keeps_bind (keeps_read _) fun _ => keeps_pure _)
  | checkSharedSpawn request caller repaired =>
    exact hkeeps (guarded_checkSharedSpawn request caller repaired)
  | commitSharedSpawn request paneId repaired =>
    exact hkeeps (guarded_commitSharedSpawn request paneId repaired)
  | checkSharedBatch request caller repaired =>
    exact hkeeps (guarded_checkSharedBatch request caller repaired)
  | commitSharedBatch request paneIds replacement caller repaired =>
    exact hkeeps (keeps_bind
      (guarded_commitSharedBatch request paneIds replacement caller repaired) fun reply =>
        keeps_answer env reply)
  | normalize repaired =>
    refine hkeeps (keeps_bind (keeps_when ?_) fun _ => keeps_pure _)
    exact keeps_bind (guarded_normalizeSharedState repaired) fun _ => keeps_pure _
  | upkeep change => exact absurd rfl (hrequest change)
  | upgrade => exact hkeeps (keeps_bind (guarded_edit fun _ => ⟨rfl, rfl, rfl⟩)
      fun _ => keeps_pure _)

/-! ### The daemon -/

/-- The sessions, the grants, and whether anything is being persisted. -/
structure Daemon (V : Type) where
  sessions : Registry V
  grants : RecipientGrants
  enabled : Bool

/-- The surroundings in which a session is pinned: those whose process has exited are forgotten. -/
def Daemon.env (d : Daemon V) (env : Env) : Env :=
  { env with
    enabled := d.enabled
    recipientsFor := (d.grants.forgetExited env.running).forSession }

def Opening.verifier : Opening V → Option String
  | .spawned .. => none
  | .restored request .. => request.verifier
  | .created request .. => request.verifier

/-- The client that a session is opened for, by its own claim. -/
def Opening.owner : Opening V → Option ℕ
  | .spawned owner .. => some owner
  | .restored _ clientProcessId .. => some clientProcessId
  | .created .. => none

/-- The peer whose choice a session is pinned to as it is opened. -/
def Opening.peer : Opening V → Option ℕ
  | .spawned .. => none
  | .restored _ _ authorizedPeer _ => authorizedPeer
  | .created _ _ peerProcessId _ _ => peerProcessId

/-- A protected restored session can only be spawned by the peer that resumed it. -/
def Opening.isAskedBy (peer : Option ℕ) (opening : Opening V) : Bool :=
  opening.verifier.isNone || opening.peer = peer

/-- Pins the protected sessions a peer owns or holds that nothing has pinned yet. -/
def Session.configuredBy (peer : Option ℕ) (recipients : List String) (session : Session V) :
    Session V :=
  if recipients ≠ [] ∧ session.authentication.isSome ∧ session.sealedTo = none ∧
      sessionIdentityAuthorized session peer then
    { session with sealedTo := some recipients }
  else session

/-- The store that a configuration opens is told of the session, and written to. -/
def World.stored (env : Env) (saved : Bool) (w : World V) : World V :=
  let env := { env with enabled := true }
  let told := if isWithheld env w.session then { w with record := none } else w
  if saved && (w.session.keep || w.session.offered) then (persistLiveSession env true told).2
  else told

/-- A configuration; the store may fail to open, and sessions may fail to be saved to it. -/
def Daemon.configured (env : Env) (peer : Option ℕ) (recipients : List String)
    (opened installed : Bool) (saved : ℕ → Bool) (d : Daemon V) : Daemon V where
  sessions := fun sessionId => (d.sessions sessionId).map fun w =>
    let pinned := { w with session := w.session.configuredBy peer recipients }
    if opened then pinned.stored env (saved sessionId) else pinned
  grants := d.grants.configured peer recipients env.running
  enabled := if opened && installed then decide (recipients ≠ []) else d.enabled

/-- The screen that a client hands back may be written to disk, of an offered session. -/
def World.snapshot (env : Env) (saved : Bool) (w : World V) : World V :=
  if saved && w.session.offered then (persistLiveSession env true w).2 else w

/-- The session as the daemon's next image takes it over, and tells its store of it. -/
def World.adopted (env : Env) (w : World V) : World V :=
  let w := { w with session := adopt w.session }
  if isWithheld env w.session then { w with record := none } else w

/-- What else the daemon changes of a session: only a client that asks is recorded as its owner or
as the holder of a pane, and the record may be forgotten. -/
structure Upkeep.Plain (w : World V) (client : Option Caller) (change : Upkeep V) : Prop where
  sealedTo : change.sealedTo = w.session.sealedTo
  record : change.record = w.record ∨ change.record = none
  owner : change.owner = w.session.owner ∨
    ∃ caller, client = some caller ∧ change.owner = some caller.clientProcessId
  holders : ∀ process, change.panes.any (paneIsHeldBy · process) = true →
    w.session.isHeldBy process = true ∨ client.map (·.clientProcessId) = some process

inductive Act (V : Type)
  | start (sessionId : ℕ) (peer : Option ℕ) (opening : Opening V)
  /-- A control request, or one half of a collaboration request. -/
  | request (sessionId : ℕ) (event : Event V)
  /-- A client attaches or spawns a pane; or leaves or hands a screen back, or a pane exits. -/
  | change (sessionId : ℕ) (client : Option Caller) (change : Upkeep V) (saved : Bool)
  | configure (peer : Option ℕ) (recipients : List String) (opened installed : Bool)
    (saved : ℕ → Bool)
  | upgrade
  | finish (sessionId : ℕ)

/-- What the daemon does, in surroundings that may differ from one act to the next. -/
def Daemon.Next (F : AreaArithmetic R) (d : Daemon V) (env : Env) : Act V → Daemon V → Prop
  | .start sessionId peer opening, d' =>
    opening.isAskedBy peer = true ∧ d.sessions sessionId = none ∧
      ∃ w, opening.world (d.env env) sessionId = .ok w ∧ d' = { d with
        sessions := update d.sessions sessionId (some w)
        grants :=
          if opening.verifier.isSome then d.grants.forgetExited env.running else d.grants }
  | .request sessionId event, d' =>
    (∀ change, event ≠ .upkeep change) ∧ ∃ w, d.sessions sessionId = some w ∧ d' = { d with
      sessions := update d.sessions sessionId (some (event.handler F (d.env env) w).2)
      grants :=
        if event.protects (d.env env) w then d.grants.forgetExited env.running else d.grants }
  | .change sessionId client change saved, d' =>
    ∃ w, d.sessions sessionId = some w ∧ change.Plain w client ∧
      d' = { d with
        sessions := update d.sessions sessionId
          (some ((change.apply w).snapshot (d.env env) saved)) }
  | .configure peer recipients opened installed saved, d' =>
    d' = d.configured env peer recipients opened installed saved
  | .upgrade, d' =>
    d' = { d with sessions := fun sessionId => (d.sessions sessionId).map (·.adopted (d.env env)) }
  | .finish sessionId, d' => d' = { d with sessions := update d.sessions sessionId none }

/-! ### Who may choose -/

/-- What has happened, as far as it decides whose recipients a session may be pinned to. -/
structure History where
  /-- Anybody has configured. -/
  configured : Bool
  /-- What processes have configured that the transport vouched for. -/
  configurations : List (ℕ × List String)
  /-- Of each session, the processes that the transport vouched for as they became its owner or
  the holder of one of its panes. -/
  vouched : ℕ → ℕ → Prop
  /-- Of each session, the recipients that were suitable when it was pinned. -/
  chosen : ℕ → List String → Prop

/-- The process of a client, if the transport vouches for it. -/
def Caller.verifiedProcessId (caller : Caller) : Option ℕ :=
  caller.peerProcessId.filter (· = caller.clientProcessId)

/-- Recipients that a session may be pinned to at a peer's request. -/
inductive Suitable (started : Option (List String)) (history : History) (sessionId : ℕ)
    (session : Session V) (peer : Option ℕ) (recipients : List String) : Prop
  | startup (hfirst : history.configured = false) (hstarted : started = some recipients)
  | protector (process : ℕ) (hpeer : peer = some process)
    (hconfigured : (process, recipients) ∈ history.configurations)
  | client (process : ℕ)
    (hclient : session.owner = some process ∨ session.isHeldBy process = true)
    (hvouched : history.vouched sessionId process)
    (hconfigured : (process, recipients) ∈ history.configurations)

/-- The history with what an act tells of configurations and of clients. -/
def History.told (history : History) (d : Daemon V) (act : Act V) (d' : Daemon V) : History :=
  let records (sessionId : ℕ) (client : Option Caller) : History :=
    { history with vouched := fun id process => history.vouched id process ∨
        id = sessionId ∧ (∃ caller, client = some caller ∧
          caller.verifiedProcessId = some process) ∧
        ∃ w, d'.sessions sessionId = some w ∧
          (w.session.owner = some process ∨ w.session.isHeldBy process = true) }
  match act with
  | .start sessionId peer opening =>
    { history with vouched := update history.vouched sessionId fun process =>
        opening.owner = some process ∧ peer = some process }
  | .request sessionId event => records sessionId ((d.sessions sessionId).bind event.recorded)
  | .change sessionId client _ _ => records sessionId client
  | .configure peer recipients _ _ _ =>
    { history with
      configured := true
      configurations := (peer.map fun process => (process, recipients)).toList ++
        history.configurations }
  | .upgrade | .finish _ => history

/-- An act pins a session, as it then is, at the request of a peer. -/
def Pins (env : Env) (d : Daemon V) (act : Act V) (d' : Daemon V) (sessionId : ℕ)
    (session : Session V) (peer : Option ℕ) : Prop :=
  match act with
  | .start id peer' opening => sessionId = id ∧ opening.verifier.isSome = true ∧
      (∃ w, d'.sessions id = some w ∧ w.session = session) ∧ peer = peer'
  | .request id event => sessionId = id ∧
      (∃ w, d.sessions id = some w ∧ event.protects (d.env env) w = true) ∧
      (∃ w, d'.sessions id = some w ∧ w.session = session) ∧
      peer = event.caller.bind (·.peerProcessId)
  | .configure .. => (∃ w, d.sessions sessionId = some w ∧ w.session = session) ∧ peer = none
  | .change .. | .upgrade | .finish _ => False

def Act.starts (sessionId : ℕ) : Act V → Prop
  | .start id .. => id = sessionId
  | _ => False

/-- The history after an act. -/
def History.after (started : Option (List String)) (history : History) (env : Env) (d : Daemon V)
    (act : Act V) (d' : Daemon V) : History :=
  let told := history.told d act d'
  { told with chosen := fun sessionId recipients =>
      (history.chosen sessionId recipients ∧ ¬act.starts sessionId) ∨
      ∃ session peer, Pins env d act d' sessionId session peer ∧
        Suitable started told sessionId session peer recipients }

/-- The daemon, and what it has come from. -/
structure System (V : Type) where
  daemon : Daemon V
  history : History

def System.start (started : Option (List String)) (enabled : Bool) : System V where
  daemon := ⟨fun _ => none, .startingWith started, enabled⟩
  history := ⟨false, [], fun _ _ => False, fun _ _ => False⟩

def System.Next (F : AreaArithmetic R) (started : Option (List String)) (s : System V)
    (act : Env × Act V) (s' : System V) : Prop :=
  s.daemon.Next F act.1 act.2 s'.daemon ∧
    s'.history = s.history.after started act.1 s.daemon act.2 s'.daemon

/-! ### The condition and the invariant -/

/-- If a session is pinned to what its owner has configured, for the peer has configured nothing,
then the transport has vouched for this owner. -/
def Vouches (grants : RecipientGrants) (vouched : ℕ → Prop) (peer owner : Option ℕ) : Prop :=
  ∀ process, owner = some process → peer.bind grants.configuredBy = none →
    (grants.configuredBy process).isSome = true → vouched process

/-- No session is pinned through an owner or a holder that is one by a mere claim. -/
def Meets (s : System V) (act : Env × Act V) : Prop :=
  match act.2 with
  | .start _ peer opening => opening.verifier.isSome = true →
      Vouches (s.daemon.grants.forgetExited act.1.running) (fun process => peer = some process) peer
        opening.owner
  | .request sessionId event => ∀ w, s.daemon.sessions sessionId = some w →
      event.protects (s.daemon.env act.1) w = true →
      Vouches (s.daemon.grants.forgetExited act.1.running) (fun process =>
          s.history.vouched sessionId process ∨ ∃ caller, event.recorded w = some caller ∧
            caller.verifiedProcessId = some process)
        (event.caller.bind (·.peerProcessId)) (event.owner w)
  | .configure peer recipients _ _ _ => recipients ≠ [] → ∀ process, peer = some process →
      ∀ sessionId w, s.daemon.sessions sessionId = some w →
        w.session.authentication.isSome = true → w.session.sealedTo = none →
        (w.session.owner = some process ∨ w.session.isHeldBy process = true) →
        s.history.vouched sessionId process
  | .change .. | .upgrade | .finish _ => True

/-- A session is pinned to recipients that were suitable, and so is its record if there is a
verifier in it. -/
structure Well (chosen : List String → Prop) (w : World V) : Prop where
  pinned : ∀ recipients, w.session.sealedTo = some recipients → chosen recipients
  written : ∀ record, w.record = some record → record.verifier.isSome = true →
    ∃ recipients, record.sealedUnder = .recipients recipients ∧ chosen recipients

/-- The invariant. -/
structure Kept (started : Option (List String)) (s : System V) : Prop where
  startup : ∀ recipients, s.daemon.grants.startup = some recipients →
    s.history.configured = false ∧ started = some recipients
  choices : ∀ choice ∈ s.daemon.grants.byProcess, choice ∈ s.history.configurations
  sessions : ∀ sessionId w, s.daemon.sessions sessionId = some w →
    Well (s.history.chosen sessionId) w

variable {session : Session V}

/-- What a protected session is written under, unless it is withheld. -/
theorem sealFor_eq_recipients (hprotected : session.authentication.isSome = true)
    (hseal : sealFor session ≠ .withheld) :
    ∃ recipients, session.sealedTo = some recipients ∧ sealFor session = .recipients recipients := by
  have hnone : session.authentication.isNone = false := by
    rw [← Option.not_isSome, hprotected]
    rfl
  have hsealFor : sealFor session = (session.sealedTo.map Seal.recipients).getD .withheld := by
    rw [sealFor, hnone]
    rfl
  cases hpin : session.sealedTo with
  | none =>
    rw [hpin] at hsealFor
    exact absurd hsealFor hseal
  | some recipients =>
    rw [hpin] at hsealFor
    exact ⟨recipients, rfl, hsealFor⟩

variable {chosen : List String → Prop} {chosen' : List String → Prop}

theorem Well.mono (h : Well chosen w) (hmono : ∀ recipients, chosen recipients → chosen' recipients) :
    Well chosen' w where
  pinned recipients hpin := hmono recipients (h.pinned recipients hpin)
  written record hrecord hverifier := by
    obtain ⟨recipients, hsealed, hchosen⟩ := h.written record hrecord hverifier
    exact ⟨recipients, hsealed, hmono recipients hchosen⟩

/-- A record that has been written under the seal of a session that is well. -/
theorem Well.of_written
    (hpinned : ∀ recipients, w.session.sealedTo = some recipients → chosen recipients)
    (hrecord : w.record = none ∨ ∃ record, w.record = some record ∧
      record.verifier = w.session.authentication ∧ record.sealedUnder = sealFor w.session ∧
      sealFor w.session ≠ .withheld) : Well chosen w := by
  refine ⟨hpinned, fun record hsome hverifier => ?_⟩
  rcases hrecord with hnone | ⟨written, hwritten, hauthentication, hsealed, hseal⟩
  · exact (Option.some_ne_none _ (hsome.symm.trans hnone)).elim
  · cases hsome.symm.trans hwritten
    obtain ⟨recipients, hpin, hsealFor⟩ :=
      sealFor_eq_recipients (hauthentication ▸ hverifier) hseal
    exact ⟨recipients, hsealed.trans hsealFor, hpinned recipients hpin⟩

/-- A request leaves a session well if what it may pin it to is suitable. -/
theorem Guarded.well {env : Env} {protects : Prop} {peer owner : Option ℕ}
    (h : Guarded env protects peer owner w₀ w) (hwell : Well chosen w₀)
    (hmono : ∀ recipients, chosen recipients → chosen' recipients)
    (hpins : protects → w.session.owner = owner → ∀ recipients,
      env.recipientsFor peer owner = some recipients → chosen' recipients) : Well chosen' w := by
  have hpinned : ∀ recipients, w.session.sealedTo = some recipients → chosen' recipients := by
    intro recipients hpin
    rcases h.pin with ⟨-, hsame⟩ | ⟨hprotects, -, howner, hnew⟩
    · exact hmono recipients (hwell.pinned recipients (hsame ▸ hpin))
    · rcases Option.or_eq_some_iff.mp (hnew.symm.trans hpin) with hfor | ⟨-, hold⟩
      · exact hpins hprotects howner recipients hfor
      · exact hmono recipients (hwell.pinned recipients hold)
  rcases h.record with hsame | hwritten
  · refine ⟨hpinned, fun record hrecord => ?_⟩
    exact (hwell.mono hmono).written record (hsame ▸ hrecord)
  · exact .of_written hpinned hwritten

variable {started : Option (List String)} {sessionId : ℕ}

/-- What the table answers is suitable, if it is not by way of an owner by claim. -/
theorem suitable_of_forSession {s : System V} (h : Kept started s) {isRunning : ℕ → Bool}
    {told : History} {peer owner : Option ℕ} {recipients : List String} {vouched : ℕ → Prop}
    (hconfigured : told.configured = s.history.configured)
    (hconfigurations : told.configurations = s.history.configurations)
    (hvouches : Vouches (s.daemon.grants.forgetExited isRunning) vouched peer owner)
    (hvouched : ∀ process, owner = some process → vouched process →
      told.vouched sessionId process) (howner : session.owner = owner)
    (hfor : (s.daemon.grants.forgetExited isRunning).forSession peer owner = some recipients) :
    Suitable started told sessionId session peer recipients := by
  have hmem : ∀ {process}, (s.daemon.grants.forgetExited isRunning).configuredBy process =
      some recipients → (process, recipients) ∈ told.configurations := by
    intro process hchoice
    rw [hconfigurations]
    exact h.choices _ (RecipientGrants.mem_of_forgetExited
      (RecipientGrants.mem_of_configuredBy hchoice))
  rcases RecipientGrants.forSession_eq_some hfor with
    ⟨process, hpeer, hchoice⟩ | ⟨hnone, process, hprocess, hchoice⟩ | hstartup
  · exact .protector process hpeer (hmem hchoice)
  · refine .client process (.inl (howner.trans hprocess)) ?_ (hmem hchoice)
    exact hvouched process hprocess (hvouches process hprocess hnone (by rw [hchoice]; rfl))
  · obtain ⟨hfirst, hstarted⟩ := h.startup recipients hstartup
    exact .startup (hconfigured.trans hfirst) hstarted

/-! ### Every act keeps the invariant -/

/-- A session as it is opened: pinned by its verifier, if it has one, and written under its seal. -/
structure Opened (env : Env) (opening : Opening V) (w : World V) : Prop where
  owner : w.session.owner = opening.owner
  sealedTo : w.session.sealedTo = pinned env opening.verifier opening.peer opening.owner
  record : w.record = none ∨ ∃ record, w.record = some record ∧
    record.verifier = w.session.authentication ∧ record.sealedUnder = sealFor w.session ∧
    sealFor w.session ≠ .withheld

theorem opened_world {env : Env} {opening : Opening V} (h : opening.world env sessionId = .ok w) :
    Opened env opening w := by
  cases opening with
  | spawned owner pane null =>
    cases h
    exact ⟨rfl, rfl, .inl rfl⟩
  | restored request clientProcessId authorizedPeer pane =>
    simp only [Opening.world, restoredSession, check_bind_eq_ok] at h
    obtain ⟨-, h⟩ := h
    obtain ⟨session, hsession, h⟩ := bind_eq_ok.mp h
    obtain ⟨-, hsession⟩ := check_bind_eq_ok.mp hsession
    cases h
    cases hsession
    exact ⟨rfl, rfl, .inl rfl⟩
  | created request paneIds peerProcessId null saved =>
    obtain ⟨session, hsession, h⟩ := bind_eq_ok.mp h
    have hopened : Opened env (.created request paneIds peerProcessId null saved)
        ⟨session, none, []⟩ := by
      simp only [createdSession, check_bind_eq_ok] at hsession
      obtain ⟨-, -, hsession⟩ := hsession
      obtain ⟨layout, -, hsession⟩ := bind_eq_ok.mp hsession
      obtain ⟨activePane, -, hsession⟩ := bind_eq_ok.mp hsession
      cases hsession
      exact ⟨rfl, rfl, .inl rfl⟩
    have hkeeps : Keeps (Opened env (.created request paneIds peerProcessId null saved))
        (persistLiveSession env saved) := by
      refine triple_persistLiveSession (fun t record ht hsaves => ⟨ht.owner, ht.sealedTo, ?_⟩)
        fun _ _ => id
      cases hsaves with
      | disabled _ => exact ht.record
      | withheld _ => exact .inl rfl
      | written hseal _ => exact .inr ⟨_, rfl, rfl, rfl, hseal⟩
    have hsaved := hkeeps.snd hopened
    rcases hresult : persistLiveSession env saved ⟨session, none, []⟩ with ⟨result, w'⟩
    rw [hresult] at h hsaved
    obtain ⟨-, -, h⟩ := bind_eq_ok.mp h
    cases h
    exact ⟨hsaved.owner, hsaved.sealedTo, hsaved.record⟩

section

variable {started : Option (List String)} {s s' : System V} {env : Env}

variable {sessionId : ℕ} {w : World V}

/-- Whatever an act does to one session, the others are left alone. -/
theorem kept_of_update {history : History} {grants : RecipientGrants} {enabled : Bool}
    (h : Kept started s) (hgrants : grants = s.daemon.grants ∨
      ∃ isRunning, grants = s.daemon.grants.forgetExited isRunning)
    (hconfigured : history.configured = s.history.configured)
    (hconfigurations : history.configurations = s.history.configurations)
    (hothers : ∀ id recipients, id ≠ sessionId → s.history.chosen id recipients →
      history.chosen id recipients) (hwell : Well (history.chosen sessionId) w) :
    Kept started ⟨⟨update s.daemon.sessions sessionId (some w), grants, enabled⟩,
      history⟩ := by
  have hforget : grants.startup = s.daemon.grants.startup ∧
      ∀ choice ∈ grants.byProcess, choice ∈ s.daemon.grants.byProcess := by
    rcases hgrants with rfl | ⟨isRunning, rfl⟩
    · exact ⟨rfl, fun _ => id⟩
    · exact ⟨rfl, fun _ hmem => RecipientGrants.mem_of_forgetExited hmem⟩
  constructor
  · intro recipients hstartup
    obtain ⟨hfirst, hstarted⟩ := h.startup recipients (hforget.1.symm.trans hstartup)
    exact ⟨hconfigured.trans hfirst, hstarted⟩
  · intro choice hmem
    change choice ∈ history.configurations
    rw [hconfigurations]
    exact h.choices choice (hforget.2 choice hmem)
  · intro id w' hw'
    dsimp only at hw'
    rcases eq_or_ne id sessionId with rfl | hne
    · rw [update_self] at hw'
      exact Option.some.inj hw' ▸ hwell
    · rw [update_of_ne hne] at hw'
      exact (h.sessions id w' hw').mono fun recipients => hothers id recipients hne

theorem kept_start {peer : Option ℕ} {opening : Opening V} (h : Kept started s)
    (hmeets : Meets s (env, .start sessionId peer opening))
    (hnext : System.Next F started s (env, .start sessionId peer opening) s') :
    Kept started s' := by
  obtain ⟨⟨hasked, -, w, hw, hdaemon⟩, hhistory⟩ := hnext
  obtain ⟨daemon, history⟩ := s'
  dsimp only at hdaemon hhistory
  subst hdaemon hhistory
  have hopened := opened_world hw
  refine kept_of_update h ?_ rfl rfl (fun id recipients hne hchosen => ?_) ?_
  · split
    · exact .inr ⟨_, rfl⟩
    · exact .inl rfl
  · exact .inl ⟨hchosen, hne.symm⟩
  refine .of_written (fun recipients hpin => ?_) hopened.record
  rw [hopened.sealedTo, pinned] at hpin
  split at hpin
  next hverifier =>
    have hpeer : opening.peer = peer := by
      have hnone : opening.verifier.isNone = false := by rw [← Option.not_isSome, hverifier]; rfl
      rw [Opening.isAskedBy, hnone, Bool.false_or] at hasked
      exact of_decide_eq_true hasked
    refine .inr ⟨w.session, peer, ⟨rfl, hverifier, ⟨w, update_self .., rfl⟩, rfl⟩, ?_⟩
    refine suitable_of_forSession h rfl rfl (hmeets hverifier) (fun process howner hpeer' => ?_)
      hopened.owner (hpeer ▸ hpin)
    change update s.history.vouched sessionId _ sessionId process
    rw [update_self]
    exact ⟨howner, hpeer'⟩
  next hverifier => cases hpin

theorem kept_request {event : Event V} (h : Kept started s)
    (hmeets : Meets s (env, .request sessionId event))
    (hnext : System.Next F started s (env, .request sessionId event) s') : Kept started s' := by
  obtain ⟨⟨hrequest, w, hw, hdaemon⟩, hhistory⟩ := hnext
  obtain ⟨daemon, history⟩ := s'
  dsimp only at hdaemon hhistory
  subst hdaemon hhistory
  refine kept_of_update h ?_ rfl rfl (fun id recipients _ hchosen => .inl ⟨hchosen, not_false⟩) ?_
  · split
    · exact .inr ⟨_, rfl⟩
    · exact .inl rfl
  -- What the request pins the session to is suitable, in the session as it then is.
  refine (guarded_handler hrequest).well (h.sessions sessionId w hw)
    (fun recipients hchosen => .inl ⟨hchosen, not_false⟩) fun hprotects howner recipients hfor => ?_
  refine .inr ⟨_, _, ⟨rfl, ⟨w, hw, hprotects⟩, ⟨_, update_self .., rfl⟩, rfl⟩, ?_⟩
  refine suitable_of_forSession h rfl rfl (hmeets w hw hprotects)
    (fun process howner' hvouched => ?_) howner hfor
  rcases hvouched with hbefore | ⟨caller, hrecorded, hverified⟩
  · exact .inl hbefore
  · refine .inr ⟨rfl, ⟨caller, ?_, hverified⟩, _, update_self .., .inl ?_⟩
    · rw [hw, Option.bind_some, hrecorded]
    · exact howner.trans howner'

section Persisting

variable {chosen : List String → Prop} {saved : Bool}

theorem Well.persisted (h : Well chosen w) : Well chosen (persistLiveSession env saved w).2 := by
  refine Triple.snd (I := Well chosen)
    (triple_persistLiveSession (fun t record ht hsaves => ?_) fun _ _ => id) h
  cases hsaves with
  | disabled => exact ht
  | withheld _ => exact .of_written ht.pinned (.inl rfl)
  | written hseal _ => exact .of_written ht.pinned (.inr ⟨_, rfl, rfl, rfl, hseal⟩)

theorem Well.snapshot (h : Well chosen w) : Well chosen (w.snapshot env saved) := by
  rw [World.snapshot]
  split
  · exact h.persisted
  · exact h

/-- Telling a store of a session, and writing the session to it. -/
theorem Well.stored (h : Well chosen w) : Well chosen (w.stored env saved) := by
  have htold : Well chosen (if isWithheld { env with enabled := true } w.session
      then { w with record := none } else w) := by
    split
    · exact ⟨h.pinned, fun _ hrecord => (Option.some_ne_none _ hrecord.symm).elim⟩
    · exact h
  rw [World.stored]
  split
  · exact htold.persisted
  · exact htold

end Persisting

theorem kept_change {client : Option Caller} {change : Upkeep V} {saved : Bool} (h : Kept started s)
    (hnext : System.Next F started s (env, .change sessionId client change saved) s') :
    Kept started s' := by
  obtain ⟨⟨w, hw, hplain, hdaemon⟩, hhistory⟩ := hnext
  obtain ⟨daemon, history⟩ := s'
  dsimp only at hdaemon hhistory
  subst hdaemon hhistory
  refine kept_of_update h (.inl rfl) rfl rfl
    (fun id recipients _ hchosen => .inl ⟨hchosen, not_false⟩) ?_
  have hwell := h.sessions sessionId w hw
  refine Well.snapshot ⟨fun recipients hpin => .inl ⟨hwell.pinned recipients ?_, not_false⟩,
    fun record hrecord hverifier => ?_⟩
  · exact hplain.sealedTo.symm.trans hpin
  · rcases hplain.record with hsame | hnone
    · obtain ⟨recipients, hsealed, hchosen⟩ :=
        hwell.written record (hsame.symm.trans hrecord) hverifier
      exact ⟨recipients, hsealed, .inl ⟨hchosen, not_false⟩⟩
    · exact (Option.some_ne_none _ (hrecord.symm.trans hnone)).elim

variable {chosen : List String → Prop}

theorem Well.adopted (h : Well chosen w) :
    Well chosen (w.adopted env) := by
  rw [World.adopted]
  dsimp only
  split
  · exact ⟨h.pinned, fun _ hrecord => (Option.some_ne_none _ hrecord.symm).elim⟩
  · exact ⟨h.pinned, h.written⟩

variable {recipients : List String}

/-- A configuration pins a session that nothing has pinned yet, and leaves the others. -/
theorem Well.configuredBy {chosen' : List String → Prop} {peer : Option ℕ} (h : Well chosen w)
    (hmono : ∀ recipients, chosen recipients → chosen' recipients)
    (hpins : recipients ≠ [] → w.session.authentication.isSome = true →
      w.session.sealedTo = none → sessionIdentityAuthorized w.session peer = true →
      chosen' recipients) :
    Well chosen' { w with session := w.session.configuredBy peer recipients } := by
  rw [Session.configuredBy]
  split
  next hpinned =>
    obtain ⟨hsome, hprotected, hnone, hauthorized⟩ := hpinned
    refine ⟨fun recipients' hpin => ?_, (h.mono hmono).written⟩
    cases hpin
    exact hpins hsome hprotected hnone hauthorized
  next => exact h.mono hmono

theorem kept_configure {peer : Option ℕ} {opened installed : Bool} {saved : ℕ → Bool}
    (h : Kept started s) (hmeets : Meets s (env, .configure peer recipients opened installed saved))
    (hnext : System.Next F started s (env, .configure peer recipients opened installed saved) s') :
    Kept started s' := by
  obtain ⟨hdaemon, hhistory⟩ := hnext
  obtain ⟨daemon, history⟩ := s'
  dsimp only [Daemon.Next] at hdaemon hhistory
  subst hdaemon hhistory
  constructor
  · intro startup hstartup
    exact (Option.some_ne_none _ (hstartup.symm.trans RecipientGrants.configured_startup)).elim
  · intro choice hmem
    refine List.mem_append.mpr ?_
    rcases RecipientGrants.mem_of_configured hmem with hold | ⟨process, rfl, rfl⟩
    · exact .inr (h.choices choice hold)
    · exact .inl (List.mem_singleton.mpr rfl)
  · intro sessionId w' hw'
    obtain ⟨w, hw, rfl⟩ := Option.map_eq_some_iff.mp hw'
    have hpinned : Well ((s.history.after started env s.daemon
        (.configure peer recipients opened installed saved)
        (s.daemon.configured env peer recipients opened installed saved)).chosen sessionId)
        { w with session := w.session.configuredBy peer recipients } := by
      refine (h.sessions sessionId w hw).configuredBy
        (fun recipients hchosen => .inl ⟨hchosen, not_false⟩)
        fun hsome hprotected hnone hauthorized => ?_
      obtain ⟨process, rfl, hclient⟩ := (Option.any_eq_true _ _).mp hauthorized
      have hclient' : w.session.owner = some process ∨ w.session.isHeldBy process = true := by
        simpa using hclient
      exact .inr ⟨w.session, none, ⟨⟨w, hw, rfl⟩, rfl⟩, .client process hclient'
        (hmeets hsome process rfl sessionId w hw hprotected hnone hclient')
        (List.mem_cons_self ..)⟩
    dsimp only
    split
    · exact hpinned.stored
    · exact hpinned

theorem kept_upgrade (h : Kept started s)
    (hnext : System.Next F started s (env, .upgrade) s') : Kept started s' := by
  obtain ⟨hdaemon, hhistory⟩ := hnext
  obtain ⟨daemon, history⟩ := s'
  dsimp only [Daemon.Next] at hdaemon hhistory
  subst hdaemon hhistory
  refine ⟨h.startup, h.choices, fun sessionId w' hw' => ?_⟩
  obtain ⟨w, hw, rfl⟩ := Option.map_eq_some_iff.mp hw'
  exact (h.sessions sessionId w hw).adopted.mono fun recipients hchosen => .inl ⟨hchosen, not_false⟩

theorem kept_finish (h : Kept started s)
    (hnext : System.Next F started s (env, .finish sessionId) s') : Kept started s' := by
  obtain ⟨hdaemon, hhistory⟩ := hnext
  obtain ⟨daemon, history⟩ := s'
  dsimp only [Daemon.Next] at hdaemon hhistory
  subst hdaemon hhistory
  refine ⟨h.startup, h.choices, fun id w hw => ?_⟩
  dsimp only at hw
  rcases eq_or_ne id sessionId with rfl | hne
  · rw [update_self] at hw
    cases hw
  · rw [update_of_ne hne] at hw
    exact (h.sessions id w hw).mono fun recipients hchosen => .inl ⟨hchosen, not_false⟩

end

/-- **One act** that pins no session through a claim keeps the invariant. -/
theorem kept_next {s s' : System V} {act : Env × Act V} (h : Kept started s)
    (hnext : Meeting Meets (System.Next F started) s act s') : Kept started s' := by
  obtain ⟨hmeets, hnext⟩ := hnext
  obtain ⟨env, act⟩ := act
  cases act with
  | start sessionId peer opening => exact kept_start h hmeets hnext
  | request sessionId event => exact kept_request h hmeets hnext
  | change => exact kept_change h hnext
  | configure peer recipients opened installed saved => exact kept_configure h hmeets hnext
  | upgrade => exact kept_upgrade h hnext
  | finish sessionId => exact kept_finish h hnext

theorem kept_init (started : Option (List String)) (enabled : Bool) :
    Kept started (System.start started enabled : System V) where
  startup recipients hstartup := ⟨rfl, (Option.filter_eq_some_iff.mp hstartup).1⟩
  choices _ hmem := by cases hmem
  sessions _ _ hw := by cases hw

/-- What a configuration leaves a pinned session pinned to. -/
theorem sealedTo_configuredBy {peer : Option ℕ} {recipients values : List String}
    (h : session.sealedTo = some values) :
    (session.configuredBy peer recipients).sealedTo = some values := by
  rw [Session.configuredBy, if_neg]
  · exact h
  · rintro ⟨-, -, hnone, -⟩
    exact Option.some_ne_none _ (h.symm.trans hnone)

theorem session_stored (env : Env) (saved : Bool) (w : World V) :
    (w.stored env saved).session = w.session := by
  have htold : (if isWithheld { env with enabled := true } w.session
      then { w with record := none } else w).session = w.session := by
    split <;> rfl
  rw [World.stored]
  split
  · have hkeeps : Keeps (fun t : World V => t.session = w.session)
        (persistLiveSession { env with enabled := true } true) :=
      triple_persistLiveSession (fun _ _ h _ => h) fun _ _ => id
    exact hkeeps.snd htold
  · exact htold

/-- **Protected sessions** are written under recipients that were suitable when they were pinned,
or withheld, in every run that pins none through a claim; and no configuration pins one anew. -/
theorem sealed_of_run {started : Option (List String)} {enabled : Bool}
    {acts : List (Env × Act V)} {s : System V}
    (hrun : Run (Meeting Meets (System.Next F started)) (System.start started enabled) acts s) :
    (∀ sessionId w, s.daemon.sessions sessionId = some w →
      (w.session.authentication.isSome = true → sealFor w.session = .withheld ∨
        ∃ recipients, sealFor w.session = .recipients recipients ∧
          s.history.chosen sessionId recipients) ∧
      ∀ record, w.record = some record → record.verifier.isSome = true →
        ∃ recipients, record.sealedUnder = .recipients recipients ∧
          s.history.chosen sessionId recipients) ∧
    ∀ env peer recipients opened installed saved sessionId w values,
      s.daemon.sessions sessionId = some w → w.session.sealedTo = some values →
      ∃ w', (s.daemon.configured env peer recipients opened installed saved).sessions sessionId =
        some w' ∧ w'.session.sealedTo = some values := by
  have hkept := hrun.invariant (kept_init started enabled) fun _ _ _ => kept_next
  constructor
  · intro sessionId w hw
    have hwell := hkept.sessions sessionId w hw
    refine ⟨fun hprotected => or_iff_not_imp_left.mpr fun hseal => ?_, hwell.written⟩
    obtain ⟨recipients, hpin, hsealFor⟩ := sealFor_eq_recipients hprotected hseal
    exact ⟨recipients, hsealFor, hwell.pinned recipients hpin⟩
  · intro env peer recipients opened installed saved sessionId w values hw hpin
    refine ⟨_, congrArg (Option.map _) hw, ?_⟩
    dsimp only
    split
    · rw [session_stored]
      exact sealedTo_configuredBy hpin
    · exact sealedTo_configuredBy hpin

/-! ### A session in another's name -/

/-- A daemon that has been told to write to disk, for process 5. -/
def persisting : Daemon ℕ :=
  (System.start none false : System ℕ).daemon.configured plainEnv (some 5) ["r"] true true
    fun _ => false

/-- A session that a client spawns for process 5. -/
def spawnedFor5 : World ℕ :=
  ⟨spawnedSession 1 5 (sharedPane 1 1 (80, 24)) 0, none, []⟩

/-- It is protected and put away, by a client that says it is process 5. -/
def protectedAs5 (peer : ℕ) : Event ℕ :=
  .detach ⟨1, (spawnedFor5).session.summary, 0, some "v", none, []⟩ ⟨5, some peer, false⟩ true true

def actsOf (peer : ℕ) : List (Env × Act ℕ) :=
  [(plainEnv, .configure (some 5) ["r"] true true fun _ => false),
    (plainEnv, .start 1 (some peer) (.spawned 5 (sharedPane 1 1 (80, 24)) 0)),
    (plainEnv, .request 1 (protectedAs5 peer))]

def withSpawnedFor5 : Daemon ℕ :=
  { persisting with sessions := update persisting.sessions 1 (some spawnedFor5) }

/-- The session, protected and written to disk. -/
def putAway (peer : ℕ) : World ℕ :=
  ((protectedAs5 peer).handler AreaArithmetic.exact (withSpawnedFor5.env plainEnv) spawnedFor5).2

def withPutAway (peer : ℕ) : Daemon ℕ :=
  { withSpawnedFor5 with
    sessions := update withSpawnedFor5.sessions 1 (some (putAway peer))
    grants := withSpawnedFor5.grants.forgetExited plainEnv.running }

/-- What comes of the system by an act, given what comes of the daemon. -/
def System.by (s : System ℕ) (act : Act ℕ) (daemon : Daemon ℕ) : System ℕ :=
  ⟨daemon, s.history.after none plainEnv s.daemon act daemon⟩

def ended (peer : ℕ) : System ℕ :=
  (((System.start none false).by (.configure (some 5) ["r"] true true fun _ => false)
    persisting).by (.start 1 (some peer) (.spawned 5 (sharedPane 1 1 (80, 24)) 0))
    withSpawnedFor5).by (.request 1 (protectedAs5 peer)) (withPutAway peer)

theorem next_by {s : System ℕ} {act : Act ℕ} {daemon : Daemon ℕ}
    (h : s.daemon.Next AreaArithmetic.exact plainEnv act daemon) :
    System.Next AreaArithmetic.exact none s (plainEnv, act) (s.by act daemon) := ⟨h, rfl⟩

theorem protects_protectedAs5 (peer : ℕ) :
    (protectedAs5 peer).protects (withSpawnedFor5.env plainEnv) spawnedFor5 = true := rfl

theorem next_putAway (peer : ℕ) : withSpawnedFor5.Next AreaArithmetic.exact plainEnv
    (.request 1 (protectedAs5 peer)) (withPutAway peer) := by
  refine ⟨fun change h => (nomatch h), spawnedFor5, rfl, ?_⟩
  rw [protects_protectedAs5, if_pos rfl]
  rfl

theorem run_ended (peer : ℕ) : Run (System.Next AreaArithmetic.exact none)
    (System.start none false) (actsOf peer) (ended peer) := by
  refine .cons (next_by ?_) (.cons (next_by ?_) (.cons (next_by (next_putAway peer)) (.nil _)))
  · exact rfl
  · exact ⟨rfl, rfl, spawnedFor5, rfl, rfl⟩

/-- What is written of the session is sealed to what process 5 has configured. -/
def Written (w : World ℕ) : Prop :=
  (w.record.any fun record =>
    record.verifier.isSome && decide (record.sealedUnder = .recipients ["r"])) = true

theorem Written.exists {w : World ℕ} (h : Written w) : ∃ record, w.record = some record ∧
    record.verifier.isSome = true ∧ record.sealedUnder = .recipients ["r"] := by
  obtain ⟨record, hrecord, h⟩ := (Option.any_eq_true _ _).mp h
  obtain ⟨hverifier, hsealed⟩ := Bool.and_eq_true_iff.mp h
  exact ⟨record, hrecord, hverifier, of_decide_eq_true hsealed⟩

/-- If process 5 spawns and protects the session, its recipients are suitable. -/
theorem sealed_to_owner : ∃ record, (putAway 5).record = some record ∧
    record.sealedUnder = .recipients ["r"] ∧ (ended 5).history.chosen 1 ["r"] := by
  have hmeeting : Run (Meeting Meets (System.Next AreaArithmetic.exact none))
      (System.start none false) (actsOf 5) (ended 5) := by
    refine .cons ⟨?_, next_by ?_⟩ (.cons ⟨?_, next_by ?_⟩
      (.cons ⟨?_, next_by (next_putAway 5)⟩ (.nil _)))
    · intro _ process _ sessionId w hw
      cases hw
    · exact rfl
    · exact fun hverifier => Bool.noConfusion hverifier
    · exact ⟨rfl, rfl, spawnedFor5, rfl, rfl⟩
    · rintro w ⟨⟩ - process hprocess - -
      exact .inr ⟨⟨5, some 5, false⟩, rfl, hprocess⟩
  have hwritten : Written (putAway 5) := by unfold Written; decide
  obtain ⟨record, hrecord, hverifier, hsealed⟩ := hwritten.exists
  obtain ⟨recipients, hrecipients, hchosen⟩ :=
    ((sealed_of_run hmeeting).1 1 (putAway 5) rfl).2 record hrecord hverifier
  obtain rfl : recipients = ["r"] := Seal.recipients.inj (hrecipients.symm.trans hsealed)
  exact ⟨record, hrecord, hsealed, hchosen⟩

/-- **A stranger** that spawns and protects a session in the name of process 5 has it written to
what that one has configured, which has nothing to do with the session. -/
theorem sealed_to_stranger : Run (System.Next AreaArithmetic.exact none)
      (System.start none false) (actsOf 9) (ended 9) ∧
    ∃ w record, (ended 9).daemon.sessions 1 = some w ∧ w.record = some record ∧
      record.verifier.isSome = true ∧ ¬∃ recipients, record.sealedUnder = .recipients recipients ∧
        (ended 9).history.chosen 1 recipients := by
  have hwritten : Written (putAway 9) := by unfold Written; decide
  obtain ⟨record, hrecord, hverifier, hsealed⟩ := hwritten.exists
  refine ⟨run_ended 9, putAway 9, record, rfl, hrecord, hverifier, ?_⟩
  rintro ⟨recipients, hrecipients, hchosen⟩
  obtain rfl : recipients = ["r"] := Seal.recipients.inj (hrecipients.symm.trans hsealed)
  rcases hchosen with ⟨hbefore, -⟩ | ⟨session, peer, ⟨-, -, -, rfl⟩, hsuitable⟩
  · -- Nothing had pinned it when it was spawned.
    rcases hbefore with ⟨-, hstarts⟩ | ⟨session, peer, hpins, -⟩
    · exact hstarts rfl
    · exact Bool.noConfusion hpins.2.1
  · cases hsuitable with
    | startup hfirst _ => exact Bool.noConfusion hfirst
    | protector process hpeer hconfigured =>
      -- The stranger has not configured anything.
      obtain rfl : 9 = process := Option.some.inj hpeer
      revert hconfigured
      decide
    | client process _ hvouched _ =>
      -- The transport has vouched for no process 5 in connection with the session.
      rcases hvouched with hspawned | ⟨-, ⟨caller, hcaller, hverified⟩, -⟩
      · obtain ⟨howner, hpeer⟩ : some 5 = some process ∧ some 9 = some process := hspawned
        have h : 5 = 9 := Option.some.inj (howner.trans hpeer.symm)
        revert h
        decide
      · obtain rfl : (⟨5, some 9, false⟩ : Caller) = caller := Option.some.inj hcaller
        cases hverified

end Zetta.Zmux.Server.Control
