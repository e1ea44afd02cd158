import Zetta.Lib.Run

/-!
# Checking secrets beside the sessions lock

A check of a session's secret reads the verifier under the sessions lock, runs with the lock
released, and records its outcome under the lock again. A gate admits one check for a session or
a disk record at a time, and a few in all. Any number of attempts are interleaved with
replacements of verifiers, sessions that begin and end, and the clock.

* `rate_limit_of_run`: in every state of every run at most one check for each key is admitted and
  at most `MAX_CONCURRENT_CHECKS` in all; a check runs only after every window that a counted
  failure against its verifier opened; a session's failures are counted once each, and only
  against the verifier they were made against; a proof is honoured for its own verifier; and no
  window of a record is shortened, whatever a resume reports.
-/

namespace Zetta.Zmux.SecretCheck

open List Function

/-- Checks running at once, across every session. -/
def MAX_CONCURRENT_CHECKS : ℕ := 4
/-- How many times one check starts again because the verifier was replaced under it. -/
def MAX_VERIFIER_REPLACEMENTS : ℕ := 2
/-- In milliseconds. -/
def FAILED_AUTHENTICATION_DELAY : ℕ := 1000
def MAX_FAILED_AUTHENTICATION_DELAY : ℕ := 30000

/-- The refusal window after some consecutive wrong secrets. -/
def failedAuthenticationDelay (failures : ℕ) : ℕ :=
  min (FAILED_AUTHENTICATION_DELAY * 2 ^ min (failures - 1) 31) MAX_FAILED_AUTHENTICATION_DELAY

/-- `saturating_add(1)` on the count of failures. -/
def saturatingSucc (count : ℕ) : ℕ := min (count + 1) (2 ^ 32 - 1)

/-- A verifier, with the identity by which a replacement differs from it. -/
structure Authentication where
  identity : ℕ
  verifier : String
  deriving DecidableEq

/-- Proof that a secret was checked against a verifier. -/
structure VerifiedSession where
  identity : ℕ
  deriving DecidableEq

namespace Authentication

def isSameVerifier (a other : Authentication) : Bool := a.identity = other.identity

def authorizes (a : Authentication) (authorization : VerifiedSession) : Bool :=
  a.identity = authorization.identity

/-- Checks a secret. `opens` stands for the cost policy and the hash. -/
def verify (opens : String → String → Bool) (a : Authentication) (secret : String) :
    Option VerifiedSession :=
  if opens a.verifier secret then some ⟨a.identity⟩ else none

end Authentication

structure Session where
  authentication : Option Authentication
  failedAuthentications : ℕ
  refuseUntil : Option ℕ

structure ResumeFailures where
  count : ℕ
  refuseUntil : ℕ

/-- What the session check decides. -/
inductive Outcome where
  | verified (proof : VerifiedSession)
  | failed
  | notApplicable

/-- What the resume check decides. -/
inductive ResumeOutcome where
  | verified
  | refused
  | failed (failedAuthentications backoffSeconds : ℕ)

/-- A resume: the record and its verifier as the client decrypted them, the secret, and the
backoff that the client reports. -/
structure Resume where
  record : ℕ
  authentication : Authentication
  secret : String
  reportedFailures : ℕ
  reportedRefusing : Bool

/-- Where an attempt is. -/
inductive Attempt where
  | idle
  | asked (id : ℕ) (secret : String)
  /-- Waits for the gate. -/
  | queued (id : ℕ) (secret : String)
  /-- Admitted, with some rounds left. -/
  | admitted (id : ℕ) (secret : String) (rounds : ℕ)
  /-- Checks the secret with no lock held. -/
  | checking (id : ℕ) (secret : String) (rounds : ℕ) (a : Authentication)
  /-- Still admitted, about to give its place back. -/
  | leaving (id : ℕ) (outcome : Outcome)
  | done (outcome : Outcome)
  | resumeAsked (r : Resume)
  | resumeQueued (r : Resume)
  | resumeAdmitted (r : Resume)
  | resumeChecking (r : Resume)
  | resumeLeaving (record : ℕ) (outcome : ResumeOutcome)
  | resumeDone (outcome : ResumeOutcome)

/-- The key under which an attempt holds a place in the gate. -/
def Attempt.ticket : Attempt → Option ℕ
  | .admitted id _ _ | .checking id _ _ _ | .leaving id _ => some id
  | .resumeAdmitted r | .resumeChecking r => some r.record
  | .resumeLeaving record _ => some record
  | _ => none

/-- A check of a session's secret that has ended: against which verifier, whether it passed, and
whether that verifier was still the session's. -/
structure Check where
  identity : ℕ
  passed : Bool
  current : Bool
  deriving DecidableEq

/-- A check of a resume that has ended. -/
structure ResumeCheck where
  record : ℕ
  passed : Bool
  reportedFailures : ℕ

structure State (ι : Type) where
  now : ℕ
  sessions : ℕ → Option Session
  /-- The identity of the next verifier. -/
  nextIdentity : ℕ
  inFlight : List ℕ
  resumeFailures : ℕ → Option ResumeFailures
  attempt : ι → Attempt
  /-- The checks of session secrets that have ended. -/
  checks : List Check
  /-- The count that a verifier began with. -/
  initial : ℕ → ℕ
  /-- The windows that counted failures opened, by verifier. -/
  windows : List (ℕ × ℕ)
  /-- The proofs that have been acted on: the session and its verifier at that moment. -/
  honoured : List (ℕ × ℕ)
  resumeChecks : List ResumeCheck
  /-- The windows that failed resumes opened, by record. -/
  resumeWindows : List (ℕ × ℕ)

variable {ι : Type}

def State.new : State ι where
  now := 0
  sessions := fun _ => none
  nextIdentity := 0
  inFlight := []
  resumeFailures := fun _ => none
  attempt := fun _ => .idle
  checks := []
  initial := fun _ => 0
  windows := []
  honoured := []
  resumeChecks := []
  resumeWindows := []

inductive Action (ι : Type) where
  | tick (duration : ℕ)
  /-- A session begins, restored with the failures and the backoff of its record. -/
  | createSession (id : ℕ) (verifier : Option String) (failures backoffSeconds : ℕ)
  | endSession (id : ℕ)
  /-- The session is protected, or protected anew. -/
  | protect (id : ℕ) (verifier : String)
  | ask (i : ι) (id : ℕ) (secret : String)
  /-- The first look at the session, before the gate. -/
  | look (i : ι)
  | enter (i : ι)
  /-- The look at the session inside the gate. -/
  | read (i : ι)
  /-- The check has ended; its outcome is recorded. -/
  | record (i : ι)
  | leave (i : ι)
  /-- The request that asked acts on a session. -/
  | act (i : ι) (id : ℕ)
  | finish (i : ι)
  | askResume (i : ι) (r : Resume)
  | lookResume (i : ι)
  | enterResume (i : ι)
  | readResume (i : ι)
  | recordResume (i : ι)
  | leaveResume (i : ι)

namespace State

/-- The verifier that protects a session. -/
def verifierOf (s : State ι) (id : ℕ) : Option Authentication :=
  (s.sessions id).bind Session.authentication

/-- The verifier to check a secret against, or the answer when there is none to check or the
session is refusing attempts. -/
def verifierToCheck (s : State ι) (id : ℕ) : Except Outcome Authentication :=
  match s.sessions id with
  | none => .error .notApplicable
  | some session =>
    match session.authentication with
    | none => .error .notApplicable
    | some a =>
      if session.refuseUntil.any (s.now < ·) then .error .failed else .ok a

theorem verifierToCheck_ne_verified (s : State ι) (id : ℕ) (proof : VerifiedSession) :
    s.verifierToCheck id ≠ .error (.verified proof) := by
  rw [verifierToCheck]
  split
  · nofun
  · split
    · nofun
    · split_ifs <;> nofun

/-- Whether resumes of a record are inside a refusal window, by the daemon's own count or by the
reported one. -/
def resumeRefused (s : State ι) (r : Resume) : Bool :=
  r.reportedRefusing || (s.resumeFailures r.record).any (s.now < ·.refuseUntil)

/-- Whether the gate admits a check under this key. -/
def admits (s : State ι) (key : ℕ) : Bool :=
  key ∉ s.inFlight && s.inFlight.length < MAX_CONCURRENT_CHECKS

variable [DecidableEq ι]

def setAttempt (s : State ι) (i : ι) (attempt : Attempt) : State ι :=
  { s with attempt := update s.attempt i attempt }

def setSession (s : State ι) (id : ℕ) (session : Session) : State ι :=
  { s with sessions := update s.sessions id (some session) }

/-- Takes a place in the gate. -/
def enterGate (s : State ι) (i : ι) (key : ℕ) (attempt : Attempt) : State ι :=
  { s.setAttempt i attempt with inFlight := key :: s.inFlight }

/-- Gives the place back. -/
def leaveGate (s : State ι) (i : ι) (key : ℕ) (attempt : Attempt) : State ι :=
  { s.setAttempt i attempt with inFlight := s.inFlight.filter (· ≠ key) }

/-- What follows the check of a session's secret, under the sessions lock. `latest` is the last
instant of the clock. -/
def recordCheck (latest : ℕ) (s : State ι) (i : ι) (id : ℕ) (secret : String) (rounds : ℕ)
    (a : Authentication) (verified : Option VerifiedSession) : State ι :=
  let ended (current : Bool) : State ι :=
    { s with checks := s.checks ++ [⟨a.identity, verified.isSome, current⟩] }
  match s.sessions id with
  | none => (ended false).setAttempt i (.leaving id .notApplicable)
  | some session =>
    match session.authentication with
    | none => (ended false).setAttempt i (.leaving id .notApplicable)
    | some current =>
      if current.isSameVerifier a then
        match verified with
        | some proof =>
          ((ended true).setSession id
            { session with failedAuthentications := 0, refuseUntil := none }).setAttempt i
              (.leaving id (.verified proof))
        | none =>
          let failures := saturatingSucc session.failedAuthentications
          let until_ := s.now + failedAuthenticationDelay failures
          let refuseUntil := if until_ ≤ latest then some until_ else none
          { ((ended true).setSession id
              { session with failedAuthentications := failures, refuseUntil }).setAttempt i
                (.leaving id .failed) with
            windows := s.windows ++ (refuseUntil.map (a.identity, ·)).toList }
      else (ended false).setAttempt i (.admitted id secret rounds)

/-- What follows the check of a resume, under the lock of the records' failures. -/
def recordResume (latest : ℕ) (s : State ι) (i : ι) (r : Resume) (verified : Bool) : State ι :=
  let ended : State ι := { s with
    resumeChecks := s.resumeChecks ++ [⟨r.record, verified, r.reportedFailures⟩] }
  if verified then
    { ended.setAttempt i (.resumeLeaving r.record .verified) with
      resumeFailures := update s.resumeFailures r.record none }
  else
    let own := ((s.resumeFailures r.record).map ResumeFailures.count).getD 0
    let count := saturatingSucc (max own r.reportedFailures)
    let delay := failedAuthenticationDelay count
    let until_ := if s.now + delay ≤ latest then s.now + delay else s.now
    { ended.setAttempt i (.resumeLeaving r.record (.failed count (delay / 1000))) with
      resumeFailures := update s.resumeFailures r.record (some ⟨count, until_⟩)
      resumeWindows := s.resumeWindows ++ [(r.record, until_)] }

/-- One step, if it can be taken. -/
def step (opens : String → String → Bool) (latest : ℕ) (s : State ι) :
    Action ι → Option (State ι)
  | .tick duration => some { s with now := s.now + duration }
  | .createSession id verifier failures backoffSeconds =>
    if s.sessions id = none then
      some { s.setSession id {
          authentication := verifier.map (Authentication.mk s.nextIdentity)
          failedAuthentications := failures
          refuseUntil := if 0 < backoffSeconds then some (s.now + 1000 * backoffSeconds) else none }
        with
          nextIdentity := s.nextIdentity + 1
          initial := update s.initial s.nextIdentity failures }
    else none
  | .endSession id => some { s with sessions := update s.sessions id none }
  | .protect id verifier =>
    match s.sessions id with
    | none => none
    | some _ =>
      some { s.setSession id {
          authentication := some (.mk s.nextIdentity verifier)
          failedAuthentications := 0
          refuseUntil := none } with
        nextIdentity := s.nextIdentity + 1
        initial := update s.initial s.nextIdentity 0 }
  | .ask i id secret =>
    match s.attempt i with
    | .idle => some (s.setAttempt i (.asked id secret))
    | _ => none
  | .look i =>
    match s.attempt i with
    | .asked id secret =>
      match s.verifierToCheck id with
      | .error outcome => some (s.setAttempt i (.done outcome))
      | .ok _ => some (s.setAttempt i (.queued id secret))
    | _ => none
  | .enter i =>
    match s.attempt i with
    | .queued id secret =>
      if s.admits id then
        some (s.enterGate i id (.admitted id secret (MAX_VERIFIER_REPLACEMENTS + 1)))
      else none
    | _ => none
  | .read i =>
    match s.attempt i with
    | .admitted id _ 0 => some (s.setAttempt i (.leaving id .failed))
    | .admitted id secret (rounds + 1) =>
      match s.verifierToCheck id with
      | .error outcome => some (s.setAttempt i (.leaving id outcome))
      | .ok a => some (s.setAttempt i (.checking id secret rounds a))
    | _ => none
  | .record i =>
    match s.attempt i with
    | .checking id secret rounds a =>
      some (s.recordCheck latest i id secret rounds a (a.verify opens secret))
    | _ => none
  | .leave i =>
    match s.attempt i with
    | .leaving id outcome => some (s.leaveGate i id (.done outcome))
    | _ => none
  | .act i id =>
    match s.attempt i with
    | .done (.verified proof) =>
      match s.verifierOf id with
      | some a =>
        if a.authorizes proof then some { s with honoured := s.honoured ++ [(id, a.identity)] }
        else none
      | none => none
    | _ => none
  | .finish i =>
    match s.attempt i with
    | .done _ | .resumeDone _ => some (s.setAttempt i .idle)
    | _ => none
  | .askResume i r =>
    match s.attempt i with
    | .idle => some (s.setAttempt i (.resumeAsked r))
    | _ => none
  | .lookResume i =>
    match s.attempt i with
    | .resumeAsked r =>
      some (s.setAttempt i (if s.resumeRefused r then .resumeDone .refused else .resumeQueued r))
    | _ => none
  | .enterResume i =>
    match s.attempt i with
    | .resumeQueued r =>
      if s.admits r.record then some (s.enterGate i r.record (.resumeAdmitted r)) else none
    | _ => none
  | .readResume i =>
    match s.attempt i with
    | .resumeAdmitted r =>
      some (s.setAttempt i
        (if s.resumeRefused r then .resumeLeaving r.record .refused else .resumeChecking r))
    | _ => none
  | .recordResume i =>
    match s.attempt i with
    | .resumeChecking r =>
      some (s.recordResume latest i r (r.authentication.verify opens r.secret).isSome)
    | _ => none
  | .leaveResume i =>
    match s.attempt i with
    | .resumeLeaving record outcome => some (s.leaveGate i record (.resumeDone outcome))
    | _ => none

end State

/-! ### What holds between two steps -/

/-- The count of failures after some checks against one verifier. -/
def countAfter (initial : ℕ) (checks : List Check) : ℕ :=
  checks.foldl (fun count c => if c.passed then 0 else saturatingSucc count) initial

/-- The daemon's own count of failures after some resumes of one record. -/
def resumeCountAfter (checks : List ResumeCheck) : ℕ :=
  checks.foldl
    (fun count c => if c.passed then 0 else saturatingSucc (max count c.reportedFailures)) 0

theorem countAfter_append (initial : ℕ) (as bs : List Check) :
    countAfter initial (as ++ bs) = countAfter (countAfter initial as) bs := foldl_append ..

theorem resumeCountAfter_concat (checks : List ResumeCheck) (c : ResumeCheck) :
    resumeCountAfter (checks ++ [c]) =
      if c.passed then 0
      else saturatingSucc (max (resumeCountAfter checks) c.reportedFailures) := by
  simp [resumeCountAfter, foldl_append]

/-- What an attempt relies on. -/
def Attempt.Ok (s : State ι) : Attempt → Prop
  | .checking id _ _ a =>
    a.identity < s.nextIdentity ∧
      (∀ id' a', s.verifierOf id' = some a' → a'.identity = a.identity → id' = id) ∧
      ∀ u, (a.identity, u) ∈ s.windows → u ≤ s.now
  | .leaving _ (.verified proof) | .done (.verified proof) =>
    ∃ c ∈ s.checks, c.identity = proof.identity ∧ c.passed = true
  | .resumeChecking r => ∀ u, (r.record, u) ∈ s.resumeWindows → u ≤ s.now
  | _ => True

/-- A session's books, kept by its verifier. -/
structure Session.Ok (s : State ι) (session : Session) (a : Authentication) : Prop where
  count : session.failedAuthentications =
    countAfter (s.initial a.identity) (s.checks.filter (·.identity = a.identity))
  current : ∀ c ∈ s.checks, c.identity = a.identity → c.current = true
  window : ∀ u, (a.identity, u) ∈ s.windows → s.now < u →
    ∃ r, session.refuseUntil = some r ∧ u ≤ r

/-- The gate: every place is taken by one attempt. -/
structure GateOk (s : State ι) : Prop where
  tickets : ∀ i k, (s.attempt i).ticket = some k → k ∈ s.inFlight
  unique : ∀ i j k, (s.attempt i).ticket = some k → (s.attempt j).ticket = some k → i = j
  bound : s.inFlight.length ≤ MAX_CONCURRENT_CHECKS

/-- Identities are never used twice. -/
structure IdentitiesOk (s : State ι) : Prop where
  fresh : ∀ id a, s.verifierOf id = some a → a.identity < s.nextIdentity
  owner : ∀ id id' a a', s.verifierOf id = some a → s.verifierOf id' = some a' →
    a.identity = a'.identity → id = id'
  checks : ∀ c ∈ s.checks, c.identity < s.nextIdentity
  windows : ∀ w ∈ s.windows, w.1 < s.nextIdentity

structure Sound (s : State ι) : Prop extends GateOk s, IdentitiesOk s where
  attempts : ∀ i, (s.attempt i).Ok s
  sessions : ∀ id session a, s.sessions id = some session → session.authentication = some a →
    session.Ok s a
  honoured : ∀ h ∈ s.honoured, ∃ c ∈ s.checks, c.identity = h.2 ∧ c.passed = true
  resumeCount : ∀ k, ((s.resumeFailures k).map ResumeFailures.count).getD 0 =
    resumeCountAfter (s.resumeChecks.filter (·.record = k))
  resumeWindow : ∀ k u, (k, u) ∈ s.resumeWindows → s.now < u →
    ∃ f, s.resumeFailures k = some f ∧ u ≤ f.refuseUntil

theorem sound_new : Sound (State.new : State ι) where
  tickets := nofun
  unique := nofun
  bound := Nat.zero_le _
  fresh := nofun
  owner := nofun
  checks := nofun
  windows := nofun
  attempts _ := trivial
  sessions := nofun
  honoured := nofun
  resumeCount _ := rfl
  resumeWindow := nofun

namespace Sound

variable {s : State ι} {id : ℕ} {a : Authentication}

theorem verifierOf_eq_some :
    s.verifierOf id = some a ↔
      ∃ session, s.sessions id = some session ∧ session.authentication = some a :=
  Option.bind_eq_some_iff

/-- A check that may begin: every window of its verifier has passed. -/
theorem window_passed (h : Sound s) (hcheck : s.verifierToCheck id = .ok a) :
    s.verifierOf id = some a ∧ ∀ u, (a.identity, u) ∈ s.windows → u ≤ s.now := by
  rw [State.verifierToCheck] at hcheck
  split at hcheck
  · cases hcheck
  next session hsession =>
    split at hcheck
    · cases hcheck
    next b hb =>
      split_ifs at hcheck with hrefused
      obtain rfl := Except.ok.inj hcheck
      refine ⟨verifierOf_eq_some.mpr ⟨session, hsession, hb⟩, fun u hu => ?_⟩
      by_contra hlt
      obtain ⟨r, hr, hle⟩ := (h.sessions id session b hsession hb).window u hu (by omega)
      rw [hr, Option.any_some, decide_eq_true_eq] at hrefused
      omega

/-- The same for a resume. -/
theorem resumeWindow_passed (h : Sound s) {r : Resume} (hrefused : s.resumeRefused r = false) :
    ∀ u, (r.record, u) ∈ s.resumeWindows → u ≤ s.now := by
  intro u hu
  by_contra hlt
  obtain ⟨f, hf, hle⟩ := h.resumeWindow r.record u hu (by omega)
  simp only [State.resumeRefused, hf, Option.any_some, Bool.or_eq_false_iff,
    decide_eq_false_iff_not] at hrefused
  omega

variable {t : State ι} {session : Session}

/-- A session's books stay as they are while nothing happens to its verifier. -/
theorem session_mono (h : session.Ok s a) (hinitial : t.initial a.identity = s.initial a.identity)
    (hchecks : t.checks.filter (·.identity = a.identity) =
      s.checks.filter (·.identity = a.identity))
    (hwindows : ∀ u, (a.identity, u) ∈ t.windows → (a.identity, u) ∈ s.windows)
    (hnow : s.now ≤ t.now) : session.Ok t a where
  count := by rw [h.count, hinitial, hchecks]
  current c hc hidentity := by
    have hfilter : c ∈ t.checks.filter (·.identity = a.identity) :=
      mem_filter.mpr ⟨hc, by simpa using hidentity⟩
    rw [hchecks] at hfilter
    exact h.current c (mem_of_mem_filter hfilter) hidentity
  window u hu hlt := h.window u (hwindows u hu) (hnow.trans_lt hlt)

variable {attempt : Attempt}

/-- What an attempt relies on stays true while no window is opened for it. -/
theorem attempt_mono (h : attempt.Ok s) (hnext : s.nextIdentity ≤ t.nextIdentity)
    (hverifier : ∀ id a, t.verifierOf id = some a →
      s.verifierOf id = some a ∨ s.nextIdentity ≤ a.identity) (hchecks : s.checks ⊆ t.checks)
    (hwindows : ∀ id secret rounds a, attempt = .checking id secret rounds a →
      ∀ u, (a.identity, u) ∈ t.windows → (a.identity, u) ∈ s.windows)
    (hresume : ∀ r, attempt = .resumeChecking r →
      ∀ u, (r.record, u) ∈ t.resumeWindows → (r.record, u) ∈ s.resumeWindows) (hnow : s.now ≤ t.now) :
    attempt.Ok t := by
  have hproof : ∀ {proof : VerifiedSession},
      (∃ c ∈ s.checks, c.identity = proof.identity ∧ c.passed = true) →
      ∃ c ∈ t.checks, c.identity = proof.identity ∧ c.passed = true := by
    rintro proof ⟨c, hc, hpassed⟩
    exact ⟨c, hchecks hc, hpassed⟩
  cases attempt with
  | checking id secret rounds a =>
    refine ⟨h.1.trans_le hnext, fun id' a' ha' heq => ?_, fun u hu => ?_⟩
    · rcases hverifier id' a' ha' with hold | hfresh
      · exact h.2.1 id' a' hold heq
      · have := h.1
        omega
    · exact (h.2.2 u (hwindows _ _ _ a rfl u hu)).trans hnow
  | leaving id outcome =>
    cases outcome with
    | verified proof => exact hproof h
    | failed => trivial
    | notApplicable => trivial
  | done outcome =>
    cases outcome with
    | verified proof => exact hproof h
    | failed => trivial
    | notApplicable => trivial
  | resumeChecking r => exact fun u hu => (h u (hresume r rfl u hu)).trans hnow
  | _ => trivial

variable {i : ι}

/-- An attempt that changes neither its place nor anything it shares. -/
theorem setAttempt [DecidableEq ι] (h : Sound s)
    (hticket : ∀ k, attempt.ticket = some k → (s.attempt i).ticket = some k) (hok : attempt.Ok s) :
    Sound (s.setAttempt i attempt) := by
  have hall : ∀ j k, (update s.attempt i attempt j).ticket = some k →
      (s.attempt j).ticket = some k := by
    intro j k hj
    by_cases hji : j = i
    · subst hji
      rw [update_self] at hj
      exact hticket k hj
    · rwa [update_of_ne hji] at hj
  refine { h with
    tickets := fun j k hj => h.tickets j k (hall j k hj)
    unique := fun j j' k hj hj' => h.unique j j' k (hall j k hj) (hall j' k hj')
    attempts := fun j => ?_
    sessions := fun id session a hs ha =>
      session_mono (h.sessions id session a hs ha) rfl rfl (fun _ hu => hu) le_rfl }
  change (update s.attempt i attempt j).Ok s
  by_cases hji : j = i
  · rwa [hji, update_self]
  · rw [update_of_ne hji]
    exact h.attempts j

/-- A place in the gate is taken. -/
theorem enterGate [DecidableEq ι] (h : Sound s) {key : ℕ} (hadmits : s.admits key = true)
    (hticket : attempt.ticket = some key) (hok : attempt.Ok s) :
    Sound (s.enterGate i key attempt) := by
  simp only [State.admits, Bool.and_eq_true, decide_eq_true_eq] at hadmits
  have hother : ∀ j, j ≠ i → update s.attempt i attempt j = s.attempt j :=
    fun j hj => update_of_ne hj ..
  have hself : (update s.attempt i attempt i).ticket = some key := by
    rw [update_self, hticket]
  have hfree : ∀ j, (s.attempt j).ticket ≠ some key := fun j hj => hadmits.1 (h.tickets j key hj)
  refine { h with
    tickets := fun j k hj => ?_
    unique := fun j j' k hj hj' => ?_
    bound := hadmits.2
    attempts := fun j => ?_
    sessions := fun id session a hs ha =>
      session_mono (h.sessions id session a hs ha) rfl rfl (fun _ hu => hu) le_rfl }
  · change (update s.attempt i attempt j).ticket = some k at hj
    by_cases hji : j = i
    · rw [hji, hself, Option.some.injEq] at hj
      exact hj ▸ mem_cons_self ..
    · rw [hother j hji] at hj
      exact mem_cons_of_mem _ (h.tickets j k hj)
  · change (update s.attempt i attempt j).ticket = some k at hj
    change (update s.attempt i attempt j').ticket = some k at hj'
    by_cases hji : j = i <;> by_cases hji' : j' = i
    · rw [hji, hji']
    · rw [hji, hself, Option.some.injEq] at hj
      rw [hother j' hji', ← hj] at hj'
      exact absurd hj' (hfree j')
    · rw [hji', hself, Option.some.injEq] at hj'
      rw [hother j hji, ← hj'] at hj
      exact absurd hj (hfree j)
    · rw [hother j hji] at hj
      rw [hother j' hji'] at hj'
      exact h.unique j j' k hj hj'
  · change (update s.attempt i attempt j).Ok s
    by_cases hji : j = i
    · rwa [hji, update_self]
    · rw [hother j hji]
      exact h.attempts j

/-- A place in the gate is given back. -/
theorem leaveGate [DecidableEq ι] (h : Sound s) {key : ℕ} (hheld : (s.attempt i).ticket = some key)
    (hticket : attempt.ticket = none) (hok : attempt.Ok s) : Sound (s.leaveGate i key attempt) := by
  have hold : ∀ j k, (update s.attempt i attempt j).ticket = some k →
      j ≠ i ∧ (s.attempt j).ticket = some k := by
    intro j k hj
    by_cases hji : j = i
    · rw [hji, update_self, hticket] at hj
      cases hj
    · rw [update_of_ne hji] at hj
      exact ⟨hji, hj⟩
  refine { h with
    tickets := fun j k hj => ?_
    unique := fun j j' k hj hj' => h.unique j j' k (hold j k hj).2 (hold j' k hj').2
    bound := (length_filter_le ..).trans h.bound
    attempts := fun j => ?_
    sessions := fun id session a hs ha =>
      session_mono (h.sessions id session a hs ha) rfl rfl (fun _ hu => hu) le_rfl }
  · obtain ⟨hji, hold⟩ := hold j k hj
    refine mem_filter.mpr ⟨h.tickets j k hold, ?_⟩
    simp only [ne_eq, decide_eq_true_eq]
    rintro rfl
    exact hji (h.unique j i k hold hheld)
  · change (update s.attempt i attempt j).Ok s
    by_cases hji : j = i
    · rwa [hji, update_self]
    · rw [update_of_ne hji]
      exact h.attempts j

/-- A session begins, ends or is protected: if it has a verifier, that is a fresh one. -/
theorem withSession (h : Sound s) {next : ℕ} {new : Option Session} {initial : ℕ → ℕ}
    (hnext : s.nextIdentity ≤ next) (hinitial : ∀ k < s.nextIdentity, initial k = s.initial k)
    (hnew : ∀ session a, new = some session → session.authentication = some a →
      a.identity = s.nextIdentity ∧ s.nextIdentity < next ∧
        session.failedAuthentications = initial s.nextIdentity) :
    Sound { s with
      sessions := update s.sessions id new, nextIdentity := next, initial } := by
  let t : State ι := { s with
    sessions := update s.sessions id new, nextIdentity := next, initial }
  have hold : ∀ id' session, id' ≠ id → t.sessions id' = some session →
      s.sessions id' = some session := by
    intro id' session hne hsession
    change update s.sessions id new id' = some session at hsession
    rwa [update_of_ne hne] at hsession
  have hself : ∀ session, t.sessions id = some session → new = some session := by
    intro session hsession
    change update s.sessions id new id = some session at hsession
    rwa [update_self] at hsession
  have hcases : ∀ id' a, t.verifierOf id' = some a →
      (id' ≠ id ∧ s.verifierOf id' = some a) ∨
        (id' = id ∧ a.identity = s.nextIdentity ∧ s.nextIdentity < next) := by
    intro id' a ha
    obtain ⟨session, hsession, hauthentication⟩ := verifierOf_eq_some.mp ha
    by_cases hid : id' = id
    · subst hid
      obtain ⟨hidentity, hlt, -⟩ := hnew session a (hself session hsession) hauthentication
      exact .inr ⟨rfl, hidentity, hlt⟩
    · exact .inl ⟨hid, verifierOf_eq_some.mpr ⟨session, hold id' session hid hsession,
        hauthentication⟩⟩
  refine { h with
    fresh := fun id' a ha => ?_
    owner := fun id₁ id₂ a₁ a₂ h₁ h₂ heq => ?_
    checks := fun c hc => (h.checks c hc).trans_le hnext
    windows := fun w hw => (h.windows w hw).trans_le hnext
    attempts := fun j => attempt_mono (h.attempts j) hnext (fun id' a ha => ?_)
      (fun _ hc => hc) (fun _ _ _ _ _ _ hu => hu) (fun _ _ _ hu => hu) le_rfl
    sessions := fun id' session a hs ha => ?_ }
  · rcases hcases id' a ha with ⟨-, hold⟩ | ⟨-, hidentity, hlt⟩
    · exact (h.fresh id' a hold).trans_le hnext
    · exact hidentity ▸ hlt
  · rcases hcases id₁ a₁ h₁ with ⟨-, hold₁⟩ | ⟨hid₁, hidentity₁, -⟩ <;>
      rcases hcases id₂ a₂ h₂ with ⟨-, hold₂⟩ | ⟨hid₂, hidentity₂, -⟩
    · exact h.owner id₁ id₂ a₁ a₂ hold₁ hold₂ heq
    · have := h.fresh id₁ a₁ hold₁
      omega
    · have := h.fresh id₂ a₂ hold₂
      omega
    · rw [hid₁, hid₂]
  · rcases hcases id' a ha with ⟨-, hold⟩ | ⟨-, hidentity, -⟩
    · exact .inl hold
    · exact .inr hidentity.ge
  · by_cases hid : id' = id
    · subst hid
      obtain ⟨hidentity, -, hcount⟩ := hnew session a (hself session hs) ha
      -- Nothing has been checked against a fresh verifier.
      have hnothing : s.checks.filter (·.identity = a.identity) = [] := by
        refine filter_eq_nil_iff.mpr fun c hc hsame => ?_
        have := h.checks c hc
        rw [decide_eq_true_eq] at hsame
        omega
      refine ⟨?_, fun c hc hsame => ?_, fun u hu => ?_⟩
      · change session.failedAuthentications =
          countAfter (initial a.identity) (s.checks.filter (·.identity = a.identity))
        rw [hnothing, hcount, hidentity]
        rfl
      · have := h.checks c hc
        omega
      · have := h.windows _ hu
        simp only at this
        omega
    · have hs' := hold id' session hid hs
      have hlt := h.fresh id' a (verifierOf_eq_some.mpr ⟨session, hs', ha⟩)
      exact session_mono (h.sessions id' session a hs' ha) (hinitial _ hlt) rfl
        (fun _ hu => hu) le_rfl

/-- A check has ended against a verifier that no session has any more. -/
theorem stale (h : Sound s) {passed : Bool} (hidentity : a.identity < s.nextIdentity)
    (hgone : ∀ id a', s.verifierOf id = some a' → a'.identity ≠ a.identity) :
    Sound { s with checks := s.checks ++ [⟨a.identity, passed, false⟩] } := by
  refine { h with
    checks := fun c hc => ?_
    attempts := fun j => attempt_mono (h.attempts j) le_rfl (fun _ _ ha => .inl ha)
      (subset_append_left ..) (fun _ _ _ _ _ _ hu => hu) (fun _ _ _ hu => hu) le_rfl
    sessions := fun id session a' hs ha => ?_
    honoured := fun e he => ?_ }
  · rcases mem_append.mp hc with hc | hc
    · exact h.checks c hc
    · rwa [mem_singleton.mp hc]
  · refine session_mono (h.sessions id session a' hs ha) rfl ?_ (fun _ hu => hu) le_rfl
    have hne := hgone id a' (verifierOf_eq_some.mpr ⟨session, hs, ha⟩)
    simp [filter_append, Ne.symm hne]
  · obtain ⟨c, hc, hpassed⟩ := h.honoured e he
    exact ⟨c, mem_append_left _ hc, hpassed⟩

/-- A check has ended against the verifier that the session still has: it is counted, and the
session's books agree. -/
theorem settle [DecidableEq ι] (h : Sound s) {rounds failures : ℕ} {secret : String}
    {checked : Authentication} (hattempt : s.attempt i = .checking id secret rounds checked)
    (hsession : s.sessions id = some session) (ha : session.authentication = some a)
    (hsame : a.identity = checked.identity) {passed : Bool} {refuseUntil : Option ℕ}
    {opened : List (ℕ × ℕ)} {outcome : Outcome} (hfailures : failures =
      if passed then 0 else saturatingSucc session.failedAuthentications)
    (hopened : ∀ w ∈ opened, w.1 = a.identity ∧ refuseUntil = some w.2)
    (houtcome : ∀ proof, outcome = .verified proof →
      proof.identity = checked.identity ∧ passed = true) :
    Sound { s with
      checks := s.checks ++ [⟨checked.identity, passed, true⟩]
      sessions := update s.sessions id
        (some { session with failedAuthentications := failures, refuseUntil })
      windows := s.windows ++ opened
      attempt := update s.attempt i (.leaving id outcome) } := by
  let t : State ι := { s with
    checks := s.checks ++ [⟨checked.identity, passed, true⟩]
    sessions := update s.sessions id
      (some { session with failedAuthentications := failures, refuseUntil })
    windows := s.windows ++ opened
    attempt := update s.attempt i (.leaving id outcome) }
  have hchecking : (Attempt.checking id secret rounds checked).Ok s := hattempt ▸ h.attempts i
  have hcurrent : s.verifierOf id = some a := verifierOf_eq_some.mpr ⟨session, hsession, ha⟩
  have hself : t.sessions id =
      some { session with failedAuthentications := failures, refuseUntil } :=
    update_self ..
  have hother : ∀ id', id' ≠ id → t.sessions id' = s.sessions id' :=
    fun id' hne => update_of_ne hne ..
  -- Who protects what has not changed.
  have hverifier : ∀ id', t.verifierOf id' = s.verifierOf id' := by
    intro id'
    by_cases hid : id' = id
    · rw [hid, State.verifierOf, hself, hcurrent]
      exact ha
    · rw [State.verifierOf, hother id' hid]
      rfl
  have hticket : ∀ j k, (t.attempt j).ticket = some k → (s.attempt j).ticket = some k := by
    intro j k hj
    change (update s.attempt i (.leaving id outcome) j).ticket = some k at hj
    by_cases hji : j = i
    · rw [hji, update_self] at hj
      rw [hji, hattempt]
      exact hj
    · rwa [update_of_ne hji] at hj
  refine { h with
    tickets := fun j k hj => h.tickets j k (hticket j k hj)
    unique := fun j j' k hj hj' => h.unique j j' k (hticket j k hj) (hticket j' k hj')
    fresh := fun id' a' ha' => h.fresh id' a' (hverifier id' ▸ ha')
    owner := fun id₁ id₂ a₁ a₂ h₁ h₂ =>
      h.owner id₁ id₂ a₁ a₂ (hverifier id₁ ▸ h₁) (hverifier id₂ ▸ h₂)
    checks := fun c hc => ?_
    windows := fun w hw => ?_
    attempts := fun j => ?_
    sessions := fun id' session' a' hs' ha' => ?_
    honoured := fun e he => ?_ }
  · rcases mem_append.mp hc with hc | hc
    · exact h.checks c hc
    · rw [mem_singleton.mp hc]
      exact hchecking.1
  · rcases mem_append.mp hw with hw | hw
    · exact h.windows w hw
    · rw [(hopened w hw).1]
      exact h.fresh id a hcurrent
  · change (update s.attempt i (.leaving id outcome) j).Ok t
    by_cases hji : j = i
    · rw [hji, update_self]
      cases outcome with
      | verified proof =>
        obtain ⟨hidentity, hpassed⟩ := houtcome proof rfl
        exact ⟨_, mem_append_right _ (mem_singleton_self _), hidentity.symm, hpassed⟩
      | failed => trivial
      | notApplicable => trivial
    · rw [update_of_ne hji]
      refine attempt_mono (h.attempts j) le_rfl (fun id' a' ha' => .inl (hverifier id' ▸ ha'))
        (subset_append_left ..) (fun id' secret' rounds' a' hj u hu => ?_)
        (fun _ _ _ hu => hu) le_rfl
      rcases mem_append.mp hu with hu | hu
      · exact hu
      · -- The windows are of the verifier of this check, which is the only one of its session.
        have hj' : (Attempt.checking id' secret' rounds' a').Ok s := hj ▸ h.attempts j
        have hid := hj'.2.1 id a hcurrent (hopened _ hu).1.symm
        exact absurd (h.unique j i id (by rw [hj, hid]; rfl) (by rw [hattempt]; rfl)) hji
  · by_cases hid : id' = id
    · subst hid
      cases hself.symm.trans hs'
      obtain rfl : a = a' := Option.some.inj (ha.symm.trans ha')
      have hbooks := h.sessions id' session a hsession ha
      have hfilter : t.checks.filter (·.identity = a.identity) =
          s.checks.filter (·.identity = a.identity) ++ [⟨checked.identity, passed, true⟩] := by
        simp [t, filter_append, hsame]
      refine ⟨?_, fun c hc hc' => ?_, fun u hu hlt => ?_⟩
      · change failures = countAfter (s.initial a.identity)
          (t.checks.filter (·.identity = a.identity))
        rw [hfilter, countAfter_append, ← hbooks.count, hfailures]
        rfl
      · rcases mem_append.mp hc with hc | hc
        · exact hbooks.current c hc hc'
        · rw [mem_singleton.mp hc]
      · rcases mem_append.mp hu with hu | hu
        · rw [hsame] at hu
          exact absurd (hchecking.2.2 u hu) (not_le.mpr hlt)
        · exact ⟨u, (hopened _ hu).2, le_rfl⟩
    · have hs := hother id' hid ▸ hs'
      have hne : a'.identity ≠ a.identity := fun heq => hid
        (h.owner id' id a' a (verifierOf_eq_some.mpr ⟨session', hs, ha'⟩) hcurrent heq)
      refine session_mono (h.sessions id' session' a' hs ha') rfl ?_ (fun u hu => ?_) le_rfl
      · simp [filter_append, ← hsame, Ne.symm hne]
      · rcases mem_append.mp hu with hu | hu
        · exact hu
        · exact absurd (hopened _ hu).1 hne
  · obtain ⟨c, hc, hpassed⟩ := h.honoured e he
    exact ⟨c, mem_append_left _ hc, hpassed⟩

variable {latest : ℕ}

/-- **One check ends.** -/
theorem recordCheck [DecidableEq ι] (h : Sound s) {rounds : ℕ} {secret : String}
    (hattempt : s.attempt i = .checking id secret rounds a) {verified : Option VerifiedSession}
    (hverified : ∀ proof, verified = some proof → proof.identity = a.identity) :
    Sound (s.recordCheck latest i id secret rounds a verified) := by
  have hchecking : (Attempt.checking id secret rounds a).Ok s := hattempt ▸ h.attempts i
  -- Where the verifier has been replaced or is gone, no session has it.
  have hgone : (∀ a', s.verifierOf id = some a' → a'.identity ≠ a.identity) →
      ∀ attempt : Attempt, attempt.ticket = some id → (∀ t : State ι, attempt.Ok t) →
        Sound (State.setAttempt { s with
          checks := s.checks ++ [⟨a.identity, verified.isSome, false⟩] } i attempt) := by
    intro hne attempt hticket hok
    refine (h.stale hchecking.1 fun id' a' ha' heq => ?_).setAttempt (fun k hk => ?_) (hok _)
    · obtain rfl := hchecking.2.1 id' a' ha' heq
      exact hne a' ha' heq
    · change (s.attempt i).ticket = some k
      rw [hattempt, ← hk, hticket]
      rfl
  rw [State.recordCheck]
  split
  next hnone =>
    exact hgone (fun a' ha' => by simp [State.verifierOf, hnone] at ha') _ rfl fun _ => trivial
  next session hsession =>
    split
    next hnone =>
      exact hgone (fun a' ha' => by simp [State.verifierOf, hsession, hnone] at ha') _ rfl
        fun _ => trivial
    next current hcurrent =>
      have hverifier : s.verifierOf id = some current :=
        verifierOf_eq_some.mpr ⟨session, hsession, hcurrent⟩
      split_ifs with hsame
      · rw [Authentication.isSameVerifier, decide_eq_true_eq] at hsame
        cases verified with
        | some proof =>
          rw [← append_nil s.windows]
          exact h.settle hattempt hsession hcurrent hsame rfl nofun
            fun p hp => ⟨hverified p (by rw [Outcome.verified.inj hp]), rfl⟩
        | none =>
          exact h.settle hattempt hsession hcurrent hsame rfl
            (fun w hw => by
              obtain ⟨u, hu, rfl⟩ := Option.map_eq_some_iff.mp (Option.mem_toList.mp hw)
              exact ⟨hsame.symm, hu⟩) nofun
      · refine hgone (fun a' ha' heq => hsame ?_) _ rfl fun _ => trivial
        cases hverifier.symm.trans ha'
        simpa [Authentication.isSameVerifier] using heq

/-- **One resume ends**: the window it opens lies after every window before it. -/
theorem recordResume [DecidableEq ι] (h : Sound s) {r : Resume}
    (hattempt : s.attempt i = .resumeChecking r) (verified : Bool) :
    Sound (s.recordResume latest i r verified) := by
  have hchecking : (Attempt.resumeChecking r).Ok s := hattempt ▸ h.attempts i
  -- What is common to both outcomes: the record's entry and its log are replaced together.
  have hsettle : ∀ {entry : Option ResumeFailures} {opened : List (ℕ × ℕ)} {attempt : Attempt},
      attempt.ticket = some r.record → (∀ t : State ι, attempt.Ok t) →
      (entry.map ResumeFailures.count).getD 0 =
        resumeCountAfter (s.resumeChecks.filter (·.record = r.record) ++
          [⟨r.record, verified, r.reportedFailures⟩]) →
      (∀ w ∈ opened, w.1 = r.record ∧ ∃ f, entry = some f ∧ w.2 ≤ f.refuseUntil) →
      Sound { s with
        resumeChecks := s.resumeChecks ++ [⟨r.record, verified, r.reportedFailures⟩]
        resumeFailures := update s.resumeFailures r.record entry
        resumeWindows := s.resumeWindows ++ opened
        attempt := update s.attempt i attempt } := by
    intro entry opened attempt hticket hok hcount hopened
    have hold : ∀ j k, (update s.attempt i attempt j).ticket = some k →
        (s.attempt j).ticket = some k := by
      intro j k hj
      by_cases hji : j = i
      · rw [hji, update_self, hticket] at hj
        rw [hji, hattempt]
        exact hj
      · rwa [update_of_ne hji] at hj
    refine { h with
      tickets := fun j k hj => h.tickets j k (hold j k hj)
      unique := fun j j' k hj hj' => h.unique j j' k (hold j k hj) (hold j' k hj')
      attempts := fun j => ?_
      sessions := fun id session a hs ha =>
        session_mono (h.sessions id session a hs ha) rfl rfl (fun _ hu => hu) le_rfl
      resumeCount := fun k => ?_
      resumeWindow := fun k u hu hlt => ?_ }
    · simp only
      by_cases hji : j = i
      · rw [hji, update_self]
        exact hok _
      · rw [update_of_ne hji]
        refine attempt_mono (h.attempts j) le_rfl (fun _ _ ha => .inl ha) (fun _ hc => hc)
          (fun _ _ _ _ _ _ hu => hu) (fun r' hj u hu => ?_) le_rfl
        rcases mem_append.mp hu with hu | hu
        · exact hu
        · -- One check for each record at a time.
          have hrecord : r'.record = r.record := (hopened _ hu).1
          exact absurd (h.unique j i r.record (by rw [hj, ← hrecord]; rfl)
            (by rw [hattempt]; rfl)) hji
    · simp only
      by_cases hk : k = r.record
      · subst hk
        rw [update_self, hcount, filter_append]
        simp
      · rw [update_of_ne hk, h.resumeCount k]
        simp [filter_append, Ne.symm hk]
    · simp only at hu ⊢
      rcases mem_append.mp hu with hu | hu
      · by_cases hk : k = r.record
        · exact absurd (hchecking u (hk ▸ hu)) (not_le.mpr hlt)
        · rw [update_of_ne hk]
          exact h.resumeWindow k u hu hlt
      · obtain ⟨hk, f, hf, hle⟩ := hopened _ hu
        exact ⟨f, by rw [show k = r.record from hk, update_self, hf], hle⟩
  rw [State.recordResume]
  split_ifs with hverified
  · rw [← append_nil s.resumeWindows]
    exact hsettle rfl (fun _ => trivial)
      (by rw [resumeCountAfter_concat, if_pos hverified]; rfl) nofun
  · refine hsettle rfl (fun _ => trivial) ?_ fun w hw => ?_
    · rw [resumeCountAfter_concat, if_neg hverified, ← h.resumeCount r.record]
      rfl
    · rw [mem_singleton.mp hw]
      exact ⟨rfl, _, rfl, le_rfl⟩

/-- Every step keeps what holds between two steps. -/
theorem step [DecidableEq ι] (h : Sound s) {opens : String → String → Bool} {action : Action ι}
    (hstep : s.step opens latest action = some t) :
    Sound t := by
  cases action with
  | tick duration =>
    cases hstep
    have hnow : s.now ≤ s.now + duration := Nat.le_add_right ..
    exact { h with
      attempts := fun j => attempt_mono (h.attempts j) le_rfl (fun _ _ ha => .inl ha)
        (fun _ hc => hc) (fun _ _ _ _ _ _ hu => hu) (fun _ _ _ hu => hu) hnow
      sessions := fun id session a hs ha =>
        session_mono (h.sessions id session a hs ha) rfl rfl (fun _ hu => hu) hnow
      resumeWindow := fun k u hu hlt => h.resumeWindow k u hu (hnow.trans_lt hlt) }
  | createSession id verifier failures backoffSeconds =>
    rw [State.step] at hstep
    split at hstep
    · cases hstep
      refine h.withSession (Nat.le_succ _)
        (fun k hk => update_of_ne (by omega) ..) fun session a hs ha => ?_
      cases hs
      obtain ⟨text, -, rfl⟩ := Option.map_eq_some_iff.mp ha
      exact ⟨rfl, Nat.lt_succ_self _, by rw [update_self]⟩
    · cases hstep
  | endSession id =>
    cases hstep
    exact h.withSession le_rfl (fun _ _ => rfl) nofun
  | protect id verifier =>
    rw [State.step] at hstep
    split at hstep
    · cases hstep
    · cases hstep
      refine h.withSession (Nat.le_succ _)
        (fun k hk => update_of_ne (by omega) ..) fun session a hs ha => ?_
      cases hs
      cases ha
      exact ⟨rfl, Nat.lt_succ_self _, by rw [update_self]⟩
  | ask i id secret =>
    rw [State.step] at hstep
    split at hstep
    · cases hstep
      exact h.setAttempt nofun trivial
    · cases hstep
  | look i =>
    rw [State.step] at hstep
    split at hstep
    next id secret hattempt =>
      split at hstep
      next outcome hcheck =>
        cases hstep
        refine h.setAttempt nofun ?_
        cases outcome with
        | verified proof => exact absurd hcheck (s.verifierToCheck_ne_verified id proof)
        | failed => trivial
        | notApplicable => trivial
      · cases hstep
        exact h.setAttempt nofun trivial
    · cases hstep
  | enter i =>
    rw [State.step] at hstep
    split at hstep
    next id secret hattempt =>
      split_ifs at hstep with hadmits
      cases hstep
      exact h.enterGate hadmits rfl trivial
    · cases hstep
  | read i =>
    rw [State.step] at hstep
    split at hstep
    next id secret hattempt =>
      cases hstep
      exact h.setAttempt (fun k hk => by rw [hattempt]; exact hk) trivial
    next id secret rounds hattempt =>
      split at hstep
      next outcome hcheck =>
        cases hstep
        refine h.setAttempt (fun k hk => by rw [hattempt]; exact hk) ?_
        cases outcome with
        | verified proof => exact absurd hcheck (s.verifierToCheck_ne_verified id proof)
        | failed => trivial
        | notApplicable => trivial
      next a hcheck =>
        cases hstep
        obtain ⟨hverifier, hpassed⟩ := h.window_passed hcheck
        exact h.setAttempt (fun k hk => by rw [hattempt]; exact hk)
          ⟨h.fresh id a hverifier, fun id' a' ha' heq => h.owner id' id a' a ha' hverifier heq,
            hpassed⟩
    · cases hstep
  | record i =>
    rw [State.step] at hstep
    split at hstep
    next id secret rounds a hattempt =>
      cases hstep
      refine h.recordCheck hattempt fun proof hproof => ?_
      rw [Authentication.verify] at hproof
      split_ifs at hproof
      rw [← Option.some.inj hproof]
    · cases hstep
  | leave i =>
    rw [State.step] at hstep
    split at hstep
    next id outcome hattempt =>
      cases hstep
      have hok := h.attempts i
      rw [hattempt] at hok
      exact h.leaveGate (by rw [hattempt]; rfl) rfl (by cases outcome <;> exact hok)
    · cases hstep
  | act i id =>
    rw [State.step] at hstep
    split at hstep
    next proof hattempt =>
      split at hstep
      next a ha =>
        split_ifs at hstep with hauthorizes
        cases hstep
        have hok := h.attempts i
        rw [hattempt] at hok
        refine { h with
          attempts := fun j => attempt_mono (h.attempts j) le_rfl (fun _ _ ha => .inl ha)
            (fun _ hc => hc) (fun _ _ _ _ _ _ hu => hu) (fun _ _ _ hu => hu) le_rfl
          sessions := fun id session a hs ha =>
            session_mono (h.sessions id session a hs ha) rfl rfl (fun _ hu => hu) le_rfl
          honoured := fun e he => ?_ }
        rcases mem_append.mp he with he | he
        · exact h.honoured e he
        · obtain ⟨c, hc, hidentity, hpassed⟩ := hok
          rw [mem_singleton.mp he]
          rw [Authentication.authorizes, decide_eq_true_eq] at hauthorizes
          exact ⟨c, hc, hidentity.trans hauthorizes.symm, hpassed⟩
      · cases hstep
    · cases hstep
  | finish i =>
    rw [State.step] at hstep
    split at hstep
    · cases hstep
      exact h.setAttempt nofun trivial
    · cases hstep
      exact h.setAttempt nofun trivial
    · cases hstep
  | askResume i r =>
    rw [State.step] at hstep
    split at hstep
    · cases hstep
      exact h.setAttempt nofun trivial
    · cases hstep
  | lookResume i =>
    rw [State.step] at hstep
    split at hstep
    · cases hstep
      split_ifs <;> exact h.setAttempt nofun trivial
    · cases hstep
  | enterResume i =>
    rw [State.step] at hstep
    split at hstep
    next r hattempt =>
      split_ifs at hstep with hadmits
      cases hstep
      exact h.enterGate hadmits rfl trivial
    · cases hstep
  | readResume i =>
    rw [State.step] at hstep
    split at hstep
    next r hattempt =>
      cases hstep
      split_ifs with hrefused
      · exact h.setAttempt (fun k hk => by rw [hattempt]; exact hk) trivial
      · exact h.setAttempt (fun k hk => by rw [hattempt]; exact hk)
          (h.resumeWindow_passed (by simpa using hrefused))
    · cases hstep
  | recordResume i =>
    rw [State.step] at hstep
    split at hstep
    next r hattempt =>
      cases hstep
      exact h.recordResume hattempt _
    · cases hstep
  | leaveResume i =>
    rw [State.step] at hstep
    split at hstep
    next record outcome hattempt =>
      cases hstep
      exact h.leaveGate (by rw [hattempt]; rfl) rfl trivial
    · cases hstep

end Sound

/-! ### Runs -/

/-- What the checks promise in every state. -/
structure Promises (s : State ι) : Prop where
  /-- **One**: under each key, of a session or a record, at most one attempt is admitted. -/
  one : ∀ i j key, (s.attempt i).ticket = some key → (s.attempt j).ticket = some key → i = j
  /-- **Bounded**: at most `MAX_CONCURRENT_CHECKS` attempts are admitted in all. -/
  bounded : ∀ attempts : Finset ι, (∀ i ∈ attempts, (s.attempt i).ticket.isSome) →
    attempts.card ≤ MAX_CONCURRENT_CHECKS
  /-- **Windows**: a check runs against a verifier only after every window that a counted
  failure against it opened. -/
  window : ∀ i id secret rounds a, s.attempt i = .checking id secret rounds a →
    ∀ u, (a.identity, u) ∈ s.windows → u ≤ s.now
  resumeWindow : ∀ i r, s.attempt i = .resumeChecking r →
    ∀ u, (r.record, u) ∈ s.resumeWindows → u ≤ s.now
  /-- **Counted**: the failures of a session are those of the checks against its verifier, each
  once, since the last one that passed. -/
  counted : ∀ id session a, s.sessions id = some session → session.authentication = some a →
    session.failedAuthentications =
      countAfter (s.initial a.identity) (s.checks.filter (·.identity = a.identity))
  /-- **Charged**: a check that ended against a verifier no longer in force is counted for no
  session. -/
  charged : ∀ id a c, s.verifierOf id = some a → c ∈ s.checks → c.current = false →
    c.identity ≠ a.identity
  /-- **Honoured**: where a proof was acted on, a check against the very verifier of the session
  had passed. -/
  honoured : ∀ h ∈ s.honoured, ∃ c ∈ s.checks, c.identity = h.2 ∧ c.passed = true
  resumeCounted : ∀ record, ((s.resumeFailures record).map ResumeFailures.count).getD 0 =
    resumeCountAfter (s.resumeChecks.filter (·.record = record))
  /-- **Never shortened**: a window of a record that is still open is in force in full. -/
  neverShortened : ∀ record u, (record, u) ∈ s.resumeWindows → s.now < u →
    ∃ f, s.resumeFailures record = some f ∧ u ≤ f.refuseUntil

theorem Sound.promises {s : State ι} (h : Sound s) : Promises s where
  one := h.unique
  bounded attempts hall := by
    -- The keys of the places are as many as the attempts that hold them.
    have hinj : Set.InjOn (fun i => (s.attempt i).ticket.getD 0) attempts := by
      intro i hi j hj heq
      obtain ⟨k, hk⟩ := Option.isSome_iff_exists.mp (hall i hi)
      obtain ⟨k', hk'⟩ := Option.isSome_iff_exists.mp (hall j hj)
      simp only [hk, hk', Option.getD_some] at heq
      exact h.unique i j k hk (heq ▸ hk')
    have hsubset : attempts.image (fun i => (s.attempt i).ticket.getD 0) ⊆ s.inFlight.toFinset := by
      intro k hk
      obtain ⟨i, hi, rfl⟩ := Finset.mem_image.mp hk
      obtain ⟨k, hk⟩ := Option.isSome_iff_exists.mp (hall i hi)
      simpa [hk] using h.tickets i k hk
    calc attempts.card
        = (attempts.image fun i => (s.attempt i).ticket.getD 0).card :=
          (Finset.card_image_of_injOn hinj).symm
      _ ≤ s.inFlight.toFinset.card := Finset.card_le_card hsubset
      _ ≤ s.inFlight.length := toFinset_card_le _
      _ ≤ MAX_CONCURRENT_CHECKS := h.bound
  window i id secret rounds a hattempt := by
    have hok := h.attempts i
    rw [hattempt] at hok
    exact hok.2.2
  resumeWindow i r hattempt := by
    have hok := h.attempts i
    rw [hattempt] at hok
    exact hok
  counted id session a hs ha := (h.sessions id session a hs ha).count
  charged id a c ha hc hcurrent hidentity := by
    obtain ⟨session, hs, ha⟩ := Sound.verifierOf_eq_some.mp ha
    have := (h.sessions id session a hs ha).current c hc hidentity
    rw [hcurrent] at this
    cases this
  honoured := h.honoured
  resumeCounted := h.resumeCount
  neverShortened := h.resumeWindow

variable [DecidableEq ι]

/-- **Rate limit**: in every state that any interleaving of attempts, replacements of verifiers,
sessions and the clock reaches, whatever secrets a verifier opens to. -/
theorem rate_limit_of_run {opens : String → String → Bool} {latest : ℕ} {actions : List (Action ι)}
    {s : State ι}
    (hrun : Run (fun s action t => s.step opens latest action = some t) State.new actions s) :
    Promises s :=
  (hrun.invariant sound_new fun _ _ _ h hstep => h.step hstep).promises

/-- Two attempts on one session: the second waits for the first, meets the window it opened, and
succeeds after the window. -/
def twoAttempts : List (Action Bool) :=
  [.createSession 7 (some "s") 0 0, .ask true 7 "x", .ask false 7 "s", .look true, .look false,
    .enter true, .read true, .record true, .leave true, .enter false, .read false, .leave false,
    .finish false, .tick 1000, .ask false 7 "s", .look false, .enter false, .read false,
    .record false, .leave false, .act false 7]

theorem promises_of_twoAttempts :
    ∃ s, Run (fun s action t => s.step (fun verifier secret => verifier == secret) (10 ^ 6) action =
        some t) State.new twoAttempts s ∧
      (s.checks = [⟨0, false, true⟩, ⟨0, true, true⟩] ∧ s.windows = [(0, 1000)] ∧
        s.honoured = [(7, 0)]) ∧ Promises s := by
  obtain ⟨s, hrun, hend⟩ := exists_run_of_foldlM
    (f := State.step (fun verifier secret => verifier == secret) (10 ^ 6))
    (P := fun s => s.checks = [⟨0, false, true⟩, ⟨0, true, true⟩] ∧ s.windows = [(0, 1000)] ∧
      s.honoured = [(7, 0)]) twoAttempts (s := State.new) (by decide +kernel)
  exact ⟨s, hrun, hend, rate_limit_of_run hrun⟩

end Zetta.Zmux.SecretCheck
