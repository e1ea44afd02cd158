import Zetta.Lib.Run

/-!
# The queue in front of the encrypted store

The drain queues the output it reads, one worker applies the queue to the store, and everything
else reaches the store through `lock`, which first waits until what was queued before the call
has been applied. The parties are interleaved step by step: a step is a critical section, an
atomic operation, a notification or a wake-up.

* `queue_of_run`: in every state of every run the appends have been handled in queue order,
  each once; `lock` is returned only after those queued before the call; `queued_bytes` is what
  is queued and not yet subtracted; and no sleeper misses its notification.
* A batch that reaches the store while output is not persisted is dropped
  (`queued_append_dropped`).
-/

namespace Zetta.Zmux.PersistenceQueue

open Function

/-- How much read output may wait for the worker before the drain stops reading. -/
def QUEUE_LIMIT_BYTES : ℕ := 16 * 1024 * 1024

structure Append where
  sessionId : ℕ
  paneId : ℕ
  bytes : List UInt8
  deriving DecidableEq

/-- The bytes of some appends. -/
def total (appends : List Append) : ℕ := (appends.map fun a => a.bytes.length).sum

@[simp]
theorem total_nil : total [] = 0 := rfl

@[simp]
theorem total_append (as bs : List Append) : total (as ++ bs) = total as + total bs := by
  simp [total]

@[simp]
theorem total_singleton (a : Append) : total [a] = a.bytes.length := by
  simp [total]

/-- Where the drain is. -/
inductive Drain where
  | running
  /-- In `append`, after it has seen that output is persisted. -/
  | accepted (a : Append)
  /-- Holds the state lock: the bytes are counted, the append is not queued yet. -/
  | appending (a : Append)
  /-- About to notify the worker. -/
  | notifying
  /-- There is no worker: applies the append itself. -/
  | applying (a : Append)
  /-- Has seen that the queue is over its bound and waits. -/
  | asleep
  deriving DecidableEq

/-- Where the worker is. -/
inductive Worker where
  /-- About to look at the queue. -/
  | looking
  /-- Waits for output to be queued. -/
  | asleep
  | applying (appends : List Append)
  /-- The batch has been applied and its bytes are still counted. -/
  | subtracting (appends : List Append)
  /-- The bytes are subtracted. `room` says that the queue was over its bound before. -/
  | subtracted (count : ℕ) (room : Bool)
  /-- About to count the appends of the batch as applied. -/
  | finishing (count : ℕ)
  /-- About to notify the callers that wait. -/
  | notifying
  deriving DecidableEq

/-- Where a caller of `lock` is. `before` is how much had been accepted when it called. -/
inductive Caller where
  | idle
  /-- Woken, about to look at the target again. -/
  | awake (target before : ℕ)
  | asleep (target before : ℕ)
  /-- The target is reached; waits for the store. -/
  | ready (before : ℕ)
  /-- Has the store. -/
  | holding (before : ℕ)
  deriving DecidableEq

structure State (ι : Type) where
  /-- Whether new output is persisted at all. -/
  enabled : Bool
  /-- Whether there is a store. -/
  store : Bool
  /-- The caller that has locked the store. -/
  storeHolder : Option ι
  appends : List Append
  /-- Appends ever queued. -/
  queued : ℕ
  /-- Appends ever applied. -/
  applied : ℕ
  workerStarted : Bool
  queuedBytes : ℕ
  drain : Drain
  /-- The wake channel of the drain is readable. -/
  woken : Bool
  worker : Worker
  caller : ι → Caller
  /-- What the store has been given, in order. -/
  given : List Append
  /-- What `append` has accepted, in order: queued, or applied by the drain itself. -/
  accepted : List Append
  /-- What has been through `apply`, in order, and whether it was given to the store. -/
  handled : List (Append × Bool)

variable {ι : Type}

/-- The queue over a store, before its worker starts. -/
def State.new (store enabled : Bool) : State ι where
  enabled := enabled
  store := store
  storeHolder := none
  appends := []
  queued := 0
  applied := 0
  workerStarted := false
  queuedBytes := 0
  drain := .running
  woken := false
  worker := .looking
  caller := fun _ => .idle
  given := []
  accepted := []
  handled := []

inductive Action (ι : Type) where
  /-- The drain calls `append` with something while output is persisted. -/
  | append (a : Append)
  /-- `append` looks whether there is a worker, and counts the bytes. -/
  | count
  | push
  | notifyOne
  | applyInline
  /-- The drain sees that the queue is over its bound and goes to sleep. -/
  | observe
  /-- The wait of the drain ends, for whatever reason. -/
  | endWait
  | start
  | look
  /-- The worker's wait ends without a notification. -/
  | wakeWorker
  | apply
  | subtract
  | onRoom
  | finish
  | notifyAll
  | lock (i : ι)
  | recheck (i : ι)
  /-- A caller's wait ends without a notification. -/
  | wakeCaller (i : ι)
  | acquire (i : ι)
  /-- A caller that has the store changes the store and whether output is persisted. -/
  | change (i : ι) (store enabled : Bool)
  | release (i : ι)

namespace State

/-- `apply`, under the store's lock: the store is given the appends if output is persisted. -/
def apply (s : State ι) (appends : List Append) : State ι :=
  { s with
    given := if s.enabled && s.store then s.given ++ appends else s.given
    handled := s.handled ++ appends.map fun a => (a, s.enabled && s.store) }

def backlogged (s : State ι) : Bool := QUEUE_LIMIT_BYTES ≤ s.queuedBytes

/-- Whether a critical section of the queue's state can begin. -/
def stateFree (s : State ι) : Bool :=
  match s.drain with
  | .appending _ => false
  | _ => true

variable [DecidableEq ι]

def setCaller (s : State ι) (i : ι) (c : Caller) : State ι :=
  { s with caller := update s.caller i c }

/-- The loop of `lock`, in the critical section: waits for the target, or goes on. -/
def awaitTarget (s : State ι) (i : ι) (target before : ℕ) : State ι :=
  s.setCaller i (if s.applied < target then .asleep target before else .ready before)

/-- One step of one party, if it can take it. -/
def step (s : State ι) : Action ι → Option (State ι)
  | .append a =>
    if s.drain = .running ∧ a.bytes ≠ [] ∧ s.enabled then some { s with drain := .accepted a }
    else none
  | .count =>
    match s.drain with
    | .accepted a =>
      if s.workerStarted then
        some { s with drain := .appending a, queuedBytes := s.queuedBytes + a.bytes.length }
      else some { s with drain := .applying a }
    | _ => none
  | .push =>
    match s.drain with
    | .appending a =>
      some { s with
        drain := .notifying, appends := s.appends ++ [a], queued := s.queued + 1
        accepted := s.accepted ++ [a] }
    | _ => none
  | .notifyOne =>
    if s.drain = .notifying then
      some { s with
        drain := .running, worker := if s.worker = .asleep then .looking else s.worker }
    else none
  | .applyInline =>
    match s.drain with
    | .applying a =>
      if s.storeHolder = none then
        some { s.apply [a] with drain := .running, accepted := s.accepted ++ [a] }
      else none
    | _ => none
  | .observe =>
    if s.drain = .running ∧ s.backlogged then some { s with drain := .asleep } else none
  | .endWait =>
    if s.drain = .asleep then some { s with drain := .running, woken := false } else none
  | .start =>
    if s.workerStarted = false ∧ s.stateFree then some { s with workerStarted := true } else none
  | .look =>
    if s.workerStarted ∧ s.worker = .looking ∧ s.stateFree then
      if s.appends = [] then some { s with worker := .asleep }
      else some { s with worker := .applying s.appends, appends := [] }
    else none
  | .wakeWorker =>
    if s.worker = .asleep then some { s with worker := .looking } else none
  | .apply =>
    match s.worker with
    | .applying appends =>
      if s.storeHolder = none then some { s.apply appends with worker := .subtracting appends }
      else none
    | _ => none
  | .subtract =>
    match s.worker with
    | .subtracting appends =>
      some { s with
        queuedBytes := s.queuedBytes - total appends
        worker := .subtracted appends.length s.backlogged }
    | _ => none
  | .onRoom =>
    match s.worker with
    | .subtracted count room =>
      some { s with woken := s.woken || room, worker := .finishing count }
    | _ => none
  | .finish =>
    match s.worker with
    | .finishing count =>
      if s.stateFree then some { s with applied := s.applied + count, worker := .notifying }
      else none
    | _ => none
  | .notifyAll =>
    if s.worker = .notifying then
      some { s with
        worker := .looking
        caller := fun i =>
          match s.caller i with
          | .asleep target before => .awake target before
          | c => c }
    else none
  | .lock i =>
    if s.caller i = .idle ∧ s.stateFree then
      some (s.awaitTarget i s.queued s.accepted.length)
    else none
  | .recheck i =>
    match s.caller i with
    | .awake target before =>
      if s.stateFree then some (s.awaitTarget i target before) else none
    | _ => none
  | .wakeCaller i =>
    match s.caller i with
    | .asleep target before => some (s.setCaller i (.awake target before))
    | _ => none
  | .acquire i =>
    match s.caller i with
    | .ready before =>
      if s.storeHolder = none then
        some { s.setCaller i (.holding before) with storeHolder := some i }
      else none
    | _ => none
  | .change i store enabled =>
    match s.caller i with
    | .holding _ => some { s with store := store, enabled := enabled }
    | _ => none
  | .release i =>
    match s.caller i with
    | .holding _ => some { s.setCaller i .idle with storeHolder := none }
    | _ => none

end State

/-- The batch that has been taken from the queue and has not been applied. -/
def Worker.inHand : Worker → List Append
  | .applying appends => appends
  | _ => []

/-- The bytes of the batch, as long as they are counted as queued. -/
def Worker.bytes : Worker → ℕ
  | .applying appends => total appends
  | .subtracting appends => total appends
  | _ => 0

/-- The appends of the batch that have been applied and are not counted as applied. -/
def Worker.uncounted : Worker → ℕ
  | .subtracting appends => appends.length
  | .subtracted count _ => count
  | .finishing count => count
  | _ => 0

/-- The bytes that are counted for an append that is not queued yet. -/
def Drain.bytes : Drain → ℕ
  | .appending a => a.bytes.length
  | _ => 0

/-- What a caller of `lock` is promised. While it waits, its target was queued before the call,
among what had been accepted; it goes on only when all of that has been handled. If it sleeps
although its target is reached, the worker is about to notify it. -/
def Caller.Kept (s : State ι) : Caller → Prop
  | .idle => True
  | .awake target before =>
    target ≤ s.queued ∧ before + s.queued ≤ s.accepted.length + target
  | .asleep target before =>
    target ≤ s.queued ∧ before + s.queued ≤ s.accepted.length + target ∧
      (target ≤ s.applied → s.worker = .notifying)
  | .ready before => before ≤ s.handled.length
  | .holding before => before ≤ s.handled.length

/-- What holds between any two steps. -/
structure Sound (s : State ι) : Prop where
  /-- **Order**: what was accepted has been handled, is in the worker's hands, or is queued. -/
  order : s.accepted = s.handled.map Prod.fst ++ s.worker.inHand ++ s.appends
  /-- **Once**: the store was given what was handled while output was persisted. -/
  once : s.given = (s.handled.filter Prod.snd).map Prod.fst
  /-- **Bytes**: what is counted is queued, in the worker's hands, or about to be queued. -/
  bytes : s.queuedBytes = total s.appends + s.worker.bytes + s.drain.bytes
  count : s.applied + s.worker.uncounted + s.worker.inHand.length + s.appends.length = s.queued
  /-- Without a worker nothing is queued. -/
  unstarted : s.workerStarted = false →
    s.worker = .looking ∧ s.queued = 0 ∧ ∀ a, s.drain ≠ .appending a
  /-- What the drain applies itself overtakes nothing. -/
  inline : ∀ a, s.drain = .applying a → s.queued = 0
  /-- The worker sleeps over a queue only while the drain is about to notify it. -/
  sleeper : s.worker = .asleep → s.appends = [] ∨ s.drain = .notifying
  /-- **Room**: a drain that sleeps over a queue below its bound has been woken, or is about
  to be. -/
  room : s.drain = .asleep → s.backlogged = false →
    s.woken = true ∨ ∃ count, s.worker = .subtracted count true
  callers : ∀ i, (s.caller i).Kept s

theorem sound_new (store enabled : Bool) : Sound (State.new store enabled : State ι) where
  order := rfl
  once := rfl
  bytes := rfl
  count := rfl
  unstarted _ := ⟨rfl, rfl, nofun⟩
  inline := nofun
  sleeper := nofun
  room := nofun
  callers _ := trivial

namespace Sound

variable {s : State ι}

/-- Everything that was accepted is handled, in the worker's hands, or queued. -/
theorem length_accepted (h : Sound s) :
    s.accepted.length = s.handled.length + s.worker.inHand.length + s.appends.length := by
  rw [h.order]
  simp [Nat.add_assoc]

/-- What has been counted as applied has been handled. -/
theorem applied_le (h : Sound s) : s.accepted.length + s.applied ≤ s.queued + s.handled.length := by
  have := h.length_accepted
  have := h.count
  omega

/-- A batch is never more than what is counted: the subtraction does not underflow. -/
theorem total_le (h : Sound s) : s.worker.bytes ≤ s.queuedBytes := by
  rw [h.bytes]
  omega

/-- **Waiters**: a caller that sleeps although its target is reached is about to be notified. -/
theorem notified (h : Sound s) {i : ι} {target before : ℕ}
    (hcaller : s.caller i = .asleep target before) (htarget : target ≤ s.applied) :
    s.worker = .notifying := by
  have hkept := h.callers i
  rw [hcaller] at hkept
  exact hkept.2.2 htarget

/-- Callers keep what they have been promised while the counters grow. -/
theorem kept_mono {s t : State ι} {c : Caller} (h : c.Kept s) (hqueued : s.queued ≤ t.queued)
    (haccepted : s.accepted.length + t.queued ≤ t.accepted.length + s.queued)
    (hhandled : s.handled.length ≤ t.handled.length)
    (hnotified : ∀ target before, c = .asleep target before → target ≤ t.applied →
      t.worker = .notifying) : c.Kept t := by
  cases c with
  | idle => trivial
  | awake target before => exact ⟨h.1.trans hqueued, by have := h.2; omega⟩
  | asleep target before =>
    exact ⟨h.1.trans hqueued, by have := h.2.1; omega, hnotified target before rfl⟩
  | ready before => exact le_trans h hhandled
  | holding before => exact le_trans h hhandled

/-- A caller that moves on, where it is promised what it then needs. -/
theorem setCaller [DecidableEq ι] (h : Sound s) {i : ι} {c : Caller} (hc : c.Kept s) :
    Sound (s.setCaller i c) := by
  refine { h with callers := fun j => ?_ }
  change (update s.caller i c j).Kept s
  by_cases hj : j = i
  · rwa [hj, update_self]
  · rw [update_of_ne hj]
    exact h.callers j

/-- A caller in the loop of `lock`. -/
theorem awaitTarget [DecidableEq ι] (h : Sound s) {i : ι} {target before : ℕ}
    (htarget : target ≤ s.queued) (hbefore : before + s.queued ≤ s.accepted.length + target) :
    Sound (s.awaitTarget i target before) := by
  refine h.setCaller ?_
  split_ifs with hlt
  · exact ⟨htarget, hbefore, fun hle => absurd hle (by omega)⟩
  · have := h.applied_le
    change before ≤ s.handled.length
    omega

/-- What is handled is given to the store, if output is persisted. -/
theorem given_apply (h : Sound s) (appends : List Append) :
    (s.apply appends).given = ((s.apply appends).handled.filter Prod.snd).map Prod.fst := by
  cases hpersisted : s.enabled && s.store <;>
    simp [State.apply, hpersisted, h.once, List.filter_map, Function.comp_def]

theorem map_handled_apply (s : State ι) (appends : List Append) :
    (s.apply appends).handled.map Prod.fst = s.handled.map Prod.fst ++ appends := by
  simp [State.apply, Function.comp_def]

/-- Steps after which the callers are promised no more than before. -/
theorem kept_congr {s t : State ι} (h : Sound s) (hcaller : t.caller = s.caller)
    (hqueued : t.queued = s.queued) (haccepted : t.accepted = s.accepted)
    (hhandled : t.handled = s.handled) (happlied : t.applied = s.applied)
    (hworker : s.worker = .notifying → t.worker = .notifying) (i : ι) :
    (t.caller i).Kept t := by
  rw [hcaller]
  exact kept_mono (h.callers i) hqueued.ge (by rw [hqueued, haccepted]) (by rw [hhandled])
    fun target before hc hle => hworker (h.notified hc (happlied ▸ hle))

variable {woken : Bool}

/-- The drain moves on without touching the queue. -/
theorem moveDrain (h : Sound s) {d : Drain} (hbytes : d.bytes = s.drain.bytes)
    (hinline : ∀ a, d ≠ .applying a) (hidle : s.drain.bytes = 0 → ∀ a, d ≠ .appending a)
    (hsleeper : s.worker = .asleep → s.appends = [] ∨ d = .notifying)
    (hroom : d = .asleep → s.backlogged = true) : Sound { s with drain := d, woken := woken } :=
  { h with
    bytes := by simpa [hbytes] using h.bytes
    unstarted := fun hs => ⟨(h.unstarted hs).1, (h.unstarted hs).2.1, hidle (by
      cases hd : s.drain <;> first | rfl | exact absurd hd ((h.unstarted hs).2.2 _))⟩
    inline := fun a ha => absurd ha (hinline a)
    sleeper := hsleeper
    room := fun hd hnot => absurd (hroom hd) (by simpa [State.backlogged] using hnot) }

/-- The worker moves on without touching the queue. -/
theorem moveWorker (h : Sound s) {w : Worker} (hmoved : s.worker ≠ .looking ∨
      s.workerStarted = true) (hinHand : w.inHand = s.worker.inHand)
    (hbytes : w.bytes = s.worker.bytes) (huncounted : w.uncounted = s.worker.uncounted)
    (hsleeper : w = .asleep → s.appends = [])
    (hroom : s.drain = .asleep → s.backlogged = false → woken = true)
    (hnotifying : s.worker ≠ .notifying) : Sound { s with worker := w, woken := woken } :=
  { h with
    order := by simpa [hinHand] using h.order
    bytes := by simpa [hbytes] using h.bytes
    count := by simpa [hinHand, huncounted] using h.count
    unstarted := fun hs => by
      rcases hmoved with hmoved | hmoved
      · exact absurd (h.unstarted hs).1 hmoved
      · exact absurd hs (by simp [hmoved])
    sleeper := fun hw => .inl (hsleeper hw)
    room := fun hd hnot => .inl (hroom hd hnot)
    callers := h.kept_congr rfl rfl rfl rfl rfl fun hw => absurd hw hnotifying }

/-- Every step keeps what holds between two steps. -/
theorem step [DecidableEq ι] (h : Sound s) {t : State ι} {action : Action ι}
    (hstep : s.step action = some t) : Sound t := by
  cases action with
  | append a =>
    rw [State.step] at hstep
    split_ifs at hstep with hif
    cases hstep
    exact h.moveDrain (by rw [hif.1]; rfl) nofun (fun _ => nofun)
      (fun hw => (h.sleeper hw).imp id fun hd => by simp [hif.1] at hd) nofun
  | count =>
    rw [State.step] at hstep
    split at hstep
    next a hdrain =>
      split_ifs at hstep with hstarted
      · cases hstep
        exact { h with
          bytes := by
            have := h.bytes
            simp only [hdrain, Drain.bytes] at this ⊢
            omega
          unstarted := fun hs => absurd (hstarted.symm.trans hs) nofun
          inline := nofun
          sleeper := fun hw => (h.sleeper hw).imp id fun hd => by simp [hdrain] at hd
          room := nofun }
      · cases hstep
        have hqueued := (h.unstarted (by simpa using hstarted)).2.1
        exact { h with
          bytes := by simpa [hdrain, Drain.bytes] using h.bytes
          unstarted := fun hs => ⟨(h.unstarted hs).1, hqueued, nofun⟩
          inline := fun _ _ => hqueued
          sleeper := fun hw => (h.sleeper hw).imp id fun hd => by simp [hdrain] at hd
          room := nofun }
    · cases hstep
  | push =>
    rw [State.step] at hstep
    split at hstep
    next a hdrain =>
      cases hstep
      have hbytes := h.bytes
      have hcount := h.count
      simp only [hdrain, Drain.bytes] at hbytes
      exact {
        order := by simp [h.order]
        once := h.once
        bytes := by
          simp only [Drain.bytes, total_append, total_singleton]
          omega
        count := by
          simp only [List.length_append, List.length_singleton]
          omega
        unstarted := fun hs => absurd hdrain ((h.unstarted hs).2.2 a)
        inline := nofun
        sleeper := fun _ => .inr rfl
        room := nofun
        callers := fun i => kept_mono (h.callers i) (Nat.le_succ _) (by simp; omega) le_rfl
          fun target before hc hle => h.notified hc hle }
    · cases hstep
  | notifyOne =>
    rw [State.step] at hstep
    split_ifs at hstep with hdrain hworker
    · -- The worker sleeps: it looks at the queue again.
      cases hstep
      have hwoken : Sound { s with worker := .looking, woken := s.woken } :=
        h.moveWorker (.inl (by simp [hworker])) (by rw [hworker]; rfl) (by rw [hworker]; rfl)
          (by rw [hworker]; rfl) nofun (by simp [hdrain]) (by simp [hworker])
      exact hwoken.moveDrain (by simp [hdrain, Drain.bytes]) nofun (fun _ => nofun) nofun nofun
    · cases hstep
      exact h.moveDrain (by rw [hdrain]; rfl) nofun (fun _ => nofun)
        (fun hw => absurd hw hworker) nofun
  | applyInline =>
    rw [State.step] at hstep
    split at hstep
    next a hdrain =>
      split_ifs at hstep with hfree
      cases hstep
      -- Nothing has ever been queued, so the append is the last that was accepted.
      have hcount := h.count
      have hqueued := h.inline a hdrain
      have hinHand : s.worker.inHand = [] := List.length_eq_zero_iff.mp (by omega)
      have happends : s.appends = [] := List.length_eq_zero_iff.mp (by omega)
      have horder := h.order
      rw [hinHand, happends, List.append_nil, List.append_nil] at horder
      exact {
        order := by
          change s.accepted ++ [a] = (s.apply [a]).handled.map Prod.fst ++ s.worker.inHand ++ s.appends
          rw [map_handled_apply, hinHand, happends, horder]
          simp
        once := h.given_apply [a]
        bytes := by
          have hbytes := h.bytes
          rwa [hdrain] at hbytes
        count := hcount
        unstarted := fun hs => ⟨(h.unstarted hs).1, hqueued, nofun⟩
        inline := nofun
        sleeper := fun _ => .inl happends
        room := nofun
        callers := fun i => kept_mono (h.callers i) le_rfl
          (by simp only [State.apply, List.length_append]; omega)
          (by simp only [State.apply, List.length_append]; omega)
          fun target before hc hle => h.notified hc hle }
    · cases hstep
  | observe =>
    rw [State.step] at hstep
    split_ifs at hstep with hif
    cases hstep
    exact h.moveDrain (by rw [hif.1]; rfl) nofun (fun _ => nofun)
      (fun hw => (h.sleeper hw).imp id fun hd => by simp [hif.1] at hd) fun _ => hif.2
  | endWait =>
    rw [State.step] at hstep
    split_ifs at hstep with hdrain
    cases hstep
    exact h.moveDrain (by rw [hdrain]; rfl) nofun (fun _ => nofun)
      (fun hw => (h.sleeper hw).imp id fun hd => by simp [hdrain] at hd) nofun
  | start =>
    rw [State.step] at hstep
    split_ifs at hstep with hif
    cases hstep
    exact { h with unstarted := nofun }
  | look =>
    rw [State.step] at hstep
    split_ifs at hstep with hif hempty
    · cases hstep
      exact h.moveWorker (.inr hif.1) (by rw [hif.2.1]; rfl) (by rw [hif.2.1]; rfl)
        (by rw [hif.2.1]; rfl) (fun _ => hempty)
        (fun hd hnot => (h.room hd hnot).resolve_right (by simp [hif.2.1])) (by simp [hif.2.1])
    · cases hstep
      have horder := h.order
      have hbytes := h.bytes
      have hcount := h.count
      simp only [hif.2.1, Worker.inHand, Worker.bytes, Worker.uncounted] at horder hbytes hcount
      exact { h with
        order := by simpa [Worker.inHand] using horder
        bytes := by simpa [Worker.bytes] using hbytes
        count := by
          simp only [Worker.inHand, Worker.uncounted, List.length_nil] at hcount ⊢
          omega
        unstarted := fun hs => absurd (hif.1.symm.trans hs) nofun
        sleeper := nofun
        room := fun hd hnot => .inl ((h.room hd hnot).resolve_right (by simp [hif.2.1]))
        callers := h.kept_congr rfl rfl rfl rfl rfl (by simp [hif.2.1]) }
  | wakeWorker =>
    rw [State.step] at hstep
    split_ifs at hstep with hworker
    cases hstep
    exact h.moveWorker (.inl (by simp [hworker])) (by rw [hworker]; rfl) (by rw [hworker]; rfl)
      (by rw [hworker]; rfl) nofun
      (fun hd hnot => (h.room hd hnot).resolve_right (by simp [hworker])) (by simp [hworker])
  | apply =>
    rw [State.step] at hstep
    split at hstep
    next appends hworker =>
      split_ifs at hstep with hfree
      cases hstep
      have horder := h.order
      have hbytes := h.bytes
      have hcount := h.count
      simp only [hworker, Worker.inHand, Worker.bytes, Worker.uncounted] at horder hbytes hcount
      exact {
        order := by
          change s.accepted = (s.apply appends).handled.map Prod.fst ++ [] ++ s.appends
          rw [map_handled_apply, List.append_nil, horder]
        once := h.given_apply appends
        bytes := hbytes
        count := by
          simp only [Worker.inHand, Worker.uncounted, List.length_nil]
          change s.applied + appends.length + 0 + s.appends.length = s.queued
          omega
        unstarted := fun hs => absurd (h.unstarted hs).1 (by simp [hworker])
        inline := h.inline
        sleeper := nofun
        room := fun hd hnot => .inl ((h.room hd hnot).resolve_right (by simp [hworker]))
        callers := fun i => kept_mono (h.callers i) le_rfl le_rfl (by simp [State.apply])
          fun target before hc hle => absurd (h.notified hc hle) (by simp [hworker]) }
    · cases hstep
  | subtract =>
    rw [State.step] at hstep
    split at hstep
    next appends hworker =>
      cases hstep
      have horder := h.order
      have hbytes := h.bytes
      have hcount := h.count
      simp only [hworker, Worker.inHand, Worker.bytes, Worker.uncounted] at horder hbytes hcount
      exact { h with
        order := horder
        bytes := by
          simp only [Worker.bytes]
          omega
        count := hcount
        unstarted := fun hs => absurd (h.unstarted hs).1 (by simp [hworker])
        sleeper := nofun
        room := fun hd _ => by
          -- The value that is replaced decides: below the bound the drain is already woken.
          cases hover : s.backlogged with
          | true => exact .inr ⟨_, rfl⟩
          | false => exact .inl ((h.room hd hover).resolve_right (by simp [hworker]))
        callers := h.kept_congr rfl rfl rfl rfl rfl (by simp [hworker]) }
    · cases hstep
  | onRoom =>
    rw [State.step] at hstep
    split at hstep
    next count room hworker =>
      cases hstep
      refine h.moveWorker (.inl (by simp [hworker])) (by rw [hworker]; rfl) (by rw [hworker]; rfl)
        (by rw [hworker]; rfl) nofun (fun hd hnot => ?_) (by simp [hworker])
      rcases h.room hd hnot with hwoken | ⟨n, hn⟩
      · simp [hwoken]
      · rw [hworker] at hn
        simp [(Worker.subtracted.inj hn).2]
    · cases hstep
  | finish =>
    rw [State.step] at hstep
    split at hstep
    next count hworker =>
      split_ifs at hstep with hfree
      cases hstep
      have horder := h.order
      have hbytes := h.bytes
      have hcount := h.count
      simp only [hworker, Worker.inHand, Worker.bytes, Worker.uncounted] at horder hbytes hcount
      exact { h with
        order := horder
        bytes := hbytes
        count := hcount
        unstarted := fun hs => absurd (h.unstarted hs).1 (by simp [hworker])
        sleeper := nofun
        room := fun hd hnot => .inl ((h.room hd hnot).resolve_right (by simp [hworker]))
        callers := fun i => kept_mono (h.callers i) le_rfl le_rfl le_rfl fun _ _ _ _ => rfl }
    · cases hstep
  | notifyAll =>
    rw [State.step] at hstep
    split_ifs at hstep with hworker
    cases hstep
    have horder := h.order
    have hbytes := h.bytes
    have hcount := h.count
    simp only [hworker, Worker.inHand, Worker.bytes, Worker.uncounted] at horder hbytes hcount
    refine { h with
      order := horder
      bytes := hbytes
      count := hcount
      unstarted := fun hs => absurd (h.unstarted hs).1 (by simp [hworker])
      sleeper := nofun
      room := fun hd hnot => .inl ((h.room hd hnot).resolve_right (by simp [hworker]))
      callers := fun i => ?_ }
    have hkept := h.callers i
    cases hcaller : s.caller i <;> rw [hcaller] at hkept <;> simp only [hcaller]
    case asleep target before => exact ⟨hkept.1, hkept.2.1⟩
    all_goals exact hkept
  | lock i =>
    rw [State.step] at hstep
    split_ifs at hstep with hif
    cases hstep
    exact h.awaitTarget le_rfl (by omega)
  | recheck i =>
    rw [State.step] at hstep
    split at hstep
    next target before hcaller =>
      split_ifs at hstep with hfree
      cases hstep
      have hkept := h.callers i
      rw [hcaller] at hkept
      exact h.awaitTarget hkept.1 hkept.2
    · cases hstep
  | wakeCaller i =>
    rw [State.step] at hstep
    split at hstep
    next target before hcaller =>
      cases hstep
      have hkept := h.callers i
      rw [hcaller] at hkept
      exact h.setCaller ⟨hkept.1, hkept.2.1⟩
    · cases hstep
  | acquire i =>
    rw [State.step] at hstep
    split at hstep
    next before hcaller =>
      split_ifs at hstep with hfree
      cases hstep
      have hkept := h.callers i
      rw [hcaller] at hkept
      exact { h.setCaller (i := i) (c := .holding before) hkept with }
    · cases hstep
  | change i store enabled =>
    rw [State.step] at hstep
    split at hstep
    · cases hstep
      exact { h with }
    · cases hstep
  | release i =>
    rw [State.step] at hstep
    split at hstep
    · cases hstep
      exact { h.setCaller (i := i) (c := .idle) trivial with }
    · cases hstep

end Sound

/-! ### Runs -/

/-- What the queue promises in every state. -/
structure Promises (s : State ι) : Prop where
  /-- **Order**: what was accepted has been handled, is in the worker's hands, or is queued: in
  this order, and each append once. -/
  order : s.accepted = s.handled.map Prod.fst ++ s.worker.inHand ++ s.appends
  /-- **Once**: the store was given exactly what was handled while output was persisted. -/
  once : s.given = (s.handled.filter Prod.snd).map Prod.fst
  /-- **Lock**: it goes on, and returns, only after what was accepted before the call has been
  handled. -/
  lock : ∀ i before, s.caller i = .ready before ∨ s.caller i = .holding before →
    before ≤ s.handled.length
  /-- **Bytes**: what is counted is queued, in the worker's hands until it is subtracted, or
  about to be queued. -/
  bytes : s.queuedBytes = total s.appends + s.worker.bytes + s.drain.bytes
  /-- The subtraction never underflows. -/
  underflow : ∀ batch, s.worker = .subtracting batch → total batch ≤ s.queuedBytes
  /-- **Waiters**: a caller that sleeps although its target is reached is about to be notified. -/
  waiter : ∀ i target before, s.caller i = .asleep target before → target ≤ s.applied →
    s.worker = .notifying
  /-- The worker sleeps over a queue only while the drain is about to notify it. -/
  sleeper : s.worker = .asleep → s.appends = [] ∨ s.drain = .notifying
  /-- **Room**: a drain that sleeps over a queue below its bound has been woken, or `on_room` is
  about to be called. -/
  room : s.drain = .asleep → s.queuedBytes < QUEUE_LIMIT_BYTES →
    s.woken = true ∨ ∃ count, s.worker = .subtracted count true

theorem Sound.promises {s : State ι} (h : Sound s) : Promises s where
  order := h.order
  once := h.once
  lock i before hc := by
    have hkept := h.callers i
    rcases hc with hc | hc <;> rw [hc] at hkept <;> exact hkept
  bytes := h.bytes
  underflow batch hb := by
    have hle := h.total_le
    rwa [hb] at hle
  waiter _ _ _ := h.notified
  sleeper := h.sleeper
  room hd hlt := h.room hd (by simpa [State.backlogged] using hlt)

variable [DecidableEq ι]

/-- The steps of all parties. -/
def Next (s : State ι) (action : Action ι) (t : State ι) : Prop := s.step action = some t

theorem sound_of_run {store enabled : Bool} {actions : List (Action ι)} {s : State ι}
    (hrun : Run Next (State.new store enabled) actions s) : Sound s :=
  hrun.invariant (sound_new store enabled) fun _ _ _ h hstep => h.step hstep

/-- **The queue**: in every state that any interleaving reaches, the appends have been handled
in order and once, `lock` has waited for those before it, the bytes are counted, and nobody
sleeps whom nobody will wake. -/
theorem queue_of_run {store enabled : Bool} {actions : List (Action ι)} {s : State ι}
    (hrun : Run Next (State.new store enabled) actions s) : Promises s :=
  (sound_of_run hrun).promises

/-- An append is queued, and a caller that asks for the store afterwards gets it only when the
append has been applied. -/
def appendThenLock : List (Action Unit) :=
  [.start, .append ⟨1, 2, [65]⟩, .count, .push, .lock (), .notifyOne, .look, .apply, .subtract,
    .onRoom, .finish, .notifyAll, .recheck (), .acquire ()]

theorem promises_of_appendThenLock :
    ∃ s, Run Next (State.new true true) appendThenLock s ∧
      (s.caller () = .holding 1 ∧ s.given = [⟨1, 2, [65]⟩]) ∧ Promises s := by
  obtain ⟨s, hrun, hend⟩ := exists_run_of_foldlM (f := State.step)
    (P := fun s => s.caller () = .holding 1 ∧ s.given = [⟨1, 2, [65]⟩]) appendThenLock
    (s := State.new true true) (by decide)
  exact ⟨s, hrun, hend, queue_of_run hrun⟩

/-- A step handles nothing, or a batch under the store's lock. -/
theorem handled_of_step {s t : State ι} {action : Action ι} (hstep : Next s action t) :
    t.handled = s.handled ∨ ∃ appends : List Append,
      t.handled = s.handled ++ appends.map fun a => (a, s.enabled && s.store) := by
  rw [Next] at hstep
  -- only the worker's batches and the drain's own appends go through `apply`
  cases action <;> rw [State.step] at hstep <;> split at hstep <;>
    (try split at hstep) <;> first
    | (obtain rfl := Option.some.inj hstep; first | exact .inl rfl | exact .inr ⟨_, rfl⟩)
    | cases hstep

/-- **Nothing is lost** while output is persisted: at every moment the store has been given what
was accepted, in order, up to what the worker has in hand and what is queued. -/
theorem accepted_of_persisted {actions : List (Action ι)} {s : State ι}
    (hrun : Run (Meeting (fun s _ => s.enabled = true ∧ s.store = true) Next)
      (State.new true true) actions s) : s.accepted = s.given ++ s.worker.inHand ++ s.appends := by
  have hall : ∀ p ∈ s.handled, p.2 = true := by
    refine hrun.invariant (I := fun s => ∀ p ∈ s.handled, p.2 = true) nofun
      fun s _ t h hstep => ?_
    obtain ⟨⟨henabled, hstore⟩, hstep⟩ := hstep
    rcases handled_of_step hstep with heq | ⟨appends, heq⟩
    · rwa [heq]
    · rw [heq, henabled, hstore]
      intro p hp
      rcases List.mem_append.mp hp with hp | hp
      · exact h p hp
      · obtain ⟨a, -, rfl⟩ := List.mem_map.mp hp
        rfl
  have hsound := sound_of_run hrun.of_meeting
  rw [hsound.order, hsound.once, List.filter_eq_self.mpr hall]

theorem accepted_of_appendThenLock :
    ∃ s : State Unit, s.given = [⟨1, 2, [65]⟩] ∧
      s.accepted = s.given ++ s.worker.inHand ++ s.appends := by
  obtain ⟨s, hrun, hend⟩ := exists_run_of_foldlM
    (f := fun (s : State Unit) a => if s.enabled = true ∧ s.store = true then s.step a else none)
    (P := fun s => s.given = [⟨1, 2, [65]⟩]) appendThenLock (s := State.new true true) (by decide)
  refine ⟨s, hend, accepted_of_persisted (hrun.mono fun s a t h => ?_)⟩
  split_ifs at h with hpersisted
  exact ⟨hpersisted, h⟩

/-- Output stops being persisted after an append has been queued, and before its batch reaches
the store: the append is never given to the store. -/
theorem queued_append_dropped :
    ∃ s, Run Next (State.new true true)
        [.start, .lock (), .acquire (), .append ⟨1, 2, [65]⟩, .count, .push, .notifyOne, .look,
          .change () true false, .release (), .apply, .subtract, .onRoom, .finish, .notifyAll] s ∧
      (s.accepted = [⟨1, 2, [65]⟩] ∧ s.queued = 1 ∧ s.applied = 1 ∧ s.given = []) :=
  exists_run_of_foldlM (f := State.step) _ (by decide)

end Zetta.Zmux.PersistenceQueue
