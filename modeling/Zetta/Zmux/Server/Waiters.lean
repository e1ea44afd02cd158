import Zetta.Zmux.Server.OneReader

/-!
# The attaches that wait for a pane

An attach is counted in `handover_waiters` when it begins to wait, and released on every way out
of `await_handover`. The empty shared set that a handover leaves behind is kept for those that
are counted.

* `waiters_of_run`: the counter is the number of requests that wait, and a pane is shared with
  nobody only while one of them does.
* A join that fails before it has added its viewer leaves the set as it is, which may be empty,
  and a holder that answers late leaves an empty set to nobody (`shared_with_nobody`).
-/

namespace Zetta.Zmux.Server.Handover

variable {ι : Type}

def Task.isWaiting : Task → Bool
  | .waiting _ _ => true
  | _ => false

@[simp]
theorem isWaiting_wake (task : Task) : task.wake.isWaiting = task.isWaiting := by
  cases task <;> rfl

/-- As many requests as `n` are waiting. -/
def Counts (task : ι → Task) (n : ℕ) : Prop := {i | (task i).isWaiting = true}.encard = n

namespace Counts

variable {task : ι → Task} {n : ℕ} {i : ι} {new : Task}

theorem zero_of_idle (h : ∀ i, task i = .idle) : Counts task 0 := by
  rw [Counts, Nat.cast_zero, Set.encard_eq_zero]
  refine Set.eq_empty_of_forall_notMem fun i hi => ?_
  rw [Set.mem_ofPred_eq, h i] at hi
  cases hi

theorem congr {task' : ι → Task} (h : Counts task n)
    (heq : ∀ i, (task' i).isWaiting = (task i).isWaiting) : Counts task' n := by
  rw [Counts, ← h]
  exact congrArg Set.encard (Set.ext fun i => by simp only [Set.mem_ofPred_eq, heq i])

/-- A waiting request is counted. -/
theorem ne_zero (h : Counts task n) (hi : (task i).isWaiting = true) : n ≠ 0 := by
  rintro rfl
  have hempty := Set.encard_eq_zero.mp (h.trans Nat.cast_zero)
  exact Set.notMem_empty i (hempty ▸ hi)

/-- Some request waits if any are counted. -/
theorem exists_waiting (h : Counts task n) (hn : n ≠ 0) : ∃ i, (task i).isWaiting = true := by
  by_contra hnone
  have hempty : {i | (task i).isWaiting = true} = ∅ :=
    Set.eq_empty_of_forall_notMem fun i hi => hnone ⟨i, hi⟩
  rw [Counts, hempty, Set.encard_empty] at h
  exact hn (by exact_mod_cast h.symm)

variable [DecidableEq ι]

/-- A request moves on without beginning or ending to wait. -/
theorem update (h : Counts task n) (heq : new.isWaiting = (task i).isWaiting) :
    Counts (Function.update task i new) n := by
  refine h.congr fun j => ?_
  by_cases hji : j = i
  · rw [hji, Function.update_self, heq]
  · rw [Function.update_of_ne hji]

/-- A request begins to wait. -/
theorem begins (h : Counts task n) (hbefore : (task i).isWaiting = false)
    (hafter : new.isWaiting = true) : Counts (Function.update task i new) (n + 1) := by
  have hset : {j | (Function.update task i new j).isWaiting = true} =
      insert i {j | (task j).isWaiting = true} := by
    refine Set.ext fun j => ?_
    by_cases hji : j = i
    · simp [hji, hafter]
    · simp [hji]
  have hnot : i ∉ {j | (task j).isWaiting = true} := by simp [hbefore]
  rw [Counts, hset, Set.encard_insert_of_notMem hnot, h, Nat.cast_succ]

/-- A request stops waiting. -/
theorem ends (h : Counts task n) (hbefore : (task i).isWaiting = true)
    (hafter : new.isWaiting = false) : Counts (Function.update task i new) (n - 1) := by
  have hset : {j | (Function.update task i new j).isWaiting = true} =
      {j | (task j).isWaiting = true} \ {i} := by
    refine Set.ext fun j => ?_
    by_cases hji : j = i
    · simp [hji, hafter]
    · simp [hji]
  have hmem : i ∈ {j | (task j).isWaiting = true} := hbefore
  rw [Counts, hset, Set.encard_sdiff_singleton_of_mem hmem, h]
  exact (ENat.natCast_sub n 1).symm

end Counts

variable [DecidableEq ι]

/-! ### The counter -/

/-- The counter is the number of requests that wait. -/
def State.Counted (s : State ι) : Prop :=
  ∀ pane, s.pane = some pane → Counts s.task pane.handoverWaiters

variable {s : State ι} {pane : Pane} {i : ι} {task : Task}

/-- A request has moved on: what it was counted for, `n`, is what the pane has counted. -/
theorem counted_set (h : Counts (Function.update s.task i task) pane.handoverWaiters) :
    (s.set pane i task).Counted := by
  intro pane' ht
  cases ht
  exact h

omit [DecidableEq ι] in
theorem State.Counted.notifyAll (h : s.Counted) : s.notifyAll.Counted :=
  fun pane hpane => (h pane hpane).congr fun _ => isWaiting_wake _

omit [DecidableEq ι] in
theorem State.Counted.onPane (h : s.Counted) {f : Pane → Pane}
    (hf : ∀ pane, (f pane).handoverWaiters = pane.handoverWaiters) : (s.onPane f).Counted := by
  intro pane' ht
  obtain ⟨pane, hpane, rfl⟩ := Option.map_eq_some_iff.mp ht
  rw [hf]
  exact h pane hpane

omit [DecidableEq ι] in
theorem State.Counted.releaseFailedHandover (h : s.Counted) (clientId : String) :
    (releaseFailedHandover s clientId).Counted := by
  rw [Handover.releaseFailedHandover]
  split
  next pane hpane =>
    split_ifs
    · refine State.Counted.notifyAll fun pane' ht => ?_
      cases ht
      exact h pane hpane
    · exact h.notifyAll
  · exact h.notifyAll

@[simp]
theorem finishHandoverWaiter_handoverWaiters (pane : Pane) (collapse : Bool) :
    (finishHandoverWaiter pane collapse).handoverWaiters = pane.handoverWaiters - 1 := by
  simp only [finishHandoverWaiter]
  split_ifs <;> rfl

variable {attacher : Attacher} {fault : Fault}

/-- A request that takes the descriptor has stopped waiting, if it was. -/
theorem counted_attachExclusive (h : ∀ task : Task, task.isWaiting = false →
      Counts (Function.update s.task i task) pane.handoverWaiters) :
    (attachExclusive s i pane attacher fault).Counted := by
  rw [attachExclusive]
  split
  · exact counted_set (h .idle rfl)
  · dsimp only
    split
    · exact counted_set (h .idle rfl)
    · exact counted_set (h (.replying _ _ _) rfl)

theorem counted_attachShared (h : ∀ task : Task, task.isWaiting = false →
      Counts (Function.update s.task i task) pane.handoverWaiters) :
    (attachShared s i pane attacher fault).Counted := by
  rw [attachShared]
  split
  · split_ifs
    · exact counted_set (h .idle rfl)
    · exact counted_set (h .idle rfl)
    · exact counted_set (h (.serving _) rfl)
  · exact counted_set (h .idle rfl)

theorem counted_attach (h : s.Counted) (hpane : s.pane = some pane) (htask : s.task i = .idle)
    (attacher : Attacher) (forceShared : Bool) (fault : Fault) (full : Bool) :
    (attach s i pane attacher forceShared fault full).Counted := by
  have hsame : ∀ task : Task, task.isWaiting = false →
      Counts (Function.update s.task i task) pane.handoverWaiters :=
    fun task hidle => (h pane hpane).update (by rw [htask, hidle]; rfl)
  have hwait : ∀ (s' : State ι) (pane' : Pane), s'.task = s.task →
      pane'.handoverWaiters = pane.handoverWaiters → (attach.wait i attacher s' pane').Counted := by
    intro s' pane' htask' hwaiters
    refine counted_set ?_
    rw [htask', show ({ pane' with handoverWaiters := pane'.handoverWaiters + 1 } :
      Pane).handoverWaiters = pane.handoverWaiters + 1 by rw [← hwaiters]]
    exact (h pane hpane).begins (by rw [htask]; rfl) rfl
  rw [attach]
  split
  · exact counted_set (hsame .idle rfl)
  · split
    · split
      · exact counted_attachShared hsame
      · exact counted_attachShared hsame
      · split
        · exact counted_set (hsame .idle rfl)
        · split
          · exact hwait _ _ rfl rfl
          · exact hwait _ _ rfl rfl
    · split
      · exact counted_attachExclusive hsame
      · exact counted_attachShared hsame
      · split
        · exact counted_attachExclusive hsame
        · exact hwait _ _ rfl rfl
      · exact hwait _ _ rfl rfl

theorem counted_awaken (h : s.Counted) (hpane : s.pane = some pane)
    (htask : (s.task i).isWaiting = true) (attacher : Attacher) (expired : Bool) (fault : Fault)
    (full : Bool) : (awaken s i pane attacher expired fault full).Counted := by
  have hends : ∀ task : Task, task.isWaiting = false →
      Counts (Function.update s.task i task) (pane.handoverWaiters - 1) :=
    fun task hidle => (h pane hpane).ends htask hidle
  have hfinish : ∀ (pane' : Pane) (collapse : Bool), pane'.handoverWaiters = pane.handoverWaiters →
      ∀ task : Task, task.isWaiting = false →
        Counts (Function.update s.task i task) (finishHandoverWaiter pane' collapse).handoverWaiters := by
    intro pane' collapse hwaiters task hidle
    rw [finishHandoverWaiter_handoverWaiters, hwaiters]
    exact hends task hidle
  have hagain : ∀ (s' : State ι) (pane' : Pane), s'.task = s.task →
      pane'.handoverWaiters = pane.handoverWaiters →
      (awaken.again i attacher expired s' pane').Counted := by
    intro s' pane' htask' hwaiters
    rw [awaken.again]
    split
    · refine counted_set ?_
      rw [htask']
      exact hfinish pane' true hwaiters .idle rfl
    · refine counted_set ?_
      rw [htask', hwaiters]
      exact (h pane hpane).update htask.symm
  rw [awaken]
  split
  · exact counted_set (hfinish pane true rfl .idle rfl)
  · split
    · exact counted_attachShared (hfinish pane false rfl)
    · dsimp only
      split
      · exact counted_attachShared (hfinish pane true rfl)
      · exact counted_attachExclusive (hfinish pane true rfl)
    · split
      · exact counted_attachExclusive (hfinish pane true rfl)
      · exact hagain _ _ rfl rfl
    · split
      · exact hagain _ _ rfl rfl
      · exact counted_attachExclusive (hfinish pane.unhold true rfl)
    · split
      · exact hagain _ _ rfl rfl
      · exact counted_attachExclusive (hfinish pane.unhold true rfl)

variable {t : State ι} {action : Action ι}

/-- **Every step** counts the requests that wait. -/
theorem counted_step (h : s.Counted) (hstep : s.step action = some t) : t.Counted := by
  -- A step on the pane that leaves the counter alone.
  have hpane' : ∀ {pane pane' : Pane}, s.pane = some pane →
      pane'.handoverWaiters = pane.handoverWaiters → Counts s.task pane'.handoverWaiters :=
    fun hpane hwaiters => hwaiters ▸ h _ hpane
  cases moves_of_step hstep with
  | refused => exact h
  | gone i hpane htask => exact fun pane' ht => nomatch hpane.symm.trans ht
  | attach htask hpane => exact counted_attach h hpane htask _ _ _ _
  | awaken htask hpane => exact counted_awaken h hpane (by rw [htask]; rfl) _ _ _ _
  | @sent i processId clientId grant htask =>
    have hidle : State.Counted { s with
        task := Function.update s.task i .idle
        holds := Function.update s.holds processId true } :=
      fun pane hpane => (h pane hpane).update (by rw [htask]; rfl)
    split
    · exact hidle.notifyAll
    · exact hidle
  | unsent htask =>
    have hidle : State.Counted { s with task := Function.update s.task _ .idle } :=
      fun pane hpane => (h pane hpane).update (by rw [htask]; rfl)
    exact hidle.releaseFailedHandover _
  | snapshot hpane hrevoking =>
    refine State.Counted.notifyAll fun pane' ht => ?_
    cases ht
    exact hpane' hpane rfl
  | seeded screen hpane =>
    intro pane' ht
    cases ht
    exact hpane' hpane rfl
  | takeExclusive htask hpane hshared hsole =>
    exact counted_set ((h _ hpane).update (by rw [htask]; rfl))
  | @resume i pane processId clientId flushed fault htask hpane =>
    have hidle : ∀ task : Task, task.isWaiting = false →
        Counts (Function.update s.task i task) pane.handoverWaiters :=
      fun task hnot => (h pane hpane).update (by rw [htask, hnot]; rfl)
    rw [resumeGrant]
    split
    · dsimp only
      split
      · refine State.Counted.releaseFailedHandover (counted_set ?_) clientId
        exact hidle .idle rfl
      · exact counted_set (hidle (.replying _ _ _) rfl)
    · exact State.Counted.notifyAll (counted_set (hidle .idle rfl))
  | releaseExclusive hpane hheld hclient =>
    refine State.Counted.notifyAll fun pane' ht => ?_
    cases ht
    exact hpane' hpane rfl
  | detach hpane hheld =>
    intro pane' ht
    cases ht
    exact hpane' hpane rfl
  | closePane hpane hheld =>
    refine State.Counted.notifyAll fun pane' ht => ?_
    cases ht
    exact hpane' hpane rfl
  | leaveShared =>
    exact State.Counted.notifyAll (h.onPane fun pane => (departed_retain pane s.revision _).waiters)
  | @disconnect i attachment htask =>
    have hleft : (s.onPane (removeSharedAttachment · s.revision attachment)).Counted :=
      h.onPane fun pane => (departed_retain pane s.revision _).waiters
    refine fun pane hpane => (hleft pane hpane).update ?_
    rw [show (s.onPane _).task i = s.task i from rfl, htask]
    rfl
  | evict => exact h.onPane fun pane => (departed_evict pane s.revision _).waiters
  | @output pane bytes hpane hdrain =>
    intro pane' ht
    cases ht
    rw [(departed_drainOutput pane s.revision bytes).waiters]
    exact h pane hpane
  | announce => exact h.onPane fun pane => rfl
  | closeRelay => exact h.onPane fun pane => (departed_closeRelay _ pane).waiters
  | die => exact h
  | sweep hpane hholder hdead =>
    refine State.Counted.notifyAll fun pane' ht => ?_
    cases ht
    exact hpane' hpane rfl
  | exit => exact h.onPane fun pane => rfl
  | remove => rintro pane' ⟨⟩
  | subscribe => exact h
  | unsubscribe => exact h

/-! ### The empty shared set -/

/-- A pane that is shared with nobody is counted for somebody. -/
def State.Attended (s : State ι) : Prop :=
  ∀ pane, s.pane = some pane → pane.attachment = .shared [] → pane.handoverWaiters ≠ 0

/-- The steps that leave no pane shared with nobody: a join that fails before it has a viewer is
not the first on a pane that nobody waits for, and not the last that waited for it; a holder
answers a revoke while the request that asked still waits. -/
def State.Attends (s : State ι) : Action ι → Prop
  | .attach _ attacher forceShared fault _ => fault = .relay →
      attacher.streamOnly = true ∨ forceShared = true →
      ∀ pane, s.pane = some pane → pane.exited = false → pane.handoverWaiters = 0 →
      pane.attachment ≠ .none
  | .awaken i _ fault _ => fault = .relay → ∀ attacher woken, s.task i = .waiting attacher woken →
      ∀ pane, s.pane = some pane → pane.exited = false → pane.handoverWaiters = 1 →
      pane.attachment ≠ .shared [] ∧ (attacher.streamOnly = true → pane.attachment ≠ .none)
  | .snapshot caller _ => ∀ pane, s.pane = some pane → pane.attachment = .revoking caller →
      pane.handoverWaiters ≠ 0
  | _ => True

/-- The steps that take no pane that is shared with nobody from those who wait: a reply that fails
and a grant that resumes do not find one. -/
def State.Keeps (s : State ι) : Action ι → Prop
  | .send i false => ∀ processId clientId grant, s.task i = .replying processId clientId grant →
      ∀ pane, s.pane = some pane →
      pane.attachmentClientId = none ∨ pane.attachmentClientId = some clientId →
      pane.attachment ≠ .shared []
  | .resume i _ _ => ∀ processId clientId, s.task i = .flushing processId clientId →
      ∀ pane, s.pane = some pane → pane.attachment ≠ .shared []
  | _ => True

/-- The steps that meet both. -/
def State.Expected (s : State ι) (action : Action ι) : Prop := s.Attends action ∧ s.Keeps action

theorem attended_set (h : pane.attachment = .shared [] → pane.handoverWaiters ≠ 0) :
    (s.set pane i task).Attended := by
  intro pane' ht
  cases ht
  exact h

omit [DecidableEq ι] in
theorem State.Attended.onPane (h : s.Attended) {f : Pane → Pane}
    (hf : ∀ pane, ∃ emptied, Departed emptied pane (f pane)) : (s.onPane f).Attended := by
  intro pane' ht hempty
  obtain ⟨pane, hpane, rfl⟩ := Option.map_eq_some_iff.mp ht
  obtain ⟨emptied, hdeparted⟩ := hf pane
  rw [hdeparted.waiters]
  exact (hdeparted.empty hempty).elim (h pane hpane) id

omit [DecidableEq ι] in
theorem attended_releaseFailedHandover (h : s.Attended) (clientId : String) :
    (releaseFailedHandover s clientId).Attended := by
  rw [releaseFailedHandover]
  split
  next pane hpane =>
    split_ifs
    · intro pane' ht hempty
      cases ht
      cases hempty
    · exact h
  · exact h

omit [DecidableEq ι] in
theorem exclusiveAttachment_ne_shared (processId : ℕ) (clients : List SharedClient) :
    exclusiveAttachment processId ≠ .shared clients := by
  cases processId <;> exact nofun

theorem attended_attachExclusive (h : pane.attachment = .shared [] → pane.handoverWaiters ≠ 0) :
    (attachExclusive s i pane attacher fault).Attended := by
  have hexclusive := exclusiveAttachment_ne_shared attacher.clientProcessId
  rw [attachExclusive]
  split
  · exact attended_set h
  · dsimp only
    split
    · exact attended_set fun hempty => absurd hempty (hexclusive [])
    · exact attended_set fun hempty => absurd hempty (hexclusive [])

/-- A join leaves an empty set behind only if it fails at once. -/
theorem attended_attachShared (h : fault = .relay ∨ (∀ clients, pane.attachment ≠ .shared clients) →
      pane.attachment = .shared [] → pane.handoverWaiters ≠ 0) :
    (attachShared s i pane attacher fault).Attended := by
  have hjoined : ∀ (clients : List SharedClient) (client : SharedClient),
      Attachment.shared (clients ++ [client]) ≠ .shared [] := by
    intro clients client hempty
    simpa using Attachment.shared.inj hempty
  rw [attachShared]
  split
  next clients hshared =>
    split
    next hrelay => exact attended_set (h (.inl hrelay))
    · dsimp only
      split
      · exact attended_set fun hempty => absurd hempty (hjoined _ _)
      · exact attended_set fun hempty => absurd hempty (hjoined _ _)
  next hnot => exact attended_set (h (.inr hnot))

theorem attended_attach (h : s.Attended) (hpane : s.pane = some pane) {forceShared : Bool}
    (hjoins : fault = .relay → attacher.streamOnly = true ∨ forceShared = true →
      pane.exited = false → pane.handoverWaiters = 0 → pane.attachment ≠ .none) (full : Bool) :
    (attach s i pane attacher forceShared fault full).Attended := by
  have hsame := h pane hpane
  have hwait : ∀ (s' : State ι) (pane' : Pane),
      (attach.wait i attacher s' pane').Attended :=
    fun s' pane' => attended_set fun _ => Nat.succ_ne_zero _
  rw [attach]
  split
  · exact attended_set hsame
  next hexited =>
    split
    next hshared =>
      split
      next hnone =>
        refine attended_attachShared fun hfails _ hzero => ?_
        rcases hfails with hrelay | hnot
        · exact hjoins hrelay hshared (by simpa using hexited) hzero hnone
        · exact absurd rfl (hnot [])
      · exact attended_attachShared fun _ => hsame
      · split
        · exact attended_set hsame
        · split
          · exact hwait _ _
          · exact hwait _ _
    · split
      · exact attended_attachExclusive hsame
      · exact attended_attachShared fun _ => hsame
      · split
        · exact attended_attachExclusive hsame
        · exact hwait _ _
      · exact hwait _ _

omit [DecidableEq ι] in
/-- Whoever stops waiting collapses what it would leave empty. -/
theorem attended_finishHandoverWaiter (pane : Pane) :
    (finishHandoverWaiter pane true).attachment = .shared [] →
      (finishHandoverWaiter pane true).handoverWaiters ≠ 0 := by
  simp only [finishHandoverWaiter]
  split_ifs with hcollapse
  · simp
  · exact fun hempty hzero => hcollapse ⟨trivial, hzero, hempty⟩

omit [DecidableEq ι] in
@[simp]
theorem finishHandoverWaiter_false (pane : Pane) :
    (finishHandoverWaiter pane false).attachment = pane.attachment := by
  simp [finishHandoverWaiter]

theorem attended_awaken (hcounted : s.Counted) (hpane : s.pane = some pane)
    (hwaiting : (s.task i).isWaiting = true) {expired : Bool} {full : Bool}
    (hjoins : fault = .relay → pane.exited = false → pane.handoverWaiters = 1 →
      pane.attachment ≠ .shared [] ∧ (attacher.streamOnly = true → pane.attachment ≠ .none)) :
    (awaken s i pane attacher expired fault full).Attended := by
  have hcount : pane.handoverWaiters ≠ 0 := (hcounted pane hpane).ne_zero hwaiting
  have hagain : ∀ (s' : State ι) (pane' : Pane), pane'.attachment ≠ .shared [] →
      (awaken.again i attacher expired s' pane').Attended := by
    intro s' pane' hnot
    rw [awaken.again]
    split
    · exact attended_set (attended_finishHandoverWaiter pane')
    · exact attended_set fun hempty => absurd hempty hnot
  rw [awaken]
  split
  · exact attended_set (attended_finishHandoverWaiter pane)
  next hexited =>
    have hlive : pane.exited = false := by simpa using hexited
    split
    next clients hshared =>
      refine attended_attachShared fun hfails hempty => ?_
      rw [finishHandoverWaiter_handoverWaiters]
      rw [finishHandoverWaiter_false] at hempty hfails
      rcases hfails with hrelay | hnot
      · have : pane.handoverWaiters ≠ 1 := fun hone => (hjoins hrelay hlive hone).1 hempty
        omega
      · exact absurd hshared (hnot clients)
    next hnone =>
      dsimp only
      split
      next hstream =>
        refine attended_attachShared fun hfails _ => ?_
        rcases hfails with hrelay | hnot
        · have : pane.handoverWaiters ≠ 1 := fun hone => (hjoins hrelay hlive hone).2 hstream hnone
          simp only [finishHandoverWaiter_handoverWaiters]
          omega
        · exact absurd rfl (hnot [])
      · exact attended_attachExclusive (attended_finishHandoverWaiter pane)
    next holder hexclusive =>
      split
      · exact attended_attachExclusive (attended_finishHandoverWaiter pane)
      · exact hagain _ _ (by simp)
    next holder hgranting =>
      split
      · exact hagain _ _ (by rw [hgranting]; simp)
      · exact attended_attachExclusive (attended_finishHandoverWaiter _)
    next holder hrevoking =>
      split
      · exact hagain _ _ (by rw [hrevoking]; simp)
      · exact attended_attachExclusive (attended_finishHandoverWaiter _)

/-- **One step** leaves a pane shared with nobody only while a request is counted. -/
theorem attended_step (h : s.Attended) (hcounted : s.Counted) (hattends : s.Attends action)
    (hstep : s.step action = some t) : t.Attended := by
  -- A step after which the pane is not shared with nobody.
  have hnot : ∀ {t : State ι} {pane' : Pane}, t.pane = some pane' →
      pane'.attachment ≠ .shared [] → t.Attended := by
    intro t pane' ht hempty pane ht' hempty'
    cases ht.symm.trans ht'
    exact absurd hempty' hempty
  cases moves_of_step hstep with
  | refused => exact h
  | gone i hpane htask => exact fun pane' ht => nomatch hpane.symm.trans ht
  | @attach i pane attacher forceShared fault full htask hpane =>
    exact attended_attach h hpane (fun hrelay hshared => hattends hrelay hshared pane hpane) full
  | @awaken i pane attacher woken expired fault full htask hpane =>
    exact attended_awaken hcounted hpane (by rw [htask]; rfl) fun hrelay =>
      hattends hrelay attacher woken htask pane hpane
  | sent htask =>
    split
    · exact h
    · exact h
  | @unsent i processId clientId grant htask =>
    have hidle : State.Attended { s with task := Function.update s.task i .idle } := h
    exact attended_releaseFailedHandover hidle clientId
  | @snapshot pane caller screen hpane hrevoking =>
    intro pane' ht _
    cases ht
    exact hattends pane hpane hrevoking
  | @seeded action pane screen hpane =>
    intro pane' ht
    cases ht
    exact h pane hpane
  | takeExclusive htask hpane hshared hsole => exact hnot rfl (by simp)
  | @resume i pane processId clientId flushed fault htask hpane =>
    rw [resumeGrant]
    split
    · have hexclusive := exclusiveAttachment_ne_shared processId
      dsimp only
      split
      · refine attended_releaseFailedHandover (attended_set fun hempty => ?_) clientId
        exact absurd hempty (hexclusive [])
      · exact attended_set fun hempty => absurd hempty (hexclusive [])
    · exact hnot rfl (by rintro ⟨⟩)
  | releaseExclusive hpane hheld hclient => exact hnot rfl (by rintro ⟨⟩)
  | detach hpane hheld => exact hnot rfl (by rintro ⟨⟩)
  | closePane hpane hheld => exact hnot rfl (by rintro ⟨⟩)
  | leaveShared => exact h.onPane fun pane => ⟨_, departed_retain pane s.revision _⟩
  | disconnect htask => exact h.onPane fun pane => ⟨_, departed_retain pane s.revision _⟩
  | evict => exact h.onPane fun pane => ⟨_, departed_evict pane s.revision _⟩
  | @output pane bytes hpane hdrain =>
    intro pane' ht hempty
    cases ht
    have hdeparted := departed_drainOutput pane s.revision bytes
    rw [hdeparted.waiters]
    exact (hdeparted.empty hempty).elim (h pane hpane) id
  | announce => exact h.onPane fun pane => ⟨_, departed_broadcastSize pane s.revision pane.size⟩
  | closeRelay => exact h.onPane fun pane => ⟨_, departed_closeRelay _ pane⟩
  | die => exact h
  | sweep hpane hholder hdead => exact hnot rfl (by rintro ⟨⟩)
  | exit =>
    intro pane' ht
    obtain ⟨pane, hpane, rfl⟩ := Option.map_eq_some_iff.mp ht
    exact h pane hpane
  | remove => rintro pane' ⟨⟩
  | subscribe => exact h
  | unsubscribe => exact h

/-- A pane that is shared with nobody stays shared while a request waits to join it. -/
def State.KeptShared (t : State ι) : Prop :=
  ∀ pane', t.pane = some pane' →
    (∃ clients, pane'.attachment = .shared clients) ∨ pane'.handoverWaiters = 0

theorem keptShared_attachShared {clients : List SharedClient}
    (hshared : pane.attachment = .shared clients) :
    (attachShared s i pane attacher fault).KeptShared := by
  rw [attachShared, hshared]
  intro pane' ht
  dsimp only at ht
  split at ht
  · cases ht
    exact .inl ⟨clients, hshared⟩
  · cases ht
    exact .inl ⟨_, rfl⟩

/-- **One step** leaves the empty set of a pane to those who wait to join it. -/
theorem keptShared_step (hpane : s.pane = some pane) (hempty : pane.attachment = .shared [])
    (hkeeps : s.Keeps action) (hstep : s.step action = some t) : t.KeptShared := by
  have hsame : ∀ {t : State ι}, t.pane = s.pane → t.KeptShared := by
    intro t ht pane' ht'
    cases hpane.symm.trans (ht ▸ ht')
    exact .inl ⟨[], hempty⟩
  have hdeparted : ∀ {t : State ι} {emptied : Prop} {pane' : Pane}, t.pane = some pane' →
      Departed emptied pane pane' → t.KeptShared := by
    intro t emptied pane' ht h pane'' ht'
    cases ht.symm.trans ht'
    rcases h.attachment with heq | ⟨clients, -, hnone | ⟨remaining, hshared, -⟩⟩
    · exact .inl ⟨[], heq.trans hempty⟩
    · refine .inr (h.waiters.trans ((h.waited hnone).resolve_left fun hnone' => ?_))
      rw [hempty] at hnone'
      cases hnone'
    · exact .inl ⟨remaining, hshared⟩
  have hleft : ∀ {t : State ι} {f : Pane → Pane} {emptied : Prop}, t.pane = s.pane.map f →
      Departed emptied pane (f pane) → t.KeptShared := fun ht h =>
    hdeparted (ht.trans (hpane ▸ rfl)) h
  have hshown : ∀ {pane' : Pane}, s.pane = some pane' → pane'.attachment = .shared [] := by
    intro pane' hpane'
    cases hpane.symm.trans hpane'
    exact hempty
  -- Nobody has the terminal of a pane that is shared.
  have hunheld : ∀ {pane' : Pane} {holder : ℕ}, s.pane = some pane' →
      holderOf pane'.attachment ≠ some holder := by
    intro pane' holder hpane' hholder
    rw [hshown hpane'] at hholder
    cases hholder
  cases moves_of_step hstep with
  | refused => exact hsame rfl
  | gone i hgone htask => cases hpane.symm.trans hgone
  | @attach i pane' attacher forceShared fault full htask hpane' =>
    have hshared := hshown hpane'
    rw [attach]
    split
    · exact hsame hpane'.symm
    · split
      · rw [hshared]
        exact keptShared_attachShared hshared
      · rw [hshared]
        exact keptShared_attachShared hshared
  | @awaken i pane' attacher woken expired fault full htask hpane' =>
    have hshared := hshown hpane'
    rw [awaken]
    split
    · intro pane'' ht
      cases ht
      simp only [finishHandoverWaiter]
      split
      next hcollapse => exact .inr hcollapse.2.1
      · exact .inl ⟨[], hshared⟩
    · rw [hshared]
      exact keptShared_attachShared (by rw [finishHandoverWaiter_false, hshared])
  | sent htask =>
    split
    · exact hsame rfl
    · exact hsame rfl
  | @unsent i processId clientId grant htask =>
    have hother := hkeeps processId clientId grant htask pane hpane
    rw [releaseFailedHandover, show State.pane _ = some pane from hpane]
    dsimp only
    rw [if_neg fun hrecorded => hother hrecorded hempty]
    exact hsame hpane.symm
  | snapshot hpane' hrevoking => cases (hshown hpane').symm.trans hrevoking
  | @seeded action pane' screen hpane' =>
    intro pane'' ht
    cases ht
    have hshared := hshown hpane'
    exact .inl ⟨[], hshared⟩
  | takeExclusive htask hpane' hshared hsole =>
    cases (hshown hpane').symm.trans hshared
    cases hsole
  | resume htask hpane' => exact absurd (hshown hpane') (hkeeps _ _ htask _ hpane')
  | releaseExclusive hpane' hheld hclient =>
    rcases hheld with hholder | hgranting
    · exact absurd hholder (hunheld hpane')
    · cases (hshown hpane').symm.trans hgranting
  | detach hpane' hheld => exact absurd hheld (hunheld hpane')
  | closePane hpane' hheld => exact absurd hheld (hunheld hpane')
  | leaveShared => exact hleft rfl (departed_retain pane s.revision _)
  | disconnect htask => exact hleft rfl (departed_retain pane s.revision _)
  | evict => exact hleft rfl (departed_evict pane s.revision _)
  | @output pane' bytes hpane' hdrain =>
    cases hpane.symm.trans hpane'
    exact hdeparted rfl (departed_drainOutput pane s.revision bytes)
  | announce => exact hleft rfl (departed_broadcastSize pane s.revision pane.size)
  | closeRelay => exact hleft rfl (departed_closeRelay _ pane)
  | die => exact hsame rfl
  | sweep hpane' hholder hdead => exact absurd hholder (hunheld hpane')
  | exit =>
    intro pane'' ht
    obtain ⟨pane', hpane', rfl⟩ := Option.map_eq_some_iff.mp ht
    have hshared := hshown hpane'
    exact .inl ⟨[], hshared⟩
  | remove => rintro pane' ⟨⟩
  | subscribe => exact hsame rfl
  | unsubscribe => exact hsame rfl

/-! ### Runs -/

/-- The requests that wait for the pane are counted, and its empty set is kept for them. -/
structure WellCounted (s : State ι) : Prop where
  counted : ∀ pane, s.pane = some pane →
    {i | (s.task i).isWaiting = true}.encard = pane.handoverWaiters
  /-- Nobody stops waiting while the counter is at zero. -/
  positive : ∀ pane, s.pane = some pane → ∀ i, (s.task i).isWaiting = true → 0 < pane.handoverWaiters
  /-- The pane is shared with nobody only while a request waits. -/
  attended : ∀ pane, s.pane = some pane → pane.attachment = .shared [] →
    ∃ i, (s.task i).isWaiting = true
  /-- While a request waits, a pane that is shared with nobody stays shared. -/
  kept : ∀ pane, s.pane = some pane → pane.attachment = .shared [] →
    ∀ action t, Meeting State.Expected Next s action t → ∀ i, (t.task i).isWaiting = true →
      ∀ pane', t.pane = some pane' → ∃ clients, pane'.attachment = .shared clients

theorem State.Counted.wellCounted (h : s.Counted) (hattended : s.Attended) :
    WellCounted s where
  counted := h
  positive pane hpane i hi := Nat.pos_of_ne_zero ((h pane hpane).ne_zero hi)
  attended pane hpane hempty := (h pane hpane).exists_waiting (hattended pane hpane hempty)
  kept pane hpane hempty action t hnext i hi pane' ht := by
    have hkept := keptShared_step hpane hempty hnext.1.2 hnext.2 pane' ht
    exact hkept.resolve_right ((counted_step h hnext.2 pane' ht).ne_zero hi)

/-- **The waiters** are counted in every state of every run of steps that leave no pane shared
with nobody. -/
theorem waiters_of_run {s₀ s : State ι} {actions : List (Action ι)} (h₀ : Initial s₀)
    (hwaiters : ∀ pane, s₀.pane = some pane → pane.handoverWaiters = 0)
    (hshared : ∀ pane, s₀.pane = some pane → pane.attachment ≠ .shared [])
    (hrun : Run (Meeting State.Expected Next) s₀ actions s) : WellCounted s := by
  have hcounted : s₀.Counted := fun pane hpane => by
    rw [hwaiters pane hpane]
    exact .zero_of_idle h₀.idle
  have hattended : s₀.Attended := fun pane hpane hempty => absurd hempty (hshared pane hpane)
  -- Counting holds of every step, and attending is carried by it.
  obtain ⟨h, hattended⟩ := hrun.invariant (I := fun s => s.Counted ∧ s.Attended)
    ⟨hcounted, hattended⟩ fun _ _ _ h hstep =>
      ⟨counted_step h.1 hstep.2, attended_step h.2 h.1 hstep.1.1 hstep.2⟩
  exact h.wellCounted hattended

/-- A second client waits for a pane that its holder leaves shared with nobody. -/
theorem waiters_handingOver : ∃ s : State (Fin 3),
    Run (Meeting State.Expected Next) unheld
      [.attach 0 local1 false .none false, .send 0 true, .attach 1 local2 false .none false,
        .snapshot 1 []] s ∧
      (s.pane.map (·.attachment)) = some (.shared []) ∧ WellCounted s := by
  obtain ⟨s, hrun, hend⟩ : ∃ s : State (Fin 3), Run (Meeting State.Expected Next) unheld
      [.attach 0 local1 false .none false, .send 0 true, .attach 1 local2 false .none false,
        .snapshot 1 []] s ∧ (s.pane.map (·.attachment)) = some (.shared []) := by
    refine ⟨_, .cons ⟨⟨nofun, trivial⟩, rfl⟩ (.cons ⟨⟨trivial, trivial⟩, rfl⟩
      (.cons ⟨⟨nofun, trivial⟩, rfl⟩ (.cons ⟨⟨?_, trivial⟩, rfl⟩ (.nil _)))), rfl⟩
    intro pane hpane _
    cases hpane
    exact Nat.one_ne_zero
  refine ⟨s, hrun, hend, waiters_of_run initial_unheld ?_ ?_ hrun⟩
  · intro pane hpane
    cases hpane
    rfl
  · intro pane hpane
    cases hpane
    exact nofun

/-- The holder answers after the client that asked for the pane has given up; and a first join's
relay cannot be started. In both runs the pane is shared with nobody. -/
theorem shared_with_nobody :
    (∃ s : State (Fin 3), Run Next unheld
      [.attach 0 local1 false .none false, .send 0 true, .attach 1 local2 false .none false,
        .awaken 1 true .none false, .snapshot 1 []] s ∧ ¬WellCounted s) ∧
    ∃ s : State (Fin 3), Run Next unheld [.attach 0 local1 true .relay false] s ∧
      ¬WellCounted s := by
  have hnobody : ∀ s : State (Fin 3), (s.pane.map (·.attachment)) = some (.shared []) →
      (∀ i, (s.task i).isWaiting = false) → ¬WellCounted s := by
    intro s hshared hnone h
    obtain ⟨pane, hpane, hempty⟩ := Option.map_eq_some_iff.mp hshared
    obtain ⟨i, hi⟩ := h.attended pane hpane hempty
    rw [hnone i] at hi
    cases hi
  constructor
  · obtain ⟨s, hrun, hshared, hnone⟩ := exists_run_of_foldlM (f := State.step)
      (P := fun s : State (Fin 3) => (s.pane.map (·.attachment)) = some (.shared []) ∧
        ∀ i, (s.task i).isWaiting = false)
      [.attach 0 local1 false .none false, .send 0 true, .attach 1 local2 false .none false,
        .awaken 1 true .none false, .snapshot 1 []] (s := unheld) (by decide)
    exact ⟨s, hrun, hnobody s hshared hnone⟩
  · obtain ⟨s, hrun, hshared, hnone⟩ := exists_run_of_foldlM (f := State.step)
      (P := fun s : State (Fin 3) => (s.pane.map (·.attachment)) = some (.shared []) ∧
        ∀ i, (s.task i).isWaiting = false)
      [.attach 0 local1 true .relay false] (s := unheld) (by decide)
    exact ⟨s, hrun, hnobody s hshared hnone⟩

end Zetta.Zmux.Server.Handover
