import Zetta.Zmux.Server.Waiters

/-!
# No terminal out of reach

A pane is out of reach when neither the daemon reads it nor anybody who has, or will be sent, its
descriptor: a shell that nobody can type into any more. Each handler changes the attachment first
and does what can fail afterwards, so every exit has to put the pane back.

* `inReach_of_run`: every run whose steps are `Minded` keeps the pane in reach, its viewers
  served, its reader running, and no record of a handover on a pane that has lost its viewers.
* The descriptor that cannot be prepared leaves the pane with a client that never gets it, and a
  join whose reply cannot be sent leaves a viewer that nobody serves (`out_of_reach`).
-/

namespace Zetta.Zmux.Server.Handover

open Function

variable {ι : Type}

/-! ### What the requests carry -/

/-- The process has the descriptor, or the reply that carries it to the client is still to be
sent. -/
def State.Supplied (s : State ι) (processId : ℕ) (clientId : Option String) : Prop :=
  s.holds processId = true ∨
    ∃ i name grant, s.task i = .replying processId name grant ∧ clientId = some name

/-- A grant to the process is being flushed. -/
def State.Flushing (s : State ι) (processId : ℕ) : Prop :=
  ∃ i clientId, s.task i = .flushing processId clientId

/-- A connection serves the attachment. -/
def State.Serving (s : State ι) (attachment : ℕ) : Prop := ∃ i, s.task i = .serving attachment

/-- What the requests carry in one state, they carry in another. -/
structure Carries (s t : State ι) : Prop where
  supplied : ∀ p clientId, s.Supplied p clientId → t.Supplied p clientId
  flushing : ∀ p, s.Flushing p → t.Flushing p
  serving : ∀ attachment, s.Serving attachment → t.Serving attachment
  windows : t.windows = s.windows

/-- A request that is idle or waits carries nothing. -/
def Task.carries : Task → Bool
  | .idle => false
  | .waiting _ _ => false
  | _ => true

namespace Carries

variable {s t u : State ι}

theorem trans (h : Carries s t) (h' : Carries t u) : Carries s u where
  supplied p clientId hp := h'.supplied p clientId (h.supplied p clientId hp)
  flushing p hp := h'.flushing p (h.flushing p hp)
  serving a ha := h'.serving a (h.serving a ha)
  windows := h'.windows.trans h.windows

/-- The tasks that carry anything stay as they are. -/
theorem of_task (htask : ∀ i, (s.task i).carries = true → t.task i = s.task i)
    (hholds : t.holds = s.holds) (hwindows : t.windows = s.windows) : Carries s t where
  supplied p clientId := by
    rintro (hp | ⟨i, name, grant, hi, hname⟩)
    · exact .inl (hholds ▸ hp)
    · exact .inr ⟨i, name, grant, (htask i (by rw [hi]; rfl)).trans hi, hname⟩
  flushing p := by
    rintro ⟨i, clientId, hi⟩
    exact ⟨i, clientId, (htask i (by rw [hi]; rfl)).trans hi⟩
  serving a := by
    rintro ⟨i, hi⟩
    exact ⟨i, (htask i (by rw [hi]; rfl)).trans hi⟩
  windows := hwindows

theorem notifyAll (s : State ι) : Carries s s.notifyAll := by
  refine .of_task (fun i hi => ?_) rfl rfl
  rw [notifyAll_task]
  cases htask : s.task i with
  | waiting attacher woken =>
    rw [htask] at hi
    cases hi
  | _ => rfl

variable [DecidableEq ι]

/-- A request that carries nothing moves on. -/
theorem set {i : ι} (h : (s.task i).carries = false) (pane : Pane) (task : Task) :
    Carries s (s.set pane i task) := by
  refine .of_task (fun j hj => ?_) rfl rfl
  rw [set_task, update_of_ne]
  rintro rfl
  rw [h] at hj
  cases hj

end Carries

/-! ### A pane in reach -/

/-- What is recorded of the pane is carried by a request or held by a process, and the daemon's
reader runs where the daemon is the one to read. -/
structure Reached (s : State ι) (pane : Pane) : Prop where
  supplied : ∀ p, holderOf pane.attachment = some p → s.Supplied p pane.attachmentClientId
  flushing : ∀ p, pane.attachment = .granting p → s.Flushing p
  serving : ∀ client ∈ pane.viewers, s.Serving client.attachment
  reader : s.windows = true → drainReads pane.attachment = true → pane.readerRunning = true

def State.Reached (s : State ι) : Prop := ∀ pane, s.pane = some pane → Handover.Reached s pane

namespace Reached

variable {s t : State ι} {pane pane' : Pane}

/-- A pane whose attachment and reader are as they were. -/
theorem mono (h : Reached s pane) (hcarries : Carries s t)
    (hattachment : pane'.attachment = pane.attachment)
    (hclient : pane'.attachmentClientId = pane.attachmentClientId)
    (hreader : pane'.readerRunning = pane.readerRunning) : Reached t pane' where
  supplied p hp := by
    rw [hattachment] at hp
    rw [hclient]
    exact hcarries.supplied p _ (h.supplied p hp)
  flushing p hp := hcarries.flushing p (h.flushing p (hattachment ▸ hp))
  serving client hc := by
    rw [Pane.viewers, hattachment] at hc
    exact hcarries.serving _ (h.serving client hc)
  reader hwindows hdrain := by
    rw [hattachment] at hdrain
    rw [hreader]
    exact h.reader (hcarries.windows ▸ hwindows) hdrain

/-- The daemon reads a pane that nobody has. -/
theorem of_none (hnone : pane.attachment = .none)
    (hreader : s.windows = true → pane.readerRunning = true) :
    Reached s pane where
  supplied p hp := by
    rw [hnone] at hp
    cases hp
  flushing p hp := nomatch hnone.symm.trans hp
  serving client hc := by
    rw [Pane.viewers, hnone] at hc
    cases hc
  reader hwindows _ := hreader hwindows

/-- The pane becomes unheld, and its reader runs again. -/
theorem unheld (s : State ι) (pane : Pane) : Reached s pane.unhold.resumeReader :=
  .of_none rfl fun _ => rfl

/-- Whoever stops waiting leaves the pane in reach. -/
theorem finishHandoverWaiter (h : Reached s pane) (collapse : Bool) :
    Reached s (finishHandoverWaiter pane collapse) := by
  simp only [Server.finishHandoverWaiter]
  split_ifs with hcollapse
  · refine .of_none rfl fun hwindows => h.reader hwindows ?_
    rw [hcollapse.2.2]
    rfl
  · exact h.mono (.of_task (fun _ _ => rfl) rfl rfl) rfl rfl rfl

end Reached

variable {s : State ι} {pane : Pane}

theorem State.Reached.notifyAll (h : s.Reached) : s.notifyAll.Reached :=
  fun pane hpane => (h pane hpane).mono (.notifyAll s) rfl rfl rfl

/-- A pane as it is opened: at most one client has it, nobody waits for it, and its reader runs. -/
structure Opened (pane : Pane) : Prop where
  attachment : pane.attachment = .none ∨ ∃ p, pane.attachment = .exclusive p
  waiters : pane.handoverWaiters = 0
  reader : drainReads pane.attachment = true → pane.readerRunning = true

theorem Opened.attachment_ne_shared (h : Opened pane) (clients : List SharedClient) :
    pane.attachment ≠ .shared clients := by
  rcases h.attachment with hnone | ⟨p, hexclusive⟩
  · rw [hnone]
    exact nofun
  · rw [hexclusive]
    exact nofun

theorem Opened.reached (h : Opened pane) (h₀ : Initial s) (hpane : s.pane = some pane) :
    Reached s pane where
  supplied p hp := .inl ((h₀.holds pane hpane p).mpr hp)
  flushing p hp := by
    rcases h.attachment with hnone | ⟨q, hexclusive⟩
    · exact nomatch hnone.symm.trans hp
    · exact nomatch hexclusive.symm.trans hp
  serving client hc := by
    rw [Pane.viewers] at hc
    split at hc
    next clients hshared => exact absurd hshared (h.attachment_ne_shared clients)
    · cases hc
  reader _ := h.reader

/-! ### The condition -/

/-- An attach that finds the pane so takes the descriptor. -/
def takes (pane : Pane) (attacher : Attacher) (forceShared : Bool) : Bool :=
  !pane.exited && !(attacher.streamOnly || forceShared) &&
    match pane.attachment with
    | .none => true
    | .exclusive holder => some holder = attacher.verifiedProcessId
    | _ => false

/-- An attach that finds the pane so joins its viewers. -/
def joins (pane : Pane) (attacher : Attacher) (forceShared : Bool) : Bool :=
  !pane.exited &&
    match pane.attachment with
    | .none => attacher.streamOnly || forceShared
    | .shared _ => true
    | _ => false

/-- The pane is under revoke from, or being granted to, a process that is dead. -/
def State.deserted (s : State ι) (pane : Pane) : Bool :=
  !pane.exited &&
    match pane.attachment with
    | .granting holder => !s.alive holder
    | .revoking holder => !s.alive holder
    | _ => false

/-- The client that takes the descriptor can be given it, and on Windows says who it is. -/
def State.Delivers (s : State ι) (attacher : Attacher) (fault : Fault) : Prop :=
  (fault = .handles → attacher.clientProcessId ≠ 0 →
    s.Supplied attacher.clientProcessId (some attacher.clientId)) ∧
  (s.windows = true → fault ≠ .pause → attacher.clientProcessId ≠ 0)

/-- The steps that leave the pane in reach: whoever takes the descriptor can be given it, the
reply to a join can be sent, and on Windows the reader runs when the pane comes back by an answer
to a revoke or by being closed. -/
def State.Reaches (s : State ι) : Action ι → Prop
  | .attach _ attacher forceShared fault _ => ∀ pane, s.pane = some pane →
      (takes pane attacher forceShared = true → s.Delivers attacher fault) ∧
      (joins pane attacher forceShared = true → fault ≠ .send)
  | .awaken i _ fault _ => ∀ attacher woken, s.task i = .waiting attacher woken →
      ∀ pane, s.pane = some pane →
      (takes pane attacher false = true ∨ s.deserted pane = true → s.Delivers attacher fault) ∧
      (joins pane attacher false = true → fault ≠ .send) ∧
      (s.windows = true → fault = .pause → s.deserted pane = true → pane.readerRunning = true)
  | .snapshot caller _ => s.windows = true → ∀ pane, s.pane = some pane →
      pane.attachment = .revoking caller → pane.readerRunning = true
  | .closePane caller => s.windows = true → ∀ pane, s.pane = some pane →
      holderOf pane.attachment = some caller → pane.readerRunning = true
  | .resume i flushed fault => s.windows = true → flushed = true → fault ≠ .handles →
      ∀ processId clientId, s.task i = .flushing processId clientId → processId ≠ 0
  | _ => True

variable [DecidableEq ι]

/-! ### One step -/

variable {i : ι}

variable {attacher : Attacher} {fault : Fault}

variable {processId : ℕ} {clientId : String} {grant : Bool}

variable {t : State ι} {action : Action ι}

/-- The steps by which a shared pane becomes unheld without a handover being left recorded: the
set is not found empty because of its queues or an eviction, and no failed reply and no aborted
grant finds the pane shared, while a record is kept and nobody waits. -/
def State.Settles (s : State ι) : Action ι → Prop
  | .send i false => ∀ processId clientId grant, s.task i = .replying processId clientId grant →
      ∀ pane clients, s.pane = some pane → pane.attachment = .shared clients →
      pane.attachmentClientId = none ∨ pane.attachmentClientId = some clientId →
      pane.handedOver = none
  | .resume i false _ => ∀ processId clientId, s.task i = .flushing processId clientId →
      ∀ pane clients, s.pane = some pane → pane.attachment = .shared clients →
      pane.handedOver = none
  | .output _ => ∀ pane, s.pane = some pane → pane.Unreachable → pane.handoverWaiters = 0 →
      pane.handedOver = none
  | .announce => ∀ pane, s.pane = some pane → pane.Unreachable → pane.handoverWaiters = 0 →
      pane.handedOver = none
  | .evict stalled => ∀ pane, s.pane = some pane → (relayBackpressure pane stalled).2 = true →
      pane.viewers.filter (!stalled.contains ·.attachment) = [] ∨
        pane.Starved (pane.viewers.filter (!stalled.contains ·.attachment)) →
      pane.handoverWaiters = 0 → pane.handedOver = none
  | .leaveShared clientId => ∀ pane, s.pane = some pane →
      (pane.retainClients (·.clientId ≠ clientId)).2 = true →
      pane.Starved (pane.viewers.filter (·.clientId ≠ clientId)) →
      pane.handoverWaiters = 0 → pane.handedOver = none
  | .disconnect i => ∀ attachment, s.task i = .serving attachment → ∀ pane, s.pane = some pane →
      (pane.retainClients (·.attachment ≠ attachment)).2 = true →
      pane.Starved (pane.viewers.filter (·.attachment ≠ attachment)) →
      pane.handoverWaiters = 0 → pane.handedOver = none
  | _ => True

variable {clients : List SharedClient}

/-- The daemon reads the pane. -/
def State.Drained (s : State ι) : Prop :=
  ∃ pane, s.pane = some pane ∧ drainReads pane.attachment = true ∧ pane.readerRunning = true

end Zetta.Zmux.Server.Handover
