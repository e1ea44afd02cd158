import Zetta.Lib.OrdMap
import Zetta.Lib.Run
import Zetta.Zmux.SharedState

/-!
# The window's side of a shared session

A window that shares a session keeps a binding of it to one of its tabs: the state that the daemon
answered last, the translation of the pane ids, and the operations that it will ask the daemon for,
one at a time. What it asks for is answered later, when the session may have been given up, or
bound anew.

The tab itself is not part of the model. What depends on it is given with each event: what there is
to send for an operation (`Plan`), and what applying a snapshot to the tab comes to (`TabView`).
-/

namespace Zetta.Collaboration

open Zmux (SharedSessionState)

def SHARED_CLOSE_ATTEMPTS : ℕ := 4
def SHARED_PUBLISH_ATTEMPTS : ℕ := 4
def SHARED_FOCUS_ATTEMPTS : ℕ := 4

structure PendingFocusIntent where
  muxPaneId : ℕ
  generation : ℕ
  deriving DecidableEq

inductive SharedOperation
  | publishState (attempts : ℕ)
  | focusPane (muxPaneId generation attempts : ℕ)
  | closePane (localPaneId muxPaneId attempts : ℕ)
  deriving DecidableEq

namespace SharedOperation

/-- Operations that would do the same work, whatever their attempts. -/
def isSameWork : SharedOperation → SharedOperation → Bool
  | publishState _, publishState _ => true
  | focusPane _ generation _, focusPane _ other _ => generation = other
  | closePane localPaneId _ _, closePane other _ _ => localPaneId = other
  | _, _ => false

def isFocus : SharedOperation → Bool
  | focusPane _ _ _ => true
  | _ => false

def isPublication : SharedOperation → Bool
  | publishState _ => true
  | _ => false

end SharedOperation

open SharedOperation

def publicationRetry (attempts : ℕ) : Option SharedOperation :=
  if attempts + 1 < SHARED_PUBLISH_ATTEMPTS then some (publishState (attempts + 1)) else none

/-! ### The binding -/

/-- The panes of the session and of the tab that stand for each other. -/
structure PaneMapping where
  muxToLocal : OrdMap ℕ ℕ
  localToMux : OrdMap ℕ ℕ

namespace PaneMapping

def empty : PaneMapping := ⟨.empty, .empty⟩

variable (p : PaneMapping)

/-- Adds a pair, if neither pane has one. -/
def bindPair (pair : ℕ × ℕ) : Option PaneMapping :=
  if (p.muxToLocal.get? pair.1).isSome ∨ (p.localToMux.get? pair.2).isSome then none
  else some ⟨p.muxToLocal.insert pair.1 pair.2, p.localToMux.insert pair.2 pair.1⟩

def recordPane (muxPaneId localPaneId : ℕ) : PaneMapping :=
  let muxToLocal := p.muxToLocal.insert muxPaneId localPaneId
  let localToMux := match p.muxToLocal.get? muxPaneId with
    | some previousLocal => p.localToMux.erase previousLocal
    | none => p.localToMux
  match localToMux.get? localPaneId with
  | some previousMux =>
    ⟨muxToLocal.erase previousMux, localToMux.insert localPaneId muxPaneId⟩
  | none => ⟨muxToLocal, localToMux.insert localPaneId muxPaneId⟩

def removeLocal (localPaneId : ℕ) : PaneMapping :=
  match p.localToMux.get? localPaneId with
  | some muxPaneId => ⟨p.muxToLocal.erase muxPaneId, p.localToMux.erase localPaneId⟩
  | none => p

def removeMux (muxPaneId : ℕ) : PaneMapping :=
  match p.muxToLocal.get? muxPaneId with
  | some localPaneId => ⟨p.muxToLocal.erase muxPaneId, p.localToMux.erase localPaneId⟩
  | none => p

end PaneMapping

structure SharedSessionBinding (V : Type) where
  tabId : ℕ
  state : SharedSessionState V
  panes : PaneMapping
  queue : List SharedOperation
  inFlight : Bool
  pendingFocus : Option PendingFocusIntent
  nextFocusGeneration : ℕ
  publicationScheduled : Bool

/-- What applying a snapshot to the tab comes to. -/
structure TabView where
  /-- There is no tab, or a check before anything is written fails. -/
  refused : Bool
  /-- The tab and the layout that is installed hold the pane. -/
  visible : ℕ → Bool
  /-- The tab is known to belong to the session. -/
  shared : Bool
  /-- A snapshot without durable panes is repaired from the tab. -/
  repaired : Bool

/-- What there is to send for an operation, and whether it is the durable half of a publication. -/
abbrev Plan := SharedOperation → Option Bool

namespace SharedSessionBinding

variable {V : Type} (b : SharedSessionBinding V)

/-- The mappings have to be one to one. -/
def bind (sessionId tabId : ℕ) (state : SharedSessionState V) (mappings : List (ℕ × ℕ)) :
    Option (SharedSessionBinding V) :=
  if state.sessionId ≠ sessionId then none
  else (mappings.foldlM PaneMapping.bindPair .empty).map fun panes =>
    ⟨tabId, state, panes, [], false, none, 0, false⟩

/-- Replaces an older choice that was not sent. -/
def requestFocus (muxPaneId : ℕ) : Option (SharedSessionBinding V) :=
  if b.state.containsPane muxPaneId ∧ b.nextFocusGeneration + 1 < 2 ^ 64 then
    let generation := b.nextFocusGeneration + 1
    some { b with
      nextFocusGeneration := generation
      pendingFocus := some ⟨muxPaneId, generation⟩
      queue := (b.queue.filter fun operation => !operation.isFocus) ++
        [focusPane muxPaneId generation 0] }
  else none

def focusIntentIsCurrent (muxPaneId generation : ℕ) : Bool :=
  b.pendingFocus = some ⟨muxPaneId, generation⟩

/-- What becomes of the focus that was chosen when a snapshot is installed. -/
def pendingFocusForSnapshot (view : TabView) (state : SharedSessionState V) :
    SharedSessionBinding V :=
  match b.pendingFocus with
  | none => b
  | some intent =>
    if state.presentation.activePane = intent.muxPaneId then { b with pendingFocus := none }
    else match b.panes.muxToLocal.get? intent.muxPaneId with
      | none => { b with pendingFocus := none }
      | some localPaneId =>
        if state.containsPane intent.muxPaneId && view.visible localPaneId then b
        else { b with pendingFocus := none }

def clearFocusIntent (muxPaneId generation : ℕ) : SharedSessionBinding V :=
  if b.focusIntentIsCurrent muxPaneId generation then { b with pendingFocus := none } else b

/-- An operation is not queued when one that does the same work is. -/
def enqueue (operation : SharedOperation) : SharedSessionBinding V :=
  if b.queue.any (·.isSameWork operation) then b else { b with queue := b.queue ++ [operation] }

def takeNextOperation : Option (SharedOperation × SharedSessionBinding V) :=
  if b.inFlight then none
  else match b.queue with
    | [] => none
    | operation :: queue => some (operation, { b with queue := queue, inFlight := true })

def finishOperation : SharedSessionBinding V := { b with inFlight := false }

def removeLocalPane (localPaneId : ℕ) : SharedSessionBinding V :=
  match b.panes.localToMux.get? localPaneId with
  | none => b
  | some muxPaneId => { b with
    panes := b.panes.removeLocal localPaneId
    pendingFocus := b.pendingFocus.filter fun intent => intent.muxPaneId ≠ muxPaneId }

/-- The panes of the tab that the session no longer has. -/
def panesMissingFromSnapshot (state : SharedSessionState V) : List ℕ :=
  (b.panes.localToMux.entries.filter fun entry => !state.containsPane entry.2).map Prod.fst

inductive Disposition
  | applied
  | stale
  | error
  deriving DecidableEq

def applySnapshotToTab (view : TabView) (state : SharedSessionState V) :
    Disposition × SharedSessionBinding V :=
  if state.revision < b.state.revision then (.stale, b)
  else if view.refused then (.error, b)
  else
    let b := b.pendingFocusForSnapshot view state
    match b.panes.muxToLocal.get? state.presentation.activePane with
    | none => (.error, b)
    | some _ => (.applied, { b with state := state })

def acceptPaneAdded (state : SharedSessionState V) (muxPaneId localPaneId : ℕ) :
    SharedSessionBinding V :=
  if state.revision < b.state.revision then b
  else { b with state := state, panes := b.panes.recordPane muxPaneId localPaneId }

def acceptPaneRemoved (state : SharedSessionState V) (muxPaneId : ℕ) : SharedSessionBinding V :=
  if state.revision < b.state.revision then b
  else { b with state := state, panes := b.panes.removeMux muxPaneId }

/-- Whether there is a request for an operation that was taken. -/
def request (plan : Plan) : SharedOperation → SharedSessionBinding V × Option Bool
  | focusPane muxPaneId generation attempts =>
    if !b.focusIntentIsCurrent muxPaneId generation then (b, none)
    else if !b.state.containsPane muxPaneId then (b.clearFocusIntent muxPaneId generation, none)
    else (b, plan (focusPane muxPaneId generation attempts))
  | operation => (b, plan operation)

end SharedSessionBinding

/-! ### The window -/

/-- A request that was not answered yet. -/
structure Request where
  operation : SharedOperation
  /-- It carries the durable half of a publication. -/
  durable : Bool
  tabId : ℕ
  /-- The binding that it was sent for. -/
  epoch : ℕ

/-- A focus request that will be queued again. -/
structure FocusTimer where
  muxPaneId : ℕ
  generation : ℕ
  attempts : ℕ
  tabId : ℕ
  epoch : ℕ

/-- What a request is answered. -/
inductive Answer (V : Type)
  | applied (state : SharedSessionState V)
  | conflict (state : SharedSessionState V)
  | failed

structure Window (V : Type) where
  sessionId : ℕ
  binding : Option (SharedSessionBinding V)
  requests : List Request
  /-- The tabs for which a publication was scheduled. -/
  publicationTimers : List ℕ
  focusTimers : List FocusTimer
  /-- How many bindings there were. -/
  epoch : ℕ
  /-- How many attempts the publication has used that was asked for, or is to be asked for again,
  and was not started since. -/
  due : Option ℕ

namespace Window

variable {V : Type} (w : Window V)

def initial (sessionId : ℕ) : Window V := ⟨sessionId, none, [], [], [], 0, none⟩

def modify (f : SharedSessionBinding V → SharedSessionBinding V) : Window V :=
  { w with binding := w.binding.map f }

/-- Runs the next operation that there is something to send for, with enough fuel for the queue. -/
def pumpUpTo (plan : Plan) (tabId : ℕ) : ℕ → Window V → Window V
  | 0, w => w
  | n + 1, w =>
    match w.binding.bind (·.takeNextOperation) with
    | none => w
    | some (operation, b) =>
      let due := if operation.isPublication then none else w.due
      match b.request plan operation with
      | (b, some durable) => { w with
        binding := some b
        due := due
        requests := w.requests ++ [⟨operation, durable, tabId, w.epoch⟩] }
      | (b, none) => pumpUpTo plan tabId n { w with binding := some b.finishOperation, due := due }

def pump (plan : Plan) (tabId : ℕ) : Window V :=
  w.pumpUpTo plan tabId ((w.binding.map fun b => b.queue.length).getD 0)

def finish (plan : Plan) (tabId : ℕ) : Window V := (w.modify (·.finishOperation)).pump plan tabId

/-- `sync_shared_tab_state`: at most one timer is started. -/
def schedule (tabId : ℕ) : Window V :=
  match w.binding with
  | none => w
  | some b =>
    if b.publicationScheduled then w
    else { w with
      binding := some { b with publicationScheduled := true }
      publicationTimers := w.publicationTimers ++ [tabId] }

/-- A publication that is asked for has all its attempts. -/
def enqueuePublication : Window V :=
  match w.binding with
  | none => w
  | some b => { w with binding := some (b.enqueue (publishState 0)), due := some 0 }

/-- A publication is asked for again, with what is left of its attempts. -/
def retryPublication (attempts : ℕ) : Window V :=
  match w.binding, publicationRetry attempts with
  | some b, some operation => { w with
    binding := some (b.enqueue operation)
    due := some (min (attempts + 1) (w.due.getD (attempts + 1))) }
  | _, _ => w

def removeLocalSharedPane (view : TabView) (w : Window V) (localPaneId : ℕ) : Window V :=
  match w.binding with
  | none => w
  | some b =>
    let w := { w with binding := some (b.removeLocalPane localPaneId) }
    if view.shared then w.schedule b.tabId else w

/-- Applies a snapshot to the tab, and has it repaired if that fails. -/
def applySnapshot (view : TabView) (state : SharedSessionState V) : Window V :=
  match w.binding with
  | none => w
  | some b =>
    let (disposition, b') := b.applySnapshotToTab view state
    let w := { w with binding := some b' }
    if disposition = .error ∧ view.repaired ∧ view.shared then w.schedule b.tabId else w

/-- The answer to a publication is only applied. -/
def installPublicationResponse (view : TabView) (state : SharedSessionState V) : Window V :=
  w.modify fun b => (b.applySnapshotToTab view state).2

/-- Drops the panes that a snapshot no longer has, and applies it. -/
def installSharedSnapshot (view : TabView) (state : SharedSessionState V) : Window V :=
  match w.binding with
  | none => w
  | some b =>
    if state.revision < b.state.revision then w
    else ((b.panesMissingFromSnapshot state).foldl (removeLocalSharedPane view) w).applySnapshot
      view state

/-- A publication is answered. -/
def publicationAnswered (attempts : ℕ) (durable : Bool) (view : TabView) : Answer V → Window V
  | .applied state =>
    let w := w.installPublicationResponse view state
    if durable then w else w.retryPublication attempts
  | .conflict state => (w.installPublicationResponse view state).retryPublication attempts
  | .failed => w

/-- Whether a focus that was chosen is asked for again, if it still is the last one. -/
def focusSettled (request : Request) (muxPaneId generation attempts : ℕ) : Window V :=
  match w.binding with
  | none => w
  | some b =>
    if !b.focusIntentIsCurrent muxPaneId generation then w
    else if attempts + 1 < SHARED_FOCUS_ATTEMPTS then { w with
      focusTimers := w.focusTimers ++
        [⟨muxPaneId, generation, attempts + 1, request.tabId, request.epoch⟩] }
    else { w with binding := some (b.clearFocusIntent muxPaneId generation) }

def focusAnswered (request : Request) (muxPaneId generation attempts : ℕ) (view : TabView) :
    Answer V → Window V
  | .applied state | .conflict state =>
    (w.installSharedSnapshot view state).focusSettled request muxPaneId generation attempts
  | .failed => w.focusSettled request muxPaneId generation attempts

/-- A close is asked for again until it is abandoned. -/
def retryClose (localPaneId muxPaneId attempts : ℕ) : Window V :=
  if SHARED_CLOSE_ATTEMPTS ≤ attempts + 1 then w
  else w.modify (·.enqueue (closePane localPaneId muxPaneId (attempts + 1)))

def closeAnswered (localPaneId muxPaneId attempts : ℕ) (view : TabView) : Answer V → Window V
  | .applied state => w.installSharedSnapshot view state
  | .conflict state =>
    let w := w.installSharedSnapshot view state
    if state.containsPane muxPaneId then w.retryClose localPaneId muxPaneId attempts else w
  | .failed => w.retryClose localPaneId muxPaneId attempts

def answered (request : Request) (view : TabView) (answer : Answer V) : Window V :=
  match request.operation with
  | publishState attempts => w.publicationAnswered attempts request.durable view answer
  | focusPane muxPaneId generation attempts =>
    w.focusAnswered request muxPaneId generation attempts view answer
  | closePane localPaneId muxPaneId attempts =>
    w.closeAnswered localPaneId muxPaneId attempts view answer

end Window

/-! ### What happens -/

inductive Event (V : Type)
  | bind (tabId : ℕ) (state : SharedSessionState V) (mappings : List (ℕ × ℕ))
  | forget
  /-- The tab has changed. -/
  | schedule (tabId : ℕ)
  /-- The time of a publication has come. -/
  | publish (index : ℕ) (plan : Plan)
  /-- A pane is chosen with the keyboard. -/
  | focus (tabId localPaneId : ℕ) (plan : Plan)
  /-- The time of a focus request has come again. -/
  | focusAgain (index : ℕ) (plan : Plan)
  /-- A pane is to be closed, which the window may know from elsewhere. -/
  | close (tabId localPaneId : ℕ) (known : Option ℕ) (plan : Plan)
  | recordPane (muxPaneId localPaneId : ℕ)
  | removeLocalPane (localPaneId : ℕ)
  | paneAdded (state : SharedSessionState V) (muxPaneId localPaneId : ℕ)
  | paneRemoved (state : SharedSessionState V) (muxPaneId : ℕ) (view : TabView)
  /-- `apply_shared_snapshot`, for an event or after a spawn: both drop the missing panes first. -/
  | snapshot (state : SharedSessionState V) (view : TabView)
  | answer (index : ℕ) (answer : Answer V) (view : TabView) (plan : Plan)

namespace Window

variable {V : Type} (w : Window V)

def bind (tabId : ℕ) (state : SharedSessionState V) (mappings : List (ℕ × ℕ)) : Window V :=
  match SharedSessionBinding.bind w.sessionId tabId state mappings with
  | none => w
  | some b => { w with binding := some b, epoch := w.epoch + 1, due := none }

def focus (tabId localPaneId : ℕ) (plan : Plan) : Window V :=
  match w.binding.bind fun b =>
    (b.panes.localToMux.get? localPaneId).bind fun muxPaneId => b.requestFocus muxPaneId with
  | none => w
  | some b => { w with binding := some b }.pump plan tabId

def focusAgain (timer : FocusTimer) (plan : Plan) : Window V :=
  match w.binding with
  | none => w
  | some b =>
    if b.focusIntentIsCurrent timer.muxPaneId timer.generation then
      (w.modify (·.enqueue (focusPane timer.muxPaneId timer.generation timer.attempts))).pump plan
        timer.tabId
    else w

def close (tabId localPaneId : ℕ) (known : Option ℕ) (plan : Plan) : Window V :=
  match w.binding with
  | none => w
  | some b =>
    match b.panes.localToMux.get? localPaneId <|> known with
    | none => w
    | some muxPaneId =>
      (w.modify (·.enqueue (closePane localPaneId muxPaneId 0))).pump plan tabId

def paneRemoved (state : SharedSessionState V) (muxPaneId : ℕ) (view : TabView) : Window V :=
  match w.binding with
  | none => w
  | some b =>
    let w := { w with binding := some (b.acceptPaneRemoved state muxPaneId) }
    (if view.shared then w.schedule b.tabId else w).installSharedSnapshot view state

/-- A timer that ends lets another be started. -/
def expire (index : ℕ) : Window V :=
  { w with publicationTimers := w.publicationTimers.eraseIdx index }.modify
    fun b => { b with publicationScheduled := false }

/-- What an event changes; one that cannot happen is none. -/
def step : Event V → Option (Window V)
  | .bind tabId state mappings => some (w.bind tabId state mappings)
  | .forget => some { w with binding := none, due := none }
  | .schedule tabId => some (w.schedule tabId)
  | .publish index plan =>
    w.publicationTimers[index]?.map fun tabId =>
      (w.expire index).enqueuePublication.pump plan tabId
  | .focus tabId localPaneId plan => some (w.focus tabId localPaneId plan)
  | .focusAgain index plan =>
    w.focusTimers[index]?.map fun timer =>
      { w with focusTimers := w.focusTimers.eraseIdx index }.focusAgain timer plan
  | .close tabId localPaneId known plan => some (w.close tabId localPaneId known plan)
  | .recordPane muxPaneId localPaneId =>
    some (w.modify fun b => { b with panes := b.panes.recordPane muxPaneId localPaneId })
  | .removeLocalPane localPaneId => some (w.modify (·.removeLocalPane localPaneId))
  | .paneAdded state muxPaneId localPaneId =>
    some (w.modify (·.acceptPaneAdded state muxPaneId localPaneId))
  | .paneRemoved state muxPaneId view => some (w.paneRemoved state muxPaneId view)
  | .snapshot state view => some (w.installSharedSnapshot view state)
  | .answer index answer view plan =>
    w.requests[index]?.map fun request =>
      ({ w with requests := w.requests.eraseIdx index }.answered request view answer).finish plan
        request.tabId

end Window

end Zetta.Collaboration
