import Mathlib.Data.List.Sort
import Zetta.Zmux.Layout

/-!
# The canonical state of a shared session

The daemon keeps one `SharedSessionState` for each session that is shared, and applies its
viewers' operations to it in turn. The layout is kept twice, in the summary and in the
presentation, and panes are referred to by both layouts, by the focus, by what is maximized and
by what is minimized; an operation edits some of these, and synchronises the rest.

* `Canonical` is what holds of the state. `canonical_new` and `canonical_applyOperation` are the
  start and the step; `takes_of_canonical` is how each step goes.
* `canonical_of_run`: every sequence of operations, migrations and repairs, whatever their
  arguments, ends in a canonical state, never reaches an `expect`, and advances the revision by
  one for each operation that is applied.
-/

namespace Zetta.Zmux

open List

inductive BackgroundPaneState
  | starting
  | running
  | exited
  | failed
  deriving DecidableEq

inductive BackgroundPaneExitSource
  | child
  | statusUnavailable
  | watcherDisconnected
  | backendShutdown
  deriving DecidableEq

inductive BackgroundPaneExitReason
  | statusUnavailable
  | watcherDisconnected
  | backendShutdown
  | exitedBeforeInput
  | foregroundCommand
  deriving DecidableEq

structure BackgroundPaneExit where
  source : BackgroundPaneExitSource
  reason : BackgroundPaneExitReason
  exitCode : Option ℤ
  childPid : Option ℕ
  inputSent : Bool
  foregroundIsShell : Option Bool
  foregroundCommand : Option String
  deriving DecidableEq

structure BackgroundPaneSummary where
  id : ℕ
  label : String
  profile : String
  configuredCommand : String
  application : String
  foregroundCommand : Option (List String)
  terminalTitle : Option String
  workingDirectory : Option String
  state : BackgroundPaneState
  exit : Option BackgroundPaneExit
  deriving DecidableEq

structure BackgroundSessionSummary where
  id : ℕ
  title : String
  authenticationRequired : Bool
  activePane : ℕ
  layout : BackgroundPaneLayout
  panes : List BackgroundPaneSummary
  held : Bool
  scopedTo : Option ℕ
  keyEnvelope : Option String
  deriving DecidableEq

structure SharedPresentationState where
  layout : BackgroundPaneLayout
  activePane : ℕ
  maximizedPane : Option ℕ
  minimizedPanes : List ℕ
  deriving DecidableEq

structure SharedOperationId where
  clientId : String
  sequence : ℕ
  deriving DecidableEq

structure SharedDraftMapping where
  draftId : ℕ
  paneId : ℕ
  deriving DecidableEq

structure SharedOperationReceipt where
  operationId : SharedOperationId
  draftMappings : List SharedDraftMapping
  deriving DecidableEq

def SHARED_SESSION_STATE_VERSION : ℕ := 2

/-- The largest revision; the next one is itself. -/
def MAX_REVISION : ℕ := 2 ^ 64 - 1

/-- `SessionRevision::next`. -/
def nextRevision (revision : ℕ) : ℕ := min (revision + 1) MAX_REVISION

/-- The collaboration state of one session. The tab payload `V` is opaque. -/
structure SharedSessionState (V : Type) where
  version : ℕ
  sessionId : ℕ
  revision : ℕ
  lastOperationId : Option SharedOperationId
  operationReceipts : List SharedOperationReceipt
  summary : BackgroundSessionSummary
  presentation : SharedPresentationState
  state : V
  deriving DecidableEq

inductive SharedSessionOperation (V : Type)
  | replaceTab (summary : BackgroundSessionSummary) (state : V)
  | setLayout (layout : BackgroundPaneLayout)
  | setFocus (paneId : ℕ)
  | setMaximized (paneId : Option ℕ)
  | setMinimized (paneId : ℕ) (minimized : Bool)
  | setSplitRatio (firstPaneId secondPaneId : ℕ) (firstRatio : UInt16)
  | movePane (paneId : ℕ) (direction : SharedPaneDirection)
  | swapPanes (firstPaneId secondPaneId : ℕ)
  | rotateSplit (paneId : ℕ) (direction : SharedRotationDirection)
  | setTabState (state : V)
  | setPaneMetadata (paneId : ℕ) (metadata : BackgroundPaneSummary)
  | closePane (paneId : ℕ)

/-- How an operation on the state ends: it fails with a message, or an `expect` is reached. -/
inductive Failure
  | error (message : String)
  | unexpected (message : String)

/-- The direction as `Debug` prints it. -/
def SharedPaneDirection.name : SharedPaneDirection → String
  | .left => "Left"
  | .right => "Right"
  | .up => "Up"
  | .down => "Down"

/-- `ensure!`. -/
def ensure (condition : Prop) [Decidable condition] (message : String) : Except String Unit :=
  if condition then .ok () else .error message

/-- The ids sorted, as `sort_unstable` leaves them. -/
def sortIds (ids : List ℕ) : List ℕ := ids.insertionSort (· ≤ ·)

def BackgroundSessionSummary.paneIds (summary : BackgroundSessionSummary) : List ℕ :=
  summary.panes.map (·.id)

def validateSummaryPanes (summary : BackgroundSessionSummary) : Except String Unit := do
  ensure (∀ paneId ∈ summary.paneIds, paneId ≠ 0) "shared pane IDs must be positive multiplexer IDs"
  let paneIds := sortIds summary.paneIds
  ensure (paneIds.IsChain (· ≠ ·)) "shared pane IDs must be unique"
  validateLayoutPanes (fun paneId => paneId ∈ summary.paneIds) summary.layout
  ensure (paneIds = sortIds (layoutPaneIds summary.layout))
    "shared layout must contain every pane exactly once"

/-! ### What validation accepts -/

theorem ensure_eq_ok {condition : Prop} [Decidable condition] {message : String} :
    ensure condition message = .ok () ↔ condition := by
  rw [ensure]
  split_ifs with h <;> simp [h]

theorem bind_eq_ok {ε α β : Type} {x : Except ε α} {f : α → Except ε β} {b : β} :
    (x >>= f) = .ok b ↔ ∃ a, x = .ok a ∧ f a = .ok b := by
  cases x <;> simp [bind, Except.bind]

/-- Checks that are made one after the other. -/
@[simp] theorem check_bind_eq_ok {ε β : Type} {x : Except ε Unit} {f : Unit → Except ε β} {b : β} :
    (x >>= f) = .ok b ↔ x = .ok () ∧ f () = .ok b := by
  cases x <;> simp [bind, Except.bind]

theorem sortIds_perm (ids : List ℕ) : (sortIds ids).Perm ids := perm_insertionSort ..

theorem pairwise_sortIds (ids : List ℕ) : (sortIds ids).Pairwise (· ≤ ·) :=
  pairwise_insertionSort ..

theorem sortIds_eq_iff {ids ids' : List ℕ} : sortIds ids = sortIds ids' ↔ ids.Perm ids' := by
  constructor
  · intro h
    have hperm := (sortIds_perm ids).symm
    rw [h] at hperm
    exact hperm.trans (sortIds_perm ids')
  · intro h
    exact (((sortIds_perm ids).trans h).trans (sortIds_perm ids').symm).eq_of_pairwise'
      (pairwise_sortIds ids) (pairwise_sortIds ids')

/-- Once sorted, what is repeated stands side by side. -/
theorem isChain_sortIds_iff {ids : List ℕ} : (sortIds ids).IsChain (· ≠ ·) ↔ ids.Nodup := by
  have hperm := sortIds_perm ids
  constructor
  · intro h
    have hlt : (sortIds ids).IsChain (· < ·) := by
      have hle := (pairwise_sortIds ids).isChain
      generalize sortIds ids = l at h hle
      induction l with
      | nil => exact .nil
      | cons id l ih =>
        cases l with
        | nil => exact .singleton _
        | cons id' l =>
          rw [isChain_cons_cons] at h hle ⊢
          exact ⟨lt_of_le_of_ne hle.1 h.1, ih h.2 hle.2⟩
    exact hperm.nodup_iff.mp ((isChain_iff_pairwise.mp hlt).imp ne_of_lt)
  · intro h
    exact (hperm.nodup_iff.mpr h).isChain

/-- A summary that is accepted describes distinct panes, and places each once. -/
structure Described (summary : BackgroundSessionSummary) : Prop where
  pos : ∀ paneId ∈ summary.paneIds, paneId ≠ 0
  nodup : summary.paneIds.Nodup
  proper : Proper summary.layout
  placed : (layoutPaneIds summary.layout).Perm summary.paneIds

theorem validateSummaryPanes_eq_ok {summary : BackgroundSessionSummary} :
    validateSummaryPanes summary = .ok () ↔ Described summary := by
  simp only [validateSummaryPanes, check_bind_eq_ok, ensure_eq_ok, validateLayoutPanes_eq_ok,
    isChain_sortIds_iff, sortIds_eq_iff, decide_eq_true_eq]
  constructor
  · rintro ⟨hpos, hnodup, ⟨hproper, -⟩, hplaced⟩
    exact ⟨hpos, hnodup, hproper, hplaced.symm⟩
  · rintro ⟨hpos, hnodup, hproper, hplaced⟩
    exact ⟨hpos, hnodup, ⟨hproper, fun _ => hplaced.mem_iff.mp⟩, hplaced.symm⟩

namespace SharedSessionState

variable {V R : Type} (F : AreaArithmetic R)

def new (sessionId : ℕ) (summary : BackgroundSessionSummary) (state : V) :
    SharedSessionState V where
  version := SHARED_SESSION_STATE_VERSION
  sessionId := sessionId
  revision := 0
  lastOperationId := none
  operationReceipts := []
  summary := summary
  presentation := ⟨summary.layout, summary.activePane, none, []⟩
  state := state

section

variable (s : SharedSessionState V)

/-- Upgrades the first version, which had no presentation. -/
def migrate : Except String (SharedSessionState V) :=
  if s.version = SHARED_SESSION_STATE_VERSION then .ok s
  else if s.version = 1 then
    .ok { s with
      presentation := ⟨s.summary.layout, s.summary.activePane, none, []⟩
      version := SHARED_SESSION_STATE_VERSION }
  else .error s!"unsupported shared session state version {s.version}"

/-- Restores what the presentation takes from the summary; also whether anything changed. -/
def normalize : Except String (Bool × SharedSessionState V) := do
  validateSummaryPanes s.summary
  ensure (s.summary.activePane ∈ s.summary.paneIds)
    s!"shared active pane {s.summary.activePane} is not in the live pane set"
  let live := s.summary.paneIds
  let minimizedPanes := s.presentation.minimizedPanes.filter (· ∈ live)
  let maximizedPane := s.presentation.maximizedPane.filter (· ∈ live)
  let changed := s.presentation.layout ≠ s.summary.layout ∨
    s.presentation.activePane ≠ s.summary.activePane ∨
    minimizedPanes.length ≠ s.presentation.minimizedPanes.length ∨
    maximizedPane ≠ s.presentation.maximizedPane
  return (changed, { s with
    presentation := ⟨s.summary.layout, s.summary.activePane, maximizedPane, minimizedPanes⟩ })

def syncSummaryPresentation : SharedSessionState V :=
  { s with summary := { s.summary with
      layout := s.presentation.layout
      activePane := s.presentation.activePane } }

def containsPane (paneId : ℕ) : Bool := paneId ∈ s.summary.paneIds

def ensurePane (paneId : ℕ) : Except String Unit :=
  ensure (s.containsPane paneId) s!"shared operation targets missing pane {paneId}"

def validateOperation : SharedSessionOperation V → Except String Unit
  | .replaceTab summary _ => do
    ensure (summary.id = s.sessionId)
      s!"shared operation targets session {summary.id}, expected {s.sessionId}"
    validateSummaryPanes summary
    ensure (sortIds s.summary.paneIds = sortIds summary.paneIds)
      "whole-tab state cannot add or remove live shared panes"
  | .setLayout layout => do
    validateLayoutPanes s.containsPane layout
    ensure (sortIds s.summary.paneIds = sortIds (layoutPaneIds layout))
      "shared layout must contain every pane exactly once"
  | .setFocus paneId => s.ensurePane paneId
  | .setMaximized (some paneId) => s.ensurePane paneId
  | .setMinimized paneId _ => s.ensurePane paneId
  | .setMaximized none => .ok ()
  | .setSplitRatio firstPaneId secondPaneId firstRatio => do
    ensure (0 < firstRatio ∧ firstRatio < BACKGROUND_PANE_SPLIT_RATIO_SCALE) "invalid split ratio"
    ensure (findDivider s.presentation.layout firstPaneId secondPaneId).isSome
      "shared divider no longer exists"
  | .swapPanes firstPaneId secondPaneId => do
    ensure (firstPaneId ≠ secondPaneId) "cannot swap a pane with itself"
    s.ensurePane firstPaneId
    s.ensurePane secondPaneId
  | .movePane paneId direction => do
    s.ensurePane paneId
    ensure (moveLayoutPane s.presentation.layout paneId direction).isSome
      s!"shared pane {paneId} can no longer move {direction.name}"
  | .rotateSplit paneId direction =>
    ensure (rotateLayoutPane F s.presentation.layout paneId direction).isSome
      s!"shared split for pane {paneId} no longer exists"
  | .setTabState _ => .ok ()
  | .setPaneMetadata paneId _ => s.ensurePane paneId
  | .closePane paneId => do
    s.ensurePane paneId
    ensure (1 < s.summary.panes.length)
      "the last shared pane cannot be closed without closing the session"

/-- What `SetPaneMetadata` copies into a pane's description. -/
def setMetadata (metadata pane : BackgroundPaneSummary) : BackgroundPaneSummary :=
  { pane with
    label := metadata.label
    profile := metadata.profile
    configuredCommand := metadata.configuredCommand
    application := metadata.application
    foregroundCommand := metadata.foregroundCommand
    terminalTitle := metadata.terminalTitle
    workingDirectory := metadata.workingDirectory }

/-- Changes the first pane of an id; it is an `expect` that there is one. -/
def updatePane (paneId : ℕ) (f : BackgroundPaneSummary → BackgroundPaneSummary) :
    List BackgroundPaneSummary → Option (List BackgroundPaneSummary)
  | [] => none
  | pane :: panes =>
    if pane.id = paneId then some (f pane :: panes)
    else (updatePane paneId f panes).map (pane :: ·)

/-- What is not there where it is expected. -/
def expect {α : Type} (value : Option α) (message : String) : Except Failure α :=
  match value with
  | some value => .ok value
  | none => .error (.unexpected message)

/-- The focus once a pane is closed, and `panes` are left. -/
def activeAfterClose (paneId : ℕ) (panes : List BackgroundPaneSummary) : Except Failure ℕ :=
  if s.summary.activePane = paneId then
    (expect panes.head? "index out of bounds").map BackgroundPaneSummary.id
  else .ok s.presentation.activePane

/-- The state without a pane, given what is left of the layouts, and the focus. -/
def withoutPane (paneId : ℕ)
    (summaryLayout layout : BackgroundPaneLayout) (activePane : ℕ) : SharedSessionState V :=
  { s with
    summary := { s.summary with
      panes := s.summary.panes.filter (·.id ≠ paneId)
      layout := summaryLayout }
    presentation := {
      layout
      activePane
      minimizedPanes := s.presentation.minimizedPanes.filter (· ≠ paneId)
      maximizedPane :=
        if s.presentation.maximizedPane = some paneId then none
        else s.presentation.maximizedPane } }

/-- What an operation that has been validated edits. -/
def edit : SharedSessionOperation V → Except Failure (SharedSessionState V)
  | .replaceTab summary state => .ok { s with summary, state }
  | .setLayout layout => .ok { s with presentation := { s.presentation with layout } }
  | .setFocus paneId => .ok { s with presentation := { s.presentation with activePane := paneId } }
  | .setMaximized paneId =>
    .ok { s with presentation := { s.presentation with maximizedPane := paneId } }
  | .setMinimized paneId minimized =>
    let others := s.presentation.minimizedPanes.filter (· ≠ paneId)
    .ok { s with presentation := { s.presentation with
      minimizedPanes := if minimized then others ++ [paneId] else others } }
  | .setSplitRatio firstPaneId secondPaneId firstRatio => do
    let write ← expect (findDividerMut s.presentation.layout firstPaneId secondPaneId)
      "validate_operation checked the divider"
    return { s with presentation := { s.presentation with layout := write firstRatio } }
  | .swapPanes firstPaneId secondPaneId => .ok { s with presentation := { s.presentation with
      layout := swapLayoutPanes s.presentation.layout firstPaneId secondPaneId } }
  | .movePane paneId direction => do
    let layout ← expect (moveLayoutPane s.presentation.layout paneId direction)
      "validate_operation checked the move"
    return { s with presentation := { s.presentation with layout } }
  | .rotateSplit paneId direction => do
    let layout ← expect (rotateLayoutPane F s.presentation.layout paneId direction)
      "validate_operation checked the rotation"
    return { s with presentation := { s.presentation with layout } }
  | .setTabState state => .ok { s with state }
  | .setPaneMetadata paneId metadata => do
    let panes ← expect (updatePane paneId (setMetadata metadata) s.summary.panes)
      "validate_operation checked the pane"
    return { s with summary := { s.summary with panes } }
  | .closePane paneId => do
    let panes := s.summary.panes.filter (·.id ≠ paneId)
    let summaryLayout ← expect (removePaneFromLayout s.summary.layout paneId)
      "a multi-pane layout remains valid after one pane is removed"
    let activePane ← s.activeAfterClose paneId panes
    let layout ← expect (removePaneFromLayout s.presentation.layout paneId)
      "a multi-pane layout remains valid after one pane is removed"
    return s.withoutPane paneId summaryLayout layout activePane

def receipt (operationId : SharedOperationId) : Option SharedOperationReceipt :=
  s.operationReceipts.find? (·.operationId = operationId)

/-- Keeps the latest receipt of each client. -/
def recordReceipt (receipt : SharedOperationReceipt) : SharedSessionState V :=
  { s with operationReceipts :=
      s.operationReceipts.filter (·.operationId.clientId ≠ receipt.operationId.clientId) ++
        [receipt] }

/-- Applies an operation and advances the revision. -/
def applyOperation (operationId : SharedOperationId)
    (operation : SharedSessionOperation V) : Except Failure (SharedSessionState V) :=
  match s.validateOperation F operation with
  | .error message => .error (.error message)
  | .ok () => (s.edit F operation).map fun s =>
    recordReceipt { s.syncSummaryPresentation with
        revision := nextRevision s.revision
        lastOperationId := some operationId }
      ⟨operationId, []⟩

end

/-! ### What holds of the state -/

/-- What holds of the presentation and the panes, before the summary is synchronised. -/
structure Presented (s : SharedSessionState V) : Prop where
  version : s.version = SHARED_SESSION_STATE_VERSION
  pos : ∀ paneId ∈ s.summary.paneIds, paneId ≠ 0
  nodup : s.summary.paneIds.Nodup
  proper : Proper s.presentation.layout
  placed : (layoutPaneIds s.presentation.layout).Perm s.summary.paneIds
  active : s.presentation.activePane ∈ s.summary.paneIds
  maximized : ∀ paneId, s.presentation.maximizedPane = some paneId → paneId ∈ s.summary.paneIds
  minimized : ∀ paneId ∈ s.presentation.minimizedPanes, paneId ∈ s.summary.paneIds
  minimized_nodup : s.presentation.minimizedPanes.Nodup

/-- What holds of the state between operations. -/
structure Canonical (s : SharedSessionState V) : Prop extends Presented s where
  layout : s.summary.layout = s.presentation.layout
  same_active : s.summary.activePane = s.presentation.activePane

variable {summary : BackgroundSessionSummary}

theorem canonical_new {sessionId : ℕ} {state : V} (hvalid : validateSummaryPanes summary = .ok ())
    (hactive : summary.activePane ∈ summary.paneIds) : Canonical (new sessionId summary state) := by
  have h := validateSummaryPanes_eq_ok.mp hvalid
  exact {
    version := rfl
    pos := h.pos
    nodup := h.nodup
    proper := h.proper
    placed := h.placed
    active := hactive
    maximized := nofun
    minimized := nofun
    minimized_nodup := .nil
    layout := rfl
    same_active := rfl }

variable {s : SharedSessionState V}

theorem Presented.sync (h : Presented s) :
    Canonical s.syncSummaryPresentation := { h with layout := rfl, same_active := rfl }

variable {layout : BackgroundPaneLayout}

/-- The layout is rearranged. -/
theorem Presented.withLayout (h : Presented s) (hlayout : Rearranges s.presentation.layout layout) :
    Presented { s with presentation := { s.presentation with layout } } :=
  { h with
    proper := hlayout.proper h.proper
    placed := hlayout.panes.trans h.placed }

/-- The panes are described anew. -/
theorem Presented.withPanes (h : Presented s) (hpos : ∀ paneId ∈ summary.paneIds, paneId ≠ 0)
    (hperm : summary.paneIds.Perm s.summary.paneIds) : Presented { s with summary } :=
  { h with
    pos := hpos
    nodup := hperm.nodup_iff.mpr h.nodup
    placed := h.placed.trans hperm.symm
    active := hperm.mem_iff.mpr h.active
    maximized := fun paneId hid => hperm.mem_iff.mpr (h.maximized paneId hid)
    minimized := fun paneId hid => hperm.mem_iff.mpr (h.minimized paneId hid) }

variable {paneId : ℕ}

theorem ensurePane_eq_ok : s.ensurePane paneId = .ok () ↔ paneId ∈ s.summary.paneIds := by
  rw [ensurePane, ensure_eq_ok, containsPane, decide_eq_true_eq]

/-- Describing a pane anew leaves the ids. -/
theorem exists_updatePane {f : BackgroundPaneSummary → BackgroundPaneSummary}
    (hf : ∀ pane, (f pane).id = pane.id) {panes : List BackgroundPaneSummary}
    (hmem : paneId ∈ panes.map (·.id)) :
    ∃ panes', updatePane paneId f panes = some panes' ∧ panes'.map (·.id) = panes.map (·.id) := by
  induction panes with
  | nil => cases hmem
  | cons pane panes ih =>
    rw [updatePane]
    by_cases hid : pane.id = paneId
    · exact ⟨f pane :: panes, if_pos hid, by simp [hf]⟩
    · obtain ⟨panes', heq, hids⟩ := ih ((mem_cons.mp hmem).resolve_left (Ne.symm hid))
      exact ⟨pane :: panes', by rw [if_neg hid, heq]; rfl, by simp [hids]⟩

/-! ### What one operation does -/

/-- An edit that succeeds is ready to be synchronised, and leaves the revision. -/
def Edits (s : SharedSessionState V) (operation : SharedSessionOperation V) : Prop :=
  ∃ t, s.edit F operation = .ok t ∧ Presented t ∧ t.revision = s.revision

variable {F} {operation : SharedSessionOperation V}

/-- The operation rearranges the layout. -/
theorem Edits.of_layout (h : Canonical s) (hlayout : Rearranges s.presentation.layout layout)
    (hedit : s.edit F operation =
      .ok { s with presentation := { s.presentation with layout } }) : Edits F s operation :=
  ⟨_, hedit, h.toPresented.withLayout hlayout, rfl⟩

/-- **Closing** a pane repairs all that refers to it. -/
theorem edits_closePane (h : Canonical s) (hmany : 1 < s.summary.panes.length) :
    Edits F s (.closePane paneId) := by
  -- Another pane is left, in the list as in the layout.
  have hlength : 1 < s.summary.paneIds.length := by
    rwa [BackgroundSessionSummary.paneIds, length_map]
  obtain ⟨other, hother, hne⟩ : ∃ other ∈ s.summary.paneIds, other ≠ paneId := by
    by_contra hall
    push Not at hall
    have := eq_replicate_of_mem hall
    have hnodup := h.nodup
    rw [this, nodup_replicate] at hnodup
    omega
  obtain ⟨rest, hrest⟩ := exists_remove (h.placed.mem_iff.mpr hother) hne
  have hids : (s.summary.panes.filter (·.id ≠ paneId)).map (·.id) =
      s.summary.paneIds.filter (· ≠ paneId) := by
    rw [BackgroundSessionSummary.paneIds, filter_map]
    rfl
  have hleft : ∀ {id}, id ∈ s.summary.paneIds → id ≠ paneId →
      id ∈ (s.summary.panes.filter (·.id ≠ paneId)).map (·.id) := by
    intro id hid hidne
    rw [hids]
    simpa using ⟨hid, hidne⟩
  obtain ⟨head, hhead⟩ : ∃ head, (s.summary.panes.filter (·.id ≠ paneId)).head? = some head := by
    refine Option.ne_none_iff_exists'.mp fun hnone => ?_
    have hmem := hleft hother hne
    rw [head?_eq_none_iff.mp hnone] at hmem
    cases hmem
  -- The focus is left where it is, or moves to the first pane that is left.
  obtain ⟨activePane, hactive, hactivemem⟩ : ∃ activePane,
      s.activeAfterClose paneId (s.summary.panes.filter (·.id ≠ paneId)) = .ok activePane ∧
      activePane ∈ (s.summary.panes.filter (·.id ≠ paneId)).map (·.id) := by
    rw [activeAfterClose]
    by_cases hclosed : s.summary.activePane = paneId
    · refine ⟨head.id, by rw [if_pos hclosed, hhead]; rfl, ?_⟩
      exact mem_map_of_mem (mem_of_mem_head? hhead)
    · refine ⟨s.presentation.activePane, if_neg hclosed, hleft h.active ?_⟩
      exact fun heq => hclosed (h.same_active.trans heq)
  have hrest' : removePaneFromLayout s.summary.layout paneId = some rest := h.layout ▸ hrest
  refine ⟨s.withoutPane paneId rest rest activePane, ?_, ?_, rfl⟩
  · simp only [edit, hrest, hrest', expect, bind, Except.bind, hactive]
    rfl
  have hpanes : (s.withoutPane paneId rest rest activePane).summary.paneIds =
      s.summary.paneIds.filter (· ≠ paneId) := hids
  exact {
    version := h.version
    pos := fun id hid => h.pos id (mem_filter.mp (hpanes ▸ hid)).1
    nodup := hpanes ▸ h.nodup.filter _
    proper := h.proper.remove hrest
    placed := by
      rw [hpanes, withoutPane]
      dsimp only
      rw [layoutPaneIds_eq_of_remove hrest]
      exact h.placed.filter _
    active := hactivemem
    maximized := by
      intro id hid
      rw [withoutPane] at hid
      dsimp only at hid
      split at hid
      · cases hid
      next hne => exact hleft (h.maximized id hid) fun heq => hne (heq ▸ hid)
    minimized := by
      intro id hid
      obtain ⟨hid, hidne⟩ := mem_filter.mp hid
      exact hleft (h.minimized id hid) (by simpa using hidne)
    minimized_nodup := h.minimized_nodup.filter _ }

/-- **An operation** that is validated reaches no `expect`. -/
theorem edits_of_validate (h : Canonical s) (hvalid : s.validateOperation F operation = .ok ()) :
    Edits F s operation := by
  cases operation with
  | replaceTab summary state =>
    simp only [validateOperation, check_bind_eq_ok, ensure_eq_ok, validateSummaryPanes_eq_ok,
      sortIds_eq_iff] at hvalid
    obtain ⟨-, hdescribed, hperm⟩ := hvalid
    have hpresented := h.toPresented.withPanes hdescribed.pos hperm.symm
    exact ⟨_, rfl, { hpresented with }, rfl⟩
  | setLayout layout =>
    simp only [validateOperation, check_bind_eq_ok, ensure_eq_ok, validateLayoutPanes_eq_ok,
      sortIds_eq_iff] at hvalid
    obtain ⟨⟨hproper, -⟩, hperm⟩ := hvalid
    exact ⟨_, rfl, { h.toPresented with proper := hproper, placed := hperm.symm }, rfl⟩
  | setFocus paneId =>
    exact ⟨_, rfl, { h.toPresented with active := ensurePane_eq_ok.mp hvalid }, rfl⟩
  | setMaximized paneId =>
    cases paneId with
    | none => exact ⟨_, rfl, { h.toPresented with maximized := nofun }, rfl⟩
    | some paneId =>
      refine ⟨_, rfl, { h.toPresented with maximized := fun id hid => ?_ }, rfl⟩
      cases hid
      exact ensurePane_eq_ok.mp hvalid
  | setMinimized paneId minimized =>
    have hmem := ensurePane_eq_ok.mp hvalid
    refine ⟨_, rfl, { h.toPresented with minimized := fun id hid => ?_, minimized_nodup := ?_ }, rfl⟩
    · dsimp only at hid
      split at hid
      · rcases mem_append.mp hid with hid | hid
        · exact h.minimized id (mem_filter.mp hid).1
        · exact mem_singleton.mp hid ▸ hmem
      · exact h.minimized id (mem_filter.mp hid).1
    · have hothers := h.minimized_nodup.filter (· ≠ paneId)
      dsimp only
      split
      · refine hothers.append (nodup_singleton _) fun id hid heq => ?_
        rw [mem_singleton.mp heq] at hid
        simp at hid
      · exact hothers
  | setSplitRatio firstPaneId secondPaneId firstRatio =>
    simp only [validateOperation, check_bind_eq_ok, ensure_eq_ok] at hvalid
    obtain ⟨hratio, hfound⟩ := hvalid
    obtain ⟨ratio, hratio'⟩ := Option.isSome_iff_exists.mp hfound
    have hnodup := h.placed.nodup_iff.mpr h.nodup
    obtain ⟨write, hwrite⟩ := exists_findDividerMut hnodup hratio'
    refine .of_layout h (rearranges_findDividerMut hwrite hratio) ?_
    simp only [edit, hwrite, expect, bind, Except.bind]
    rfl
  | movePane paneId direction =>
    simp only [validateOperation, check_bind_eq_ok, ensure_eq_ok] at hvalid
    obtain ⟨layout, hlayout⟩ := Option.isSome_iff_exists.mp hvalid.2
    refine .of_layout h (rearranges_moveLayoutPane hlayout) ?_
    simp only [edit, hlayout, expect, bind, Except.bind]
    rfl
  | swapPanes firstPaneId secondPaneId =>
    simp only [validateOperation, check_bind_eq_ok, ensure_eq_ok] at hvalid
    obtain ⟨-, hfirst, hsecond⟩ := hvalid
    refine .of_layout h (rearranges_swapLayoutPanes ?_ ?_ ?_) rfl
    · exact h.placed.nodup_iff.mpr h.nodup
    · exact h.placed.mem_iff.mpr (ensurePane_eq_ok.mp hfirst)
    · exact h.placed.mem_iff.mpr (ensurePane_eq_ok.mp hsecond)
  | rotateSplit paneId direction =>
    simp only [validateOperation, ensure_eq_ok] at hvalid
    obtain ⟨layout, hlayout⟩ := Option.isSome_iff_exists.mp hvalid
    refine .of_layout h (rearranges_rotateLayoutPane hlayout) ?_
    simp only [edit, hlayout, expect, bind, Except.bind]
    rfl
  | setTabState state => exact ⟨_, rfl, { h.toPresented with }, rfl⟩
  | setPaneMetadata paneId metadata =>
    obtain ⟨panes, hpanes, hids⟩ := exists_updatePane (f := setMetadata metadata) (fun _ => rfl)
      (ensurePane_eq_ok.mp hvalid)
    refine ⟨{ s with summary := { s.summary with panes } }, ?_, ?_, rfl⟩
    · simp only [edit, hpanes, expect, bind, Except.bind]
      rfl
    · have hsame : BackgroundSessionSummary.paneIds { s.summary with panes } = s.summary.paneIds :=
        hids
      exact h.toPresented.withPanes (fun id hid => h.pos id (hsame ▸ hid)) (.of_eq hsame)
  | closePane paneId =>
    simp only [validateOperation, check_bind_eq_ok, ensure_eq_ok] at hvalid
    exact edits_closePane h hvalid.2

/-- A state with its operation recorded is as canonical as before. -/
theorem Canonical.record (h : Canonical s) (revision : ℕ)
    (lastOperationId : Option SharedOperationId) (receipt : SharedOperationReceipt) :
    Canonical (recordReceipt { s with revision, lastOperationId } receipt) :=
  { h with }

/-- **One operation** is refused, or is applied and advances the revision. -/
theorem canonical_applyOperation (h : Canonical s) (operationId : SharedOperationId)
    (operation : SharedSessionOperation V) :
    (∃ message, s.applyOperation F operationId operation = .error (.error message)) ∨
      ∃ t, s.applyOperation F operationId operation = .ok t ∧ Canonical t ∧
        t.revision = nextRevision s.revision := by
  cases hvalid : s.validateOperation F operation with
  | error message => exact .inl ⟨message, by rw [applyOperation, hvalid]⟩
  | ok _ =>
    obtain ⟨t, hedit, hpresented, hrevision⟩ := edits_of_validate h hvalid
    refine .inr ⟨_, by rw [applyOperation, hvalid, hedit]; rfl, ?_, ?_⟩
    · exact hpresented.sync.record ..
    · exact congrArg nextRevision hrevision

/-- A canonical state is of the current version, and there is nothing to upgrade. -/
theorem migrate_of_canonical (h : Canonical s) : s.migrate = .ok s :=
  if_pos h.version

theorem described_of_canonical (h : Canonical s) :
    Described s.summary where
  pos := h.pos
  nodup := h.nodup
  proper := h.layout ▸ h.proper
  placed := h.layout ▸ h.placed

/-- Nor is there anything to repair. -/
theorem normalize_of_canonical (h : Canonical s) :
    s.normalize = .ok (false, s) := by
  have hminimized : s.presentation.minimizedPanes.filter (· ∈ s.summary.paneIds) =
      s.presentation.minimizedPanes :=
    filter_eq_self.mpr fun paneId hid => decide_eq_true (h.minimized paneId hid)
  have hmaximized : s.presentation.maximizedPane.filter (· ∈ s.summary.paneIds) =
      s.presentation.maximizedPane := by
    cases hid : s.presentation.maximizedPane with
    | none => rfl
    | some paneId => exact if_pos (decide_eq_true (h.maximized paneId hid))
  have hvalid := validateSummaryPanes_eq_ok.mpr (described_of_canonical h)
  have hactive : s.summary.activePane ∈ s.summary.paneIds := h.same_active ▸ h.active
  simp only [normalize, check_bind_eq_ok, hvalid, ensure_eq_ok, hactive, true_and, hminimized,
    hmaximized, ← h.layout, ← h.same_active]
  simp [pure, Except.pure, h.layout, h.same_active]

/-- An operation leaves the flag of the summary, except that a whole-tab replacement brings its
own. -/
def flagAfter (flag : Bool) : SharedSessionOperation V → Bool
  | .replaceTab summary _ => summary.authenticationRequired
  | _ => flag

/-- What an edit leaves of a state. -/
structure Frame (operation : SharedSessionOperation V) (s t : SharedSessionState V) : Prop where
  version : t.version = s.version
  sessionId : t.sessionId = s.sessionId
  receipts : t.operationReceipts = s.operationReceipts
  revision : t.revision = s.revision
  flag : t.summary.authenticationRequired = flagAfter s.summary.authenticationRequired operation

variable {t : SharedSessionState V}

theorem frame_edit (h : s.edit F operation = .ok t) : Frame operation s t := by
  cases operation with
  | replaceTab summary state => exact Except.ok.inj h ▸ ⟨rfl, rfl, rfl, rfl, rfl⟩
  | setLayout layout => exact Except.ok.inj h ▸ ⟨rfl, rfl, rfl, rfl, rfl⟩
  | setFocus paneId => exact Except.ok.inj h ▸ ⟨rfl, rfl, rfl, rfl, rfl⟩
  | setMaximized paneId => exact Except.ok.inj h ▸ ⟨rfl, rfl, rfl, rfl, rfl⟩
  | setMinimized paneId minimized => exact Except.ok.inj h ▸ ⟨rfl, rfl, rfl, rfl, rfl⟩
  | swapPanes firstPaneId secondPaneId => exact Except.ok.inj h ▸ ⟨rfl, rfl, rfl, rfl, rfl⟩
  | setTabState state => exact Except.ok.inj h ▸ ⟨rfl, rfl, rfl, rfl, rfl⟩
  | setSplitRatio firstPaneId secondPaneId firstRatio =>
    obtain ⟨write, -, h⟩ := bind_eq_ok.mp h
    exact Except.ok.inj h ▸ ⟨rfl, rfl, rfl, rfl, rfl⟩
  | movePane paneId direction =>
    obtain ⟨layout, -, h⟩ := bind_eq_ok.mp h
    exact Except.ok.inj h ▸ ⟨rfl, rfl, rfl, rfl, rfl⟩
  | rotateSplit paneId direction =>
    obtain ⟨layout, -, h⟩ := bind_eq_ok.mp h
    exact Except.ok.inj h ▸ ⟨rfl, rfl, rfl, rfl, rfl⟩
  | setPaneMetadata paneId metadata =>
    obtain ⟨panes, -, h⟩ := bind_eq_ok.mp h
    exact Except.ok.inj h ▸ ⟨rfl, rfl, rfl, rfl, rfl⟩
  | closePane paneId =>
    obtain ⟨summaryLayout, -, h⟩ := bind_eq_ok.mp h
    obtain ⟨activePane, -, h⟩ := bind_eq_ok.mp h
    obtain ⟨layout, -, h⟩ := bind_eq_ok.mp h
    exact Except.ok.inj h ▸ ⟨rfl, rfl, rfl, rfl, rfl⟩

/-- What an operation leaves of a state, and what it records. -/
structure Applied (operationId : SharedOperationId) (operation : SharedSessionOperation V)
    (s t : SharedSessionState V) : Prop where
  version : t.version = s.version
  sessionId : t.sessionId = s.sessionId
  receipts : t.operationReceipts =
    s.operationReceipts.filter (·.operationId.clientId ≠ operationId.clientId) ++ [⟨operationId, []⟩]
  revision : t.revision = nextRevision s.revision
  flag : t.summary.authenticationRequired = flagAfter s.summary.authenticationRequired operation

theorem frame_applyOperation {operationId : SharedOperationId}
    (h : s.applyOperation F operationId operation = .ok t) :
    Applied operationId operation s t := by
  rw [applyOperation] at h
  split at h
  · cases h
  · cases hedit : s.edit F operation with
    | error e => rw [hedit] at h; cases h
    | ok edited =>
      rw [hedit] at h
      have hframe := frame_edit hedit
      cases h
      exact {
        version := hframe.version
        sessionId := hframe.sessionId
        receipts := congrArg (List.filter _ · ++ _) hframe.receipts
        revision := congrArg nextRevision hframe.revision
        flag := hframe.flag }

/-- An upgrade leaves the revision, and a state of the current version altogether. -/
theorem migrate_eq_ok (h : s.migrate = .ok t) :
    t.version = SHARED_SESSION_STATE_VERSION ∧ t.revision = s.revision ∧
      t.operationReceipts = s.operationReceipts ∧
      (s.version = SHARED_SESSION_STATE_VERSION → t = s) := by
  rw [migrate] at h
  split at h
  next hversion =>
    cases h
    exact ⟨hversion, rfl, rfl, fun _ => rfl⟩
  next hversion =>
    split at h
    · cases h
      exact ⟨rfl, rfl, rfl, fun hcurrent => absurd hcurrent hversion⟩
    · cases h

/-- A repair leaves all but the presentation, and that too if nothing was changed. -/
theorem normalize_eq_ok {changed : Bool} (h : s.normalize = .ok (changed, t)) :
    (∃ presentation, t = { s with presentation }) ∧ (changed = false → t = s) := by
  simp only [normalize, check_bind_eq_ok, ensure_eq_ok] at h
  obtain ⟨-, -, h⟩ := h
  cases Except.ok.inj h
  refine ⟨⟨_, rfl⟩, fun hchanged => ?_⟩
  simp only [decide_eq_false_iff_not, not_or, not_not] at hchanged
  obtain ⟨hlayout, hactive, hminimized, hmaximized⟩ := hchanged
  have hkept : s.presentation.minimizedPanes.filter (· ∈ s.summary.paneIds) =
      s.presentation.minimizedPanes :=
    filter_sublist.eq_of_length hminimized
  rw [hkept, hmaximized, ← hlayout, ← hactive]

/-! ### Every sequence of operations -/

/-- What may happen to the state. -/
inductive Step (V : Type)
  | apply (operationId : SharedOperationId) (operation : SharedSessionOperation V)
  | migrate
  | normalize

def Step.isApply : Step V → Bool
  | .apply _ _ => true
  | _ => false

variable (F) in
def step (s : SharedSessionState V) : Step V → Except Failure (SharedSessionState V)
  | .apply operationId operation => s.applyOperation F operationId operation
  | .migrate => s.migrate.mapError .error
  | .normalize => (s.normalize.map Prod.snd).mapError .error

variable (F) in
/-- The state after a step: a step that fails leaves it. -/
def take (s : SharedSessionState V) (x : Step V) : SharedSessionState V :=
  match s.step F x with
  | .ok t => t
  | .error _ => s

variable (F) in
/-- How a step goes. -/
structure Takes (s : SharedSessionState V) (x : Step V) : Prop where
  /-- No `expect` is reached. -/
  expects : ∀ message, s.step F x ≠ .error (.unexpected message)
  canonical : ∀ t, s.step F x = .ok t → Canonical t
  /-- An operation advances the revision by one, and nothing else does. -/
  revision : ∀ t, s.step F x = .ok t → s.revision < MAX_REVISION →
    t.revision = if x.isApply then s.revision + 1 else s.revision

/-- **One step** from a canonical state. -/
theorem takes_of_canonical (h : Canonical s) (x : Step V) :
    Takes F s x := by
  have hsame : ∀ {t}, s.step F x = .ok s → s.step F x = .ok t → t = s := fun hs ht =>
    Except.ok.inj (ht.symm.trans hs)
  have hstays : s.step F x = .ok s → x.isApply = false → Takes F s x := fun hs hx => {
    expects := fun message herror => nomatch hs.symm.trans herror
    canonical := fun t ht => hsame hs ht ▸ h
    revision := fun t ht _ => by rw [hsame hs ht, hx]; rfl }
  cases x with
  | apply operationId operation =>
    rcases canonical_applyOperation (F := F) h operationId operation with
      ⟨message, herror⟩ | ⟨t, happlied, hcanonical, hrevision⟩
    · exact {
        expects := fun message' h' => nomatch herror.symm.trans h'
        canonical := fun t ht => nomatch herror.symm.trans ht
        revision := fun t ht => nomatch herror.symm.trans ht }
    · have ht' : ∀ {t'}, s.applyOperation F operationId operation = .ok t' → t' = t := fun ht =>
        Except.ok.inj (ht.symm.trans happlied)
      exact {
        expects := fun message h' => nomatch happlied.symm.trans h'
        canonical := fun t' ht => ht' ht ▸ hcanonical
        revision := fun t' ht hlt => by
          rw [ht' ht, hrevision, nextRevision]
          exact min_eq_left hlt }
  | migrate => exact hstays (by rw [step, migrate_of_canonical h]; rfl) rfl
  | normalize => exact hstays (by rw [step, normalize_of_canonical h]; rfl) rfl

/-- **Canonical**: from a summary that is accepted, with a live focus, every sequence of steps
keeps the state canonical, whatever their arguments. -/
theorem canonical_of_run {sessionId : ℕ} {summary : BackgroundSessionSummary} {state : V}
    (hvalid : validateSummaryPanes summary = .ok ()) (hactive : summary.activePane ∈ summary.paneIds)
    (steps : List (Step V)) :
    Canonical (steps.foldl (take F) (new sessionId summary state)) ∧
      ∀ x, Takes F (steps.foldl (take F) (new sessionId summary state)) x := by
  have hstep : ∀ (s : SharedSessionState V) (x : Step V), Canonical s → Canonical (s.take F x) := by
    intro s x h
    rw [take]
    split
    next t ht => exact (takes_of_canonical h x).canonical t ht
    · exact h
  have hcanonical : Canonical (steps.foldl (take F) (new sessionId summary state)) := by
    have h₀ : Canonical (new sessionId summary state) := canonical_new hvalid hactive
    revert h₀
    generalize new sessionId summary state = s
    intro h₀
    induction steps generalizing s with
    | nil => exact h₀
    | cons x steps ih => exact ih (s.take F x) (hstep s x h₀)
  exact ⟨hcanonical, takes_of_canonical hcanonical⟩

/-- A running pane that nothing is known of. -/
def plainPane (id : ℕ) : BackgroundPaneSummary where
  id := id
  label := ""
  profile := ""
  configuredCommand := ""
  application := ""
  foregroundCommand := none
  terminalTitle := none
  workingDirectory := none
  state := .running
  exit := none

/-- Two panes side by side. -/
def twoPanes : BackgroundSessionSummary where
  id := 7
  title := "work"
  authenticationRequired := false
  activePane := 1
  layout := .split "vertical" 400 (.pane 1) (.pane 2)
  panes := [plainPane 1, plainPane 2]
  held := false
  scopedTo := none
  keyEnvelope := none

/-- The panes are swapped, and the one in focus is closed. -/
def swapAndClose : List (Step Unit) :=
  [.apply ⟨"a", 1⟩ (.swapPanes 1 2), .apply ⟨"a", 2⟩ (.closePane 1)]

theorem canonical_twoPanes :
    (swapAndClose.foldl (take .exact) (new 7 twoPanes ())).revision = 2 ∧
      Canonical (swapAndClose.foldl (take .exact) (new 7 twoPanes ())) :=
  ⟨by decide, (canonical_of_run rfl (by decide) swapAndClose).1⟩

end SharedSessionState

end Zetta.Zmux
