import Zetta.Pane.Layout

/-!
# A tab

A tab holds panes, a layout that places them, and what it shows of them: which pane is active,
which were focused before, which are minimized and whether one is maximized. Each operation
changes several of these at once.

* The index of the panes is a map from ids to positions, as the program keeps it beside the
  list of panes.
* An operation that reports whether it did something returns a pair; one that can end in a
  panic is an `Option`, and `none` is the panic.
* A pane is known by its id, its label number and its stack of command entries. What else it
  holds (profile, terminal, view, labels) is not read or changed here, and neither are the
  titles, the theme, the icon and the sharing of a tab.
-/

namespace Zetta.Pane

def MAX_PANES_PER_TAB : ℕ := 64

/-- `can_add_panes`. -/
def canAddPanes (current additional : ℕ) : Bool := current + additional ≤ MAX_PANES_PER_TAB

/-! ### Data -/

/-- What a pane shows: its base terminal, or an entry of its stack. -/
inductive PaneStackSelection (ι : Type) where
  | base
  | stacked (id : ι)
  deriving DecidableEq

structure StackedPane (ι : Type) where
  id : ι

/-- The command entries of a pane. -/
structure PaneStack (ι : Type) where
  entries : List (StackedPane ι) := []
  selected : PaneStackSelection ι := .base

structure TerminalPane (ι : Type) where
  id : ι
  labelNumber : ℕ := 0
  stack : PaneStack ι := {}

structure Tab (ι : Type) where
  id : UInt64
  panes : List (TerminalPane ι)
  paneIndices : ι → Option ℕ
  nextPaneLabel : ℕ
  layout : PaneLayout ι
  activePane : ι
  focusHistory : List ι
  maximizedPane : Option ι := none
  minimizedPanes : List ι := []
  selectedMinimizedPane : Option ι := none
  renamingPane : Option ι := none
  renameBuffer : Option String := none
  editingOverlayPane : Option ι := none
  overlayBuffer : Option String := none
  overlayStylePicker : Bool := false

namespace Tab

variable {ι R : Type} [DecidableEq ι] (t : Tab ι)

/-- The ids of the panes. -/
def ids : List ι := t.panes.map TerminalPane.id

/-- A new tab, with one pane. -/
def new (id : UInt64) (paneId : ι) : Tab ι where
  id := id
  panes := [{ id := paneId, labelNumber := 1 }]
  paneIndices := fun pane => if pane = paneId then some 0 else none
  nextPaneLabel := 2
  layout := .pane paneId
  activePane := paneId
  focusHistory := [paneId]

/-! ### Panes -/

def pane (id : ι) : Option (TerminalPane ι) :=
  (t.paneIndices id).bind fun index => t.panes[index]?

def pushPane (pane : TerminalPane ι) : Tab ι :=
  let pane := if pane.labelNumber = 0 then { pane with labelNumber := t.nextPaneLabel } else pane
  { t with
    nextPaneLabel := max t.nextPaneLabel (pane.labelNumber + 1)
    paneIndices := fun id => if id = pane.id then some t.panes.length else t.paneIndices id
    panes := t.panes ++ [pane] }

/-- The index once the panes from a position on are entered anew. -/
def reindex (paneIndices : ι → Option ℕ) (position : ℕ) : List (TerminalPane ι) → ι → Option ℕ
  | [] => paneIndices
  | pane :: panes =>
    reindex (fun id => if id = pane.id then some position else paneIndices id) (position + 1) panes

/-- Takes a pane out. There is none if the index does not know it; a position outside the list
is a panic. -/
def removePane (id : ι) : Option (Tab ι) :=
  match t.paneIndices id with
  | none => some t
  | some index =>
    if index < t.panes.length then
      let panes := t.panes.eraseIdx index
      let paneIndices := fun id' => if id' = id then none else t.paneIndices id'
      some { t with
        panes := panes
        paneIndices := reindex paneIndices index (panes.drop index) }
    else none

def activatePane (id : ι) : Tab ι :=
  if (t.pane id).isNone then t
  else
    { t with
      focusHistory := (t.focusHistory.filter fun paneId => paneId ≠ id) ++ [id]
      activePane := id }

/-! ### What is visible -/

def visibleLayout : Option (PaneLayout ι) :=
  match t.maximizedPane with
  | some paneId => (t.pane paneId).map fun _ => .pane paneId
  | none => if t.minimizedPanes = [] then some t.layout else t.layout.withoutAll t.minimizedPanes

def paneIsVisible (paneId : ι) : Bool :=
  (t.pane paneId).isSome &&
    match t.maximizedPane with
    | some maximized => maximized = paneId
    | none => paneId ∉ t.minimizedPanes

/-- The last one minimized is selected if the one selected is not minimized. -/
def repairMinimizedSelection : Tab ι :=
  if t.selectedMinimizedPane.any fun paneId => paneId ∈ t.minimizedPanes then t
  else { t with selectedMinimizedPane := t.minimizedPanes.getLast? }

/-- How many panes are shown side by side once the pane is no longer minimized. -/
def visiblePaneCount (paneId : ι) : ℕ :=
  t.panes.length - t.minimizedPanes.length + if paneId ∈ t.minimizedPanes then 1 else 0

def toggleMaximize (paneId : ι) : Bool × Tab ι :=
  if (t.pane paneId).isNone then (false, t)
  else if t.maximizedPane ≠ some paneId ∧ t.visiblePaneCount paneId < 2 then (false, t)
  else
    let t := { t with
      minimizedPanes := t.minimizedPanes.filter fun id => id ≠ paneId }.repairMinimizedSelection
    (true,
      { t with
        maximizedPane := if t.maximizedPane ≠ some paneId then some paneId else none
      }.activatePane paneId)

/-- The pane to focus once a pane was minimized: the one focused last that is visible, or the
first that is. -/
def minimizeFallback (F : Arithmetic R) (paneId : ι) : Option ι :=
  (t.focusHistory.reverse.find? fun id => id ≠ paneId ∧ id ∉ t.minimizedPanes).or
    (((t.layout.regions F).map PaneRegion.id).find? fun id => id ∉ t.minimizedPanes)

/-- Minimizes a pane; if no other is visible the fallback is a panic. -/
def minimize (F : Arithmetic R) (paneId : ι) : Option (Bool × Tab ι) :=
  if (t.pane paneId).isNone ∨ paneId ∈ t.minimizedPanes ∨
      t.panes.length - t.minimizedPanes.length ≤ 1 then some (false, t)
  else
    let t := { t with
      maximizedPane := none
      minimizedPanes := t.minimizedPanes ++ [paneId]
      selectedMinimizedPane := some paneId }
    (t.minimizeFallback F paneId).map fun fallback => (true, t.activatePane fallback)

def restoreMinimized (paneId : ι) : Bool × Tab ι :=
  match t.minimizedPanes.findIdx? fun id => id = paneId with
  | none => (false, t)
  | some index =>
    let minimized := t.minimizedPanes.eraseIdx index
    let t' :=
      if t.selectedMinimizedPane = some paneId then
        { t with
          minimizedPanes := minimized
          selectedMinimizedPane :=
            if minimized = [] then none else minimized[index % minimized.length]? }
      else { t with minimizedPanes := minimized }.repairMinimizedSelection
    (true, { t' with maximizedPane := none }.activatePane paneId)

def restoreLastMinimized : Bool × Tab ι :=
  match (t.selectedMinimizedPane.filter fun paneId => paneId ∈ t.minimizedPanes).or
      t.minimizedPanes.getLast? with
  | some paneId => t.restoreMinimized paneId
  | none => (false, t)

/-- The position selected next, or before, in a row of minimized panes. -/
def adjacentIndex (count : ℕ) (forward : Bool) : Option ℕ → ℕ
  | none => if forward then 0 else count - 1
  | some index =>
    if forward then (index + 1) % count else if index = 0 then count - 1 else index - 1

def selectAdjacentMinimized (forward : Bool) : Bool × Tab ι :=
  if t.minimizedPanes = [] then (false, { t with selectedMinimizedPane := none })
  else
    let position := t.selectedMinimizedPane.bind fun paneId =>
      t.minimizedPanes.findIdx? fun id => id = paneId
    (true,
      { t with
        selectedMinimizedPane :=
          t.minimizedPanes[adjacentIndex t.minimizedPanes.length forward position]? })

def selectPreviousMinimized : Bool × Tab ι := t.selectAdjacentMinimized false

def selectNextMinimized : Bool × Tab ι := t.selectAdjacentMinimized true

/-! ### Closing and splitting -/

/-- The pane that is focused when the active one is gone. -/
def focusAfterClose (fallback : ι) : ι :=
  ((((t.focusHistory.reverse.find? fun paneId => paneId ∉ t.minimizedPanes).or
    (t.visibleLayout.map PaneLayout.firstPane)).or
      t.selectedMinimizedPane).or t.ids.head?).getD fallback

/-- If only minimized panes are left, the last one is restored. -/
def restoreLastSurvivor : Option (Tab ι) :=
  if t.ids ≠ [] ∧ t.ids.length = t.minimizedPanes.length then
    t.minimizedPanes.getLast?.map fun restored =>
      { t with minimizedPanes := t.minimizedPanes.dropLast }.activatePane restored
  else some t

/-- Another pane is focused if the active one is gone or hidden. -/
def refocus (closed fallback : ι) : Tab ι :=
  if t.activePane ≠ closed ∧ t.activePane ∈ t.ids ∧ t.activePane ∉ t.minimizedPanes then t
  else t.activatePane (t.focusAfterClose fallback)

/-- The end of `restore_focus_after_close`: selection, maximized pane, history and focus. -/
def settleFocus (closed fallback : ι) : Tab ι :=
  let t := t.repairMinimizedSelection
  let t := if t.panes.length = 1 then { t with maximizedPane := none } else t
  { t with
    focusHistory := t.focusHistory.filter fun paneId => paneId ≠ closed ∧ paneId ∈ t.ids
  }.refocus closed fallback

/-- What the tab shows after a pane was taken out of its panes and its layout. -/
def restoreFocusAfterClose (closed fallback : ι) : Option (Tab ι) :=
  let t := if t.renamingPane = some closed then
    { t with renamingPane := none, renameBuffer := none } else t
  let t := if t.maximizedPane = some closed then { t with maximizedPane := none } else t
  let t := { t with minimizedPanes := t.minimizedPanes.filter fun paneId => paneId ≠ closed }
  t.restoreLastSurvivor.map fun t => t.settleFocus closed fallback

/-- What closing a pane comes to. -/
inductive Closed (ι : Type) where
  /-- There is no such pane. -/
  | unknown
  /-- It was the last one, so that the tab closes. -/
  | tabCloses
  | remains (t : Tab ι)
  | panics

/-- `close_pane_with_policy`, as far as the tab is concerned. -/
def closePane (paneId : ι) : Closed ι :=
  if paneId ∉ t.ids then .unknown
  else if t.panes.length = 1 then .tabCloses
  else
    match t.removePane paneId with
    | none => .panics
    | some t =>
      match t.layout.without paneId with
      | none => .tabCloses
      | some layout =>
        match { t with layout := layout }.restoreFocusAfterClose paneId layout.firstPane with
        | some t => .remains t
        | none => .panics

/-- `split_pane_with_pending_command`, as far as the tab is concerned: it reports whether a
pane was added. -/
def splitPane (activePaneId : ι) (axis : SplitAxis) (position : SplitPosition)
    (paneId : ι) : Bool × Tab ι :=
  if !canAddPanes t.panes.length 1 then (false, t)
  else if (t.pane activePaneId).isNone then (false, t)
  else
    let t := { t with maximizedPane := none }
    match t.layout.splitPane activePaneId axis paneId position with
    | none => (false, t)
    | some layout =>
      (true, ({ t with layout := layout }.pushPane { id := paneId }).activatePane paneId)

/-- `focus_pane`, as far as the tab is concerned. -/
def focusPane (F : Arithmetic R) (direction : PaneDirection) : Tab ι :=
  if t.maximizedPane.isSome then t
  else
    match t.visibleLayout.bind fun layout =>
        layout.adjacentPane F t.activePane direction t.focusHistory with
    | some paneId => t.activatePane paneId
    | none => t

end Tab

end Zetta.Pane
