import Zetta.Pane.Layout
import Zetta.Zmux.SharedState

/-!
# Reshaping a layout in a window and in the daemon

A window moves, rotates, swaps and closes panes in its own tree, and the daemon does the same in
the tree that the window sent it. The two are written separately, over an enumeration of axes and
over their names.

* `reshapes_alike`: under the translation `backgroundPaneLayout` every operation succeeds in both
  or in neither, with the same result, so that a sequence of them keeps the trees equal.
* Swapping is guarded in the window itself and by the daemon's validation. Without the latter the
  daemon would put a pane that is not there into the tree (`swap_missing_pane`).
-/

namespace Zetta.Pane

open Zmux (AreaArithmetic BackgroundPaneLayout SharedPaneDirection SharedRotationDirection)

inductive PaneRotationDirection where
  | clockwise
  | counterClockwise
  deriving DecidableEq

namespace PaneLayout

variable {ι R : Type}

/-! ### The window -/

def rotateGeometry (direction : PaneRotationDirection) : PaneLayout ι → PaneLayout ι
  | pane id => pane id
  | split axis firstRatio first second =>
    let first := first.rotateGeometry direction
    let second := second.rotateGeometry direction
    let reverseChildren :=
      (direction = .clockwise ∧ axis = .horizontal) ∨
        (direction = .counterClockwise ∧ axis = .vertical)
    let axis := match axis with
      | .horizontal => SplitAxis.vertical
      | .vertical => SplitAxis.horizontal
    if reverseChildren then
      split axis (PANE_SPLIT_RATIO_SCALE - firstRatio) second first
    else
      split axis firstRatio first second

/-- Rotates the subtree that a path leads to. -/
def rotateAtPath (direction : PaneRotationDirection) : List Bool → PaneLayout ι → PaneLayout ι
  | [], layout => layout.rotateGeometry direction
  | _ :: _, pane id => pane id
  | first :: second, split axis firstRatio firstChild secondChild =>
    if first then split axis firstRatio (rotateAtPath direction second firstChild) secondChild
    else split axis firstRatio firstChild (rotateAtPath direction second secondChild)

def isTwoPaneSplit : PaneLayout ι → Bool
  | split _ _ (pane _) (pane _) => true
  | _ => false

section Areas

variable (F : AreaArithmetic R)

/-- The first child's share of an area. -/
def firstArea (area : R) (firstRatio : UInt16) : R :=
  F.div (F.mul area (F.ofRatio firstRatio)) (F.ofRatio PANE_SPLIT_RATIO_SCALE)

def collectLeafAreas : PaneLayout ι → R → List R
  | pane _, area => [area]
  | split _ firstRatio first second, area =>
    first.collectLeafAreas (firstArea F area firstRatio) ++
      second.collectLeafAreas (F.sub area (firstArea F area firstRatio))

/-- Whether four areas are the same, as far as rounding tells. -/
def fourEqual : List R → Bool
  | [first, second, third, fourth] =>
    [first, second, third, fourth].all fun candidate =>
      F.le (F.abs (F.sub candidate first)) F.epsilon
  | _ => false

def hasFourEqualPanes (layout : PaneLayout ι) (area : R) : Bool :=
  fourEqual F (layout.collectLeafAreas F area)

end Areas

variable [DecidableEq ι]

def containsPane : PaneLayout ι → ι → Bool
  | pane id, paneId => id = paneId
  | split _ _ first second, paneId => first.containsPane paneId || second.containsPane paneId

/-- What `move_pane_inner` leaves when it answers `Some(true)`; it answers `None` or that. -/
def movePaneInner (paneId : ι) (axis : SplitAxis) (towardFirst : Bool) :
    PaneLayout ι → Option (PaneLayout ι)
  | pane _ => none
  | split splitAxis firstRatio first second =>
    if first.containsPane paneId then
      match first.movePaneInner paneId axis towardFirst with
      | some first => some (split splitAxis firstRatio first second)
      | none =>
        if splitAxis = axis ∧ !towardFirst then
          some (split splitAxis (PANE_SPLIT_RATIO_SCALE - firstRatio) second first)
        else none
    else if second.containsPane paneId then
      match second.movePaneInner paneId axis towardFirst with
      | some second => some (split splitAxis firstRatio first second)
      | none =>
        if splitAxis = axis ∧ towardFirst then
          some (split splitAxis (PANE_SPLIT_RATIO_SCALE - firstRatio) second first)
        else none
    else none

/-- The layout with a pane moved a step in a direction; it has not moved if there is none. -/
def movePane (layout : PaneLayout ι) (activePane : ι) : PaneDirection → Option (PaneLayout ι)
  | .left => layout.movePaneInner activePane .vertical true
  | .right => layout.movePaneInner activePane .vertical false
  | .up => layout.movePaneInner activePane .horizontal true
  | .down => layout.movePaneInner activePane .horizontal false

def swapPanesInner (first second : ι) : PaneLayout ι → PaneLayout ι
  | pane id => if id = first then pane second else if id = second then pane first else pane id
  | split axis firstRatio firstChild secondChild =>
    split axis firstRatio (firstChild.swapPanesInner first second)
      (secondChild.swapPanesInner first second)

/-- The layout with two panes swapped, if there are two such panes. -/
def swapPanes (layout : PaneLayout ι) (first second : ι) : Option (PaneLayout ι) :=
  if first = second ∨ !layout.containsPane first ∨ !layout.containsPane second then none
  else some (layout.swapPanesInner first second)

section Areas

variable (F : AreaArithmetic R)

def paneArea (paneId : ι) : PaneLayout ι → R → Option R
  | pane id, area => if id = paneId then some area else none
  | split _ firstRatio first second, area =>
    (first.paneArea paneId (firstArea F area firstRatio)).or
      (second.paneArea paneId (F.sub area (firstArea F area firstRatio)))

/-- The path to the subtree that a pane rotates with. -/
def rotationTarget (activePane : ι) (activeArea : R) (layout : PaneLayout ι) (area : R) :
    Option (List Bool) :=
  if layout.hasFourEqualPanes F area || layout.isTwoPaneSplit then
    some []
  else
    match layout with
    | pane _ => none
    | split _ firstRatio first second =>
      let firstArea := firstArea F area firstRatio
      let secondArea := F.sub area firstArea
      if first.containsPane activePane then
        match first.rotationTarget activePane activeArea firstArea with
        | some path => some (true :: path)
        | none => if F.le secondArea (F.add activeArea F.epsilon) then some [] else none
      else if second.containsPane activePane then
        match second.rotationTarget activePane activeArea secondArea with
        | some path => some (false :: path)
        | none => if F.le firstArea (F.add activeArea F.epsilon) then some [] else none
      else none

/-- The layout with a pane's surroundings rotated; they have not been if there is none. -/
def rotatePane (layout : PaneLayout ι) (activePane : ι) (direction : PaneRotationDirection) :
    Option (PaneLayout ι) := do
  let activeArea ← layout.paneArea F activePane F.one
  let path ← layout.rotationTarget F activePane activeArea F.one
  return rotateAtPath direction path layout

end Areas

end PaneLayout

/-! ### The translation -/

def SplitAxis.background : SplitAxis → String
  | .horizontal => "horizontal"
  | .vertical => "vertical"

def PaneDirection.shared : PaneDirection → SharedPaneDirection
  | .left => .left
  | .right => .right
  | .up => .up
  | .down => .down

def PaneRotationDirection.shared : PaneRotationDirection → SharedRotationDirection
  | .clockwise => .clockwise
  | .counterClockwise => .counterClockwise

def backgroundPaneLayout : PaneLayout ℕ → BackgroundPaneLayout
  | .pane paneId => .pane paneId
  | .split axis firstRatio first second =>
    .split axis.background firstRatio (backgroundPaneLayout first) (backgroundPaneLayout second)

theorem SplitAxis.background_inj {axis axis' : SplitAxis} :
    axis.background = axis'.background ↔ axis = axis' := by
  cases axis <;> cases axis' <;> decide

section Alike

variable {R : Type} (F : AreaArithmetic R) (layout : PaneLayout ℕ) (paneId : ℕ)

theorem layoutContains_background :
    Zmux.layoutContains (backgroundPaneLayout layout) paneId = layout.containsPane paneId := by
  induction layout with
  | pane id => rfl
  | split axis firstRatio first second ih₁ ih₂ =>
    rw [backgroundPaneLayout, Zmux.layoutContains, ih₁, ih₂, PaneLayout.containsPane]

theorem remove_background :
    Zmux.removePaneFromLayout (backgroundPaneLayout layout) paneId =
      (layout.without paneId).map backgroundPaneLayout := by
  induction layout with
  | pane id =>
    rw [backgroundPaneLayout, Zmux.removePaneFromLayout, PaneLayout.without]
    by_cases h : id = paneId <;> simp [h, backgroundPaneLayout]
  | split axis firstRatio first second ih₁ ih₂ =>
    rw [backgroundPaneLayout, Zmux.removePaneFromLayout, ih₁, ih₂, PaneLayout.without]
    cases first.without paneId <;> cases second.without paneId <;> rfl

theorem swap_background (first second : ℕ) :
    Zmux.swapLayoutPanes (backgroundPaneLayout layout) first second =
      backgroundPaneLayout (layout.swapPanesInner first second) := by
  induction layout with
  | pane id =>
    rw [backgroundPaneLayout, Zmux.swapLayoutPanes, PaneLayout.swapPanesInner]
    split_ifs <;> rfl
  | split axis firstRatio firstChild secondChild ih₁ ih₂ =>
    rw [backgroundPaneLayout, Zmux.swapLayoutPanes, ih₁, ih₂, PaneLayout.swapPanesInner,
      backgroundPaneLayout]

theorem moveInner_background (axis : SplitAxis) (towardFirst : Bool) :
    Zmux.moveLayoutPaneInner (backgroundPaneLayout layout) paneId axis.background towardFirst =
      (layout.movePaneInner paneId axis towardFirst).map backgroundPaneLayout := by
  induction layout with
  | pane id => rfl
  | split splitAxis firstRatio first second ih₁ ih₂ =>
    rw [backgroundPaneLayout, Zmux.moveLayoutPaneInner, ih₁, ih₂, layoutContains_background,
      layoutContains_background, PaneLayout.movePaneInner]
    simp only [SplitAxis.background_inj]
    split_ifs <;> cases first.movePaneInner paneId axis towardFirst <;>
      cases second.movePaneInner paneId axis towardFirst <;> rfl

theorem move_background (direction : PaneDirection) :
    Zmux.moveLayoutPane (backgroundPaneLayout layout) paneId direction.shared =
      (layout.movePane paneId direction).map backgroundPaneLayout := by
  cases direction
  · exact moveInner_background layout paneId .vertical true
  · exact moveInner_background layout paneId .vertical false
  · exact moveInner_background layout paneId .horizontal true
  · exact moveInner_background layout paneId .horizontal false

variable (direction : PaneRotationDirection)

theorem rotateGeometry_background (layout : PaneLayout ℕ) :
    Zmux.rotateLayoutGeometry direction.shared (backgroundPaneLayout layout) =
      backgroundPaneLayout (layout.rotateGeometry direction) := by
  induction layout with
  | pane id => rfl
  | split axis firstRatio first second ih₁ ih₂ =>
    rw [backgroundPaneLayout, Zmux.rotateLayoutGeometry, ih₁, ih₂]
    cases direction <;> cases axis <;> rfl

theorem rotateAtPath_background (path : List Bool) (layout : PaneLayout ℕ) :
    Zmux.rotateAtPath direction.shared path (backgroundPaneLayout layout) =
      backgroundPaneLayout (PaneLayout.rotateAtPath direction path layout) := by
  induction path generalizing layout with
  | nil => exact rotateGeometry_background direction layout
  | cons first rest ih =>
    cases layout with
    | pane id => rfl
    | split axis firstRatio firstChild secondChild =>
      rw [backgroundPaneLayout, Zmux.rotateAtPath, ih, ih, PaneLayout.rotateAtPath]
      cases first <;> rfl

theorem isTwoPaneSplit_background :
    Zmux.isTwoPaneSplit (backgroundPaneLayout layout) = layout.isTwoPaneSplit := by
  cases layout with
  | pane id => rfl
  | split axis firstRatio first second => cases first <;> cases second <;> rfl

theorem paneArea_background (area : R) :
    Zmux.layoutPaneArea F (backgroundPaneLayout layout) paneId area =
      layout.paneArea F paneId area := by
  induction layout generalizing area with
  | pane id => rfl
  | split axis firstRatio first second ih₁ ih₂ =>
    rw [backgroundPaneLayout, Zmux.layoutPaneArea, ih₁, ih₂, PaneLayout.paneArea]
    rfl

theorem collectLeafAreas_background (area : R) :
    Zmux.collectLeafAreas F (backgroundPaneLayout layout) area =
      layout.collectLeafAreas F area := by
  induction layout generalizing area with
  | pane id => rfl
  | split axis firstRatio first second ih₁ ih₂ =>
    rw [backgroundPaneLayout, Zmux.collectLeafAreas, ih₁, ih₂, PaneLayout.collectLeafAreas]
    rfl

theorem hasFourEqualPanes_background (area : R) :
    Zmux.hasFourEqualPanes F (backgroundPaneLayout layout) area =
      layout.hasFourEqualPanes F area := by
  rw [Zmux.hasFourEqualPanes, collectLeafAreas_background, PaneLayout.hasFourEqualPanes]
  generalize layout.collectLeafAreas F area = areas
  match areas with
  | [] | [_] | [_, _] | [_, _, _] | [_, _, _, _] | _ :: _ :: _ :: _ :: _ :: _ => rfl

/-- Both sides rotate the same subtree. -/
theorem rotationTarget_background (activeArea area : R) :
    Zmux.rotationTarget F (backgroundPaneLayout layout) paneId activeArea area =
      layout.rotationTarget F paneId activeArea area := by
  induction layout generalizing area with
  | pane id =>
    unfold Zmux.rotationTarget PaneLayout.rotationTarget
    rw [hasFourEqualPanes_background, isTwoPaneSplit_background]
    rfl
  | split axis firstRatio first second ih₁ ih₂ =>
    unfold Zmux.rotationTarget PaneLayout.rotationTarget
    rw [hasFourEqualPanes_background, isTwoPaneSplit_background]
    simp only [backgroundPaneLayout, layoutContains_background, ih₁, ih₂]
    rfl

theorem rotate_background :
    Zmux.rotateLayoutPane F (backgroundPaneLayout layout) paneId direction.shared =
      (layout.rotatePane F paneId direction).map backgroundPaneLayout := by
  rw [Zmux.rotateLayoutPane, paneArea_background, PaneLayout.rotatePane]
  cases layout.paneArea F paneId F.one with
  | none => rfl
  | some activeArea =>
    simp only [Option.bind_eq_bind, Option.bind_some, rotationTarget_background]
    cases layout.rotationTarget F paneId activeArea F.one with
    | none => rfl
    | some path => exact congrArg some (rotateAtPath_background direction path layout)

/-! ### Sequences -/

/-- An operation of the window. -/
inductive Reshape
  | movePane (paneId : ℕ) (direction : PaneDirection)
  | rotatePane (paneId : ℕ) (direction : PaneRotationDirection)
  | swapPanes (first second : ℕ)
  | without (paneId : ℕ)

/-- The window's layout after an operation: one that does not succeed leaves it. -/
def reshape (layout : PaneLayout ℕ) : Reshape → PaneLayout ℕ
  | .movePane paneId direction => (layout.movePane paneId direction).getD layout
  | .rotatePane paneId direction => (layout.rotatePane F paneId direction).getD layout
  | .swapPanes first second => (layout.swapPanes first second).getD layout
  | .without paneId => (layout.without paneId).getD layout

/-- The check that `validate_operation` makes before a swap, on a tree of the session's panes. -/
def swapAllowed (layout : BackgroundPaneLayout) (first second : ℕ) : Bool :=
  first ≠ second && Zmux.layoutContains layout first && Zmux.layoutContains layout second

/-- The daemon's layout after the same operation. -/
def backgroundReshape (layout : BackgroundPaneLayout) : Reshape → BackgroundPaneLayout
  | .movePane paneId direction => (Zmux.moveLayoutPane layout paneId direction.shared).getD layout
  | .rotatePane paneId direction =>
    (Zmux.rotateLayoutPane F layout paneId direction.shared).getD layout
  | .swapPanes first second =>
    if swapAllowed layout first second then Zmux.swapLayoutPanes layout first second else layout
  | .without paneId => (Zmux.removePaneFromLayout layout paneId).getD layout

theorem swapAllowed_iff_validate {V : Type} {s : Zmux.SharedSessionState V} (hs : s.Canonical)
    (first second : ℕ) : swapAllowed s.presentation.layout first second = true ↔
      s.validateOperation F (.swapPanes first second) = .ok () := by
  simp [swapAllowed, Zmux.SharedSessionState.validateOperation, hs.placed.mem_iff, and_assoc,
    Zmux.check_bind_eq_ok, Zmux.ensure_eq_ok, Zmux.SharedSessionState.ensurePane_eq_ok]

/-- The daemon allows the swaps that succeed in the window. -/
theorem swapPanes_eq (first second : ℕ) :
    layout.swapPanes first second =
      if swapAllowed (backgroundPaneLayout layout) first second then
        some (layout.swapPanesInner first second)
      else none := by
  rw [PaneLayout.swapPanes, swapAllowed, layoutContains_background, layoutContains_background]
  by_cases hsame : first = second
  · simp [hsame]
  · cases layout.containsPane first <;> cases layout.containsPane second <;> simp [hsame]

/-- **One operation** does the same on both sides. -/
theorem reshape_background (operation : Reshape) :
    backgroundReshape F (backgroundPaneLayout layout) operation =
      backgroundPaneLayout (reshape F layout operation) := by
  cases operation with
  | movePane paneId direction =>
    rw [backgroundReshape, move_background, reshape, Option.getD_map]
  | rotatePane paneId direction =>
    rw [backgroundReshape, rotate_background, reshape, Option.getD_map]
  | swapPanes first second =>
    rw [backgroundReshape, swap_background, reshape, swapPanes_eq]
    split <;> rfl
  | without paneId => rw [backgroundReshape, remove_background, reshape, Option.getD_map]

/-- **Reshaping** a layout and its translation goes alike: each operation succeeds on both sides
or on neither, with the same result, and so does every sequence of them. -/
theorem reshapes_alike (layout : PaneLayout ℕ) :
    (∀ paneId direction, Zmux.moveLayoutPane (backgroundPaneLayout layout) paneId
        (PaneDirection.shared direction) =
      (layout.movePane paneId direction).map backgroundPaneLayout) ∧
    (∀ paneId direction, Zmux.rotateLayoutPane F (backgroundPaneLayout layout) paneId
        (PaneRotationDirection.shared direction) =
      (layout.rotatePane F paneId direction).map backgroundPaneLayout) ∧
    (∀ paneId, Zmux.removePaneFromLayout (backgroundPaneLayout layout) paneId =
      (layout.without paneId).map backgroundPaneLayout) ∧
    (∀ first second, layout.swapPanes first second =
        if swapAllowed (backgroundPaneLayout layout) first second then
          some (layout.swapPanesInner first second)
        else none) ∧
    (∀ first second swapped, layout.swapPanes first second = some swapped →
      Zmux.swapLayoutPanes (backgroundPaneLayout layout) first second =
        backgroundPaneLayout swapped) ∧
    ∀ operations : List Reshape,
      operations.foldl (backgroundReshape F) (backgroundPaneLayout layout) =
        backgroundPaneLayout (operations.foldl (reshape F) layout) := by
  refine ⟨move_background layout, rotate_background F layout, remove_background layout,
    swapPanes_eq layout, fun first second swapped hswapped => ?_, fun operations => ?_⟩
  · rw [PaneLayout.swapPanes] at hswapped
    obtain ⟨-, heq⟩ := Option.ite_none_left_eq_some.mp hswapped
    rw [swap_background, Option.some.inj heq]
  · induction operations generalizing layout with
    | nil => rfl
    | cons operation operations ih =>
      rw [List.foldl_cons, List.foldl_cons, reshape_background, ih]

/-- Swapping a pane with one that is not there leaves the window's layout, and renames the
daemon's pane. -/
theorem swap_missing_pane :
    (PaneLayout.split .vertical 500 (.pane 1) (.pane 2) : PaneLayout ℕ).swapPanes 1 9 = none ∧
      Zmux.swapLayoutPanes
        (backgroundPaneLayout (.split .vertical 500 (.pane 1) (.pane 2))) 1 9 ≠
        backgroundPaneLayout (.split .vertical 500 (.pane 1) (.pane 2)) := by
  decide

end Alike

end Zetta.Pane
