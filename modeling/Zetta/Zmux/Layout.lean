import Mathlib.Algebra.Order.Field.Rat
import Mathlib.Data.List.Nodup
import Mathlib.Data.List.Perm.Basic
import Mathlib.Logic.Equiv.Basic
import Mathlib.Tactic.Common

/-!
# The layout of a shared session

The daemon keeps how a session's region is divided as it was sent: a binary tree whose splits
name their axis and share their extent in thousandths. It validates such a tree, removes a pane
from it, and moves, swaps and rotates its parts.

* `validateLayoutPanes_eq_ok`: what is accepted is `Proper`, and places no pane beyond those given.
* `layoutPaneIds_of_remove`: removing a pane leaves the others in place.
* `Rearranges`: moving, swapping and rotating keep the panes and leave a proper tree.

Areas are computed in `f64`. Nothing here depends on how it rounds, so that the arithmetic is a
parameter (`AreaArithmetic`).
-/

namespace Zetta.Zmux

/-- How the region of a session is divided. The ratio is the first child's share. -/
inductive BackgroundPaneLayout
  | pane (paneId : ℕ)
  | split (axis : String) (firstRatio : UInt16) (first second : BackgroundPaneLayout)
  deriving DecidableEq

def BACKGROUND_PANE_SPLIT_RATIO_SCALE : UInt16 := 1000

inductive SharedPaneDirection
  | left
  | right
  | up
  | down

inductive SharedRotationDirection
  | clockwise
  | counterClockwise
  deriving DecidableEq

/-- The numbers that areas are computed in. -/
structure AreaArithmetic (R : Type) where
  one : R
  /-- `1e-9`. -/
  epsilon : R
  add : R → R → R
  sub : R → R → R
  mul : R → R → R
  div : R → R → R
  abs : R → R
  ofRatio : UInt16 → R
  le : R → R → Bool

/-- Exact arithmetic. -/
def AreaArithmetic.exact : AreaArithmetic ℚ where
  one := 1
  epsilon := 1 / 1000000000
  add := (· + ·)
  sub := (· - ·)
  mul := (· * ·)
  div := (· / ·)
  abs := fun x => if x < 0 then -x else x
  ofRatio := fun ratio => ratio.toNat
  le := fun x y => x ≤ y

open BackgroundPaneLayout

/-! ### Reading the tree -/

/-- `collect_layout_pane_ids`: the panes of the layout, in tree order. -/
def layoutPaneIds : BackgroundPaneLayout → List ℕ
  | pane paneId => [paneId]
  | split _ _ first second => layoutPaneIds first ++ layoutPaneIds second

/-- Checks that the layout places only known panes, along axes, and that no split is empty. -/
def validateLayoutPanes (contains : ℕ → Bool) : BackgroundPaneLayout → Except String Unit
  | pane paneId =>
    if contains paneId then .ok ()
    else .error s!"shared layout references missing pane {paneId}"
  | split axis firstRatio first second =>
    if axis ≠ "horizontal" ∧ axis ≠ "vertical" then .error s!"invalid shared split axis {axis}"
    else if ¬(0 < firstRatio ∧ firstRatio < BACKGROUND_PANE_SPLIT_RATIO_SCALE) then
      .error "invalid shared split ratio"
    else do
      validateLayoutPanes contains first
      validateLayoutPanes contains second

def layoutContains (layout : BackgroundPaneLayout) (paneId : ℕ) : Bool :=
  match layout with
  | pane id => id = paneId
  | split _ _ first second => layoutContains first paneId || layoutContains second paneId

/-- The ratio of the split that has one pane on each side. -/
def findDivider (layout : BackgroundPaneLayout) (firstPaneId secondPaneId : ℕ) : Option UInt16 :=
  match layout with
  | pane _ => none
  | split _ firstRatio first second =>
    if layoutContains first firstPaneId && layoutContains second secondPaneId then
      some firstRatio
    else
      (findDivider first firstPaneId secondPaneId).or
        (findDivider second firstPaneId secondPaneId)

/-- `find_divider_mut`, as what writing through the reference makes of the layout. -/
def findDividerMut (layout : BackgroundPaneLayout) (firstPaneId secondPaneId : ℕ) :
    Option (UInt16 → BackgroundPaneLayout) :=
  match layout with
  | pane _ => none
  | split axis firstRatio first second =>
    if layoutContains first firstPaneId && layoutContains second secondPaneId then
      some fun ratio => split axis ratio first second
    else if layoutContains first firstPaneId || layoutContains first secondPaneId then
      (findDividerMut first firstPaneId secondPaneId).map fun write ratio =>
        split axis firstRatio (write ratio) second
    else
      (findDividerMut second firstPaneId secondPaneId).map fun write ratio =>
        split axis firstRatio first (write ratio)

/-! ### Changing the tree -/

/-- The layout without a pane, unless that was all. -/
def removePaneFromLayout (layout : BackgroundPaneLayout) (paneId : ℕ) :
    Option BackgroundPaneLayout :=
  match layout with
  | pane id => if id = paneId then none else some (pane id)
  | split axis firstRatio first second =>
    match removePaneFromLayout first paneId, removePaneFromLayout second paneId with
    | some first, some second => some (split axis firstRatio first second)
    | some remaining, none => some remaining
    | none, some remaining => some remaining
    | none, none => none

def swapLayoutPanes (layout : BackgroundPaneLayout) (firstId secondId : ℕ) :
    BackgroundPaneLayout :=
  match layout with
  | pane paneId =>
    if paneId = firstId then pane secondId
    else if paneId = secondId then pane firstId
    else pane paneId
  | split axis firstRatio first second =>
    split axis firstRatio (swapLayoutPanes first firstId secondId)
      (swapLayoutPanes second firstId secondId)

/-- What `move_layout_pane_inner` leaves when it answers `Some(true)`; it answers `None` or that. -/
def moveLayoutPaneInner (layout : BackgroundPaneLayout) (paneId : ℕ) (axis : String)
    (towardFirst : Bool) : Option BackgroundPaneLayout :=
  match layout with
  | pane _ => none
  | split splitAxis firstRatio first second =>
    if layoutContains first paneId then
      match moveLayoutPaneInner first paneId axis towardFirst with
      | some first => some (split splitAxis firstRatio first second)
      | none =>
        if splitAxis = axis ∧ !towardFirst then
          some (split splitAxis (BACKGROUND_PANE_SPLIT_RATIO_SCALE - firstRatio) second first)
        else none
    else if layoutContains second paneId then
      match moveLayoutPaneInner second paneId axis towardFirst with
      | some second => some (split splitAxis firstRatio first second)
      | none =>
        if splitAxis = axis ∧ towardFirst then
          some (split splitAxis (BACKGROUND_PANE_SPLIT_RATIO_SCALE - firstRatio) second first)
        else none
    else none

/-- The layout with a pane moved a step in a direction; it has not moved if there is none. -/
def moveLayoutPane (layout : BackgroundPaneLayout) (paneId : ℕ) (direction : SharedPaneDirection) :
    Option BackgroundPaneLayout :=
  match direction with
  | .left => moveLayoutPaneInner layout paneId "vertical" true
  | .right => moveLayoutPaneInner layout paneId "vertical" false
  | .up => moveLayoutPaneInner layout paneId "horizontal" true
  | .down => moveLayoutPaneInner layout paneId "horizontal" false

def isTwoPaneSplit : BackgroundPaneLayout → Bool
  | split _ _ (pane _) (pane _) => true
  | _ => false

def rotateLayoutGeometry (direction : SharedRotationDirection) :
    BackgroundPaneLayout → BackgroundPaneLayout
  | pane paneId => pane paneId
  | split axis firstRatio first second =>
    let first := rotateLayoutGeometry direction first
    let second := rotateLayoutGeometry direction second
    let reverseChildren :=
      (direction = .clockwise ∧ axis = "horizontal") ∨
        (direction = .counterClockwise ∧ axis = "vertical")
    let axis := if axis = "horizontal" then "vertical" else "horizontal"
    if reverseChildren then
      split axis (BACKGROUND_PANE_SPLIT_RATIO_SCALE - firstRatio) second first
    else
      split axis firstRatio first second

/-- Rotates the subtree that a path leads to. -/
def rotateAtPath (direction : SharedRotationDirection) :
    List Bool → BackgroundPaneLayout → BackgroundPaneLayout
  | [], layout => rotateLayoutGeometry direction layout
  | _ :: _, pane paneId => pane paneId
  | firstPath :: remaining, split axis firstRatio first second =>
    if firstPath then split axis firstRatio (rotateAtPath direction remaining first) second
    else split axis firstRatio first (rotateAtPath direction remaining second)

section Areas

variable {R : Type} (F : AreaArithmetic R)

/-- The first child's share of an area. -/
def firstArea (area : R) (firstRatio : UInt16) : R :=
  F.div (F.mul area (F.ofRatio firstRatio)) (F.ofRatio BACKGROUND_PANE_SPLIT_RATIO_SCALE)

def layoutPaneArea (layout : BackgroundPaneLayout) (paneId : ℕ) (area : R) : Option R :=
  match layout with
  | pane id => if id = paneId then some area else none
  | split _ firstRatio first second =>
    (layoutPaneArea first paneId (firstArea F area firstRatio)).or
      (layoutPaneArea second paneId (F.sub area (firstArea F area firstRatio)))

def collectLeafAreas (layout : BackgroundPaneLayout) (area : R) : List R :=
  match layout with
  | pane _ => [area]
  | split _ firstRatio first second =>
    collectLeafAreas first (firstArea F area firstRatio) ++
      collectLeafAreas second (F.sub area (firstArea F area firstRatio))

/-- Whether four areas are the same, as far as rounding tells. -/
def fourEqual : List R → Bool
  | [first, second, third, fourth] =>
    [first, second, third, fourth].all fun candidate =>
      F.le (F.abs (F.sub candidate first)) F.epsilon
  | _ => false

def hasFourEqualPanes (layout : BackgroundPaneLayout) (area : R) : Bool :=
  fourEqual F (collectLeafAreas F layout area)

/-- The path to the subtree that a pane rotates with. -/
def rotationTarget (layout : BackgroundPaneLayout) (paneId : ℕ) (activeArea area : R) :
    Option (List Bool) :=
  if hasFourEqualPanes F layout area || isTwoPaneSplit layout then
    some []
  else
    match layout with
    | pane _ => none
    | split _ firstRatio first second =>
      let firstArea := firstArea F area firstRatio
      let secondArea := F.sub area firstArea
      if layoutContains first paneId then
        match rotationTarget first paneId activeArea firstArea with
        | some path => some (true :: path)
        | none => if F.le secondArea (F.add activeArea F.epsilon) then some [] else none
      else if layoutContains second paneId then
        match rotationTarget second paneId activeArea secondArea with
        | some path => some (false :: path)
        | none => if F.le firstArea (F.add activeArea F.epsilon) then some [] else none
      else none

/-- The layout with a pane's surroundings rotated; they have not been if there is none. -/
def rotateLayoutPane (layout : BackgroundPaneLayout) (paneId : ℕ)
    (direction : SharedRotationDirection) : Option BackgroundPaneLayout := do
  let activeArea ← layoutPaneArea F layout paneId F.one
  let path ← rotationTarget F layout paneId activeArea F.one
  return rotateAtPath direction path layout

end Areas

/-! ### Proper trees -/

/-- Every split runs along an axis, and leaves both children something. -/
def Proper : BackgroundPaneLayout → Prop
  | pane _ => True
  | split axis firstRatio first second =>
    (axis = "horizontal" ∨ axis = "vertical") ∧
      (0 < firstRatio ∧ firstRatio < BACKGROUND_PANE_SPLIT_RATIO_SCALE) ∧
      Proper first ∧ Proper second

@[simp] theorem layoutPaneIds_pane (paneId : ℕ) : layoutPaneIds (pane paneId) = [paneId] := rfl

@[simp] theorem layoutPaneIds_split (axis : String) (firstRatio : UInt16)
    (first second : BackgroundPaneLayout) :
    layoutPaneIds (split axis firstRatio first second) =
      layoutPaneIds first ++ layoutPaneIds second := rfl

theorem layoutPaneIds_ne_nil (layout : BackgroundPaneLayout) : layoutPaneIds layout ≠ [] := by
  induction layout with
  | pane paneId => simp
  | split axis firstRatio first second ih _ => simp [ih]

variable {layout : BackgroundPaneLayout} {paneId : ℕ}

@[simp] theorem layoutContains_iff :
    layoutContains layout paneId = true ↔ paneId ∈ layoutPaneIds layout := by
  induction layout with
  | pane id => simp [layoutContains, eq_comm]
  | split axis firstRatio first second ih₁ ih₂ => simp [layoutContains, ih₁, ih₂]

/-- What is accepted is a proper tree of known panes. -/
theorem validateLayoutPanes_eq_ok {contains : ℕ → Bool} :
    validateLayoutPanes contains layout = .ok () ↔
      Proper layout ∧ ∀ paneId ∈ layoutPaneIds layout, contains paneId = true := by
  induction layout with
  | pane paneId =>
    rw [validateLayoutPanes]
    split_ifs with h <;> simp [Proper, h]
  | split axis firstRatio first second ih₁ ih₂ =>
    rw [validateLayoutPanes]
    split_ifs with haxis hratio
    · refine iff_of_false nofun fun h => ?_
      exact h.1.1.elim haxis.1 haxis.2
    · have hbind : (validateLayoutPanes contains first >>= fun _ =>
          validateLayoutPanes contains second) = .ok () ↔
          validateLayoutPanes contains first = .ok () ∧
            validateLayoutPanes contains second = .ok () := by
        cases validateLayoutPanes contains first <;> simp [bind, Except.bind]
      have haxis' : axis = "horizontal" ∨ axis = "vertical" := by tauto
      rw [hbind, ih₁, ih₂, Proper, layoutPaneIds_split]
      simp only [List.forall_mem_append, haxis', hratio, true_and, and_true]
      tauto
    · exact iff_of_false nofun fun h => hratio h.1.2.1

variable {ratio : UInt16}

/-- What the second child's share is called when it becomes the first. -/
theorem ratio_sub_mem (h : 0 < ratio ∧ ratio < BACKGROUND_PANE_SPLIT_RATIO_SCALE) :
    0 < BACKGROUND_PANE_SPLIT_RATIO_SCALE - ratio ∧
      BACKGROUND_PANE_SPLIT_RATIO_SCALE - ratio < BACKGROUND_PANE_SPLIT_RATIO_SCALE := by
  obtain ⟨hpos, hlt⟩ := h
  have hle : ratio ≤ BACKGROUND_PANE_SPLIT_RATIO_SCALE := UInt16.le_of_lt hlt
  rw [UInt16.lt_iff_toNat_lt] at hpos hlt ⊢
  rw [UInt16.lt_iff_toNat_lt, UInt16.toNat_sub_of_le _ _ hle]
  rw [show (0 : UInt16).toNat = 0 from rfl] at hpos ⊢
  omega

/-- The panes left of a layout without one. -/
theorem layoutPaneIds_of_remove (layout : BackgroundPaneLayout) (paneId : ℕ) :
    (removePaneFromLayout layout paneId).elim [] layoutPaneIds =
      (layoutPaneIds layout).filter (· ≠ paneId) := by
  induction layout with
  | pane id =>
    rw [removePaneFromLayout]
    split_ifs with h <;> simp [h]
  | split axis firstRatio first second ih₁ ih₂ =>
    rw [layoutPaneIds_split, List.filter_append, ← ih₁, ← ih₂, removePaneFromLayout]
    cases removePaneFromLayout first paneId <;> cases removePaneFromLayout second paneId <;> simp

variable {rest : BackgroundPaneLayout}

theorem Proper.remove (h : Proper layout) (hrest : removePaneFromLayout layout paneId = some rest) :
    Proper rest := by
  induction layout generalizing rest with
  | pane id =>
    rw [removePaneFromLayout, Option.ite_none_left_eq_some] at hrest
    obtain rfl := Option.some.inj hrest.2
    exact h
  | split axis firstRatio first second ih₁ ih₂ =>
    obtain ⟨haxis, hratio, hfirst, hsecond⟩ := h
    rw [removePaneFromLayout] at hrest
    split at hrest
    next first' second' h₁ h₂ =>
      cases hrest
      exact ⟨haxis, hratio, ih₁ hfirst h₁, ih₂ hsecond h₂⟩
    next h₁ _ =>
      cases hrest
      exact ih₁ hfirst h₁
    next _ h₂ =>
      cases hrest
      exact ih₂ hsecond h₂
    · cases hrest

/-- Something is left where another pane is placed. -/
theorem exists_remove {other : ℕ} (hmem : other ∈ layoutPaneIds layout) (hne : other ≠ paneId) :
    ∃ rest, removePaneFromLayout layout paneId = some rest := by
  refine Option.ne_none_iff_exists'.mp fun hnone => ?_
  have hleft := layoutPaneIds_of_remove layout paneId
  rw [hnone, Option.elim_none] at hleft
  have : other ∈ (layoutPaneIds layout).filter (· ≠ paneId) := by simpa using ⟨hmem, hne⟩
  rw [← hleft] at this
  cases this

theorem layoutPaneIds_eq_of_remove (h : removePaneFromLayout layout paneId = some rest) :
    layoutPaneIds rest = (layoutPaneIds layout).filter (· ≠ paneId) := by
  rw [← layoutPaneIds_of_remove, h, Option.elim_some]

/-! ### Rearranging -/

/-- What keeps the panes, and leaves a proper tree proper. -/
structure Rearranges (layout layout' : BackgroundPaneLayout) : Prop where
  panes : (layoutPaneIds layout').Perm (layoutPaneIds layout)
  proper : Proper layout → Proper layout'

namespace Rearranges

theorem refl (layout : BackgroundPaneLayout) : Rearranges layout layout := ⟨.refl _, id⟩

variable {first first' second second' : BackgroundPaneLayout} {axis axis' : String}
  {firstRatio : UInt16}

/-- The children are rearranged, and the axis is one. -/
theorem split (h₁ : Rearranges first first') (h₂ : Rearranges second second')
    (haxis : axis = "horizontal" ∨ axis = "vertical" → axis' = "horizontal" ∨ axis' = "vertical") :
    Rearranges (.split axis firstRatio first second) (.split axis' firstRatio first' second') where
  panes := h₁.panes.append h₂.panes
  proper h := ⟨haxis h.1, h.2.1, h₁.proper h.2.2.1, h₂.proper h.2.2.2⟩

/-- The children are rearranged and change places. -/
theorem reverse (h₁ : Rearranges first first') (h₂ : Rearranges second second')
    (haxis : axis = "horizontal" ∨ axis = "vertical" → axis' = "horizontal" ∨ axis' = "vertical") :
    Rearranges (.split axis firstRatio first second)
      (.split axis' (BACKGROUND_PANE_SPLIT_RATIO_SCALE - firstRatio) second' first') where
  panes := (h₂.panes.append h₁.panes).trans List.perm_append_comm
  proper h := ⟨haxis h.1, ratio_sub_mem h.2.1, h₂.proper h.2.2.2, h₁.proper h.2.2.1⟩

end Rearranges

variable {layout' : BackgroundPaneLayout}

/-- **Moving** a pane rearranges. -/
theorem rearranges_moveLayoutPaneInner {axis : String} {towardFirst : Bool}
    (h : moveLayoutPaneInner layout paneId axis towardFirst = some layout') :
    Rearranges layout layout' := by
  induction layout generalizing layout' with
  | pane id => cases h
  | split splitAxis firstRatio first second ih₁ ih₂ =>
    rw [moveLayoutPaneInner] at h
    split at h
    · split at h
      next first' hfirst =>
        cases h
        exact (ih₁ hfirst).split (.refl _) id
      · obtain ⟨-, h⟩ := Option.ite_none_right_eq_some.mp h
        cases h
        exact .reverse (.refl _) (.refl _) id
    · split at h
      · split at h
        next second' hsecond =>
          cases h
          exact .split (.refl _) (ih₂ hsecond) id
        · obtain ⟨-, h⟩ := Option.ite_none_right_eq_some.mp h
          cases h
          exact .reverse (.refl _) (.refl _) id
      · cases h

theorem rearranges_moveLayoutPane {direction : SharedPaneDirection}
    (h : moveLayoutPane layout paneId direction = some layout') :
    Rearranges layout layout' := by
  cases direction <;> exact rearranges_moveLayoutPaneInner h

variable (direction : SharedRotationDirection)

theorem rearranges_rotateLayoutGeometry (layout : BackgroundPaneLayout) :
    Rearranges layout (rotateLayoutGeometry direction layout) := by
  induction layout with
  | pane paneId => exact .refl _
  | split axis firstRatio first second ih₁ ih₂ =>
    have haxis : axis = "horizontal" ∨ axis = "vertical" →
        (if axis = "horizontal" then "vertical" else "horizontal") = "horizontal" ∨
          (if axis = "horizontal" then "vertical" else "horizontal") = "vertical" := by
      intro _
      split_ifs
      · exact .inr rfl
      · exact .inl rfl
    rw [rotateLayoutGeometry]
    split
    · exact ih₁.reverse ih₂ haxis
    · exact ih₁.split ih₂ haxis

theorem rearranges_rotateAtPath (path : List Bool) (layout : BackgroundPaneLayout) :
    Rearranges layout (rotateAtPath direction path layout) := by
  induction path generalizing layout with
  | nil => exact rearranges_rotateLayoutGeometry direction layout
  | cons firstPath remaining ih =>
    cases layout with
    | pane paneId => exact .refl _
    | split axis firstRatio first second =>
      rw [rotateAtPath]
      split
      · exact (ih first).split (.refl _) id
      · exact .split (.refl _) (ih second) id

/-- **Rotating** around a pane rearranges. -/
theorem rearranges_rotateLayoutPane {R : Type} {F : AreaArithmetic R}
    {direction : SharedRotationDirection}
    (h : rotateLayoutPane F layout paneId direction = some layout') :
    Rearranges layout layout' := by
  simp only [rotateLayoutPane, Option.bind_eq_bind, Option.bind_eq_some_iff] at h
  obtain ⟨activeArea, -, path, -, heq⟩ := h
  cases heq
  exact rearranges_rotateAtPath direction path layout

/-- **Swapping** renames the two panes. -/
theorem layoutPaneIds_swap (layout : BackgroundPaneLayout) (firstId secondId : ℕ) :
    layoutPaneIds (swapLayoutPanes layout firstId secondId) =
      (layoutPaneIds layout).map (Equiv.swap firstId secondId) := by
  induction layout with
  | pane paneId =>
    rw [swapLayoutPanes, layoutPaneIds_pane, List.map_singleton, Equiv.swap_apply_def]
    split_ifs <;> rfl
  | split axis firstRatio first second ih₁ ih₂ =>
    rw [swapLayoutPanes, layoutPaneIds_split, layoutPaneIds_split, List.map_append, ih₁, ih₂]

theorem Proper.swap (h : Proper layout) (firstId secondId : ℕ) :
    Proper (swapLayoutPanes layout firstId secondId) := by
  induction layout with
  | pane paneId =>
    rw [swapLayoutPanes]
    split_ifs <;> trivial
  | split axis firstRatio first second ih₁ ih₂ =>
    exact ⟨h.1, h.2.1, ih₁ h.2.2.1, ih₂ h.2.2.2⟩

/-- Swapping two panes of the layout rearranges. -/
theorem rearranges_swapLayoutPanes {firstId secondId : ℕ} (hnodup : (layoutPaneIds layout).Nodup)
    (hfirst : firstId ∈ layoutPaneIds layout) (hsecond : secondId ∈ layoutPaneIds layout) :
    Rearranges layout (swapLayoutPanes layout firstId secondId) where
  panes := by
    rw [layoutPaneIds_swap]
    refine (List.perm_ext_iff_of_nodup (hnodup.map (Equiv.injective _)) hnodup).mpr fun id => ?_
    have hmem : ∀ id ∈ layoutPaneIds layout,
        Equiv.swap firstId secondId id ∈ layoutPaneIds layout := by
      intro id hid
      rw [Equiv.swap_apply_def]
      split_ifs
      · exact hsecond
      · exact hfirst
      · exact hid
    rw [List.mem_map]
    constructor
    · rintro ⟨id, hid, rfl⟩
      exact hmem id hid
    · intro hid
      exact ⟨_, hmem id hid, Equiv.swap_apply_self ..⟩
  proper h := h.swap ..

/-! ### Dividers -/

variable {firstPaneId secondPaneId : ℕ}

theorem mem_of_findDivider (h : findDivider layout firstPaneId secondPaneId = some ratio) :
    firstPaneId ∈ layoutPaneIds layout ∧ secondPaneId ∈ layoutPaneIds layout := by
  induction layout with
  | pane id => cases h
  | split axis firstRatio first second ih₁ ih₂ =>
    rw [findDivider] at h
    rw [layoutPaneIds_split, List.mem_append, List.mem_append]
    split at h
    next hboth =>
      rw [Bool.and_eq_true, layoutContains_iff, layoutContains_iff] at hboth
      exact ⟨.inl hboth.1, .inr hboth.2⟩
    · rcases Option.or_eq_some_iff.mp h with h | ⟨-, h⟩
      · exact ⟨.inl (ih₁ h).1, .inl (ih₁ h).2⟩
      · exact ⟨.inr (ih₂ h).1, .inr (ih₂ h).2⟩

/-- A divider that is found is found again to be written, when no pane is placed twice. -/
theorem exists_findDividerMut (hnodup : (layoutPaneIds layout).Nodup)
    (h : findDivider layout firstPaneId secondPaneId = some ratio) :
    ∃ write, findDividerMut layout firstPaneId secondPaneId = some write := by
  induction layout with
  | pane id => cases h
  | split axis firstRatio first second ih₁ ih₂ =>
    rw [layoutPaneIds_split, List.nodup_append] at hnodup
    obtain ⟨hfirst, hsecond, hdisjoint⟩ := hnodup
    rw [findDivider] at h
    rw [findDividerMut]
    split at h
    next hboth => exact ⟨_, if_pos hboth⟩
    next hnot =>
      rw [if_neg hnot]
      rcases Option.or_eq_some_iff.mp h with h | ⟨-, h⟩
      · obtain ⟨write, hwrite⟩ := ih₁ hfirst h
        rw [if_pos (by simp [(mem_of_findDivider h).1]), hwrite]
        exact ⟨_, rfl⟩
      · -- Neither pane is in the first child, which has none of the second's.
        obtain ⟨write, hwrite⟩ := ih₂ hsecond h
        obtain ⟨hmem₁, hmem₂⟩ := mem_of_findDivider h
        have hno₁ : firstPaneId ∉ layoutPaneIds first := fun hid => hdisjoint _ hid _ hmem₁ rfl
        have hno₂ : secondPaneId ∉ layoutPaneIds first := fun hid => hdisjoint _ hid _ hmem₂ rfl
        rw [if_neg (by simp [hno₁, hno₂]), hwrite]
        exact ⟨_, rfl⟩

/-- A ratio is written where there was one. -/
theorem rearranges_findDividerMut {write : UInt16 → BackgroundPaneLayout}
    (h : findDividerMut layout firstPaneId secondPaneId = some write)
    (hratio : 0 < ratio ∧ ratio < BACKGROUND_PANE_SPLIT_RATIO_SCALE) :
    Rearranges layout (write ratio) := by
  induction layout generalizing write with
  | pane id => cases h
  | split axis firstRatio first second ih₁ ih₂ =>
    rw [findDividerMut] at h
    split at h
    · cases h
      exact ⟨.refl _, fun h => ⟨h.1, hratio, h.2.2⟩⟩
    · split at h
      · obtain ⟨write', hwrite', rfl⟩ := Option.map_eq_some_iff.mp h
        exact (ih₁ hwrite').split (.refl _) id
      · obtain ⟨write', hwrite', rfl⟩ := Option.map_eq_some_iff.mp h
        exact .split (.refl _) (ih₂ hwrite') id

end Zetta.Zmux
