import Zetta.Pane.Geometry

/-!
# Rotating a subtree

`rotate_geometry` turns a subtree by a quarter: every split changes its axis, and where a turn in
that direction puts the second child first, the children are exchanged.

* `cells_rotateGeometry`: the panes of the turned subtree are drawn where a quarter turn of its
  box takes them.
* `cells_rotateAtPath`: in a layout only the panes of the subtree move, inside its box.
* `rotateGeometry_opposite`, `rotateGeometry_four`: turning back, and turning four times, leaves
  the subtree as it was.
-/

namespace Zetta.Pane

open Lib (Box)

def SplitAxis.other : SplitAxis → SplitAxis
  | horizontal => vertical
  | vertical => horizontal

theorem SplitAxis.other_involutive : Function.Involutive other
  | horizontal => rfl
  | vertical => rfl

namespace PaneRotationDirection

def opposite : PaneRotationDirection → PaneRotationDirection
  | clockwise => counterClockwise
  | counterClockwise => clockwise

/-- Whether a turn exchanges the children of a split. -/
def reverses : PaneRotationDirection → SplitAxis → Bool
  | clockwise, .horizontal | counterClockwise, .vertical => true
  | clockwise, .vertical | counterClockwise, .horizontal => false

variable (direction : PaneRotationDirection) (axis : SplitAxis)

@[simp] theorem reverses_opposite_other :
    direction.opposite.reverses axis.other = direction.reverses axis := by
  cases direction <;> cases axis <;> rfl

/-- Two turns exchange the children of every split once. -/
theorem reverses_other : direction.reverses axis.other = !direction.reverses axis := by
  cases direction <;> cases axis <;> rfl

/-- Where a quarter turn of the unit box takes a region of it: clockwise, the left side of the
turned region is as far from the left as the bottom was from the bottom, and so on. -/
def turned (direction : PaneRotationDirection) (u : Box SplitAxis ℚ) : Box SplitAxis ℚ :=
  match direction with
  | clockwise => fun
    | .vertical => ⟨1 - (u .horizontal).hi, 1 - (u .horizontal).lo⟩
    | .horizontal => u .vertical
  | counterClockwise => fun
    | .vertical => u .horizontal
    | .horizontal => ⟨1 - (u .vertical).hi, 1 - (u .vertical).lo⟩

variable (u : Box SplitAxis ℚ)

theorem turned_eq :
    direction.turned u = u.turn SplitAxis.other fun axis => direction.reverses axis.other := by
  funext axis
  cases direction <;> cases axis <;> rfl

@[simp] theorem turned_unit :
    direction.turned Box.unit = Box.unit := by
  rw [turned_eq, Box.turn_unit]

/-- A turn exchanges width and height. -/
theorem length_turned (axis : SplitAxis) :
    (direction.turned u axis).length = (u axis.other).length := by
  rw [turned_eq, Box.turn]
  split_ifs
  · exact Lib.Interval.length_mirror _
  · rfl

section Parts

variable {direction} {axis : SplitAxis} (b : Box SplitAxis ℚ) (s : ℚ)

theorem turned_firstPart (h : direction.reverses axis = false) :
    direction.turned (b.firstPart axis s) = (direction.turned b).firstPart axis.other s := by
  rw [turned_eq, turned_eq, Box.turn_firstPart SplitAxis.other_involutive]
  rwa [SplitAxis.other_involutive]

theorem turned_secondPart (h : direction.reverses axis = false) :
    direction.turned (b.secondPart axis s) = (direction.turned b).secondPart axis.other s := by
  rw [turned_eq, turned_eq, Box.turn_secondPart SplitAxis.other_involutive]
  rwa [SplitAxis.other_involutive]

theorem turned_firstPart_reversed (h : direction.reverses axis = true) :
    direction.turned (b.firstPart axis s) =
      (direction.turned b).secondPart axis.other (1 - s) := by
  rw [turned_eq, turned_eq, Box.turn_firstPart_mirrored SplitAxis.other_involutive]
  rwa [SplitAxis.other_involutive]

theorem turned_secondPart_reversed (h : direction.reverses axis = true) :
    direction.turned (b.secondPart axis s) =
      (direction.turned b).firstPart axis.other (1 - s) := by
  rw [turned_eq, turned_eq, Box.turn_secondPart_mirrored SplitAxis.other_involutive]
  rwa [SplitAxis.other_involutive]

end Parts

end PaneRotationDirection

namespace PaneLayout

variable {ι : Type} (direction : PaneRotationDirection)

/-! ### Turning a tree -/

theorem rotateGeometry_split (axis : SplitAxis)
    (ratio : UInt16) (first second : PaneLayout ι) :
    (split axis ratio first second).rotateGeometry direction =
      if direction.reverses axis then
        split axis.other (PANE_SPLIT_RATIO_SCALE - ratio) (second.rotateGeometry direction)
          (first.rotateGeometry direction)
      else
        split axis.other ratio (first.rotateGeometry direction)
          (second.rotateGeometry direction) := by
  cases direction <;> cases axis <;> rfl

theorem paneIds_rotateGeometry (l : PaneLayout ι) :
    (l.rotateGeometry direction).paneIds.Perm l.paneIds := by
  induction l with
  | pane id => exact List.Perm.refl _
  | split axis ratio first second ih₁ ih₂ =>
    rw [rotateGeometry_split]
    split_ifs
    · exact (ih₂.append ih₁).trans List.perm_append_comm
    · exact ih₁.append ih₂

variable {l : PaneLayout ι}

theorem ProperRatios.rotateGeometry (h : l.ProperRatios) :
    (l.rotateGeometry direction).ProperRatios := by
  induction l with
  | pane id => trivial
  | split axis ratio first second ih₁ ih₂ =>
    obtain ⟨hpos, hlt, hfirst, hsecond⟩ := h
    rw [rotateGeometry_split]
    split_ifs
    · exact ⟨complement_pos hlt, complement_lt hpos hlt, ih₂ hsecond, ih₁ hfirst⟩
    · exact ⟨hpos, hlt, ih₁ hfirst, ih₂ hsecond⟩

/-- **Turning back.** -/
theorem rotateGeometry_opposite (h : l.ProperRatios) :
    (l.rotateGeometry direction).rotateGeometry direction.opposite = l := by
  induction l with
  | pane id => rfl
  | split axis ratio first second ih₁ ih₂ =>
    obtain ⟨-, hlt, hfirst, hsecond⟩ := h
    rw [rotateGeometry_split]
    by_cases hreverses : direction.reverses axis = true
    · rw [if_pos hreverses, rotateGeometry_split,
        PaneRotationDirection.reverses_opposite_other, if_pos hreverses, ih₁ hfirst, ih₂ hsecond,
        SplitAxis.other_involutive, complement_complement (UInt16.le_of_lt hlt)]
    · rw [if_neg hreverses, rotateGeometry_split,
        PaneRotationDirection.reverses_opposite_other, if_neg hreverses, ih₁ hfirst, ih₂ hsecond,
        SplitAxis.other_involutive]

/-- The tree seen upside down. -/
def upsideDown : PaneLayout ι → PaneLayout ι
  | pane id => pane id
  | split axis ratio first second =>
    split axis (PANE_SPLIT_RATIO_SCALE - ratio) second.upsideDown first.upsideDown

theorem rotateGeometry_two (l : PaneLayout ι) :
    (l.rotateGeometry direction).rotateGeometry direction = l.upsideDown := by
  induction l with
  | pane id => rfl
  | split axis ratio first second ih₁ ih₂ =>
    rw [rotateGeometry_split, upsideDown]
    cases hreverses : direction.reverses axis with
    | true =>
      rw [if_pos rfl, rotateGeometry_split, PaneRotationDirection.reverses_other, hreverses,
        ih₁, ih₂, SplitAxis.other_involutive]
      rfl
    | false =>
      rw [if_neg Bool.false_ne_true, rotateGeometry_split, PaneRotationDirection.reverses_other,
        hreverses, ih₁, ih₂, SplitAxis.other_involutive]
      rfl

theorem upsideDown_upsideDown (h : l.ProperRatios) :
    l.upsideDown.upsideDown = l := by
  induction l with
  | pane id => rfl
  | split axis ratio first second ih₁ ih₂ =>
    obtain ⟨-, hlt, hfirst, hsecond⟩ := h
    rw [upsideDown, upsideDown, ih₁ hfirst, ih₂ hsecond,
      complement_complement (UInt16.le_of_lt hlt)]

/-- **Turning four times.** -/
theorem rotateGeometry_four (h : l.ProperRatios) :
    (((l.rotateGeometry direction).rotateGeometry direction).rotateGeometry
      direction).rotateGeometry direction = l := by
  rw [rotateGeometry_two, rotateGeometry_two, upsideDown_upsideDown h]

variable {c : Box SplitAxis ℚ} {id : ι} {b : Box SplitAxis ℚ}

/-- **A turned tree** is drawn where the turn takes its panes. -/
theorem cells_rotateGeometry (hratios : l.RatiosWithin) (hc : (id, c) ∈ l.cells b) :
    (id, direction.turned c) ∈ (l.rotateGeometry direction).cells (direction.turned b) := by
  induction l generalizing b with
  | pane id' =>
    cases List.mem_singleton.mp hc
    exact List.mem_singleton_self _
  | split axis ratio first second ih₁ ih₂ =>
    obtain ⟨hle, hfirst, hsecond⟩ := hratios
    rw [rotateGeometry_split]
    cases hreverses : direction.reverses axis with
    | true =>
      rw [if_pos rfl, cells, share_complement hle]
      rcases List.mem_append.mp hc with hc | hc
      · refine List.mem_append_right _ ?_
        rw [← PaneRotationDirection.turned_firstPart_reversed b _ hreverses]
        exact ih₁ hfirst hc
      · refine List.mem_append_left _ ?_
        rw [← PaneRotationDirection.turned_secondPart_reversed b _ hreverses]
        exact ih₂ hsecond hc
    | false =>
      rw [if_neg Bool.false_ne_true, cells]
      rcases List.mem_append.mp hc with hc | hc
      · refine List.mem_append_left _ ?_
        rw [← PaneRotationDirection.turned_firstPart b _ hreverses]
        exact ih₁ hfirst hc
      · refine List.mem_append_right _ ?_
        rw [← PaneRotationDirection.turned_secondPart b _ hreverses]
        exact ih₂ hsecond hc

/-! ### Turning a subtree -/

/-- The subtree that a path leads to. -/
def subtree : List Bool → PaneLayout ι → PaneLayout ι
  | [], layout => layout
  | _ :: _, pane id => pane id
  | first :: path, split _ _ firstChild secondChild =>
    if first then firstChild.subtree path else secondChild.subtree path

/-- The box that the subtree is drawn in. -/
def boxAt : List Bool → PaneLayout ι → Box SplitAxis ℚ → Box SplitAxis ℚ
  | [], _, b => b
  | _ :: _, pane _, b => b
  | first :: path, split axis ratio firstChild secondChild, b =>
    if first then firstChild.boxAt path (b.firstPart axis (share ratio))
    else secondChild.boxAt path (b.secondPart axis (share ratio))

theorem mem_of_mem_subtree {path : List Bool} (h : id ∈ (l.subtree path).paneIds) :
    id ∈ l.paneIds := by
  induction path generalizing l with
  | nil => exact h
  | cons first path ih =>
    cases l with
    | pane id' => exact h
    | split axis ratio firstChild secondChild =>
      rw [subtree] at h
      split_ifs at h
      · exact List.mem_append_left _ (ih h)
      · exact List.mem_append_right _ (ih h)

variable (path : List Bool)

theorem boxAt_proper (hratios : l.ProperRatios) (hb : b.Proper) : (l.boxAt path b).Proper := by
  induction path generalizing l b with
  | nil => exact hb
  | cons first path ih =>
    cases l with
    | pane id => exact hb
    | split axis ratio firstChild secondChild =>
      obtain ⟨hpos, hlt, hfirst, hsecond⟩ := hratios
      rw [boxAt]
      split_ifs
      · exact ih hfirst (hb.firstPart axis (share_pos hpos))
      · exact ih hsecond (hb.secondPart axis (share_lt_one hlt))

theorem paneIds_rotateAtPath
    (l : PaneLayout ι) : (rotateAtPath direction path l).paneIds.Perm l.paneIds := by
  induction path generalizing l with
  | nil => exact paneIds_rotateGeometry direction l
  | cons first path ih =>
    cases l with
    | pane id => exact List.Perm.refl _
    | split axis ratio firstChild secondChild =>
      rw [rotateAtPath]
      split_ifs
      · exact (ih firstChild).append_right _
      · exact (ih secondChild).append_left _

theorem ProperRatios.rotateAtPath (h : l.ProperRatios) :
    (PaneLayout.rotateAtPath direction path l).ProperRatios := by
  induction path generalizing l with
  | nil => exact h.rotateGeometry direction
  | cons first path ih =>
    cases l with
    | pane id => trivial
    | split axis ratio firstChild secondChild =>
      obtain ⟨hpos, hlt, hfirst, hsecond⟩ := h
      rw [PaneLayout.rotateAtPath]
      split_ifs
      · exact ⟨hpos, hlt, ih hfirst, hsecond⟩
      · exact ⟨hpos, hlt, hfirst, ih hsecond⟩

theorem rotateAtPath_opposite (h : l.ProperRatios) :
    rotateAtPath direction.opposite path (rotateAtPath direction path l) = l := by
  induction path generalizing l with
  | nil => exact rotateGeometry_opposite direction h
  | cons first path ih =>
    cases l with
    | pane id => rfl
    | split axis ratio firstChild secondChild =>
      obtain ⟨-, -, hfirst, hsecond⟩ := h
      cases first with
      | true => simp [rotateAtPath, ih hfirst]
      | false => simp [rotateAtPath, ih hsecond]

theorem rotateAtPath_four (h : l.ProperRatios) :
    rotateAtPath direction path (rotateAtPath direction path (rotateAtPath direction path
      (rotateAtPath direction path l))) = l := by
  induction path generalizing l with
  | nil => exact rotateGeometry_four direction h
  | cons first path ih =>
    cases l with
    | pane id => rfl
    | split axis ratio firstChild secondChild =>
      obtain ⟨-, -, hfirst, hsecond⟩ := h
      cases first with
      | true => simp [rotateAtPath, ih hfirst]
      | false => simp [rotateAtPath, ih hsecond]

variable {c' : Box SplitAxis ℚ}

/-- **Only the panes of the subtree move**, as the turn takes them inside its box. -/
theorem cells_rotateAtPath (hnodup : l.paneIds.Nodup) (hratios : l.ProperRatios)
    (hc : (id, c) ∈ l.cells b) (hc' : (id, c') ∈ (rotateAtPath direction path l).cells b) :
    (id ∉ (l.subtree path).paneIds → c' = c) ∧
      (id ∈ (l.subtree path).paneIds → ∃ u, c = (l.boxAt path b).place u ∧
        c' = (l.boxAt path b).place (direction.turned u)) := by
  induction path generalizing l b with
  | nil =>
    refine ⟨fun h => absurd (mem_paneIds_of_cell hc) h, fun _ => ?_⟩
    obtain ⟨u, hu, rfl⟩ := mem_cells_place.mp hc
    have hturned := cells_rotateGeometry direction hratios.within hu
    rw [PaneRotationDirection.turned_unit] at hturned
    have hnodup' : (l.rotateGeometry direction).paneIds.Nodup :=
      (paneIds_rotateGeometry direction l).nodup_iff.mpr hnodup
    exact ⟨u, rfl, cell_unique hnodup' hc' (mem_cells_place.mpr ⟨_, hturned, rfl⟩)⟩
  | cons first path ih =>
    cases l with
    | pane id' =>
      -- a path that leads into a pane turns nothing
      obtain rfl := cell_unique hnodup hc hc'
      obtain ⟨-, rfl⟩ := Prod.mk.inj (List.mem_singleton.mp hc)
      refine ⟨fun _ => rfl, fun _ => ⟨Box.unit, ?_, ?_⟩⟩
      · exact (Box.place_unit _).symm
      · rw [PaneRotationDirection.turned_unit]
        exact (Box.place_unit _).symm
    | split axis ratio firstChild secondChild =>
      obtain ⟨-, -, hfirst, hsecond⟩ := hratios
      rw [paneIds_split] at hnodup
      have hdisjoint := List.disjoint_of_nodup_append hnodup
      cases first with
      | true =>
        simp only [rotateAtPath, subtree, boxAt, if_true] at hc' ⊢
        rcases List.mem_append.mp hc with hc | hc
        · have hin := mem_paneIds_of_cell hc
          replace hc' := (List.mem_append.mp hc').resolve_right fun h =>
            hdisjoint hin (mem_paneIds_of_cell h)
          exact ih hnodup.of_append_left hfirst hc hc'
        · have hin := mem_paneIds_of_cell hc
          have hperm := paneIds_rotateAtPath direction path firstChild
          replace hc' := (List.mem_append.mp hc').resolve_left fun h =>
            hdisjoint (hperm.mem_iff.mp (mem_paneIds_of_cell h)) hin
          refine ⟨fun _ => cell_unique hnodup.of_append_right hc' hc, fun h => ?_⟩
          exact absurd hin (hdisjoint (mem_of_mem_subtree h))
      | false =>
        simp only [rotateAtPath, subtree, boxAt, Bool.false_eq_true, if_false] at hc' ⊢
        rcases List.mem_append.mp hc with hc | hc
        · have hin := mem_paneIds_of_cell hc
          replace hc' := (List.mem_append.mp hc').resolve_right fun h => hdisjoint hin
            ((paneIds_rotateAtPath direction path secondChild).mem_iff.mp (mem_paneIds_of_cell h))
          refine ⟨fun _ => cell_unique hnodup.of_append_left hc' hc, fun h => ?_⟩
          exact absurd (mem_of_mem_subtree h) (hdisjoint hin)
        · have hin := mem_paneIds_of_cell hc
          replace hc' := (List.mem_append.mp hc').resolve_left fun h =>
            hdisjoint (mem_paneIds_of_cell h) hin
          exact ih hnodup.of_append_right hsecond hc hc'

/-- No pane's area changes. -/
theorem area_rotateAtPath (hnodup : l.paneIds.Nodup) (hratios : l.ProperRatios)
    (hc : (id, c) ∈ l.cells b) (hc' : (id, c') ∈ (rotateAtPath direction path l).cells b) :
    (c' .vertical).length * (c' .horizontal).length =
      (c .vertical).length * (c .horizontal).length := by
  obtain ⟨houtside, hinside⟩ := cells_rotateAtPath direction path hnodup hratios hc hc'
  by_cases hin : id ∈ (l.subtree path).paneIds
  · obtain ⟨u, rfl, rfl⟩ := hinside hin
    simp only [Box.place, Lib.Interval.length_place, PaneRotationDirection.length_turned,
      SplitAxis.other]
    ring
  · rw [houtside hin]

end PaneLayout

end Zetta.Pane
