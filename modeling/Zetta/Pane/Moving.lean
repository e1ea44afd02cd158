import Zetta.Pane.Geometry

/-!
# Moving a pane in a direction

`move_pane` looks for the nearest ancestor of a pane that is split on the axis of the direction,
with the pane in the child away from it, and exchanges the children there. Each of them takes its
extent along, so that nothing changes its size.

* `movePaneInner_eq_none_iff`: there is no such ancestor where the pane touches the border.
* `exchange_cells`: what exchanging the children of a split does to its panes.
* `movePane_shifts`: the pane moves towards the border unless it touches it, and no pane changes
  its size.
-/

namespace Zetta.Pane

open Lib (Box Interval)

namespace PaneDirection

def axis : PaneDirection → SplitAxis
  | left | right => .vertical
  | up | down => .horizontal

def towardFirst : PaneDirection → Bool
  | left | up => true
  | right | down => false

end PaneDirection

namespace PaneRegion

variable {ι : Type}

/-- The region reaches the border of the layout in a direction. -/
def Touches (region : PaneRegion ι ℚ) : PaneDirection → Prop
  | .left => region.left = 0
  | .right => region.right = 1
  | .up => region.top = 0
  | .down => region.bottom = 1

/-- The first region lies further in a direction than the second one, and neither side of it. -/
def ShiftedFrom (region' region : PaneRegion ι ℚ) : PaneDirection → Prop
  | .left => region'.left < region.left ∧ region'.top = region.top
  | .right => region.left < region'.left ∧ region'.top = region.top
  | .up => region'.top < region.top ∧ region'.left = region.left
  | .down => region.top < region'.top ∧ region'.left = region.left

end PaneRegion

namespace PaneLayout

variable {ι : Type}

/-! ### The move in place -/

section InPlace

variable [DecidableEq ι]

/-- `move_pane_inner`: its answer and what it makes of the tree. -/
def movePaneInnerInPlace (paneId : ι) (axis : SplitAxis) (towardFirst : Bool) :
    PaneLayout ι → Option Bool × PaneLayout ι
  | pane id => (none, pane id)
  | split splitAxis firstRatio first second =>
    if first.containsPane paneId then
      match first.movePaneInnerInPlace paneId axis towardFirst with
      | (some handled, first) => (some handled, split splitAxis firstRatio first second)
      | (none, first) =>
        if splitAxis = axis ∧ !towardFirst then
          (some true, split splitAxis (PANE_SPLIT_RATIO_SCALE - firstRatio) second first)
        else (none, split splitAxis firstRatio first second)
    else if second.containsPane paneId then
      match second.movePaneInnerInPlace paneId axis towardFirst with
      | (some handled, second) => (some handled, split splitAxis firstRatio first second)
      | (none, second) =>
        if splitAxis = axis ∧ towardFirst then
          (some true, split splitAxis (PANE_SPLIT_RATIO_SCALE - firstRatio) second first)
        else (none, split splitAxis firstRatio first second)
    else (none, split splitAxis firstRatio first second)

/-- `move_pane`: whether the pane has moved, and the layout afterwards. -/
def movePaneInPlace (layout : PaneLayout ι) (activePane : ι) (direction : PaneDirection) :
    Bool × PaneLayout ι :=
  let (answer, layout) :=
    layout.movePaneInnerInPlace activePane direction.axis direction.towardFirst
  (answer.getD false, layout)

/-- It answers `Some(true)` where it changes the tree, and `None` where it does not. -/
theorem movePaneInnerInPlace_eq (paneId : ι) (axis : SplitAxis) (towardFirst : Bool)
    (l : PaneLayout ι) :
    l.movePaneInnerInPlace paneId axis towardFirst =
      match l.movePaneInner paneId axis towardFirst with
      | some l' => (some true, l')
      | none => (none, l) := by
  induction l with
  | pane id => rfl
  | split splitAxis ratio first second ih₁ ih₂ =>
    rw [movePaneInnerInPlace, movePaneInner, ih₁, ih₂]
    cases first.movePaneInner paneId axis towardFirst <;>
      cases second.movePaneInner paneId axis towardFirst <;> split_ifs <;> rfl

theorem movePaneInPlace_eq (l : PaneLayout ι) (paneId : ι) (direction : PaneDirection) :
    l.movePaneInPlace paneId direction =
      match l.movePaneInner paneId direction.axis direction.towardFirst with
      | some l' => (true, l')
      | none => (false, l) := by
  rw [movePaneInPlace, movePaneInnerInPlace_eq]
  cases l.movePaneInner paneId direction.axis direction.towardFirst <;> rfl

end InPlace

/-! ### Exchanging two children -/

/-- Where a pane that is moved along an axis ends up. -/
def Shifted (axis : SplitAxis) (towardFirst : Bool) (c c' : Box SplitAxis ℚ) : Prop :=
  (∀ other ≠ axis, c' other = c other) ∧
    if towardFirst then (c' axis).lo < (c axis).lo else (c axis).lo < (c' axis).lo

def SameSize (c c' : Box SplitAxis ℚ) : Prop := ∀ axis, (c' axis).length = (c axis).length

variable {b : Box SplitAxis ℚ} {s : ℚ}

/-- A first child that becomes the second one moves away from the first side. -/
theorem exchange_first (hb : b.Proper) (axis : SplitAxis) (hs : s < 1) (u : Box SplitAxis ℚ) :
    SameSize ((b.firstPart axis s).place u) ((b.secondPart axis (1 - s)).place u) ∧
      Shifted axis false ((b.firstPart axis s).place u) ((b.secondPart axis (1 - s)).place u) := by
  refine ⟨fun other => ?_, fun other hne => ?_, ?_⟩
  · by_cases hother : other = axis
    · subst hother
      simp [Box.place]
    · simp [Box.place, Box.firstPart_of_ne hother, Box.secondPart_of_ne hother]
  · simp [Box.place, Box.firstPart_of_ne hne, Box.secondPart_of_ne hne]
  · have hgap : 0 < (b axis).length * (1 - s) := mul_pos (hb axis) (sub_pos.mpr hs)
    simp only [Bool.false_eq_true, if_false, Box.place, Box.firstPart_same, Box.secondPart_same,
      Interval.place, Interval.point, Interval.firstPart_lo, Interval.secondPart_lo,
      Interval.length_firstPart, Interval.length_secondPart, sub_sub_cancel]
    linarith

/-- A second child that becomes the first one moves towards the first side. -/
theorem exchange_second (hb : b.Proper) (axis : SplitAxis) (hs : 0 < s) (u : Box SplitAxis ℚ) :
    SameSize ((b.secondPart axis s).place u) ((b.firstPart axis (1 - s)).place u) ∧
      Shifted axis true ((b.secondPart axis s).place u) ((b.firstPart axis (1 - s)).place u) := by
  obtain ⟨hsize, hother, hlt⟩ := exchange_first hb axis (sub_lt_self 1 hs) u
  rw [sub_sub_cancel] at hsize hother hlt
  exact ⟨fun a => (hsize a).symm, fun a ha => (hother a ha).symm, by simpa using hlt⟩

/-- **Exchanging the children** of a split keeps every size and moves both of them. -/
theorem exchange_cells {axis : SplitAxis} {ratio : UInt16} {first second : PaneLayout ι}
    (hnodup : (split axis ratio first second).paneIds.Nodup)
    (hratios : (split axis ratio first second).ProperRatios) (hb : b.Proper) {id : ι}
    {c c' : Box SplitAxis ℚ} (hc : (id, c) ∈ (split axis ratio first second).cells b)
    (hc' : (id, c') ∈ (split axis (PANE_SPLIT_RATIO_SCALE - ratio) second first).cells b) :
    SameSize c c' ∧ (id ∈ first.paneIds → Shifted axis false c c') ∧
      (id ∈ second.paneIds → Shifted axis true c c') := by
  obtain ⟨hpos, hlt, -, -⟩ := hratios
  rw [paneIds_split] at hnodup
  have hdisjoint := List.disjoint_of_nodup_append hnodup
  rw [cells, List.mem_append] at hc
  rw [cells, share_complement (UInt16.le_of_lt hlt), List.mem_append] at hc'
  rcases hc with hc | hc
  · -- the pane is in the first child, which is now the second one
    have hfirst := mem_paneIds_of_cell hc
    replace hc' := hc'.resolve_left fun h => hdisjoint hfirst (mem_paneIds_of_cell h)
    obtain ⟨u, hu, rfl⟩ := mem_cells_place.mp hc
    obtain ⟨u', hu', rfl⟩ := mem_cells_place.mp hc'
    obtain rfl := cell_unique hnodup.of_append_left hu hu'
    obtain ⟨hsize, hshift⟩ := exchange_first hb axis (share_lt_one hlt) u
    exact ⟨hsize, fun _ => hshift, fun h => absurd h (hdisjoint hfirst)⟩
  · have hsecond := mem_paneIds_of_cell hc
    replace hc' := hc'.resolve_right fun h => hdisjoint (mem_paneIds_of_cell h) hsecond
    obtain ⟨u, hu, rfl⟩ := mem_cells_place.mp hc
    obtain ⟨u', hu', rfl⟩ := mem_cells_place.mp hc'
    obtain rfl := cell_unique hnodup.of_append_right hu hu'
    obtain ⟨hsize, hshift⟩ := exchange_second hb axis (share_pos hpos) u
    exact ⟨hsize, fun h => absurd hsecond (hdisjoint h), fun _ => hshift⟩

theorem exchange_paneIds (axis : SplitAxis) (ratio ratio' : UInt16) (first second : PaneLayout ι) :
    (split axis ratio' second first).paneIds.Perm (split axis ratio first second).paneIds := by
  rw [paneIds_split, paneIds_split]
  exact List.perm_append_comm

theorem exchange_properRatios {axis : SplitAxis} {ratio : UInt16} {first second : PaneLayout ι}
    (h : (split axis ratio first second).ProperRatios) :
    (split axis (PANE_SPLIT_RATIO_SCALE - ratio) second first).ProperRatios := by
  obtain ⟨hpos, hlt, hfirst, hsecond⟩ := h
  exact ⟨complement_pos hlt, complement_lt hpos hlt, hsecond, hfirst⟩

/-! ### Which ancestor absorbs the move -/

/-- What a move changes: the split whose children it exchanges, with the pane in the child away
from the direction, or a child in which it does so. -/
inductive Moves (paneId : ι) (axis : SplitAxis) : Bool → PaneLayout ι → PaneLayout ι → Prop
  | backward {ratio first second} (h : paneId ∈ second.paneIds) :
    Moves paneId axis true (split axis ratio first second)
      (split axis (PANE_SPLIT_RATIO_SCALE - ratio) second first)
  | forward {ratio first second} (h : paneId ∈ first.paneIds) :
    Moves paneId axis false (split axis ratio first second)
      (split axis (PANE_SPLIT_RATIO_SCALE - ratio) second first)
  | inFirst {towardFirst splitAxis ratio first first' second} (h : paneId ∈ first.paneIds)
    (hmoves : Moves paneId axis towardFirst first first') :
    Moves paneId axis towardFirst (split splitAxis ratio first second)
      (split splitAxis ratio first' second)
  | inSecond {towardFirst splitAxis ratio first second second'} (h : paneId ∈ second.paneIds)
    (hmoves : Moves paneId axis towardFirst second second') :
    Moves paneId axis towardFirst (split splitAxis ratio first second)
      (split splitAxis ratio first second')

section Moves

variable {paneId : ι} {axis : SplitAxis} {towardFirst : Bool} {l l' : PaneLayout ι}

theorem Moves.paneIds_perm (h : Moves paneId axis towardFirst l l') :
    l'.paneIds.Perm l.paneIds := by
  induction h with
  | backward h => exact exchange_paneIds ..
  | forward h => exact exchange_paneIds ..
  | inFirst h hmoves ih =>
    rw [paneIds_split, paneIds_split]
    exact ih.append_right _
  | inSecond h hmoves ih =>
    rw [paneIds_split, paneIds_split]
    exact ih.append_left _

theorem Moves.properRatios (h : Moves paneId axis towardFirst l l') (hl : l.ProperRatios) :
    l'.ProperRatios := by
  induction h with
  | backward h => exact exchange_properRatios hl
  | forward h => exact exchange_properRatios hl
  | inFirst h hmoves ih =>
    obtain ⟨hpos, hlt, hfirst, hsecond⟩ := hl
    exact ⟨hpos, hlt, ih hfirst, hsecond⟩
  | inSecond h hmoves ih =>
    obtain ⟨hpos, hlt, hfirst, hsecond⟩ := hl
    exact ⟨hpos, hlt, hfirst, ih hsecond⟩

/-- **A move** keeps the size of every pane and shifts the moved one. -/
theorem Moves.cells (h : Moves paneId axis towardFirst l l') (hnodup : l.paneIds.Nodup)
    (hl : l.ProperRatios) {b : Box SplitAxis ℚ} (hb : b.Proper) {id : ι} {c c' : Box SplitAxis ℚ}
    (hc : (id, c) ∈ l.cells b) (hc' : (id, c') ∈ l'.cells b) :
    SameSize c c' ∧ (id = paneId → Shifted axis towardFirst c c') := by
  induction h generalizing b with
  | backward h =>
    obtain ⟨hsize, -, hshift⟩ := exchange_cells hnodup hl hb hc hc'
    exact ⟨hsize, fun heq => hshift (heq ▸ h)⟩
  | forward h =>
    obtain ⟨hsize, hshift, -⟩ := exchange_cells hnodup hl hb hc hc'
    exact ⟨hsize, fun heq => hshift (heq ▸ h)⟩
  | inFirst h hmoves ih =>
    obtain ⟨hpos, hlt, hfirst, hsecond⟩ := hl
    rw [paneIds_split] at hnodup
    have hdisjoint := List.disjoint_of_nodup_append hnodup
    rcases List.mem_append.mp hc with hc | hc
    · have hin := mem_paneIds_of_cell hc
      replace hc' := (List.mem_append.mp hc').resolve_right fun h' =>
        hdisjoint hin (mem_paneIds_of_cell h')
      exact ih hnodup.of_append_left hfirst (hb.firstPart _ (share_pos hpos)) hc hc'
    · -- the other child stays where it is
      have hin := mem_paneIds_of_cell hc
      replace hc' := (List.mem_append.mp hc').resolve_left fun h' =>
        hdisjoint (hmoves.paneIds_perm.mem_iff.mp (mem_paneIds_of_cell h')) hin
      obtain rfl := cell_unique hnodup.of_append_right hc hc'
      exact ⟨fun _ => rfl, fun heq => absurd (heq ▸ hin) (hdisjoint h)⟩
  | inSecond h hmoves ih =>
    obtain ⟨hpos, hlt, hfirst, hsecond⟩ := hl
    rw [paneIds_split] at hnodup
    have hdisjoint := List.disjoint_of_nodup_append hnodup
    rcases List.mem_append.mp hc with hc | hc
    · have hin := mem_paneIds_of_cell hc
      replace hc' := (List.mem_append.mp hc').resolve_right fun h' =>
        hdisjoint hin (hmoves.paneIds_perm.mem_iff.mp (mem_paneIds_of_cell h'))
      obtain rfl := cell_unique hnodup.of_append_left hc hc'
      exact ⟨fun _ => rfl, fun heq => absurd h (hdisjoint (heq ▸ hin))⟩
    · have hin := mem_paneIds_of_cell hc
      replace hc' := (List.mem_append.mp hc').resolve_left fun h' =>
        hdisjoint (mem_paneIds_of_cell h') hin
      exact ih hnodup.of_append_right hsecond (hb.secondPart _ (share_lt_one hlt)) hc hc'

end Moves

/-- The side of an interval that a move goes towards. -/
def side (towardFirst : Bool) (i : Lib.Interval ℚ) : ℚ := if towardFirst then i.lo else i.hi

/-- In the layout as a whole, the side of a region is what it touches. -/
theorem touches_iff (id : ι) (c : Box SplitAxis ℚ) (direction : PaneDirection) :
    (PaneRegion.ofBox id c).Touches direction ↔
      side direction.towardFirst (c direction.axis) =
        side direction.towardFirst (Box.unit direction.axis) := by
  cases direction <;> exact Iff.rfl

theorem shiftedFrom_of_shifted {id : ι} {c c' : Box SplitAxis ℚ} {direction : PaneDirection}
    (h : Shifted direction.axis direction.towardFirst c c') :
    (PaneRegion.ofBox id c').ShiftedFrom (PaneRegion.ofBox id c) direction := by
  obtain ⟨hother, hlt⟩ := h
  cases direction with
  | left => exact ⟨hlt, congrArg Interval.lo (hother .horizontal (by decide))⟩
  | right => exact ⟨hlt, congrArg Interval.lo (hother .horizontal (by decide))⟩
  | up => exact ⟨hlt, congrArg Interval.lo (hother .vertical (by decide))⟩
  | down => exact ⟨hlt, congrArg Interval.lo (hother .vertical (by decide))⟩

section Inner

variable [DecidableEq ι] {paneId : ι}

theorem moves_of_movePaneInner {axis : SplitAxis} {towardFirst : Bool} {l l' : PaneLayout ι}
    (h : l.movePaneInner paneId axis towardFirst = some l') :
    Moves paneId axis towardFirst l l' := by
  induction l generalizing l' with
  | pane id => simp [movePaneInner] at h
  | split splitAxis ratio first second ih₁ ih₂ =>
    rw [movePaneInner] at h
    by_cases hfirst : first.containsPane paneId
    · rw [if_pos hfirst] at h
      rw [containsPane_eq_true] at hfirst
      cases hmove : first.movePaneInner paneId axis towardFirst with
      | some first' =>
        rw [hmove] at h
        cases h
        exact .inFirst hfirst (ih₁ hmove)
      | none =>
        rw [hmove] at h
        obtain ⟨⟨rfl, htoward⟩, heq⟩ := Option.ite_none_right_eq_some.mp h
        cases heq
        obtain rfl : towardFirst = false := by simpa using htoward
        exact .forward hfirst
    rw [if_neg hfirst] at h
    by_cases hsecond : second.containsPane paneId
    · rw [if_pos hsecond] at h
      rw [containsPane_eq_true] at hsecond
      cases hmove : second.movePaneInner paneId axis towardFirst with
      | some second' =>
        rw [hmove] at h
        cases h
        exact .inSecond hsecond (ih₂ hmove)
      | none =>
        rw [hmove] at h
        obtain ⟨⟨rfl, rfl⟩, heq⟩ := Option.ite_none_right_eq_some.mp h
        cases heq
        exact .backward hsecond
    · rw [if_neg hsecond] at h
      exact absurd h (by simp)

/-- **No ancestor absorbs the move** of a pane that touches the border. -/
theorem movePaneInner_eq_none_iff {l : PaneLayout ι} (hnodup : l.paneIds.Nodup)
    (hratios : l.ProperRatios) {b : Box SplitAxis ℚ} (hb : b.Proper) {c : Box SplitAxis ℚ}
    (hc : (paneId, c) ∈ l.cells b) (axis : SplitAxis) (towardFirst : Bool) :
    l.movePaneInner paneId axis towardFirst = none ↔
      side towardFirst (c axis) = side towardFirst (b axis) := by
  induction l generalizing b with
  | pane id =>
    cases List.mem_singleton.mp hc
    exact iff_of_true rfl rfl
  | split splitAxis ratio first second ih₁ ih₂ =>
    obtain ⟨hpos, hlt, hfirst, hsecond⟩ := hratios
    rw [paneIds_split] at hnodup
    rw [movePaneInner]
    rcases List.mem_append.mp hc with hc | hc
    · have hin := mem_paneIds_of_cell hc
      have hproper := hb.firstPart splitAxis (share_pos hpos)
      have hinner := ih₁ hnodup.of_append_left hfirst hproper hc
      rw [if_pos (containsPane_eq_true.mpr hin)]
      by_cases haway : splitAxis = axis ∧ !towardFirst
      · -- this split absorbs the move if none below does, and the pane is away from the border
        obtain ⟨rfl, htoward⟩ := haway
        obtain rfl : towardFirst = false := by simpa using htoward
        have hlt : (c splitAxis).hi < (b splitAxis).hi :=
          ((cell_within hfirst.within hproper.ordered hc).2 splitAxis).2.trans_lt <| by
            simpa using Interval.point_lt_hi (hb splitAxis) (share_lt_one hlt)
        refine iff_of_false ?_ hlt.ne
        cases first.movePaneInner paneId splitAxis false <;> simp
      · have hsame : side towardFirst (b.firstPart splitAxis (share ratio) axis) =
            side towardFirst (b axis) := by
          by_cases haxis : splitAxis = axis
          · obtain rfl : towardFirst = true := by simpa [haxis] using haway
            exact b.lo_firstPart splitAxis _ axis
          · rw [Box.firstPart_of_ne (Ne.symm haxis)]
        rw [← hsame, ← hinner]
        cases first.movePaneInner paneId axis towardFirst with
        | none => exact iff_of_true (if_neg haway) rfl
        | some _ => exact iff_of_false (by simp) (by simp)
    · have hin := mem_paneIds_of_cell hc
      have hproper := hb.secondPart splitAxis (share_lt_one hlt)
      have hinner := ih₂ hnodup.of_append_right hsecond hproper hc
      have hnot : ¬first.containsPane paneId := by
        rw [containsPane_eq_true]
        exact fun h => List.disjoint_of_nodup_append hnodup h hin
      rw [if_neg hnot, if_pos (containsPane_eq_true.mpr hin)]
      by_cases haway : splitAxis = axis ∧ towardFirst
      · obtain ⟨rfl, rfl⟩ := haway
        have hlt : (b splitAxis).lo < (c splitAxis).lo :=
          ((cell_within hsecond.within hproper.ordered hc).2 splitAxis).1.trans_lt' <| by
            simpa using Interval.lo_lt_point (hb splitAxis) (share_pos hpos)
        refine iff_of_false ?_ hlt.ne'
        cases second.movePaneInner paneId splitAxis true <;> simp
      · have hsame : side towardFirst (b.secondPart splitAxis (share ratio) axis) =
            side towardFirst (b axis) := by
          by_cases haxis : splitAxis = axis
          · obtain rfl : towardFirst = false := by simpa [haxis] using haway
            exact b.hi_secondPart splitAxis _ axis
          · rw [Box.secondPart_of_ne (Ne.symm haxis)]
        rw [← hsame, ← hinner]
        cases second.movePaneInner paneId axis towardFirst with
        | none => exact iff_of_true (if_neg haway) rfl
        | some _ => exact iff_of_false (by simp) (by simp)

/-! ### The whole layout -/

/-- **A pane moves** unless its region touches the border in that direction. It then lies further
that way, no pane has changed its size and the layout has the same panes, with ratios strictly
inside the scale; a pane that does not move leaves the layout as it is. -/
theorem movePane_shifts {l : PaneLayout ι} (hnodup : l.paneIds.Nodup) (hratios : l.ProperRatios)
    {paneId : ι} (hpane : paneId ∈ l.paneIds) (direction : PaneDirection) {moved : Bool}
    {l' : PaneLayout ι} (hmove : l.movePaneInPlace paneId direction = (moved, l')) :
    (∀ region ∈ l.regions Arithmetic.exact, region.id = paneId →
      (moved = true ↔ ¬region.Touches direction)) ∧
    (moved = true →
      (∀ region ∈ l.regions Arithmetic.exact, ∀ region' ∈ l'.regions Arithmetic.exact,
        region'.id = region.id → region'.width = region.width ∧ region'.height = region.height ∧
          (region.id = paneId → region'.ShiftedFrom region direction)) ∧
      l'.paneIds.Perm l.paneIds ∧ l'.ProperRatios) ∧
    (moved = false → l' = l) := by
  rw [movePaneInPlace_eq] at hmove
  have hborder : ∀ region ∈ l.regions Arithmetic.exact, region.id = paneId →
      (l.movePaneInner paneId direction.axis direction.towardFirst = none ↔
        region.Touches direction) := by
    rintro region hregion rfl
    obtain ⟨c, hc, heq⟩ := mem_regions_exact.mp hregion
    rw [heq, touches_iff]
    exact movePaneInner_eq_none_iff hnodup hratios Box.proper_unit hc _ _
  cases hinner : l.movePaneInner paneId direction.axis direction.towardFirst with
  | none =>
    rw [hinner] at hmove
    cases hmove
    refine ⟨fun region hregion hid => ?_, by simp, fun _ => rfl⟩
    have htouches := (hborder region hregion hid).mp hinner
    simp [htouches]
  | some layout =>
    rw [hinner] at hmove
    cases hmove
    have hmoves := moves_of_movePaneInner hinner
    refine ⟨fun region hregion hid => ?_, fun _ => ⟨?_, hmoves.paneIds_perm,
      hmoves.properRatios hratios⟩, by simp⟩
    · have hnot := mt (hborder region hregion hid).mpr (by simp [hinner])
      simp [hnot]
    · intro region hregion region' hregion' hid
      obtain ⟨c, hc, heq⟩ := mem_regions_exact.mp hregion
      obtain ⟨c', hc', heq'⟩ := mem_regions_exact.mp hregion'
      rw [hid] at hc' heq'
      obtain ⟨hsize, hshift⟩ := hmoves.cells hnodup hratios Box.proper_unit hc hc'
      rw [heq, heq']
      exact ⟨hsize .vertical, hsize .horizontal, fun h => shiftedFrom_of_shifted (hshift h)⟩

/-- Of two panes side by side the first one moves to the right. -/
theorem movePane_shifts_right :
    (split .vertical 700 (pane 1) (pane 2)).movePaneInPlace 1 .right =
        (true, split .vertical 300 (pane 2) (pane 1)) ∧
      ∀ region ∈ (split .vertical 700 (pane 1) (pane 2)).regions Arithmetic.exact,
        ∀ region' ∈ (split .vertical 300 (pane 2) (pane 1)).regions Arithmetic.exact,
          region'.id = region.id →
            region'.width = region.width ∧ region'.height = region.height ∧
              (region.id = 1 → region'.ShiftedFrom region .right) := by
  have hmove : (split .vertical 700 (pane 1) (pane 2)).movePaneInPlace 1 .right =
      (true, split .vertical 300 (pane 2) (pane 1)) := rfl
  exact ⟨hmove, ((movePane_shifts (by decide) (by decide) (by decide) .right hmove).2.1 rfl).1⟩

end Inner

end PaneLayout

end Zetta.Pane
