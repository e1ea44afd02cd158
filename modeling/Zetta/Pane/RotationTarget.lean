import Zetta.Pane.Rotation

/-!
# Which subtree a pane rotates with

`rotation_target` goes down towards the active pane, to the first subtree of four panes of the same
size or of two panes, and if there is none stops at the innermost split where the pane is at least
as large as everything on the other side. It compares areas, which a rotation keeps, so that it
finds the same subtree again.

* Areas are compared up to a tolerance. Four panes are the same size if each is as large as *the
  first one*, up to the tolerance, and which one is the first depends on the rotation. Where the
  tolerance is not a matter of rounding, in a subtree of about that size, a rotation can change
  the subtree that is found (`rotatePane_not_undone`).
* `FourJudgedAlike`: the panes of each subtree of four are the same size, or not, whichever of them
  is the first. Then the target is kept (`rotationPath_rotated`).
* `rotatePane_rotates`: a rotation of a pane is one.
-/

namespace Zetta.Pane

open Lib (Box)
open Zmux (AreaArithmetic)

namespace PaneLayout

variable {ι : Type}

/-! ### Areas -/

theorem firstArea_exact (area : ℚ) (ratio : UInt16) :
    firstArea AreaArithmetic.exact area ratio = area * share ratio := by
  change area * (ratio.toNat : ℚ) / (1000 : ℕ) = area * ((ratio.toNat : ℚ) / 1000)
  push_cast
  ring

theorem secondArea_exact (area : ℚ) (ratio : UInt16) :
    AreaArithmetic.exact.sub area (firstArea AreaArithmetic.exact area ratio) =
      area * (1 - share ratio) := by
  rw [firstArea_exact]
  change area - area * share ratio = _
  ring

/-- The areas of the panes of a subtree. -/
def leafAreas (l : PaneLayout ι) (area : ℚ) : List ℚ :=
  l.collectLeafAreas AreaArithmetic.exact area

theorem leafAreas_split (axis : SplitAxis) (ratio : UInt16) (first second : PaneLayout ι)
    (area : ℚ) : (split axis ratio first second).leafAreas area =
      first.leafAreas (area * share ratio) ++ second.leafAreas (area * (1 - share ratio)) := by
  rw [leafAreas, collectLeafAreas, secondArea_exact, firstArea_exact, leafAreas, leafAreas]

variable (direction : PaneRotationDirection)

theorem leafAreas_rotateGeometry {l : PaneLayout ι} (hratios : l.RatiosWithin) (area : ℚ) :
    ((l.rotateGeometry direction).leafAreas area).Perm (l.leafAreas area) := by
  induction l generalizing area with
  | pane id => exact List.Perm.refl _
  | split axis ratio first second ih₁ ih₂ =>
    obtain ⟨hle, hfirst, hsecond⟩ := hratios
    rw [rotateGeometry_split, leafAreas_split]
    split_ifs
    · rw [leafAreas_split, share_complement hle, sub_sub_cancel]
      exact ((ih₂ hsecond _).append (ih₁ hfirst _)).trans List.perm_append_comm
    · rw [leafAreas_split]
      exact (ih₁ hfirst _).append (ih₂ hsecond _)

theorem leafAreas_rotateAtPath (path : List Bool) {l : PaneLayout ι} (hratios : l.RatiosWithin)
    (area : ℚ) : ((rotateAtPath direction path l).leafAreas area).Perm (l.leafAreas area) := by
  induction path generalizing l area with
  | nil => exact leafAreas_rotateGeometry direction hratios area
  | cons first path ih =>
    cases l with
    | pane id => exact List.Perm.refl _
    | split axis ratio firstChild secondChild =>
      obtain ⟨-, hfirst, hsecond⟩ := hratios
      rw [rotateAtPath, leafAreas_split]
      split_ifs
      · rw [leafAreas_split]
        exact (ih hfirst _).append_right _
      · rw [leafAreas_split]
        exact (ih hsecond _).append_left _

/-! ### Four panes of the same size -/

/-- Four areas are the same up to the tolerance from the first one on. -/
theorem fourEqual_exact (areas : List ℚ) :
    fourEqual AreaArithmetic.exact areas = true ↔
      areas.length = 4 ∧ ∀ first ∈ areas.head?, ∀ x ∈ areas, |x - first| ≤ 1 / 1000000000 := by
  have habs : ∀ x : ℚ, AreaArithmetic.exact.abs x = |x| := by
    intro x
    change (if x < 0 then -x else x) = |x|
    split_ifs with h
    · exact (abs_of_neg h).symm
    · exact (abs_of_nonneg (not_lt.mp h)).symm
  have hle : ∀ x first : ℚ, AreaArithmetic.exact.le (AreaArithmetic.exact.abs
      (AreaArithmetic.exact.sub x first)) AreaArithmetic.exact.epsilon = true ↔
        |x - first| ≤ 1 / 1000000000 := by
    intro x first
    rw [habs]
    exact decide_eq_true_iff
  match areas with
  | [] | [_] | [_, _] | [_, _, _] | _ :: _ :: _ :: _ :: _ :: _ => simp [fourEqual]
  | [first, second, third, fourth] =>
    rw [fourEqual, List.all_eq_true]
    simp [hle]

/-- Whether the areas are the same size does not depend on which one is the first. -/
def JudgedAlike (areas : List ℚ) : Prop :=
  areas.length = 4 → (∃ a ∈ areas, ∀ x ∈ areas, |x - a| ≤ 1 / 1000000000) →
    ∀ a ∈ areas, ∀ x ∈ areas, |x - a| ≤ 1 / 1000000000

variable {areas areas' : List ℚ}

theorem JudgedAlike.perm (h : JudgedAlike areas) (hperm : areas'.Perm areas) :
    JudgedAlike areas' := by
  intro hlength ⟨a, ha, hall⟩ a' ha' x hx
  refine h (hperm.length_eq ▸ hlength) ⟨a, hperm.mem_iff.mp ha, fun y hy => ?_⟩ a'
    (hperm.mem_iff.mp ha') x (hperm.mem_iff.mp hx)
  exact hall y (hperm.mem_iff.mpr hy)

theorem JudgedAlike.fourEqual_iff (h : JudgedAlike areas) :
    fourEqual AreaArithmetic.exact areas = true ↔
      areas.length = 4 ∧ ∀ a ∈ areas, ∀ x ∈ areas, |x - a| ≤ 1 / 1000000000 := by
  rw [fourEqual_exact]
  refine and_congr_right fun hlength => ⟨fun hfirst => ?_, fun hall first hfirst => ?_⟩
  · cases areas with
    | nil => exact absurd hlength (by simp)
    | cons first rest => exact h hlength ⟨first, List.mem_cons_self, hfirst first rfl⟩
  · exact hall first (List.mem_of_mem_head? hfirst)

theorem JudgedAlike.fourEqual_perm (h : JudgedAlike areas) (hperm : areas'.Perm areas) :
    fourEqual AreaArithmetic.exact areas' = fourEqual AreaArithmetic.exact areas := by
  rw [Bool.eq_iff_iff, h.fourEqual_iff, (h.perm hperm).fourEqual_iff, hperm.length_eq]
  simp only [hperm.mem_iff]

/-! ### The search -/

/-- What the search makes of a split: all of it, the subtree found in the child with the pane, or
all of it because the pane is as large as the other child. -/
def outcome (whole : Bool) (inner : Option (List Bool)) (absorbs side : Bool) :
    Option (List Bool) :=
  if whole then some []
  else match inner with
    | some path => some (side :: path)
    | none => if absorbs then some [] else none

variable {side : Bool} {inner : Option (List Bool)}

theorem outcome_eq_none {whole absorbs : Bool} :
    outcome whole inner absorbs side = none ↔
      whole = false ∧ inner = none ∧ absorbs = false := by
  cases whole <;> cases inner <;> cases absorbs <;> simp [outcome]

theorem outcome_eq_nil {whole absorbs : Bool} :
    outcome whole inner absorbs side = some [] ↔
      whole = true ∨ inner = none ∧ absorbs = true := by
  cases whole <;> cases inner <;> cases absorbs <;> simp [outcome]

theorem outcome_eq_cons {whole absorbs first : Bool} {path : List Bool} :
    outcome whole inner absorbs side = some (first :: path) ↔
      whole = false ∧ inner = some path ∧ side = first := by
  cases whole <;> cases inner <;> cases absorbs <;> simp [outcome, and_comm]

variable (l : PaneLayout ι)

theorem length_paneIds_pos : 0 < l.paneIds.length :=
  List.length_pos_iff.mpr l.paneIds_ne_nil

/-- A split of two panes is a layout of two panes. -/
theorem isTwoPaneSplit_iff : l.isTwoPaneSplit = true ↔ l.paneIds.length = 2 := by
  cases l with
  | pane id => simp [isTwoPaneSplit]
  | split axis ratio first second =>
    cases first with
    | split _ _ first first' =>
      have h₁ := first.length_paneIds_pos
      have h₂ := first'.length_paneIds_pos
      have h₃ := second.length_paneIds_pos
      refine iff_of_false (by simp [isTwoPaneSplit]) ?_
      simp only [paneIds_split, List.length_append]
      omega
    | pane id =>
      cases second with
      | pane id' => simp [isTwoPaneSplit]
      | split _ _ second second' =>
        have h₁ := second.length_paneIds_pos
        have h₂ := second'.length_paneIds_pos
        refine iff_of_false (by simp [isTwoPaneSplit]) ?_
        simp only [paneIds_split, paneIds_pane, List.length_append, List.length_singleton]
        omega

/-- All of a subtree rotates because of its panes. -/
def whole (l : PaneLayout ι) (area : ℚ) : Bool :=
  l.hasFourEqualPanes AreaArithmetic.exact area || l.isTwoPaneSplit

section DecidableEq

variable [DecidableEq ι] {active : ι} {activeArea : ℚ}

/-- The active pane is at least as large as a sibling, up to the tolerance. -/
def absorbs (activeArea siblingArea : ℚ) : Bool := siblingArea ≤ activeArea + 1 / 1000000000

theorem rotationTarget_first {axis : SplitAxis} {ratio : UInt16} {first second : PaneLayout ι}
    (h : active ∈ first.paneIds) (area : ℚ) :
    (split axis ratio first second).rotationTarget AreaArithmetic.exact active activeArea area =
      outcome ((split axis ratio first second).whole area)
        (first.rotationTarget AreaArithmetic.exact active activeArea (area * share ratio))
        (absorbs activeArea (area * (1 - share ratio))) true := by
  rw [rotationTarget]
  unfold outcome whole
  refine if_congr Iff.rfl rfl ?_
  simp only [containsPane_eq_true.mpr h, if_true, secondArea_exact]
  simp only [firstArea_exact]
  rfl

theorem rotationTarget_second {axis : SplitAxis} {ratio : UInt16} {first second : PaneLayout ι}
    (hfirst : active ∉ first.paneIds) (h : active ∈ second.paneIds) (area : ℚ) :
    (split axis ratio first second).rotationTarget AreaArithmetic.exact active activeArea area =
      outcome ((split axis ratio first second).whole area)
        (second.rotationTarget AreaArithmetic.exact active activeArea (area * (1 - share ratio)))
        (absorbs activeArea (area * share ratio)) false := by
  have hnot : first.containsPane active = false := by
    rw [Bool.eq_false_iff, ne_eq, containsPane_eq_true]
    exact hfirst
  rw [rotationTarget]
  unfold outcome whole
  refine if_congr Iff.rfl rfl ?_
  simp only [hnot, containsPane_eq_true.mpr h, if_true, Bool.false_eq_true, if_false,
    secondArea_exact]
  simp only [firstArea_exact]
  rfl

/-! ### The search after a rotation -/

variable {l : PaneLayout ι} {area : ℚ}

omit [DecidableEq ι] in
theorem whole_perm {l' : PaneLayout ι} (h : JudgedAlike (l.leafAreas area))
    (hareas : (l'.leafAreas area).Perm (l.leafAreas area)) (hpanes : l'.paneIds.Perm l.paneIds) :
    l'.whole area = l.whole area := by
  have htwo : l'.isTwoPaneSplit = l.isTwoPaneSplit := by
    rw [Bool.eq_iff_iff, isTwoPaneSplit_iff, isTwoPaneSplit_iff, hpanes.length_eq]
  rw [whole, whole, htwo]
  exact congrArg (· || _) (h.fourEqual_perm hareas)

/-- In every subtree of four panes around a pane, whether these are the same size does not depend
on which one is the first. -/
def FourJudgedAlike (active : ι) : PaneLayout ι → ℚ → Prop
  | pane _, _ => True
  | split axis ratio first second, area =>
    JudgedAlike ((split axis ratio first second).leafAreas area) ∧
      (active ∈ first.paneIds → first.FourJudgedAlike active (area * share ratio)) ∧
      (active ∈ second.paneIds → second.FourJudgedAlike active (area * (1 - share ratio)))

section Rotated

variable (direction : PaneRotationDirection) (activeArea : ℚ) {axis : SplitAxis} {ratio : UInt16}
  {first second : PaneLayout ι} {area : ℚ}

/-- A turned split is searched like the split, in the turned child. -/
theorem rotationTarget_turned_first (hratios : (split axis ratio first second).RatiosWithin)
    (halike : JudgedAlike ((split axis ratio first second).leafAreas area))
    (hin : active ∈ first.paneIds) (hout : active ∉ second.paneIds) :
    ∃ side, ((split axis ratio first second).rotateGeometry direction).rotationTarget
        AreaArithmetic.exact active activeArea area =
      outcome ((split axis ratio first second).whole area)
        ((first.rotateGeometry direction).rotationTarget AreaArithmetic.exact active activeArea
          (area * share ratio)) (absorbs activeArea (area * (1 - share ratio))) side := by
  have hwhole := whole_perm halike (leafAreas_rotateGeometry direction hratios area)
    (paneIds_rotateGeometry direction _)
  rw [← hwhole, rotateGeometry_split]
  have hin' := (paneIds_rotateGeometry direction first).mem_iff.mpr hin
  have hout' := mt (paneIds_rotateGeometry direction second).mem_iff.mp hout
  split_ifs
  · refine ⟨false, ?_⟩
    rw [rotationTarget_second hout' hin', share_complement hratios.1, sub_sub_cancel]
  · exact ⟨true, rotationTarget_first hin' area⟩

theorem rotationTarget_turned_second (hratios : (split axis ratio first second).RatiosWithin)
    (halike : JudgedAlike ((split axis ratio first second).leafAreas area))
    (hout : active ∉ first.paneIds) (hin : active ∈ second.paneIds) :
    ∃ side, ((split axis ratio first second).rotateGeometry direction).rotationTarget
        AreaArithmetic.exact active activeArea area =
      outcome ((split axis ratio first second).whole area)
        ((second.rotateGeometry direction).rotationTarget AreaArithmetic.exact active activeArea
          (area * (1 - share ratio))) (absorbs activeArea (area * share ratio)) side := by
  have hwhole := whole_perm halike (leafAreas_rotateGeometry direction hratios area)
    (paneIds_rotateGeometry direction _)
  rw [← hwhole, rotateGeometry_split]
  have hin' := (paneIds_rotateGeometry direction second).mem_iff.mpr hin
  have hout' := mt (paneIds_rotateGeometry direction first).mem_iff.mp hout
  split_ifs
  · refine ⟨true, ?_⟩
    rw [rotationTarget_first hin', share_complement hratios.1, sub_sub_cancel]
  · exact ⟨false, rotationTarget_second hout' hin' area⟩

variable {l : PaneLayout ι}

/-- A turned subtree has something to rotate if the subtree has. -/
theorem rotationTarget_turned_eq_none (hnodup : l.paneIds.Nodup) (hratios : l.RatiosWithin)
    {area : ℚ} (halike : l.FourJudgedAlike active area) (hin : active ∈ l.paneIds) :
    (l.rotateGeometry direction).rotationTarget AreaArithmetic.exact active activeArea area = none ↔
      l.rotationTarget AreaArithmetic.exact active activeArea area = none := by
  induction l generalizing area with
  | pane id => exact Iff.rfl
  | split axis ratio first second ih₁ ih₂ =>
    obtain ⟨halike, hfirst, hsecond⟩ := halike
    rw [paneIds_split] at hnodup
    have hdisjoint := List.disjoint_of_nodup_append hnodup
    rcases List.mem_append.mp hin with hin | hin
    · obtain ⟨side, heq⟩ := rotationTarget_turned_first direction activeArea
        hratios halike hin (hdisjoint hin)
      rw [heq, rotationTarget_first hin, outcome_eq_none, outcome_eq_none,
        ih₁ hnodup.of_append_left hratios.2.1 (hfirst hin) hin]
    · obtain ⟨side, heq⟩ := rotationTarget_turned_second direction activeArea
        hratios halike (fun h => hdisjoint h hin) hin
      rw [heq, rotationTarget_second (fun h => hdisjoint h hin) hin, outcome_eq_none,
        outcome_eq_none, ih₂ hnodup.of_append_right hratios.2.2 (hsecond hin) hin]

/-- A subtree that rotates as a whole does so after a turn. -/
theorem rotationTarget_turned_eq_nil (hnodup : l.paneIds.Nodup) (hratios : l.RatiosWithin)
    {area : ℚ} (halike : l.FourJudgedAlike active area) (hin : active ∈ l.paneIds) :
    (l.rotateGeometry direction).rotationTarget AreaArithmetic.exact active activeArea area =
      some [] ↔ l.rotationTarget AreaArithmetic.exact active activeArea area = some [] := by
  cases l with
  | pane id => exact Iff.rfl
  | split axis ratio first second =>
    obtain ⟨halike, hfirst, hsecond⟩ := halike
    rw [paneIds_split] at hnodup
    have hdisjoint := List.disjoint_of_nodup_append hnodup
    rcases List.mem_append.mp hin with hin | hin
    · obtain ⟨side, heq⟩ := rotationTarget_turned_first direction activeArea
        hratios halike hin (hdisjoint hin)
      rw [heq, rotationTarget_first hin, outcome_eq_nil, outcome_eq_nil,
        rotationTarget_turned_eq_none direction activeArea hnodup.of_append_left hratios.2.1
          (hfirst hin) hin]
    · obtain ⟨side, heq⟩ := rotationTarget_turned_second direction activeArea
        hratios halike (fun h => hdisjoint h hin) hin
      rw [heq, rotationTarget_second (fun h => hdisjoint h hin) hin, outcome_eq_nil,
        outcome_eq_nil, rotationTarget_turned_eq_none direction activeArea hnodup.of_append_right
          hratios.2.2 (hsecond hin) hin]

/-- **The search finds the same subtree** after it has been rotated. -/
theorem rotationTarget_rotateAtPath {path : List Bool} (hnodup : l.paneIds.Nodup)
    (hratios : l.RatiosWithin) {area : ℚ} (halike : l.FourJudgedAlike active area)
    (hin : active ∈ l.paneIds)
    (h : l.rotationTarget AreaArithmetic.exact active activeArea area = some path) :
    (rotateAtPath direction path l).rotationTarget AreaArithmetic.exact active activeArea area =
      some path := by
  induction path generalizing l area with
  | nil => exact (rotationTarget_turned_eq_nil direction activeArea hnodup hratios halike hin).mpr h
  | cons first path ih =>
    cases l with
    | pane id => exact h
    | split axis ratio firstChild secondChild =>
      have hwhole := whole_perm halike.1
        (leafAreas_rotateAtPath direction (first :: path) hratios area)
        (paneIds_rotateAtPath direction (first :: path) _)
      obtain ⟨-, hfirst, hsecond⟩ := halike
      rw [paneIds_split] at hnodup
      have hdisjoint := List.disjoint_of_nodup_append hnodup
      rcases List.mem_append.mp hin with hin | hin
      · rw [rotationTarget_first hin, outcome_eq_cons] at h
        obtain ⟨hnot, hinner, rfl⟩ := h
        rw [rotateAtPath, if_pos rfl] at hwhole ⊢
        have hin' := (paneIds_rotateAtPath direction path firstChild).mem_iff.mpr hin
        rw [rotationTarget_first hin', outcome_eq_cons, hwhole]
        exact ⟨hnot, ih hnodup.of_append_left hratios.2.1 (hfirst hin) hin hinner, rfl⟩
      · have hout : active ∉ firstChild.paneIds := fun h => hdisjoint h hin
        rw [rotationTarget_second hout hin, outcome_eq_cons] at h
        obtain ⟨hnot, hinner, rfl⟩ := h
        rw [rotateAtPath, if_neg Bool.false_ne_true] at hwhole ⊢
        have hin' := (paneIds_rotateAtPath direction path secondChild).mem_iff.mpr hin
        rw [rotationTarget_second hout hin', outcome_eq_cons, hwhole]
        exact ⟨hnot, ih hnodup.of_append_right hratios.2.2 (hsecond hin) hin hinner, rfl⟩

end Rotated

omit [DecidableEq ι] in
theorem FourJudgedAlike.rotateGeometry (direction : PaneRotationDirection)
    (hratios : l.RatiosWithin) (h : l.FourJudgedAlike active area) :
    (l.rotateGeometry direction).FourJudgedAlike active area := by
  induction l generalizing area with
  | pane id => trivial
  | split axis ratio first second ih₁ ih₂ =>
    have hareas := h.1.perm (leafAreas_rotateGeometry direction hratios area)
    obtain ⟨-, hfirst, hsecond⟩ := h
    obtain ⟨hle, hwithin₁, hwithin₂⟩ := hratios
    have hfirst' : active ∈ (first.rotateGeometry direction).paneIds →
        (first.rotateGeometry direction).FourJudgedAlike active (area * share ratio) := fun h =>
      ih₁ hwithin₁ (hfirst ((paneIds_rotateGeometry direction first).mem_iff.mp h))
    have hsecond' : active ∈ (second.rotateGeometry direction).paneIds →
        (second.rotateGeometry direction).FourJudgedAlike active (area * (1 - share ratio)) :=
      fun h => ih₂ hwithin₂ (hsecond ((paneIds_rotateGeometry direction second).mem_iff.mp h))
    rw [rotateGeometry_split] at hareas ⊢
    split_ifs at hareas ⊢
    · refine ⟨hareas, ?_, ?_⟩
      · rw [share_complement hle]
        exact hsecond'
      · rw [share_complement hle, sub_sub_cancel]
        exact hfirst'
    · exact ⟨hareas, hfirst', hsecond'⟩

omit [DecidableEq ι] in
theorem FourJudgedAlike.rotateAtPath (direction : PaneRotationDirection) (path : List Bool)
    (hratios : l.RatiosWithin) (h : l.FourJudgedAlike active area) :
    (PaneLayout.rotateAtPath direction path l).FourJudgedAlike active area := by
  induction path generalizing l area with
  | nil => exact h.rotateGeometry direction hratios
  | cons first path ih =>
    cases l with
    | pane id => trivial
    | split axis ratio firstChild secondChild =>
      have hareas := h.1.perm (leafAreas_rotateAtPath direction (first :: path) hratios area)
      obtain ⟨-, hfirst, hsecond⟩ := h
      rw [PaneLayout.rotateAtPath] at hareas ⊢
      split_ifs at hareas ⊢
      · refine ⟨hareas, fun hin => ih hratios.2.1 (hfirst ?_), hsecond⟩
        exact (paneIds_rotateAtPath direction path firstChild).mem_iff.mp hin
      · refine ⟨hareas, hfirst, fun hin => ih hratios.2.2 (hsecond ?_)⟩
        exact (paneIds_rotateAtPath direction path secondChild).mem_iff.mp hin

/-! ### The area of the active pane -/

theorem paneArea_eq_none {id : ι} (h : id ∉ l.paneIds) (area : ℚ) :
    l.paneArea AreaArithmetic.exact id area = none := by
  induction l generalizing area with
  | pane id' => exact if_neg fun heq => h (List.mem_singleton.mpr heq.symm)
  | split axis ratio first second ih₁ ih₂ =>
    rw [paneIds_split, List.mem_append, not_or] at h
    rw [paneArea, ih₁ h.1, ih₂ h.2]
    rfl

/-- The area of a pane is that of its region. -/
theorem paneArea_exact (hnodup : l.paneIds.Nodup) {id : ι} {b c : Box SplitAxis ℚ}
    (hc : (id, c) ∈ l.cells b) :
    l.paneArea AreaArithmetic.exact id ((b .vertical).length * (b .horizontal).length) =
      some ((c .vertical).length * (c .horizontal).length) := by
  induction l generalizing b with
  | pane id' =>
    cases List.mem_singleton.mp hc
    exact if_pos rfl
  | split axis ratio first second ih₁ ih₂ =>
    rw [paneIds_split] at hnodup
    have hdisjoint := List.disjoint_of_nodup_append hnodup
    rw [paneArea, secondArea_exact, firstArea_exact]
    rcases List.mem_append.mp hc with hc | hc
    · have harea : (b .vertical).length * (b .horizontal).length * share ratio =
          (b.firstPart axis (share ratio) .vertical).length *
            (b.firstPart axis (share ratio) .horizontal).length := by
        cases axis <;> simp [Box.firstPart_of_ne] <;> ring
      rw [harea, ih₁ hnodup.of_append_left hc, Option.some_or]
    · have hin := mem_paneIds_of_cell hc
      have harea : (b .vertical).length * (b .horizontal).length * (1 - share ratio) =
          (b.secondPart axis (share ratio) .vertical).length *
            (b.secondPart axis (share ratio) .horizontal).length := by
        cases axis <;> simp [Box.secondPart_of_ne] <;> ring
      rw [paneArea_eq_none fun h => hdisjoint h hin, Option.none_or, harea,
        ih₂ hnodup.of_append_right hc]

/-- The path to the subtree that a pane rotates with, in the whole layout. -/
def rotationPath (l : PaneLayout ι) (active : ι) : Option (List Bool) :=
  (l.paneArea AreaArithmetic.exact active 1).bind fun activeArea =>
    l.rotationTarget AreaArithmetic.exact active activeArea 1

theorem rotatePane_eq (l : PaneLayout ι) (active : ι) (direction : PaneRotationDirection) :
    l.rotatePane AreaArithmetic.exact active direction =
      (l.rotationPath active).map fun path => rotateAtPath direction path l := by
  rw [rotatePane, rotationPath]
  change (l.paneArea AreaArithmetic.exact active 1).bind _ = _
  cases l.paneArea AreaArithmetic.exact active 1 with
  | none => rfl
  | some activeArea =>
    change (l.rotationTarget AreaArithmetic.exact active activeArea 1).bind _ = _
    cases h : l.rotationTarget AreaArithmetic.exact active activeArea 1 <;> simp [h]

/-- `rotate_pane` in place: a pane without a target leaves the layout. -/
def rotated (l : PaneLayout ι) (active : ι) (direction : PaneRotationDirection) : PaneLayout ι :=
  (l.rotatePane AreaArithmetic.exact active direction).getD l

theorem rotated_of_path {active : ι} {path : List Bool} (h : l.rotationPath active = some path)
    (direction : PaneRotationDirection) :
    l.rotated active direction = rotateAtPath direction path l := by
  rw [rotated, rotatePane_eq, h]
  rfl

theorem rotated_of_none {active : ι} (h : l.rotationPath active = none)
    (direction : PaneRotationDirection) : l.rotated active direction = l := by
  rw [rotated, rotatePane_eq, h]
  rfl

theorem paneIds_rotated (l : PaneLayout ι) (active : ι) (direction : PaneRotationDirection) :
    (l.rotated active direction).paneIds.Perm l.paneIds := by
  cases hpath : l.rotationPath active with
  | none =>
    rw [rotated_of_none hpath]
  | some path =>
    rw [rotated_of_path hpath]
    exact paneIds_rotateAtPath direction path l

theorem ProperRatios.rotated (h : l.ProperRatios) (active : ι) (direction : PaneRotationDirection) :
    (l.rotated active direction).ProperRatios := by
  cases hpath : l.rotationPath active with
  | none => rwa [rotated_of_none hpath]
  | some path =>
    rw [rotated_of_path hpath]
    exact h.rotateAtPath direction path

theorem FourJudgedAlike.rotated (h : l.FourJudgedAlike active 1) (hratios : l.RatiosWithin)
    (direction : PaneRotationDirection) :
    (l.rotated active direction).FourJudgedAlike active 1 := by
  cases hpath : l.rotationPath active with
  | none => rwa [rotated_of_none hpath]
  | some path =>
    rw [rotated_of_path hpath]
    exact h.rotateAtPath direction path hratios

/-- **The pane rotates with the same subtree again.** -/
theorem rotationPath_rotated (hnodup : l.paneIds.Nodup) (hratios : l.ProperRatios)
    (halike : l.FourJudgedAlike active 1) (direction : PaneRotationDirection) :
    (l.rotated active direction).rotationPath active = l.rotationPath active := by
  cases hpath : l.rotationPath active with
  | none => rw [rotated_of_none hpath, hpath]
  | some path =>
    rw [rotated_of_path hpath]
    rw [rotationPath, Option.bind_eq_some_iff] at hpath
    obtain ⟨activeArea, harea, htarget⟩ := hpath
    have hin : active ∈ l.paneIds := by
      by_contra hout
      rw [paneArea_eq_none hout] at harea
      exact absurd harea (by simp)
    have hperm := paneIds_rotateAtPath direction path l
    obtain ⟨c, hc⟩ := exists_cell hin Box.unit
    obtain ⟨c', hc'⟩ := exists_cell (hperm.mem_iff.mpr hin) Box.unit
    have hunit : ((Box.unit : Box SplitAxis ℚ) .vertical).length *
        ((Box.unit : Box SplitAxis ℚ) .horizontal).length = 1 := by simp [Box.unit]
    -- the area of the active pane is still the same
    have harea' : (rotateAtPath direction path l).paneArea AreaArithmetic.exact active 1 =
        some activeArea := by
      rw [← harea, ← hunit, paneArea_exact hnodup hc,
        paneArea_exact (hperm.nodup_iff.mpr hnodup) hc',
        area_rotateAtPath direction path hnodup hratios hc hc']
    rw [rotationPath, harea', Option.bind_some]
    exact rotationTarget_rotateAtPath direction activeArea hnodup hratios.within halike hin htarget

/-! ### Rotating a pane -/

/-- **A rotation of a pane is one.** It turns the regions of one subtree by a quarter inside the
box of that subtree, keeps every area and leaves the other panes where they are. Where subtrees of
four panes around the pane are judged alike, it finds the same subtree again, so that the opposite
rotation takes it back and the fourth one too. -/
theorem rotatePane_rotates {l : PaneLayout ι} (hnodup : l.paneIds.Nodup)
    (hratios : l.ProperRatios) (active : ι) (direction : PaneRotationDirection) :
    (∀ path, l.rotationPath active = some path →
      ∀ region ∈ l.regions Arithmetic.exact,
        ∀ region' ∈ (l.rotated active direction).regions Arithmetic.exact,
          region'.id = region.id →
            region'.width * region'.height = region.width * region.height ∧
            (region.id ∉ (l.subtree path).paneIds → region' = region) ∧
            (region.id ∈ (l.subtree path).paneIds →
              (l.boxAt path Box.unit).coordinates region'.box =
                direction.turned ((l.boxAt path Box.unit).coordinates region.box))) ∧
    (l.rotated active direction).paneIds.Perm l.paneIds ∧
    (l.rotationPath active = none → l.rotated active direction = l) ∧
    (l.FourJudgedAlike active 1 →
      (l.rotated active direction).rotationPath active = l.rotationPath active ∧
      (l.rotated active direction).FourJudgedAlike active 1 ∧
      (l.rotated active direction).rotated active direction.opposite = l ∧
      (((l.rotated active direction).rotated active direction).rotated active direction).rotated
        active direction = l) := by
  refine ⟨fun path hpath region hregion region' hregion' hid => ?_,
    paneIds_rotated l active direction,
    fun hnone => rotated_of_none hnone direction, fun halike => ?_⟩
  · rw [rotated_of_path hpath] at hregion'
    obtain ⟨c, hc, heq⟩ := mem_regions_exact.mp hregion
    obtain ⟨c', hc', heq'⟩ := mem_regions_exact.mp hregion'
    rw [hid] at hc' heq'
    obtain ⟨houtside, hinside⟩ := cells_rotateAtPath direction path hnodup hratios hc hc'
    refine ⟨?_, fun hout => ?_, fun hin => ?_⟩
    · rw [heq, heq']
      exact area_rotateAtPath direction path hnodup hratios hc hc'
    · rw [heq, heq', houtside hout]
    · obtain ⟨u, hu, hu'⟩ := hinside hin
      have hframe := boxAt_proper path hratios Box.proper_unit
      rw [heq, heq', PaneRegion.box_ofBox, PaneRegion.box_ofBox, hu, hu',
        hframe.coordinates_place, hframe.coordinates_place]
  · have hagain := rotationPath_rotated hnodup hratios halike direction
    have hnodup' := (paneIds_rotated l active direction).nodup_iff.mpr hnodup
    have hratios' := hratios.rotated active direction
    have halike' := halike.rotated hratios.within direction
    refine ⟨hagain, halike', ?_, ?_⟩
    · cases hpath : l.rotationPath active with
      | none =>
        rw [hpath] at hagain
        rw [rotated_of_none hagain, rotated_of_none hpath]
      | some path =>
        rw [hpath] at hagain
        rw [rotated_of_path hagain, rotated_of_path hpath,
          rotateAtPath_opposite direction path hratios]
    · -- the same subtree is found each time
      have hagain₂ := rotationPath_rotated hnodup' hratios' halike' direction
      have hnodup₂ := (paneIds_rotated _ active direction).nodup_iff.mpr hnodup'
      have hratios₂ := hratios'.rotated active direction
      have halike₂ := halike'.rotated hratios'.within direction
      have hagain₃ := rotationPath_rotated hnodup₂ hratios₂ halike₂ direction
      cases hpath : l.rotationPath active with
      | none =>
        rw [hpath] at hagain
        rw [hagain] at hagain₂
        rw [hagain₂] at hagain₃
        rw [rotated_of_none hagain₃, rotated_of_none hagain₂, rotated_of_none hagain,
          rotated_of_none hpath]
      | some path =>
        rw [hpath] at hagain
        rw [hagain] at hagain₂
        rw [hagain₂] at hagain₃
        rw [rotated_of_path hagain₃, rotated_of_path hagain₂, rotated_of_path hagain,
          rotated_of_path hpath, rotateAtPath_four direction path hratios]

end DecidableEq

/-- A pane beside two others that are stacked. -/
def besideStack : PaneLayout ℕ :=
  split .vertical 700 (pane 1) (split .horizontal 400 (pane 2) (pane 3))

theorem rotatePane_rotates_stack :
    (besideStack.rotated 2 .clockwise).rotated 2 .counterClockwise = besideStack :=
  ((rotatePane_rotates (l := besideStack) (by decide) (by decide) 2 .clockwise).2.2.2
    ⟨fun h => absurd h (by decide), fun h => absurd h (by decide),
      fun _ => ⟨fun h => absurd h (by decide), fun _ => trivial, fun _ => trivial⟩⟩).2.2.1

/-- Four panes of different sizes in a hundred-millionth of the layout. -/
def tinyFour : PaneLayout ℕ :=
  split .vertical 8 (split .vertical 1 (split .vertical 1
    (split .vertical 600 (split .horizontal 400 (pane 1) (pane 2))
      (split .horizontal 500 (pane 3) (pane 4))) (pane 5)) (pane 6)) (pane 7)

/-- **The tolerance is not a matter of rounding** for panes of about its size: the four rotate
together, but afterwards the second one is the first, too large for the two that are equal, and the
pane rotates with its neighbour only. The layout is not restored. -/
theorem rotatePane_not_undone :
    tinyFour.ProperRatios ∧ tinyFour.paneIds.Nodup ∧
      tinyFour.rotationPath 2 = some [true, true, true] ∧
      (tinyFour.rotated 2 .clockwise).rotationPath 2 = some [true, true, true, true] ∧
      (tinyFour.rotated 2 .clockwise).rotated 2 .counterClockwise ≠ tinyFour := by
  decide +kernel

end PaneLayout

end Zetta.Pane
