import Zetta.Lib.Boxes
import Zetta.Pane.Reshape

/-!
# Where a layout draws its panes

In exact arithmetic the regions of a layout are those of a box that is cut in two at each split,
across the axis of the split and at its ratio. `cells` says that, for any box and not the whole
tab only, so that it can be read off subtree by subtree.

* `regions_exact`: the regions that the program computes are the cells of the unit box.
* `cells_eq_place`: the cells of a box are those of the unit box, placed into it.
* `cell_within`: where no ratio is beyond the scale, the panes lie in the box.
* `cell_proper`: with ratios strictly inside the scale, no pane's region is empty.
* `regions_tile`: then every place of the tab is in exactly one pane's region.
* `closing_panes`: closing panes one by one is hiding them all.
-/

namespace Zetta.Pane

open List
open Lib (Box Interval)

/-- The region of a pane that is drawn in a box. -/
def PaneRegion.ofBox {ι : Type} (id : ι) (b : Box SplitAxis ℚ) : PaneRegion ι ℚ :=
  ⟨id, (b .vertical).lo, (b .vertical).hi, (b .horizontal).lo, (b .horizontal).hi⟩

def PaneRegion.box {ι : Type} (region : PaneRegion ι ℚ) : Box SplitAxis ℚ
  | .vertical => ⟨region.left, region.right⟩
  | .horizontal => ⟨region.top, region.bottom⟩

@[simp] theorem PaneRegion.box_ofBox {ι : Type} (id : ι) (b : Box SplitAxis ℚ) :
    (PaneRegion.ofBox id b).box = b := by
  funext axis
  cases axis <;> rfl

def PaneRegion.width {ι : Type} (region : PaneRegion ι ℚ) : ℚ := region.right - region.left

def PaneRegion.height {ι : Type} (region : PaneRegion ι ℚ) : ℚ := region.bottom - region.top

/-- A place is in a region, whose right and lower edges belong to its neighbours. -/
def PaneRegion.Covers {ι : Type} (region : PaneRegion ι ℚ) (x y : ℚ) : Prop :=
  (region.left ≤ x ∧ x < region.right) ∧ region.top ≤ y ∧ y < region.bottom

instance {ι : Type} (region : PaneRegion ι ℚ) (x y : ℚ) : Decidable (region.Covers x y) :=
  inferInstanceAs (Decidable (_ ∧ _))

namespace PaneLayout

variable {ι : Type}

/-- The first child's share of the extent. -/
def share (ratio : UInt16) : ℚ := ratio.toNat / 1000

/-- Every ratio is strictly between zero and the scale. -/
def ProperRatios : PaneLayout ι → Prop
  | pane _ => True
  | split _ ratio first second =>
    0 < ratio ∧ ratio < PANE_SPLIT_RATIO_SCALE ∧ first.ProperRatios ∧ second.ProperRatios

instance decidableProperRatios : (l : PaneLayout ι) → Decidable l.ProperRatios
  | pane _ => inferInstanceAs (Decidable True)
  | split _ ratio first second =>
    have := decidableProperRatios first
    have := decidableProperRatios second
    inferInstanceAs (Decidable (0 < ratio ∧ ratio < PANE_SPLIT_RATIO_SCALE ∧ first.ProperRatios ∧
      second.ProperRatios))

/-- No ratio is beyond the scale. -/
def RatiosWithin : PaneLayout ι → Prop
  | pane _ => True
  | split _ ratio first second =>
    ratio ≤ PANE_SPLIT_RATIO_SCALE ∧ first.RatiosWithin ∧ second.RatiosWithin

variable {l : PaneLayout ι}

theorem ProperRatios.within (h : l.ProperRatios) : l.RatiosWithin := by
  induction l with
  | pane id => trivial
  | split axis ratio first second ih₁ ih₂ =>
    obtain ⟨-, hlt, hfirst, hsecond⟩ := h
    exact ⟨UInt16.le_of_lt hlt, ih₁ hfirst, ih₂ hsecond⟩

/-- The panes of the layout with their boxes, in tree order. -/
def cells : PaneLayout ι → Box SplitAxis ℚ → List (ι × Box SplitAxis ℚ)
  | pane id, b => [(id, b)]
  | split axis ratio first second, b =>
    first.cells (b.firstPart axis (share ratio)) ++ second.cells (b.secondPart axis (share ratio))

/-! ### Shares -/

theorem toNat_scale : PANE_SPLIT_RATIO_SCALE.toNat = 1000 := rfl

variable {ratio : UInt16}

theorem share_pos (h : 0 < ratio) : 0 < share ratio := by
  have hpos : 0 < ratio.toNat := UInt16.lt_iff_toNat_lt.mp h
  rw [share]
  positivity

theorem share_lt_one (h : ratio < PANE_SPLIT_RATIO_SCALE) : share ratio < 1 := by
  have hlt : ratio.toNat < 1000 := UInt16.lt_iff_toNat_lt.mp h
  rw [share, div_lt_one (by norm_num)]
  exact_mod_cast hlt

theorem share_nonneg (ratio : UInt16) : 0 ≤ share ratio := by
  rw [share]
  positivity

theorem share_le_one (h : ratio ≤ PANE_SPLIT_RATIO_SCALE) : share ratio ≤ 1 := by
  have hle : ratio.toNat ≤ 1000 := UInt16.le_iff_toNat_le.mp h
  rw [share, div_le_one (by norm_num)]
  exact_mod_cast hle

theorem toNat_complement (h : ratio ≤ PANE_SPLIT_RATIO_SCALE) :
    (PANE_SPLIT_RATIO_SCALE - ratio).toNat = 1000 - ratio.toNat := by
  rw [UInt16.toNat_sub_of_le _ _ h, toNat_scale]

/-- The second child's share. -/
theorem share_complement (h : ratio ≤ PANE_SPLIT_RATIO_SCALE) :
    share (PANE_SPLIT_RATIO_SCALE - ratio) = 1 - share ratio := by
  have hle : ratio.toNat ≤ 1000 := UInt16.le_iff_toNat_le.mp h
  rw [share, share, toNat_complement h, Nat.cast_sub hle]
  push_cast
  ring

theorem complement_pos (h : ratio < PANE_SPLIT_RATIO_SCALE) :
    0 < PANE_SPLIT_RATIO_SCALE - ratio := by
  have hlt : ratio.toNat < 1000 := UInt16.lt_iff_toNat_lt.mp h
  rw [UInt16.lt_iff_toNat_lt, toNat_complement (UInt16.le_of_lt h)]
  exact Nat.sub_pos_of_lt hlt

theorem complement_lt (hpos : 0 < ratio) (h : ratio < PANE_SPLIT_RATIO_SCALE) :
    PANE_SPLIT_RATIO_SCALE - ratio < PANE_SPLIT_RATIO_SCALE := by
  have hpos : 0 < ratio.toNat := UInt16.lt_iff_toNat_lt.mp hpos
  rw [UInt16.lt_iff_toNat_lt, toNat_complement (UInt16.le_of_lt h), toNat_scale]
  omega

theorem complement_complement (h : ratio ≤ PANE_SPLIT_RATIO_SCALE) :
    PANE_SPLIT_RATIO_SCALE - (PANE_SPLIT_RATIO_SCALE - ratio) = ratio := by
  have hle : ratio.toNat ≤ 1000 := UInt16.le_iff_toNat_le.mp h
  have hback : PANE_SPLIT_RATIO_SCALE - ratio ≤ PANE_SPLIT_RATIO_SCALE := by
    rw [UInt16.le_iff_toNat_le, toNat_complement h, toNat_scale]
    omega
  rw [← UInt16.toNat_inj, toNat_complement hback, toNat_complement h]
  omega

/-! ### Cells -/

/-- The regions of a subtree are the cells of its box. -/
theorem collectRegions_exact (l : PaneLayout ι) (b : Box SplitAxis ℚ) :
    l.collectRegions Arithmetic.exact (b .vertical).lo (b .horizontal).lo (b .vertical).length
      (b .horizontal).length = (l.cells b).map fun cell => PaneRegion.ofBox cell.1 cell.2 := by
  induction l generalizing b with
  | pane id =>
    simp [collectRegions, cells, PaneRegion.ofBox, Arithmetic.exact]
  | split axis ratio first second ih₁ ih₂ =>
    rw [cells, map_append, ← ih₁, ← ih₂]
    cases axis with
    | horizontal =>
      simp only [Box.firstPart_same, Box.secondPart_same, Box.firstPart_of_ne,
        Box.secondPart_of_ne, ne_eq, reduceCtorEq, not_false_eq_true, Interval.length_firstPart,
        Interval.length_secondPart, Interval.firstPart_lo]
      rw [collectRegions, mul_one_sub]
      rfl
    | vertical =>
      simp only [Box.firstPart_same, Box.secondPart_same, Box.firstPart_of_ne,
        Box.secondPart_of_ne, ne_eq, reduceCtorEq, not_false_eq_true, Interval.length_firstPart,
        Interval.length_secondPart, Interval.firstPart_lo]
      rw [collectRegions, mul_one_sub]
      rfl

theorem regions_exact (l : PaneLayout ι) :
    l.regions Arithmetic.exact =
      (l.cells Box.unit).map fun cell => PaneRegion.ofBox cell.1 cell.2 := by
  have h := l.collectRegions_exact Box.unit
  simp only [Box.unit, Interval.unit_lo, Interval.length_unit] at h
  exact h

theorem mem_regions_exact {region : PaneRegion ι ℚ} :
    region ∈ l.regions Arithmetic.exact ↔
      ∃ c, (region.id, c) ∈ l.cells Box.unit ∧ region = PaneRegion.ofBox region.id c := by
  rw [regions_exact, mem_map]
  constructor
  · rintro ⟨⟨id, c⟩, hc, rfl⟩
    exact ⟨c, hc, rfl⟩
  · rintro ⟨c, hc, heq⟩
    exact ⟨(region.id, c), hc, heq.symm⟩

@[simp] theorem map_fst_cells (l : PaneLayout ι) (b : Box SplitAxis ℚ) :
    (l.cells b).map Prod.fst = l.paneIds := by
  induction l generalizing b with
  | pane id => rfl
  | split axis ratio first second ih₁ ih₂ =>
    rw [cells, map_append, ih₁, ih₂, paneIds_split]

variable {id : ι}

/-- Every pane is drawn. -/
theorem exists_cell (h : id ∈ l.paneIds) (b : Box SplitAxis ℚ) :
    ∃ c, (id, c) ∈ l.cells b := by
  rw [← l.map_fst_cells b, mem_map] at h
  obtain ⟨⟨id', c⟩, hc, rfl⟩ := h
  exact ⟨c, hc⟩

variable {b c : Box SplitAxis ℚ}

theorem mem_paneIds_of_cell (h : (id, c) ∈ l.cells b) : id ∈ l.paneIds := by
  rw [← l.map_fst_cells b]
  exact mem_map_of_mem h

/-- Every pane is drawn once. -/
theorem cell_unique (hnodup : l.paneIds.Nodup) {c' : Box SplitAxis ℚ} (h : (id, c) ∈ l.cells b)
    (h' : (id, c') ∈ l.cells b) : c = c' := by
  rw [← l.map_fst_cells b] at hnodup
  exact congrArg Prod.snd (inj_on_of_nodup_map hnodup h h' rfl)

/-- Placing a box places its cells. -/
theorem cells_place (l : PaneLayout ι) (b c : Box SplitAxis ℚ) :
    l.cells (b.place c) = (l.cells c).map fun cell => (cell.1, b.place cell.2) := by
  induction l generalizing c with
  | pane id => rfl
  | split axis ratio first second ih₁ ih₂ =>
    rw [cells, cells, map_append, ← Box.place_firstPart, ← Box.place_secondPart, ih₁, ih₂]

theorem cells_eq_place (l : PaneLayout ι) (b : Box SplitAxis ℚ) :
    l.cells b = (l.cells Box.unit).map fun cell => (cell.1, b.place cell.2) := by
  rw [← cells_place, Box.place_unit]

/-- The panes of a subtree lie in one box as in another. -/
theorem mem_cells_place :
    (id, c) ∈ l.cells b ↔ ∃ u, (id, u) ∈ l.cells Box.unit ∧ c = b.place u := by
  rw [cells_eq_place, mem_map]
  constructor
  · rintro ⟨⟨id', u⟩, hu, heq⟩
    cases heq
    exact ⟨u, hu, rfl⟩
  · rintro ⟨u, hu, rfl⟩
    exact ⟨(id, u), hu, rfl⟩

/-- The panes lie in the box. -/
theorem cell_within (hratios : l.RatiosWithin) (hb : b.Ordered) (hc : (id, c) ∈ l.cells b) :
    c.Ordered ∧ ∀ axis, (b axis).lo ≤ (c axis).lo ∧ (c axis).hi ≤ (b axis).hi := by
  induction l generalizing b with
  | pane id =>
    cases mem_singleton.mp hc
    exact ⟨hb, fun axis => ⟨le_rfl, le_rfl⟩⟩
  | split axis ratio first second ih₁ ih₂ =>
    obtain ⟨hle, hfirst, hsecond⟩ := hratios
    rcases mem_append.mp hc with hc | hc
    · obtain ⟨hordered, hin⟩ := ih₁ hfirst (hb.firstPart axis (share_nonneg ratio)) hc
      refine ⟨hordered, fun other => ⟨(hin other).1.trans' ?_, (hin other).2.trans ?_⟩⟩
      · exact (b.lo_firstPart axis _ other).ge
      · exact hb.firstPart_hi_le axis (share_le_one hle) other
    · obtain ⟨hordered, hin⟩ := ih₂ hsecond (hb.secondPart axis (share_le_one hle)) hc
      refine ⟨hordered, fun other => ⟨(hin other).1.trans' ?_, (hin other).2.trans ?_⟩⟩
      · exact hb.le_secondPart_lo axis (share_nonneg ratio) other
      · exact (b.hi_secondPart axis _ other).le

/-- **Every pane has a region** that is not empty. -/
theorem cell_proper (hratios : l.ProperRatios) (hb : b.Proper) (hc : (id, c) ∈ l.cells b) :
    c.Proper := by
  induction l generalizing b with
  | pane id =>
    cases mem_singleton.mp hc
    exact hb
  | split axis ratio first second ih₁ ih₂ =>
    obtain ⟨hpos, hlt, hfirst, hsecond⟩ := hratios
    rcases mem_append.mp hc with hc | hc
    · exact ih₁ hfirst (hb.firstPart axis (share_pos hpos)) hc
    · exact ih₂ hsecond (hb.secondPart axis (share_lt_one hlt)) hc

theorem countP_cells (hratios : l.RatiosWithin) {b : Box SplitAxis ℚ} (hb : b.Ordered) (id : ι)
    (x y : ℚ) :
    (l.cells b).countP (fun cell => (PaneRegion.ofBox cell.1 cell.2).Covers x y) =
      if (PaneRegion.ofBox id b).Covers x y then 1 else 0 := by
  induction l generalizing b with
  | pane id' =>
    rw [cells, countP_singleton]
    exact if_congr decide_eq_true_iff rfl rfl
  | split axis ratio first second ih₁ ih₂ =>
    obtain ⟨hle, hfirst, hsecond⟩ := hratios
    -- the cut lies between the two edges
    have hlo := hb.le_secondPart_lo axis (share_nonneg ratio) axis
    have hhi := hb.firstPart_hi_le axis (share_le_one hle) axis
    rw [Box.secondPart_same, Interval.secondPart_lo] at hlo
    rw [Box.firstPart_same, Interval.firstPart_hi] at hhi
    rw [cells, countP_append, ih₁ hfirst (hb.firstPart axis (share_nonneg ratio)),
      ih₂ hsecond (hb.secondPart axis (share_le_one hle))]
    cases axis <;>
      simp only [PaneRegion.Covers, PaneRegion.ofBox, Box.firstPart_same, Box.secondPart_same,
        Box.firstPart_of_ne, Box.secondPart_of_ne, ne_eq, reduceCtorEq, not_false_eq_true,
        Interval.firstPart_lo, Interval.firstPart_hi, Interval.secondPart_lo,
        Interval.secondPart_hi] <;>
      split_ifs <;> grind

/-- **The regions tile the tab**: none is empty, each place of the tab is in exactly one of them, and
they reach no further. -/
theorem regions_tile (hratios : l.ProperRatios) :
    (∀ region ∈ l.regions Arithmetic.exact,
      region.left < region.right ∧ region.top < region.bottom) ∧
    ∀ x y : ℚ, (l.regions Arithmetic.exact).countP (fun region => region.Covers x y) =
      if (0 ≤ x ∧ x < 1) ∧ 0 ≤ y ∧ y < 1 then 1 else 0 := by
  constructor
  · intro region hregion
    obtain ⟨c, hc, heq⟩ := mem_regions_exact.mp hregion
    have hproper := cell_proper hratios Box.proper_unit hc
    rw [heq]
    exact ⟨sub_pos.mp (hproper .vertical), sub_pos.mp (hproper .horizontal)⟩
  · intro x y
    rw [regions_exact, countP_map]
    exact countP_cells hratios.within Box.proper_unit.ordered l.firstPane x y

/-- A pane beside a stack of two. -/
theorem regions_tile_stack :
    let l : PaneLayout ℕ := .split .vertical 300 (.pane 1) (.split .horizontal 600 (.pane 2) (.pane 3))
    l.ProperRatios ∧ (l.regions Arithmetic.exact).countP (fun region => region.Covers (1 / 2) 0) = 1 := by
  intro l
  have hratios : l.ProperRatios := by decide
  refine ⟨hratios, ((regions_tile hratios).2 _ _).trans (if_pos ?_)⟩
  norm_num

section DecidableEq

variable [DecidableEq ι]

@[simp] theorem containsPane_eq_true {l : PaneLayout ι} {id : ι} :
    l.containsPane id = true ↔ id ∈ l.paneIds := by
  induction l with
  | pane id' => simp [containsPane, eq_comm]
  | split axis ratio first second ih₁ ih₂ => simp [containsPane, ih₁, ih₂]

/-! ### Closing -/

theorem bind_without_join (axis : SplitAxis) (ratio : UInt16) (a b : Option (PaneLayout ι))
    (target : ι) : (join axis ratio a b).bind (without target) =
      join axis ratio (a.bind (without target)) (b.bind (without target)) := by
  rcases a with _ | a <;> rcases b with _ | b
  · rfl
  · simp only [join, Option.bind_some, Option.bind_none]
    cases b.without target <;> rfl
  · simp only [join, Option.bind_some, Option.bind_none]
    cases a.without target <;> rfl
  · rfl

theorem bind_without_withoutAll (targets : List ι) (target : ι) :
    (l.withoutAll targets).bind (without target) = l.withoutAll (targets ++ [target]) := by
  induction l with
  | pane id =>
    by_cases hid : id ∈ targets
    · simp [withoutAll, hid]
    · by_cases htarget : id = target <;> simp [withoutAll, without, hid, htarget]
  | split axis ratio first second ih₁ ih₂ =>
    rw [withoutAll, bind_without_join, ih₁, ih₂, withoutAll]

theorem withoutAll_of_not_mem {targets : List ι} (h : ∀ id ∈ l.paneIds, id ∉ targets) :
    l.withoutAll targets = some l := by
  induction l with
  | pane id => exact if_pos (h id mem_cons_self)
  | split axis ratio first second ih₁ ih₂ =>
    obtain ⟨hfirst, hsecond⟩ := forall_mem_append.mp h
    rw [withoutAll, ih₁ hfirst, ih₂ hsecond, join]

theorem foldl_without (l : PaneLayout ι) (targets : List ι) :
    targets.foldl (fun layout id => layout.bind (without id)) (some l) = l.withoutAll targets := by
  induction targets using List.reverseRecOn with
  | nil => exact (withoutAll_of_not_mem fun _ _ => not_mem_nil).symm
  | append_singleton targets target ih =>
    rw [foldl_append, ih]
    exact bind_without_withoutAll targets target

theorem without_of_not_mem {target : ι} (h : target ∉ l.paneIds) : l.without target = some l := by
  refine (l.foldl_without [target]).trans (withoutAll_of_not_mem fun id hid hmem => h ?_)
  rwa [← mem_singleton.mp hmem]

theorem without_splitPane {target newPane : ι} {axis : SplitAxis} {position : SplitPosition}
    (hnew : newPane ∉ l.paneIds) : ∀ l' ∈ l.splitPane target axis newPane position,
      l'.without newPane = some l := by
  induction l with
  | pane id =>
    intro l' h
    unfold splitPane at h
    split_ifs at h with hid
    · cases h
      have hne : target ≠ newPane := by
        rintro rfl
        exact hnew (hid ▸ mem_cons_self)
      cases position <;> simp [without, join, hid, hne]
    · cases h
  | split axis' ratio first second ih₁ ih₂ =>
    intro l' h
    rw [paneIds_split, mem_append, not_or] at hnew
    unfold splitPane at h
    split at h
    · next first' hfirst =>
      cases h
      rw [without, ih₁ hnew.1 _ hfirst, without_of_not_mem hnew.2, join]
    · obtain ⟨second', hsecond, rfl⟩ := Option.map_eq_some_iff.mp h
      rw [without, ih₂ hnew.2 _ hsecond, without_of_not_mem hnew.1, join]

/-- **Closing panes** one after another, in any order, leaves what hiding all of them shows; and to
close a pane that was split off undoes the split. -/
theorem closing_panes (l : PaneLayout ι) :
    (∀ targets : List ι, targets.foldl (fun layout id => layout.bind (without id)) (some l) =
      l.withoutAll targets) ∧
    ∀ target axis newPane position, newPane ∉ l.paneIds →
      ∀ l' ∈ l.splitPane target axis newPane position, l'.without newPane = some l :=
  ⟨l.foldl_without, fun _ _ _ _ => without_splitPane⟩

/-- Two of three panes are closed, one of them twice; a pane split off the third one is closed. -/
theorem closing_panes_stack :
    let l : PaneLayout ℕ := .split .vertical 300 (.pane 1) (.split .horizontal 600 (.pane 2) (.pane 3))
    [3, 1, 3].foldl (fun layout id => layout.bind (without id)) (some l) = some (.pane 2) ∧
      ∀ l' ∈ l.splitPane 2 .vertical 4 .after, l'.without 4 = some l := by
  intro l
  obtain ⟨hclosed, hundone⟩ := closing_panes l
  exact ⟨(hclosed [3, 1, 3]).trans (by decide), hundone 2 .vertical 4 .after (by decide)⟩

end DecidableEq

end PaneLayout

end Zetta.Pane
