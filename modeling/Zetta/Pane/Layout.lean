import Mathlib

/-!
# The pane layout tree

`PaneLayout` divides the region of a tab: a binary tree of splits with a ratio for each split
and a pane at each leaf. Its operations are those of the program; what the tab needs to know of
each is which panes the tree places afterwards, in which order.

* Pane ids are a parameter `ι`: a `u64` in the program.
* The regions are computed in `f32`. Nothing here depends on how it rounds, so that the
  arithmetic is a parameter (`Arithmetic`), and a fact about `adjacentPane` holds for any.

## Main results

* `paneIds_withoutAll`: hiding panes leaves the others in place.
* `paneIds_split`: splitting a pane adds one pane and keeps the others.
* `mem_paneIds_adjacentPane`: the pane that the focus moves to is one of the layout.
-/

namespace Zetta.Pane

inductive SplitAxis where
  | horizontal
  | vertical
  deriving DecidableEq

inductive SplitPosition where
  | before
  | after

inductive PaneDirection where
  | left
  | right
  | up
  | down

/-- How a region is divided. The ratio is the first child's share in thousandths. -/
inductive PaneLayout (ι : Type) where
  | pane (id : ι)
  | split (axis : SplitAxis) (firstRatio : UInt16) (first second : PaneLayout ι)
  deriving DecidableEq

def PANE_SPLIT_RATIO_SCALE : UInt16 := 1000
def DEFAULT_PANE_SPLIT_RATIO : UInt16 := PANE_SPLIT_RATIO_SCALE / 2

/-- Where a pane is drawn. -/
structure PaneRegion (ι R : Type) where
  id : ι
  left : R
  right : R
  top : R
  bottom : R

/-- The numbers that regions are computed in. -/
structure Arithmetic (R : Type) where
  zero : R
  one : R
  two : R
  tieEpsilon : R
  add : R → R → R
  sub : R → R → R
  mul : R → R → R
  div : R → R → R
  abs : R → R
  ofRatio : UInt16 → R
  lt : R → R → Bool
  /-- `total_cmp`, as "not greater". -/
  totalLe : R → R → Bool

/-- Exact arithmetic. -/
def Arithmetic.exact : Arithmetic ℚ where
  zero := 0
  one := 1
  two := 2
  tieEpsilon := 1 / 10000
  add := (· + ·)
  sub := (· - ·)
  mul := (· * ·)
  div := (· / ·)
  abs := fun x => if x < 0 then -x else x
  ofRatio := fun ratio => ratio.toNat
  lt := fun x y => x < y
  totalLe := fun x y => x ≤ y

namespace PaneLayout

variable {ι R : Type}

/-! ### Reading the tree -/

/-- Every pane of the layout, in tree order. -/
def paneIds : PaneLayout ι → List ι
  | pane id => [id]
  | split _ _ first second => first.paneIds ++ second.paneIds

def firstPane : PaneLayout ι → ι
  | pane id => id
  | split _ _ first _ => first.firstPane

/-- The layout with its panes renamed. -/
def map {κ : Type} (f : ι → κ) : PaneLayout ι → PaneLayout κ
  | pane id => pane (f id)
  | split axis ratio first second => split axis ratio (first.map f) (second.map f)

/-- `remap_pane_ids`, which fails on a pane that has no new id. -/
def remapPaneIds (paneIds : ι → Option ι) : PaneLayout ι → Option (PaneLayout ι)
  | pane id => (paneIds id).map pane
  | split axis ratio first second => do
    let first ← first.remapPaneIds paneIds
    let second ← second.remapPaneIds paneIds
    pure (split axis ratio first second)

/-- The regions of the panes, in tree order. -/
def collectRegions (F : Arithmetic R) : PaneLayout ι → R → R → R → R → List (PaneRegion ι R)
  | pane id, left, top, width, height =>
    [⟨id, left, F.add left width, top, F.add top height⟩]
  | split .horizontal ratio first second, left, top, width, height =>
    let firstHeight := F.mul height (F.div (F.ofRatio ratio) (F.ofRatio PANE_SPLIT_RATIO_SCALE))
    first.collectRegions F left top width firstHeight ++
      second.collectRegions F left (F.add top firstHeight) width (F.sub height firstHeight)
  | split .vertical ratio first second, left, top, width, height =>
    let firstWidth := F.mul width (F.div (F.ofRatio ratio) (F.ofRatio PANE_SPLIT_RATIO_SCALE))
    first.collectRegions F left top firstWidth height ++
      second.collectRegions F (F.add left firstWidth) top (F.sub width firstWidth) height

def regions (F : Arithmetic R) (l : PaneLayout ι) : List (PaneRegion ι R) :=
  l.collectRegions F F.zero F.zero F.one F.one

/-! ### Changing the tree -/

/-- What is left of a split: both children, the one that is left, or nothing. -/
def join (axis : SplitAxis) (ratio : UInt16) :
    Option (PaneLayout ι) → Option (PaneLayout ι) → Option (PaneLayout ι)
  | some first, some second => some (split axis ratio first second)
  | some layout, none => some layout
  | none, some layout => some layout
  | none, none => none

section DecidableEq

variable [DecidableEq ι]

/-- Splits a pane in two; there is no such pane if it fails. -/
def splitPane (target : ι) (axis : SplitAxis) (newPane : ι) (position : SplitPosition) :
    PaneLayout ι → Option (PaneLayout ι)
  | pane id =>
    if id = target then
      some <| match position with
        | .before => split axis DEFAULT_PANE_SPLIT_RATIO (pane newPane) (pane target)
        | .after => split axis DEFAULT_PANE_SPLIT_RATIO (pane target) (pane newPane)
    else none
  | split axis' ratio first second =>
    match first.splitPane target axis newPane position with
    | some first => some (split axis' ratio first second)
    | none => (second.splitPane target axis newPane position).map (split axis' ratio first)

/-- The layout without a pane, unless that was all. -/
def without (target : ι) : PaneLayout ι → Option (PaneLayout ι)
  | pane id => if id ≠ target then some (pane id) else none
  | split axis ratio first second =>
    join axis ratio (first.without target) (second.without target)

/-- The layout without some panes, unless these were all. -/
def withoutAll (targets : List ι) : PaneLayout ι → Option (PaneLayout ι)
  | pane id => if id ∉ targets then some (pane id) else none
  | split axis ratio first second =>
    join axis ratio (first.withoutAll targets) (second.withoutAll targets)

/-! ### Moving the focus -/

/-- How far a pane is in a direction, if it is on that side. -/
def score (F : Arithmetic R) (direction : PaneDirection) (source candidate : PaneRegion ι R) :
    Option R :=
  let sourceX := F.div (F.add source.left source.right) F.two
  let sourceY := F.div (F.add source.top source.bottom) F.two
  let candidateX := F.div (F.add candidate.left candidate.right) F.two
  let candidateY := F.div (F.add candidate.top candidate.bottom) F.two
  let total (primary perpendicular : R) : R := F.add primary (F.mul perpendicular F.two)
  match direction with
  | .left =>
    if F.lt candidateX sourceX then
      some (total (F.sub sourceX candidateX) (F.abs (F.sub sourceY candidateY)))
    else none
  | .right =>
    if F.lt sourceX candidateX then
      some (total (F.sub candidateX sourceX) (F.abs (F.sub sourceY candidateY)))
    else none
  | .up =>
    if F.lt candidateY sourceY then
      some (total (F.sub sourceY candidateY) (F.abs (F.sub sourceX candidateX)))
    else none
  | .down =>
    if F.lt sourceY candidateY then
      some (total (F.sub candidateY sourceY) (F.abs (F.sub sourceX candidateX)))
    else none

/-- The last position of a pane in the focus history, or `-1`. -/
def recency (recent : List ι) (id : ι) : ℤ :=
  ((recent.reverse.findIdx? fun id' => id' = id).map fun i =>
    ((recent.length - 1 - i : ℕ) : ℤ)).getD (-1)

/-- Of the best pane so far and a candidate, the one to focus: the candidate if it is about as
close as the closest and was focused later. -/
def preferRecent (F : Arithmetic R) (recent : List ι) (bestScore : R) (best : Option (ℤ × ι))
    (candidate : R × ι) : Option (ℤ × ι) :=
  if F.lt F.tieEpsilon (F.abs (F.sub candidate.1 bestScore)) then best
  else
    match best with
    | none => some (recency recent candidate.2, candidate.2)
    | some (bestRecency, id) =>
      if bestRecency < recency recent candidate.2 then
        some (recency recent candidate.2, candidate.2)
      else some (bestRecency, id)

/-- Of the candidates that are about as close as the closest, the one focused last. -/
def mostRecent (F : Arithmetic R) (recent : List ι) (bestScore : R) (candidates : List (R × ι)) :
    Option ι :=
  (candidates.foldl (preferRecent F recent bestScore) none).map Prod.snd

/-- `adjacent_pane`: the pane to focus when moving from a pane in a direction. -/
def adjacentPane (F : Arithmetic R) (l : PaneLayout ι) (active : ι) (direction : PaneDirection)
    (recent : List ι) : Option ι := do
  let source ← (l.regions F).find? fun region => region.id = active
  let candidates := ((l.regions F).filter fun candidate => candidate.id ≠ active).filterMap
    fun candidate => (score F direction source candidate).map (·, candidate.id)
  let first ← candidates.head?
  let bestScore := candidates.foldl
    (fun best candidate => if F.totalLe best candidate.1 then best else candidate.1) first.1
  mostRecent F recent bestScore candidates

end DecidableEq

/-! ### Which panes are placed -/

@[simp] theorem paneIds_pane (id : ι) : (pane id).paneIds = [id] := rfl

@[simp] theorem paneIds_split (axis : SplitAxis) (ratio : UInt16) (first second : PaneLayout ι) :
    (split axis ratio first second).paneIds = first.paneIds ++ second.paneIds := rfl

variable (l : PaneLayout ι)

theorem paneIds_ne_nil : l.paneIds ≠ [] := by
  induction l with
  | pane id => simp
  | split axis ratio first second ih _ => simp [ih]

theorem head?_paneIds : l.paneIds.head? = some l.firstPane := by
  induction l with
  | pane id => rfl
  | split axis ratio first second ih _ => simp [firstPane, ih]

theorem firstPane_mem : l.firstPane ∈ l.paneIds :=
  List.mem_of_mem_head? l.head?_paneIds

/-- Where every pane of the layout has a new id, these are its panes. -/
theorem remapPaneIds_eq_some {ids : ι → Option ι} {f : ι → ι} {l : PaneLayout ι}
    (h : ∀ id ∈ l.paneIds, ids id = some (f id)) : l.remapPaneIds ids = some (l.map f) := by
  induction l with
  | pane id => simp [remapPaneIds, map, h id (by simp)]
  | split axis ratio first second ih₁ ih₂ =>
    rw [remapPaneIds, ih₁ fun id hid => h id (by simp [hid]),
      ih₂ fun id hid => h id (by simp [hid])]
    rfl

/-- The regions are those of the panes. -/
theorem map_id_collectRegions (F : Arithmetic R) (l : PaneLayout ι) (left top width height : R) :
    (l.collectRegions F left top width height).map PaneRegion.id = l.paneIds := by
  induction l generalizing left top width height with
  | pane id => rfl
  | split axis ratio first second ih₁ ih₂ =>
    cases axis <;> simp [collectRegions, ih₁, ih₂]

theorem map_id_regions (F : Arithmetic R) (l : PaneLayout ι) :
    (l.regions F).map PaneRegion.id = l.paneIds := map_id_collectRegions F l ..

/-- The panes left of a split are those left of its children. -/
private theorem paneIds_join (axis : SplitAxis) (ratio : UInt16) (a b : Option (PaneLayout ι)) :
    ((join axis ratio a b).elim [] paneIds) = a.elim [] paneIds ++ b.elim [] paneIds := by
  cases a <;> cases b <;> simp [join]

section DecidableEq

variable [DecidableEq ι]

/-- **Hiding panes** leaves the others in place. -/
theorem paneIds_withoutAll (targets : List ι) (l : PaneLayout ι) :
    (l.withoutAll targets).elim [] paneIds = l.paneIds.filter fun id => id ∉ targets := by
  induction l with
  | pane id => by_cases h : id ∈ targets <;> simp [withoutAll, h]
  | split axis ratio first second ih₁ ih₂ =>
    rw [withoutAll, paneIds_join, ih₁, ih₂, paneIds_split, List.filter_append]

theorem paneIds_without (target : ι) (l : PaneLayout ι) :
    (l.without target).elim [] paneIds = l.paneIds.filter fun id => id ≠ target := by
  induction l with
  | pane id => by_cases h : id = target <;> simp [without, h]
  | split axis ratio first second ih₁ ih₂ =>
    rw [without, paneIds_join, ih₁, ih₂, paneIds_split, List.filter_append]

variable {target newPane : ι} {axis : SplitAxis} {position : SplitPosition} {l : PaneLayout ι}

/-- A pane that the layout does not place is not split. -/
theorem splitPane_eq_none (h : target ∉ l.paneIds) :
    l.splitPane target axis newPane position = none := by
  induction l with
  | pane id => simpa [splitPane, eq_comm] using h
  | split axis' ratio first second ih₁ ih₂ =>
    rw [paneIds_split, List.mem_append, not_or] at h
    rw [splitPane, ih₁ h.1, ih₂ h.2]
    rfl

/-- **Splitting a pane** of the layout places one more. -/
theorem exists_splitPane (h : target ∈ l.paneIds) :
    ∃ l', l.splitPane target axis newPane position = some l' ∧
      l'.paneIds.Perm (newPane :: l.paneIds) := by
  induction l with
  | pane id =>
    obtain rfl : id = target := by simpa [eq_comm] using h
    cases position with
    | before => exact ⟨_, if_pos rfl, List.Perm.refl _⟩
    | after => exact ⟨_, if_pos rfl, List.Perm.swap ..⟩
  | split axis' ratio first second ih₁ ih₂ =>
    by_cases hfirst : target ∈ first.paneIds
    · obtain ⟨l', heq, hperm⟩ := ih₁ hfirst
      exact ⟨split axis' ratio l' second, by simp [splitPane, heq], hperm.append_right _⟩
    · have hsecond : target ∈ second.paneIds := (List.mem_append.mp h).resolve_left hfirst
      obtain ⟨l', heq, hperm⟩ := ih₂ hsecond
      refine ⟨split axis' ratio first l', by simp [splitPane, splitPane_eq_none hfirst, heq], ?_⟩
      exact (hperm.append_left _).trans List.perm_middle

/-- The preferred pane is one of the two. -/
private theorem preferRecent_cases (F : Arithmetic R) (recent : List ι) (bestScore : R)
    (best : Option (ℤ × ι)) (candidate : R × ι) :
    preferRecent F recent bestScore best candidate = best ∨
      preferRecent F recent bestScore best candidate =
        some (recency recent candidate.2, candidate.2) := by
  unfold preferRecent
  split
  · exact .inl rfl
  split
  · exact .inr rfl
  split
  · exact .inr rfl
  · exact .inl rfl

variable {F : Arithmetic R} {recent : List ι} {id : ι}

/-- The focus moves to a candidate. -/
private theorem mem_of_mostRecent {bestScore : R} {candidates : List (R × ι)}
    (h : mostRecent F recent bestScore candidates = some id) :
    id ∈ candidates.map Prod.snd := by
  have hfold : ∀ x ∈ candidates.foldl (preferRecent F recent bestScore) none,
      x.2 ∈ candidates.map Prod.snd := by
    refine List.foldlRecOn (motive := fun best : Option (ℤ × ι) => ∀ x ∈ best,
      x.2 ∈ candidates.map Prod.snd) candidates _ (by simp) fun best hbest c hc x hx => ?_
    rcases preferRecent_cases F recent bestScore best c with heq | heq
    · exact hbest x (heq ▸ hx)
    · obtain rfl := Option.mem_some_iff.mp (heq ▸ hx)
      exact List.mem_map_of_mem hc
  rw [mostRecent, Option.map_eq_some_iff] at h
  obtain ⟨x, hx, rfl⟩ := h
  exact hfold x hx

/-- **The focus** moves to another pane of the layout. -/
theorem mem_paneIds_adjacentPane {active : ι} {direction : PaneDirection}
    (h : l.adjacentPane F active direction recent = some id) : id ∈ l.paneIds := by
  simp only [adjacentPane, Option.bind_eq_bind, Option.bind_eq_some_iff] at h
  obtain ⟨source, -, first, -, hbest⟩ := h
  have hmem := mem_of_mostRecent hbest
  rw [← map_id_regions F l]
  simp only [List.mem_map, List.mem_filterMap, List.mem_filter, Option.map_eq_some_iff] at hmem
  obtain ⟨-, ⟨region, ⟨hregion, -⟩, s, -, rfl⟩, rfl⟩ := hmem
  exact List.mem_map_of_mem hregion

end DecidableEq

end PaneLayout

end Zetta.Pane
