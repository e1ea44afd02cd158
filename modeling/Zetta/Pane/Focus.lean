import Zetta.Pane.Moving

/-!
# Moving the focus in a direction

`adjacent_pane` goes by the centres of the regions: every pane whose centre lies beyond that of
the active one is a candidate, and its score is how far the centres are apart, twice that across
the direction. The closest one is focused, of several the one focused last.

* `adjacentPane_chooses`: what that choice is. There is none only at the border of the layout.
* The choice is not one of adjacent panes: a pane at the border has candidates below and above it,
  and a wide pane beyond a column that is split can be closer than the column
  (`adjacentPane_not_neighbour`).
-/

namespace Zetta.Pane

open List
open Lib (Box Interval)

namespace PaneRegion

variable {ι : Type}

def centreX (region : PaneRegion ι ℚ) : ℚ := (region.left + region.right) / 2

def centreY (region : PaneRegion ι ℚ) : ℚ := (region.top + region.bottom) / 2

/-- The centre of the first region lies further in a direction than that of the second one. -/
def Beyond (candidate source : PaneRegion ι ℚ) : PaneDirection → Prop
  | .left => candidate.centreX < source.centreX
  | .right => source.centreX < candidate.centreX
  | .up => candidate.centreY < source.centreY
  | .down => source.centreY < candidate.centreY

/-- How far two centres are apart, twice that across a direction. -/
def distance (candidate source : PaneRegion ι ℚ) : PaneDirection → ℚ
  | .left | .right =>
    |source.centreX - candidate.centreX| + |source.centreY - candidate.centreY| * 2
  | .up | .down =>
    |source.centreY - candidate.centreY| + |source.centreX - candidate.centreX| * 2

/-- The first region shares a segment with the side of the second one in a direction. -/
def Neighbours (candidate source : PaneRegion ι ℚ) : PaneDirection → Prop
  | .left => candidate.right = source.left ∧
      max candidate.top source.top < min candidate.bottom source.bottom
  | .right => candidate.left = source.right ∧
      max candidate.top source.top < min candidate.bottom source.bottom
  | .up => candidate.bottom = source.top ∧
      max candidate.left source.left < min candidate.right source.right
  | .down => candidate.top = source.bottom ∧
      max candidate.left source.left < min candidate.right source.right

instance decidableTouches (region : PaneRegion ι ℚ) :
    (direction : PaneDirection) → Decidable (region.Touches direction)
  | .left => inferInstanceAs (Decidable (_ = _))
  | .right => inferInstanceAs (Decidable (_ = _))
  | .up => inferInstanceAs (Decidable (_ = _))
  | .down => inferInstanceAs (Decidable (_ = _))

instance decidableNeighbours (candidate source : PaneRegion ι ℚ) :
    (direction : PaneDirection) → Decidable (candidate.Neighbours source direction)
  | .left => inferInstanceAs (Decidable (_ ∧ _))
  | .right => inferInstanceAs (Decidable (_ ∧ _))
  | .up => inferInstanceAs (Decidable (_ ∧ _))
  | .down => inferInstanceAs (Decidable (_ ∧ _))

end PaneRegion

namespace PaneLayout

variable {ι : Type}

/-! ### Scores -/

theorem exact_abs (x : ℚ) : Arithmetic.exact.abs x = |x| := by
  change (if x < 0 then -x else x) = |x|
  split_ifs with h
  · exact (abs_of_neg h).symm
  · exact (abs_of_nonneg (not_lt.mp h)).symm

/-- **A pane has a score** if its centre lies beyond, and it is the distance. -/
theorem score_exact (direction : PaneDirection) (source candidate : PaneRegion ι ℚ) (s : ℚ) :
    score Arithmetic.exact direction source candidate = some s ↔
      candidate.Beyond source direction ∧ s = candidate.distance source direction := by
  cases direction
  all_goals
    simp only [score, exact_abs]
    simp only [Arithmetic.exact, decide_eq_true_eq, Option.ite_none_right_eq_some,
      Option.some.injEq, PaneRegion.Beyond, PaneRegion.distance, PaneRegion.centreX,
      PaneRegion.centreY]
    refine and_congr_right fun h => ?_
    first
      | rw [abs_of_pos (sub_pos.mpr h), eq_comm]
      | rw [abs_of_neg (sub_neg.mpr h), neg_sub, eq_comm]

/-- The least of the scores so far and those of the candidates. -/
private def least (candidates : List (ℚ × ι)) (best : ℚ) : ℚ :=
  candidates.foldl (fun best candidate =>
    if Arithmetic.exact.totalLe best candidate.1 then best else candidate.1) best

private theorem least_spec (candidates : List (ℚ × ι)) (best : ℚ) :
    (least candidates best = best ∨ ∃ c ∈ candidates, least candidates best = c.1) ∧
      least candidates best ≤ best ∧ ∀ c ∈ candidates, least candidates best ≤ c.1 := by
  induction candidates generalizing best with
  | nil => exact ⟨.inl rfl, le_rfl, fun c hc => absurd hc (not_mem_nil)⟩
  | cons candidate candidates ih =>
    obtain ⟨hmem, hle, hall⟩ :=
      ih (if Arithmetic.exact.totalLe best candidate.1 then best else candidate.1)
    have hmin : (if Arithmetic.exact.totalLe best candidate.1 then best else candidate.1) =
        min best candidate.1 := by
      simp [Arithmetic.exact, min_def]
    rw [hmin] at hmem hle hall
    rw [least, foldl_cons, hmin, ← least]
    refine ⟨?_, hle.trans (min_le_left _ _), fun c hc => ?_⟩
    · rcases hmem with hmem | ⟨c, hc, hmem⟩
      · rcases min_choice best candidate.1 with hmin | hmin
        · exact .inl (hmem.trans hmin)
        · exact .inr ⟨candidate, mem_cons_self, hmem.trans hmin⟩
      · exact .inr ⟨c, mem_cons_of_mem _ hc, hmem⟩
    · rcases mem_cons.mp hc with rfl | hc
      · exact hle.trans (min_le_right _ _)
      · exact hall c hc

section DecidableEq

variable [DecidableEq ι]

/-- A score is about as good as the best one. -/
private def Tied (bestScore : ℚ) (candidate : ℚ × ι) : Prop :=
  |candidate.1 - bestScore| ≤ 1 / 10000

omit [DecidableEq ι] in
private theorem not_tied_iff (bestScore : ℚ) (candidate : ℚ × ι) :
    Arithmetic.exact.lt Arithmetic.exact.tieEpsilon
      (Arithmetic.exact.abs (Arithmetic.exact.sub candidate.1 bestScore)) = true ↔
      ¬Tied bestScore candidate := by
  rw [exact_abs, Tied, not_le]
  exact decide_eq_true_iff

/-- **Of the tied candidates** the choice is the one focused last. -/
private theorem foldl_preferRecent (recent : List ι) (bestScore : ℚ) (candidates : List (ℚ × ι))
    (best : Option (ℤ × ι)) :
    let choice := candidates.foldl (preferRecent Arithmetic.exact recent bestScore) best
    (∀ x ∈ best, ∃ y ∈ choice, x.1 ≤ y.1) ∧
      (∀ c ∈ candidates, Tied bestScore c → ∃ y ∈ choice, recency recent c.2 ≤ y.1) ∧
      ∀ y ∈ choice, y ∈ best ∨
        ∃ c ∈ candidates, Tied bestScore c ∧ y = (recency recent c.2, c.2) := by
  induction candidates generalizing best with
  | nil =>
    refine ⟨fun x hx => ⟨x, hx, le_rfl⟩, fun c hc => absurd hc not_mem_nil, ?_⟩
    exact fun y hy => .inl hy
  | cons candidate candidates ih =>
    obtain ⟨hbest, hall, hfrom⟩ :=
      ih (preferRecent Arithmetic.exact recent bestScore best candidate)
    rw [foldl_cons]
    -- what one candidate does to the choice so far
    have hstep : (∀ x ∈ best, ∃ y ∈ preferRecent Arithmetic.exact recent bestScore best candidate,
          x.1 ≤ y.1) ∧
        (Tied bestScore candidate → ∃ y ∈ preferRecent Arithmetic.exact recent bestScore best
          candidate, recency recent candidate.2 ≤ y.1) ∧
        ∀ y ∈ preferRecent Arithmetic.exact recent bestScore best candidate, y ∈ best ∨
          Tied bestScore candidate ∧ y = (recency recent candidate.2, candidate.2) := by
      unfold preferRecent
      by_cases htied : Tied bestScore candidate
      · rw [if_neg (by rw [not_tied_iff]; exact not_not.mpr htied)]
        cases best with
        | none => simp [htied]
        | some x =>
          obtain ⟨bestRecency, id⟩ := x
          by_cases hlt : bestRecency < recency recent candidate.2
          · simp [hlt, hlt.le, htied]
          · simp [hlt, not_lt.mp hlt]
      · rw [if_pos ((not_tied_iff _ _).mpr htied)]
        exact ⟨fun x hx => ⟨x, hx, le_rfl⟩, fun h => absurd h htied, fun y hy => .inl hy⟩
    obtain ⟨hkept, htaken, horigin⟩ := hstep
    refine ⟨fun x hx => ?_, fun c hc htied => ?_, fun y hy => ?_⟩
    · obtain ⟨x', hx', hle⟩ := hkept x hx
      obtain ⟨y, hy, hle'⟩ := hbest x' hx'
      exact ⟨y, hy, hle.trans hle'⟩
    · rcases mem_cons.mp hc with rfl | hc
      · obtain ⟨x', hx', hle⟩ := htaken htied
        obtain ⟨y, hy, hle'⟩ := hbest x' hx'
        exact ⟨y, hy, hle.trans hle'⟩
      · exact hall c hc htied
    · rcases hfrom y hy with hy | ⟨c, hc, htied, rfl⟩
      · rcases horigin y hy with hy | ⟨htied, rfl⟩
        · exact .inl hy
        · exact .inr ⟨candidate, mem_cons_self, htied, rfl⟩
      · exact .inr ⟨c, mem_cons_of_mem _ hc, htied, rfl⟩

/-- The panes whose centre lies beyond that of the active one, with their scores. -/
private def candidates (l : PaneLayout ι) (active : ι) (direction : PaneDirection)
    (source : PaneRegion ι ℚ) : List (ℚ × ι) :=
  ((l.regions Arithmetic.exact).filter fun candidate => candidate.id ≠ active).filterMap
    fun candidate => (score Arithmetic.exact direction source candidate).map (·, candidate.id)

variable {l : PaneLayout ι} {active id : ι} {source : PaneRegion ι ℚ} {direction : PaneDirection}

private theorem mem_candidates {s : ℚ} :
    (s, id) ∈ l.candidates active direction source ↔
      ∃ region ∈ l.regions Arithmetic.exact, region.id ≠ active ∧ region.id = id ∧
        region.Beyond source direction ∧ s = region.distance source direction := by
  simp only [candidates, mem_filterMap, mem_filter, decide_eq_true_eq,
    Option.map_eq_some_iff, score_exact, Prod.mk.injEq]
  constructor
  · rintro ⟨region, ⟨hregion, hne⟩, s', hs', rfl, rfl⟩
    exact ⟨region, hregion, hne, rfl, hs'⟩
  · rintro ⟨region, hregion, hne, rfl, hs⟩
    exact ⟨region, ⟨hregion, hne⟩, s, hs, rfl, rfl⟩

private theorem adjacentPane_eq
    (hsource : (l.regions Arithmetic.exact).find? (fun region => region.id = active) = some source)
    (direction : PaneDirection) (recent : List ι) :
    l.adjacentPane Arithmetic.exact active direction recent =
      (l.candidates active direction source).head?.bind fun first =>
        mostRecent Arithmetic.exact recent (least (l.candidates active direction source) first.1)
          (l.candidates active direction source) := by
  rw [adjacentPane, hsource]
  rfl

omit [DecidableEq ι] in
/-- A candidate with the least score is tied with it. -/
private theorem exists_tied (first : ℚ × ι) (rest : List (ℚ × ι)) :
    ∃ c ∈ first :: rest, c.1 = least (first :: rest) first.1 ∧
      Tied (least (first :: rest) first.1) c := by
  obtain ⟨hmem, -, -⟩ := least_spec (first :: rest) first.1
  have hself : ∀ x : ℚ, |x - x| ≤ 1 / 10000 := by
    intro x
    rw [sub_self, abs_zero]
    norm_num
  rcases hmem with hmem | ⟨c, hc, hmem⟩
  · exact ⟨first, mem_cons_self, hmem.symm, by rw [hmem]; exact hself _⟩
  · exact ⟨c, hc, hmem.symm, by rw [hmem]; exact hself _⟩

/-- There is a choice where there is a candidate. -/
private theorem adjacentPane_eq_none_iff
    (hsource : (l.regions Arithmetic.exact).find? (fun region => region.id = active) = some source)
    (direction : PaneDirection) (recent : List ι) :
    l.adjacentPane Arithmetic.exact active direction recent = none ↔
      l.candidates active direction source = [] := by
  rw [adjacentPane_eq hsource]
  generalize l.candidates active direction source = candidates
  cases candidates with
  | nil => simp
  | cons first rest =>
    obtain ⟨c, hc, -, htied⟩ := exists_tied first rest
    obtain ⟨-, htaken, -⟩ :=
      foldl_preferRecent recent (least (first :: rest) first.1) (first :: rest) none
    refine iff_of_false ?_ (by simp)
    obtain ⟨y, hy, -⟩ := htaken c hc htied
    rw [head?_cons, Option.bind_some, mostRecent, Option.mem_def.mp hy]
    simp

/-- The choice is tied with the best candidate, and no candidate tied with it was focused later. -/
private theorem adjacentPane_eq_some
    (hsource : (l.regions Arithmetic.exact).find? (fun region => region.id = active) = some source)
    {recent : List ι} (h : l.adjacentPane Arithmetic.exact active direction recent = some id) :
    ∃ best, (∀ c ∈ l.candidates active direction source, best ≤ c.1) ∧
      (∃ c ∈ l.candidates active direction source, c.1 = best) ∧
      (∃ c ∈ l.candidates active direction source, c.2 = id ∧ c.1 ≤ best + 1 / 10000) ∧
      ∀ c ∈ l.candidates active direction source, c.1 ≤ best + 1 / 10000 →
        recency recent c.2 ≤ recency recent id := by
  rw [adjacentPane_eq hsource] at h
  revert h
  generalize l.candidates active direction source = candidates
  intro h
  cases candidates with
  | nil => exact absurd h (by simp)
  | cons first rest =>
    rw [head?_cons, Option.bind_some, mostRecent, Option.map_eq_some_iff] at h
    obtain ⟨⟨r, id'⟩, hchoice, rfl⟩ := h
    obtain ⟨-, -, hleast⟩ := least_spec (first :: rest) first.1
    obtain ⟨c, hc, hbest, -⟩ := exists_tied first rest
    obtain ⟨-, htaken, hfrom⟩ :=
      foldl_preferRecent recent (least (first :: rest) first.1) (first :: rest) none
    have htied : ∀ c ∈ first :: rest, Tied (least (first :: rest) first.1) c ↔
        c.1 ≤ least (first :: rest) first.1 + 1 / 10000 := by
      intro c hc
      rw [Tied, abs_of_nonneg (sub_nonneg.mpr (hleast c hc)), sub_le_iff_le_add']
    refine ⟨least (first :: rest) first.1, hleast, ⟨c, hc, hbest⟩, ?_, fun c hc hle => ?_⟩
    · rcases hfrom _ (Option.mem_def.mpr hchoice) with hnone | ⟨c, hc, hties, heq⟩
      · exact absurd hnone (by simp)
      · exact ⟨c, hc, (Prod.mk.inj heq).2.symm, (htied c hc).mp hties⟩
    · rcases hfrom _ (Option.mem_def.mpr hchoice) with hnone | ⟨c', hc', -, heq⟩
      · exact absurd hnone (by simp)
      obtain ⟨y, hy, hlast⟩ := htaken c hc ((htied c hc).mpr hle)
      obtain rfl : (r, id') = y := Option.some.inj (hchoice.symm.trans hy)
      cases heq
      exact hlast

/-! ### Who is beyond -/

omit [DecidableEq ι] in
/-- Some pane lies on each side of the box. -/
theorem exists_at_side (l : PaneLayout ι) (b : Box SplitAxis ℚ) (axis : SplitAxis)
    (towardFirst : Bool) :
    ∃ id c, (id, c) ∈ l.cells b ∧ side towardFirst (c axis) = side towardFirst (b axis) := by
  induction l generalizing b with
  | pane id => exact ⟨id, b, mem_singleton_self _, rfl⟩
  | split splitAxis ratio first second ih₁ ih₂ =>
    cases towardFirst with
    | true =>
      obtain ⟨id, c, hc, hside⟩ := ih₁ (b.firstPart splitAxis (share ratio))
      exact ⟨id, c, mem_append_left _ hc, hside.trans (b.lo_firstPart ..)⟩
    | false =>
      obtain ⟨id, c, hc, hside⟩ := ih₂ (b.secondPart splitAxis (share ratio))
      exact ⟨id, c, mem_append_right _ hc, hside.trans (b.hi_secondPart ..)⟩

/-- The second interval has its centre further on. -/
def Past (towardFirst : Bool) (i j : Lib.Interval ℚ) : Prop :=
  if towardFirst then j.lo + j.hi < i.lo + i.hi else i.lo + i.hi < j.lo + j.hi

omit [DecidableEq ι] in
/-- **A pane that does not touch the border** has another one beyond it. -/
theorem exists_past (hnodup : l.paneIds.Nodup) (hratios : l.RatiosWithin) {b : Box SplitAxis ℚ}
    (hb : b.Ordered) {c : Box SplitAxis ℚ} (hc : (id, c) ∈ l.cells b) {axis : SplitAxis}
    {towardFirst : Bool} (hne : side towardFirst (c axis) ≠ side towardFirst (b axis)) :
    ∃ id' c', (id', c') ∈ l.cells b ∧ id' ≠ id ∧ Past towardFirst (c axis) (c' axis) := by
  induction l generalizing b with
  | pane id' =>
    cases mem_singleton.mp hc
    exact absurd rfl hne
  | split splitAxis ratio first second ih₁ ih₂ =>
    obtain ⟨hle, hfirst, hsecond⟩ := hratios
    rw [paneIds_split] at hnodup
    have hdisjoint := disjoint_of_nodup_append hnodup
    have hordered₁ := hb.firstPart splitAxis (share_nonneg ratio)
    have hordered₂ := hb.secondPart splitAxis (share_le_one hle)
    rcases mem_append.mp hc with hc | hc
    · have hin := mem_paneIds_of_cell hc
      by_cases hinner : side towardFirst (c axis) =
          side towardFirst (b.firstPart splitAxis (share ratio) axis)
      · -- it touches the border of its child, which is away from that of the split
        obtain rfl : axis = splitAxis := by
          by_contra haxis
          exact hne (by rw [hinner, Box.firstPart_of_ne haxis])
        cases towardFirst with
        | true => exact absurd (hinner.trans (b.lo_firstPart ..)) hne
        | false =>
          obtain ⟨id', c', hc', hside⟩ :=
            exists_at_side second (b.secondPart axis (share ratio)) axis false
          have hout := mem_paneIds_of_cell hc'
          refine ⟨id', c', mem_append_right _ hc', fun h => hdisjoint hin (h ▸ hout), ?_⟩
          have hlo := ((cell_within hsecond hordered₂ hc').2 axis).1
          have hhi := hb.firstPart_hi_le axis (share_le_one hle) axis
          have hlength := (cell_within hfirst hordered₁ hc).1 axis
          simp only [side, Bool.false_eq_true, if_false, Box.firstPart_same, Box.secondPart_same,
            Interval.firstPart_hi, Interval.secondPart_lo, Interval.secondPart_hi] at *
          have hlt : (b axis).point (share ratio) < (b axis).hi :=
            lt_of_le_of_ne hhi (hinner ▸ hne)
          rw [Lib.Interval.length] at hlength
          simp only [Past, Bool.false_eq_true, if_false]
          linarith
      · obtain ⟨id', c', hc', hother, hpast⟩ := ih₁ hnodup.of_append_left hfirst hordered₁ hc hinner
        exact ⟨id', c', mem_append_left _ hc', hother, hpast⟩
    · have hin := mem_paneIds_of_cell hc
      by_cases hinner : side towardFirst (c axis) =
          side towardFirst (b.secondPart splitAxis (share ratio) axis)
      · obtain rfl : axis = splitAxis := by
          by_contra haxis
          exact hne (by rw [hinner, Box.secondPart_of_ne haxis])
        cases towardFirst with
        | false => exact absurd (hinner.trans (b.hi_secondPart ..)) hne
        | true =>
          obtain ⟨id', c', hc', hside⟩ :=
            exists_at_side first (b.firstPart axis (share ratio)) axis true
          have hout := mem_paneIds_of_cell hc'
          refine ⟨id', c', mem_append_left _ hc', fun h => hdisjoint hout (h ▸ hin), ?_⟩
          have hhi := ((cell_within hfirst hordered₁ hc').2 axis).2
          have hlo := hb.le_secondPart_lo axis (share_nonneg ratio) axis
          have hlength := (cell_within hsecond hordered₂ hc).1 axis
          simp only [side, if_true, Box.firstPart_same, Box.secondPart_same,
            Interval.firstPart_lo, Interval.firstPart_hi, Interval.secondPart_lo] at *
          have hlt : (b axis).lo < (b axis).point (share ratio) :=
            lt_of_le_of_ne hlo (Ne.symm (hinner ▸ hne))
          rw [Lib.Interval.length] at hlength
          simp only [Past, if_true]
          linarith
      · obtain ⟨id', c', hc', hother, hpast⟩ :=
          ih₂ hnodup.of_append_right hsecond hordered₂ hc hinner
        exact ⟨id', c', mem_append_right _ hc', hother, hpast⟩

omit [DecidableEq ι] in
theorem beyond_iff_past (id id' : ι) (c c' : Box SplitAxis ℚ) (direction : PaneDirection) :
    (PaneRegion.ofBox id' c').Beyond (PaneRegion.ofBox id c) direction ↔
      Past direction.towardFirst (c direction.axis) (c' direction.axis) := by
  cases direction <;> exact div_lt_div_iff_of_pos_right (by norm_num)

/-! ### The choice -/

/-- **The focus moves** to a pane whose centre lies beyond that of the active one, of those the
closest, of several that are about as close the one focused last. It does not move if there is no
such pane, which with distinct panes and ratios within the scale is at the border only. -/
theorem adjacentPane_chooses (l : PaneLayout ι) {active : ι} {source : PaneRegion ι ℚ}
    (hsource : (l.regions Arithmetic.exact).find? (fun region => region.id = active) = some source)
    (direction : PaneDirection) (recent : List ι) :
    (l.adjacentPane Arithmetic.exact active direction recent = none ↔
      ∀ region ∈ l.regions Arithmetic.exact, region.id ≠ active →
        ¬region.Beyond source direction) ∧
    (l.paneIds.Nodup → l.RatiosWithin →
      l.adjacentPane Arithmetic.exact active direction recent = none →
        source.Touches direction) ∧
    ∀ id, l.adjacentPane Arithmetic.exact active direction recent = some id →
      ∃ best, (∀ region ∈ l.regions Arithmetic.exact, region.id ≠ active →
          region.Beyond source direction → best ≤ region.distance source direction) ∧
        (∃ region ∈ l.regions Arithmetic.exact, region.id ≠ active ∧
          region.Beyond source direction ∧ region.distance source direction = best) ∧
        (∃ region ∈ l.regions Arithmetic.exact, region.id = id ∧ id ≠ active ∧
          region.Beyond source direction ∧
            region.distance source direction ≤ best + 1 / 10000) ∧
        ∀ region ∈ l.regions Arithmetic.exact, region.id ≠ active →
          region.Beyond source direction → region.distance source direction ≤ best + 1 / 10000 →
            recency recent region.id ≤ recency recent id := by
  have hnone : l.adjacentPane Arithmetic.exact active direction recent = none ↔
      l.candidates active direction source = [] := adjacentPane_eq_none_iff hsource direction recent
  have hcandidates : l.candidates active direction source = [] ↔
      ∀ region ∈ l.regions Arithmetic.exact, region.id ≠ active →
        ¬region.Beyond source direction := by
    rw [eq_nil_iff_forall_not_mem]
    constructor
    · intro h region hregion hother hbeyond
      exact h (_, region.id) (mem_candidates.mpr ⟨region, hregion, hother, rfl, hbeyond, rfl⟩)
    · rintro h ⟨s, id⟩ hmem
      obtain ⟨region, hregion, hother, -, hbeyond, -⟩ := mem_candidates.mp hmem
      exact h region hregion hother hbeyond
  refine ⟨hnone.trans hcandidates, fun hnodup hratios h => ?_, fun id h => ?_⟩
  · -- no pane lies beyond, so that the active one is at the border
    replace h := hcandidates.mp (hnone.mp h)
    have hmem := mem_of_find?_eq_some hsource
    have hactive : source.id = active := by simpa using find?_some hsource
    obtain ⟨c, hc, heq⟩ := mem_regions_exact.mp hmem
    rw [heq, touches_iff]
    by_contra hne
    obtain ⟨id', c', hc', hother, hpast⟩ :=
      exists_past hnodup hratios Box.proper_unit.ordered hc hne
    refine h (PaneRegion.ofBox id' c') (mem_regions_exact.mpr ⟨c', hc', rfl⟩) (hactive ▸ hother) ?_
    rw [heq]
    exact (beyond_iff_past ..).mpr hpast
  · obtain ⟨best, hleast, ⟨⟨s, id₁⟩, hmem, hbest⟩, ⟨⟨s', id₂⟩, hchosen, rfl, hclose⟩, hrecent⟩ :=
      adjacentPane_eq_some hsource h
    obtain ⟨region, hregion, hother, -, hbeyond, hs⟩ := mem_candidates.mp hmem
    obtain ⟨region', hregion', hother', hid, hbeyond', hs'⟩ := mem_candidates.mp hchosen
    have hcandidate : ∀ region ∈ l.regions Arithmetic.exact, region.id ≠ active →
        region.Beyond source direction → (region.distance source direction, region.id) ∈
          l.candidates active direction source := fun region hregion hother hbeyond =>
      mem_candidates.mpr ⟨region, hregion, hother, rfl, hbeyond, rfl⟩
    refine ⟨best, fun region hregion hother hbeyond => ?_, ?_, ?_, ?_⟩
    · exact hleast _ (hcandidate region hregion hother hbeyond)
    · exact ⟨region, hregion, hother, hbeyond, hs.symm.trans hbest⟩
    · exact ⟨region', hregion', hid, hid ▸ hother', hbeyond', hs' ▸ hclose⟩
    · intro region hregion hother hbeyond hle
      exact hrecent _ (hcandidate region hregion hother hbeyond) hle

end DecidableEq

/-! ### Choices that are not adjacent -/

/-- A pane, a narrow column of two and a wide pane, side by side. -/
def besideColumn : PaneLayout ℕ :=
  split .vertical 300 (pane 1)
    (split .vertical 200 (split .horizontal 500 (pane 2) (pane 3)) (pane 4))

/-- The region of the first of these panes. -/
def besideFirst : PaneRegion ℕ ℚ := ⟨1, 0, 0 + 1 * (300 / 1000), 0, 0 + 1⟩

/-- A pane on top of two others. -/
def onTop : PaneLayout ℕ :=
  split .horizontal 500 (pane 1) (split .vertical 500 (pane 2) (pane 3))

/-- Of the panes on the right of the first one the widest is chosen: its centre is the closest. -/
theorem adjacentPane_chooses_right :
    ∃ best, (∀ region ∈ besideColumn.regions Arithmetic.exact, region.id ≠ 1 →
        region.Beyond besideFirst .right → best ≤ region.distance besideFirst .right) ∧
      ∃ region ∈ besideColumn.regions Arithmetic.exact, region.id = 4 ∧
        region.Beyond besideFirst .right ∧
          region.distance besideFirst .right ≤ best + 1 / 10000 := by
  have hsource : (besideColumn.regions Arithmetic.exact).find? (fun region => region.id = 1) =
      some besideFirst := rfl
  obtain ⟨best, hleast, -, ⟨region, hregion, hid, -, hbeyond, hclose⟩, -⟩ :=
    (adjacentPane_chooses besideColumn hsource .right []).2.2 4 (by decide +kernel)
  exact ⟨best, hleast, region, hregion, hid, hbeyond, hclose⟩

/-- **The choice is not one of adjacent panes.** From the pane beside the column the focus moves
past the column, to the wide pane behind it, and from the pane on top of two others it moves to the
right although that pane is at the right border. With panes that are not distinct, or a ratio beyond
the scale, it may not move although the pane is away from the border. -/
theorem adjacentPane_not_neighbour :
    (besideColumn.adjacentPane Arithmetic.exact 1 .right [] = some 4 ∧
      ∀ source ∈ besideColumn.regions Arithmetic.exact, source.id = 1 →
        ∀ region ∈ besideColumn.regions Arithmetic.exact, region.id = 4 →
          ¬region.Neighbours source .right) ∧
    (onTop.adjacentPane Arithmetic.exact 1 .right [] = some 3 ∧
      ∀ source ∈ onTop.regions Arithmetic.exact, source.id = 1 → source.Touches .right) ∧
    ((split .vertical 500 (pane 1) (pane 1)).adjacentPane Arithmetic.exact 1 .right [] = none ∧
      ∀ source ∈ ((split .vertical 500 (pane 1) (pane 1)).regions Arithmetic.exact).head?,
        ¬source.Touches .right) ∧
    (split .vertical 500 (split .vertical 2000 (pane 1) (pane 2)) (pane 3)).adjacentPane
        Arithmetic.exact 2 .right [] = none ∧
      ∀ source ∈ (split .vertical 500 (split .vertical 2000 (pane 1) (pane 2)) (pane 3)).regions
        Arithmetic.exact, source.id = 2 → ¬source.Touches .right := by
  decide +kernel

end PaneLayout

end Zetta.Pane
