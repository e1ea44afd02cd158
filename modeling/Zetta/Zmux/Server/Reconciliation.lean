import Zetta.Lib.FirstOccurrences
import Zetta.Zmux.Server.AllOrNothing

/-!
# Reconciliation with the live panes

What a client says of a session is repaired before it is used: its panes are the live ones, and its
layout places each of them once.

* `describes_of_livePanes`: what the summary is rebuilt to, from any two descriptions and layouts.
* `summaryFromDaemonPanes_of_inStep`: a summary that is in step is left as it is, so that a repair
  made twice is a repair made once.
* `reconciling_iff`: the canonical state that is stored passes validation, and is left alone by an
  error unless it is the write to disk that fails: by then it has been replaced.
-/

namespace Zetta.Zmux.Server.Control

open List BackgroundPaneLayout

variable {V : Type}

/-! ### Layouts without some of their panes -/

/-- A layout lies in another one: it has some of its panes, in their order, and the splits that
keep a pane on either side. -/
inductive Within : BackgroundPaneLayout → BackgroundPaneLayout → Prop
  | pane (paneId : ℕ) : Within (pane paneId) (pane paneId)
  | split (axis : String) (firstRatio : UInt16) {first first' second second' : BackgroundPaneLayout}
    (hfirst : Within first first') (hsecond : Within second second') :
    Within (split axis firstRatio first second) (split axis firstRatio first' second')
  | first (axis : String) (firstRatio : UInt16) {layout first : BackgroundPaneLayout}
    (second : BackgroundPaneLayout) (h : Within layout first) :
    Within layout (split axis firstRatio first second)
  | second (axis : String) (firstRatio : UInt16) {layout second : BackgroundPaneLayout}
    (first : BackgroundPaneLayout) (h : Within layout second) :
    Within layout (split axis firstRatio first second)

namespace Within

variable {layout layout' : BackgroundPaneLayout}

theorem refl (layout : BackgroundPaneLayout) : Within layout layout := by
  induction layout with
  | pane paneId => exact .pane paneId
  | split axis firstRatio first second ih ih' => exact .split axis firstRatio ih ih'

theorem trans {whole : BackgroundPaneLayout} (h : Within layout layout') (h' : Within layout' whole) :
    Within layout whole := by
  induction h' generalizing layout with
  | pane paneId => exact h
  | split axis firstRatio _ _ ih ih' =>
    cases h with
    | split _ _ hfirst hsecond => exact .split axis firstRatio (ih hfirst) (ih' hsecond)
    | first _ _ _ h => exact .first axis firstRatio _ (ih h)
    | second _ _ _ h => exact .second axis firstRatio _ (ih' h)
  | first axis firstRatio second _ ih => exact .first axis firstRatio second (ih h)
  | second axis firstRatio first _ ih => exact .second axis firstRatio first (ih h)

theorem sublist (h : Within layout layout') :
    (layoutPaneIds layout).Sublist (layoutPaneIds layout') := by
  induction h with
  | pane paneId => exact .refl _
  | split axis firstRatio _ _ ih ih' => exact ih.append ih'
  | first axis firstRatio second _ ih => exact ih.trans (sublist_append_left ..)
  | second axis firstRatio first _ ih => exact ih.trans (sublist_append_right ..)

/-- One that has all of the panes is the other. -/
theorem eq_of_length (h : Within layout layout')
    (hlength : (layoutPaneIds layout).length = (layoutPaneIds layout').length) :
    layout = layout' := by
  have hpos : ∀ layout : BackgroundPaneLayout, 0 < (layoutPaneIds layout).length :=
    fun layout => length_pos_iff.mpr (layoutPaneIds_ne_nil layout)
  induction h with
  | pane paneId => rfl
  | split axis firstRatio hfirst hsecond ih ih' =>
    have hle := hfirst.sublist.length_le
    have hle' := hsecond.sublist.length_le
    rw [layoutPaneIds_split, layoutPaneIds_split, length_append, length_append] at hlength
    rw [ih (by omega), ih' (by omega)]
  | first axis firstRatio second h _ =>
    have hle := h.sublist.length_le
    rw [layoutPaneIds_split, length_append] at hlength
    exact absurd (hpos second) (by omega)
  | second axis firstRatio first h _ =>
    have hle := h.sublist.length_le
    rw [layoutPaneIds_split, length_append] at hlength
    exact absurd (hpos first) (by omega)

end Within

/-- The panes of a layout, if there is one. -/
def paneIdsOf (layout : Option BackgroundPaneLayout) : List ℕ := layout.elim [] layoutPaneIds

/-- The live panes of a layout, each where it is first. -/
def livePanesOf (live : List ℕ) (layout : BackgroundPaneLayout) : List ℕ :=
  firsts id ((layoutPaneIds layout).filter (· ∈ live))

theorem liveLayoutCoverage_eq (layout : BackgroundPaneLayout) (live : List ℕ) :
    liveLayoutCoverage layout live = (livePanesOf live layout).length := rfl

/-- **What is retained** are the live panes that have not been seen, each where it is first, and the
layout of them lies in the one they are from. -/
theorem retainDaemonPanesInLayout_spec (live : List ℕ) (layout : BackgroundPaneLayout)
    (seen : List ℕ) :
    paneIdsOf (retainDaemonPanesInLayout live layout seen).1 =
        firsts id ((layoutPaneIds layout).filter fun paneId => paneId ∈ live ∧ paneId ∉ seen) ∧
      (∀ paneId, paneId ∈ (retainDaemonPanesInLayout live layout seen).2 ↔
        paneId ∈ seen ∨ paneId ∈ live ∧ paneId ∈ layoutPaneIds layout) ∧
      ∀ retained, (retainDaemonPanesInLayout live layout seen).1 = some retained →
        Within retained layout := by
  induction layout generalizing seen with
  | pane id =>
    rw [retainDaemonPanesInLayout]
    split_ifs with h
    · refine ⟨?_, fun paneId => ?_, ?_⟩
      · simp [paneIdsOf, h, firsts_cons]
      · simp only [mem_cons, layoutPaneIds_pane, not_mem_nil, or_false]
        constructor
        · rintro (rfl | hseen)
          · exact .inr ⟨h.1, rfl⟩
          · exact .inl hseen
        · rintro (hseen | ⟨-, rfl⟩)
          · exact .inr hseen
          · exact .inl rfl
      · rintro retained hretained
        cases hretained
        exact .pane id
    · refine ⟨?_, fun paneId => ?_, ?_⟩
      · simp [paneIdsOf, h]
      · simp only [layoutPaneIds_pane, mem_singleton]
        constructor
        · exact .inl
        · rintro (hseen | ⟨hlive, rfl⟩)
          · exact hseen
          · by_contra hseen
            exact h ⟨hlive, hseen⟩
      · rintro retained hretained
        cases hretained
  | split axis firstRatio first second ih ih' =>
    obtain ⟨hids, hseen, hwithin⟩ := ih seen
    obtain ⟨hids', hseen', hwithin'⟩ := ih' (retainDaemonPanesInLayout live first seen).2
    rw [retainDaemonPanesInLayout]
    dsimp only
    -- What the second child may still keep.
    have hrest : firsts id (((layoutPaneIds second).filter fun paneId =>
        paneId ∈ live ∧ paneId ∉ seen).filter fun paneId => paneId ∉ ((layoutPaneIds first).filter
          fun paneId => paneId ∈ live ∧ paneId ∉ seen).map id) =
        paneIdsOf (retainDaemonPanesInLayout live second
          (retainDaemonPanesInLayout live first seen).2).1 := by
      rw [hids', filter_filter, map_id]
      refine congrArg (firsts id) (filter_congr fun paneId _ => ?_)
      rw [← Bool.decide_and, decide_eq_decide, hseen, mem_filter, decide_eq_true_eq]
      by_cases hlive : paneId ∈ live
      · by_cases hold : paneId ∈ seen
        · simp [hold]
        · simp [hlive, hold]
      · simp [hlive]
    have hall : firsts id ((layoutPaneIds (split axis firstRatio first second)).filter
        fun paneId => paneId ∈ live ∧ paneId ∉ seen) =
        paneIdsOf (retainDaemonPanesInLayout live first seen).1 ++
          paneIdsOf (retainDaemonPanesInLayout live second
            (retainDaemonPanesInLayout live first seen).2).1 := by
      rw [layoutPaneIds_split, filter_append, firsts_append, ← hids]
      exact congrArg _ hrest
    refine ⟨?_, fun paneId => ?_, ?_⟩
    · rw [hall]
      cases (retainDaemonPanesInLayout live first seen).1 with
      | none => cases (retainDaemonPanesInLayout live second _).1 <;> rfl
      | some retained =>
        cases (retainDaemonPanesInLayout live second _).1 with
        | none => exact (append_nil _).symm
        | some retained' => rfl
    · have hmem : paneId ∈ (retainDaemonPanesInLayout live second
          (retainDaemonPanesInLayout live first seen).2).2 ↔ paneId ∈ seen ∨ paneId ∈ live ∧
            paneId ∈ layoutPaneIds (split axis firstRatio first second) := by
        rw [hseen', hseen, layoutPaneIds_split, mem_append, and_or_left, or_assoc]
      rw [← hmem]
      cases (retainDaemonPanesInLayout live first seen).1 with
      | none => cases (retainDaemonPanesInLayout live second _).1 <;> rfl
      | some retained => cases (retainDaemonPanesInLayout live second _).1 <;> rfl
    · intro layout hlayout
      cases hfirst : (retainDaemonPanesInLayout live first seen).1 with
      | none =>
        cases hsecond : (retainDaemonPanesInLayout live second
            (retainDaemonPanesInLayout live first seen).2).1 with
        | none =>
          rw [hfirst, hsecond] at hlayout
          cases hlayout
        | some retained' =>
          rw [hfirst, hsecond] at hlayout
          cases hlayout
          exact .second axis firstRatio first (hwithin' _ hsecond)
      | some retained =>
        cases hsecond : (retainDaemonPanesInLayout live second
            (retainDaemonPanesInLayout live first seen).2).1 with
        | none =>
          rw [hfirst, hsecond] at hlayout
          cases hlayout
          exact .first axis firstRatio second (hwithin _ hfirst)
        | some retained' =>
          rw [hfirst, hsecond] at hlayout
          cases hlayout
          exact .split axis firstRatio (hwithin _ hfirst) (hwithin' _ hsecond)

/-- What is appended comes after what there was, which stays in one piece. -/
theorem foldl_appendPane (missing : List ℕ) (layout : Option BackgroundPaneLayout) :
    paneIdsOf (missing.foldl (fun layout paneId => some (appendPane layout paneId)) layout) =
        paneIdsOf layout ++ missing ∧
      ∀ retained, layout = some retained → ∃ whole,
        missing.foldl (fun layout paneId => some (appendPane layout paneId)) layout = some whole ∧
          Within retained whole := by
  induction missing generalizing layout with
  | nil => exact ⟨(append_nil _).symm, fun retained h => ⟨retained, h, .refl retained⟩⟩
  | cons paneId missing ih =>
    obtain ⟨hids, hwithin⟩ := ih (some (appendPane layout paneId))
    refine ⟨?_, fun retained hretained => ?_⟩
    · rw [foldl_cons, hids, append_cons]
      refine congrArg (· ++ missing) ?_
      cases layout with
      | none => rfl
      | some layout => rfl
    · subst hretained
      obtain ⟨whole, hwhole, hlies⟩ := hwithin _ rfl
      exact ⟨whole, hwhole, .trans (.first _ _ _ (.refl retained)) hlies⟩

/-! ### What the summary is rebuilt to -/

/-- The descriptions of panes that there are, the first ones first. -/
def descriptions (session : Session V) (previous : SharedSessionState V) :
    List BackgroundPaneSummary :=
  session.summary.panes ++ previous.summary.panes ++
    (session.panes.filter (!·.exited)).map unpublishedPaneSummary

/-- **A summary describes the live panes**: it has each of them once, as the first description of it
does, and places each of them once, in the order and the splits of the layout that has more of them,
and then the others. -/
structure Describes (session : Session V) (previous : SharedSessionState V)
    (live : BackgroundSessionSummary) : Prop where
  nodup : live.paneIds.Nodup
  panes : ∀ paneId, paneId ∈ live.paneIds ↔ paneId ∈ session.livePaneIds
  metadata : ∀ pane ∈ live.panes,
    (descriptions session previous).find? (fun other => other.id = pane.id) = some pane
  placed_nodup : (layoutPaneIds live.layout).Nodup
  placed : ∀ paneId, paneId ∈ layoutPaneIds live.layout ↔ paneId ∈ session.livePaneIds
  kept : ∃ source rest, (source = session.summary.layout ∨ source = previous.presentation.layout) ∧
    liveLayoutCoverage session.summary.layout session.livePaneIds ≤
      liveLayoutCoverage source session.livePaneIds ∧
    liveLayoutCoverage previous.presentation.layout session.livePaneIds ≤
      liveLayoutCoverage source session.livePaneIds ∧
    layoutPaneIds live.layout = livePanesOf session.livePaneIds source ++ rest ∧
    (livePanesOf session.livePaneIds source ≠ [] → ∃ retained,
      layoutPaneIds retained = livePanesOf session.livePaneIds source ∧ Within retained source ∧
        Within retained live.layout)
  active : live.activePane ∈ session.livePaneIds

variable {paneId : ℕ}

theorem mem_livePaneIds_iff {session : Session V} :
    paneId ∈ session.livePaneIds ↔
      paneId ∈ ((session.panes.filter (!·.exited)).map unpublishedPaneSummary).map (·.id) := by
  rw [map_map]
  exact Iff.rfl

/-- The panes of a summary that is rebuilt. -/
def rebuiltPanes (session : Session V) (previous : SharedSessionState V) :
    List BackgroundPaneSummary :=
  firsts (·.id) ((descriptions session previous).filter (·.id ∈ session.livePaneIds))

/-- The layout that is kept as far as it is live. -/
def sourceLayout (session : Session V) (previous : SharedSessionState V) : BackgroundPaneLayout :=
  if liveLayoutCoverage session.summary.layout session.livePaneIds <
      liveLayoutCoverage previous.presentation.layout session.livePaneIds then
    previous.presentation.layout
  else session.summary.layout

/-- The layout of a summary that is rebuilt. -/
def rebuiltLayout (session : Session V) (previous : SharedSessionState V) :
    Option BackgroundPaneLayout :=
  let (retained, laidOut) :=
    retainDaemonPanesInLayout session.livePaneIds (sourceLayout session previous) []
  (((rebuiltPanes session previous).map (·.id)).filter (· ∉ laidOut)).foldl
    (fun layout paneId => some (appendPane layout paneId)) retained

variable {session : Session V} {previous : SharedSessionState V} {layout : BackgroundPaneLayout}

theorem summaryFromDaemonPanes_eq (hlive : session.livePaneIds ≠ [])
    (hlayout : rebuiltLayout session previous = some layout) :
    summaryFromDaemonPanes session previous = .ok { session.summary with
      id := session.id
      activePane :=
        if session.summary.activePane ∈ session.livePaneIds then session.summary.activePane
        else if previous.presentation.activePane ∈ session.livePaneIds then
          previous.presentation.activePane
        else firstLayoutPaneId layout
      layout
      panes := rebuiltPanes session previous } := by
  have hunpublished : (((session.panes.filter (!·.exited)).map unpublishedPaneSummary).filter
      (·.id ∈ session.livePaneIds)) =
        (session.panes.filter (!·.exited)).map unpublishedPaneSummary := by
    refine filter_eq_self.mpr fun pane hpane => decide_eq_true ?_
    exact mem_livePaneIds_iff.mpr (mem_map_of_mem hpane)
  have hpanes : ((session.summary.panes ++ previous.summary.panes).filter
      (·.id ∈ session.livePaneIds) ++
        (session.panes.filter (!·.exited)).map unpublishedPaneSummary).eraseDupsBy
          (fun pane pane' => pane.id = pane'.id) = rebuiltPanes session previous := by
    rw [rebuiltPanes, descriptions]
    conv_rhs => rw [filter_append, hunpublished]
    rfl
  rw [summaryFromDaemonPanes, if_neg hlive]
  dsimp only
  rw [hpanes]
  rw [rebuiltLayout, sourceLayout] at hlayout
  dsimp only at hlayout
  rw [hlayout]

theorem mem_rebuiltPanes_iff :
    paneId ∈ (rebuiltPanes session previous).map (·.id) ↔ paneId ∈ session.livePaneIds := by
  rw [rebuiltPanes, mem_map_firsts, mem_map]
  constructor
  · rintro ⟨pane, hpane, rfl⟩
    exact of_decide_eq_true (mem_filter.mp hpane).2
  · intro hlive
    obtain ⟨pane, hpane, rfl⟩ := mem_map.mp (mem_livePaneIds_iff.mp hlive)
    exact ⟨pane, mem_filter.mpr ⟨mem_append_right _ hpane, decide_eq_true hlive⟩, rfl⟩

theorem find?_of_mem_rebuiltPanes {pane : BackgroundPaneSummary}
    (h : pane ∈ rebuiltPanes session previous) :
    (descriptions session previous).find? (fun other => other.id = pane.id) = some pane := by
  have hlive := mem_rebuiltPanes_iff.mp (mem_map_of_mem (f := (·.id)) h)
  have hfirst := find?_of_mem_firsts h
  rw [find?_filter] at hfirst
  rw [← hfirst]
  congr 1
  funext other
  by_cases hother : other.id = pane.id
  · simp [hother, hlive]
  · simp [hother]

/-- The layout that is rebuilt: what is kept of the source, and then the panes that it lacks. -/
theorem exists_rebuiltLayout (hlive : session.livePaneIds ≠ []) (previous : SharedSessionState V) :
    ∃ layout missing, rebuiltLayout session previous = some layout ∧
      layoutPaneIds layout =
        livePanesOf session.livePaneIds (sourceLayout session previous) ++ missing ∧
      missing.Nodup ∧
      (∀ paneId, paneId ∈ missing ↔ paneId ∈ session.livePaneIds ∧
        paneId ∉ layoutPaneIds (sourceLayout session previous)) ∧
      (livePanesOf session.livePaneIds (sourceLayout session previous) ≠ [] → ∃ retained,
        layoutPaneIds retained = livePanesOf session.livePaneIds (sourceLayout session previous) ∧
          Within retained (sourceLayout session previous) ∧ Within retained layout) := by
  obtain ⟨hids, hseen, hwithin⟩ := retainDaemonPanesInLayout_spec session.livePaneIds
    (sourceLayout session previous) []
  simp only [not_mem_nil, not_false_eq_true, and_true, false_or] at hids hseen
  have hnodup : ((rebuiltPanes session previous).map (·.id)).Nodup := nodup_map_firsts _
  obtain ⟨hall, hwhole⟩ := foldl_appendPane (((rebuiltPanes session previous).map (·.id)).filter
    (· ∉ (retainDaemonPanesInLayout session.livePaneIds (sourceLayout session previous) []).2))
    (retainDaemonPanesInLayout session.livePaneIds (sourceLayout session previous) []).1
  have hmissing : ∀ paneId, paneId ∈ ((rebuiltPanes session previous).map (·.id)).filter
      (· ∉ (retainDaemonPanesInLayout session.livePaneIds (sourceLayout session previous) []).2) ↔
        paneId ∈ session.livePaneIds ∧
          paneId ∉ layoutPaneIds (sourceLayout session previous) := by
    intro paneId
    rw [mem_filter, mem_rebuiltPanes_iff, decide_eq_true_eq, hseen]
    by_cases hpane : paneId ∈ session.livePaneIds
    · simp [hpane]
    · simp [hpane]
  rw [hids] at hall
  cases hlayout : rebuiltLayout session previous with
  | none =>
    -- Then no pane is live.
    rw [rebuiltLayout] at hlayout
    dsimp only at hlayout
    rw [hlayout] at hall
    obtain ⟨hkept, hnone⟩ := append_eq_nil_iff.mp hall.symm
    exfalso
    obtain ⟨paneId, hpane⟩ := exists_mem_of_ne_nil _ hlive
    by_cases hsource : paneId ∈ layoutPaneIds (sourceLayout session previous)
    · have hmem : paneId ∈ (firsts id ((layoutPaneIds (sourceLayout session previous)).filter
          (· ∈ session.livePaneIds))).map id := by
        rw [mem_map_firsts, map_id]
        exact mem_filter.mpr ⟨hsource, decide_eq_true hpane⟩
      rw [hkept] at hmem
      cases hmem
    · have hmem := (hmissing paneId).mpr ⟨hpane, hsource⟩
      rw [hnone] at hmem
      cases hmem
  | some layout =>
    have hfold := hlayout
    rw [rebuiltLayout] at hfold
    dsimp only at hfold
    rw [hfold] at hall
    refine ⟨layout, _, rfl, hall, hnodup.filter _, hmissing, fun hsome => ?_⟩
    cases hretained : (retainDaemonPanesInLayout session.livePaneIds
        (sourceLayout session previous) []).1 with
    | none =>
      rw [hretained] at hids
      exact absurd hids.symm hsome
    | some retained =>
      obtain ⟨whole, hsame, hlies⟩ := hwhole retained hretained
      rw [hfold] at hsame
      cases hsame
      rw [hretained] at hids
      exact ⟨retained, hids, hwithin retained hretained, hlies⟩

theorem mem_livePanesOf {live : List ℕ} :
    paneId ∈ livePanesOf live layout ↔ paneId ∈ layoutPaneIds layout ∧ paneId ∈ live := by
  have hmem := mem_map_firsts (f := id) (l := (layoutPaneIds layout).filter (· ∈ live)) (k := paneId)
  rw [map_id, map_id, mem_filter, decide_eq_true_eq] at hmem
  exact hmem

theorem nodup_livePanesOf (live : List ℕ) (layout : BackgroundPaneLayout) :
    (livePanesOf live layout).Nodup := by
  have hnodup := nodup_map_firsts (f := id) ((layoutPaneIds layout).filter (· ∈ live))
  rwa [map_id] at hnodup

theorem firstLayoutPaneId_mem (layout : BackgroundPaneLayout) :
    firstLayoutPaneId layout ∈ layoutPaneIds layout := by
  induction layout with
  | pane paneId => exact mem_singleton_self paneId
  | split axis firstRatio first second ih _ => exact mem_append_left _ ih

/-- **A summary that is rebuilt describes the live panes**, whatever was described before. -/
theorem describes_of_livePanes (hlive : session.livePaneIds ≠ [])
    (previous : SharedSessionState V) :
    ∃ live, summaryFromDaemonPanes session previous = .ok live ∧ Describes session previous live ∧
      live.id = session.id := by
  obtain ⟨layout, missing, hlayout, hids, hnodup, hmissing, hkept⟩ :=
    exists_rebuiltLayout hlive previous
  have hplaced : ∀ paneId, paneId ∈ layoutPaneIds layout ↔ paneId ∈ session.livePaneIds := by
    intro paneId
    rw [hids, mem_append, mem_livePanesOf, hmissing]
    by_cases hsource : paneId ∈ layoutPaneIds (sourceLayout session previous)
    · simp [hsource]
    · simp [hsource]
  refine ⟨_, summaryFromDaemonPanes_eq hlive hlayout, ?_, rfl⟩
  constructor
  · exact nodup_map_firsts _
  · exact fun paneId => mem_rebuiltPanes_iff
  · exact fun pane => find?_of_mem_rebuiltPanes
  · rw [hids]
    refine nodup_append.mpr ⟨nodup_livePanesOf .., hnodup, ?_⟩
    rintro paneId hpane _ hother rfl
    exact ((hmissing paneId).mp hother).2 (mem_livePanesOf.mp hpane).1
  · exact hplaced
  · have hcovers : (sourceLayout session previous = session.summary.layout ∨
        sourceLayout session previous = previous.presentation.layout) ∧
        liveLayoutCoverage session.summary.layout session.livePaneIds ≤
          liveLayoutCoverage (sourceLayout session previous) session.livePaneIds ∧
        liveLayoutCoverage previous.presentation.layout session.livePaneIds ≤
          liveLayoutCoverage (sourceLayout session previous) session.livePaneIds := by
      rw [sourceLayout]
      split_ifs with hless
      · exact ⟨.inr rfl, hless.le, le_rfl⟩
      · exact ⟨.inl rfl, le_rfl, not_lt.mp hless⟩
    exact ⟨sourceLayout session previous, missing, hcovers.1, hcovers.2.1, hcovers.2.2, hids, hkept⟩
  · simp only
    split_ifs with hactive hactive'
    · exact hactive
    · exact hactive'
    · exact (hplaced _).mp (firstLayoutPaneId_mem layout)

/-! ### Repairs made twice -/

/-- **A summary in step** with the live panes. -/
structure InStep (session : Session V) : Prop where
  id : session.summary.id = session.id
  nodup : session.summary.paneIds.Nodup
  panes : ∀ paneId, paneId ∈ session.summary.paneIds ↔ paneId ∈ session.livePaneIds
  placed_nodup : (layoutPaneIds session.summary.layout).Nodup
  placed : ∀ paneId,
    paneId ∈ layoutPaneIds session.summary.layout ↔ paneId ∈ session.livePaneIds
  active : session.summary.activePane ∈ session.livePaneIds

namespace InStep

theorem livePanesOf_layout (h : InStep session) :
    livePanesOf session.livePaneIds session.summary.layout = layoutPaneIds session.summary.layout := by
  have hall : (layoutPaneIds session.summary.layout).filter (· ∈ session.livePaneIds) =
      layoutPaneIds session.summary.layout :=
    filter_eq_self.mpr fun paneId hpane => decide_eq_true ((h.placed paneId).mp hpane)
  rw [livePanesOf, hall]
  exact firsts_of_nodup (by rw [map_id]; exact h.placed_nodup)

/-- No layout has more of the live panes. -/
theorem sourceLayout_eq (h : InStep session) (previous : SharedSessionState V) :
    sourceLayout session previous = session.summary.layout := by
  refine if_neg (not_lt.mpr ?_)
  rw [liveLayoutCoverage_eq, liveLayoutCoverage_eq, h.livePanesOf_layout]
  refine ((nodup_livePanesOf ..).subperm fun paneId hpane => ?_).length_le
  exact (h.placed paneId).mpr (mem_livePanesOf.mp hpane).2

theorem rebuiltPanes_eq (h : InStep session) (previous : SharedSessionState V) :
    rebuiltPanes session previous = session.summary.panes := by
  have hall : session.summary.panes.filter (·.id ∈ session.livePaneIds) = session.summary.panes :=
    filter_eq_self.mpr fun pane hpane =>
      decide_eq_true ((h.panes _).mp (mem_map_of_mem hpane))
  rw [rebuiltPanes, descriptions, append_assoc, filter_append, hall,
    firsts_append_of_subset, firsts_of_nodup h.nodup]
  intro paneId hpane
  obtain ⟨pane, hmem, rfl⟩ := mem_map.mp hpane
  exact (h.panes _).mpr (of_decide_eq_true (mem_filter.mp hmem).2)

theorem rebuiltLayout_eq (h : InStep session) (previous : SharedSessionState V) :
    rebuiltLayout session previous = some session.summary.layout := by
  obtain ⟨hids, hseen, hwithin⟩ := retainDaemonPanesInLayout_spec session.livePaneIds
    session.summary.layout []
  simp only [not_mem_nil, not_false_eq_true, and_true, false_or] at hids hseen
  have hsame := hids.trans h.livePanesOf_layout
  have hretained : (retainDaemonPanesInLayout session.livePaneIds session.summary.layout []).1 =
      some session.summary.layout := by
    cases hretained :
        (retainDaemonPanesInLayout session.livePaneIds session.summary.layout []).1 with
    | none =>
      rw [hretained] at hsame
      exact absurd hsame.symm (layoutPaneIds_ne_nil _)
    | some retained =>
      rw [hretained] at hsame
      exact congrArg some ((hwithin _ hretained).eq_of_length (congrArg List.length hsame))
  have hnone : ((rebuiltPanes session previous).map (·.id)).filter
      (· ∉ (retainDaemonPanesInLayout session.livePaneIds session.summary.layout []).2) = [] := by
    refine filter_eq_nil_iff.mpr fun paneId hpane => ?_
    have hlive := mem_rebuiltPanes_iff.mp hpane
    have hin := (hseen paneId).mpr ⟨hlive, (h.placed paneId).mpr hlive⟩
    simpa using hin
  rw [rebuiltLayout, h.sourceLayout_eq]
  dsimp only
  rw [hnone, hretained]
  rfl

end InStep

/-- **A summary in step is left as it is.** -/
theorem summaryFromDaemonPanes_of_inStep (h : InStep session) (previous : SharedSessionState V) :
    summaryFromDaemonPanes session previous = .ok session.summary := by
  rw [summaryFromDaemonPanes_eq (ne_nil_of_mem h.active) (h.rebuiltLayout_eq previous),
    if_pos h.active, h.rebuiltPanes_eq, ← h.id]

variable {live : BackgroundSessionSummary}

/-- What is rebuilt is in step. -/
theorem Describes.inStep (h : Describes session previous live) (hid : live.id = session.id)
    (sharedState : Option (SharedSessionState V)) :
    InStep { session with summary := live, sharedState } where
  id := hid
  nodup := h.nodup
  panes := h.panes
  placed_nodup := h.placed_nodup
  placed := h.placed
  active := h.active

/-- What was repaired has nothing to repair. -/
theorem normalize_again {s t : SharedSessionState V} {changed : Bool}
    (h : s.normalize = .ok (changed, t)) (revision : ℕ) :
    SharedSessionState.normalize { t with revision } = .ok (false, { t with revision }) := by
  simp only [SharedSessionState.normalize, check_bind_eq_ok, ensure_eq_ok] at h
  obtain ⟨hvalid, hactive, h⟩ := h
  obtain ⟨-, rfl⟩ := Prod.mk.inj (Except.ok.inj h)
  have hmaximized : ∀ maximized : Option ℕ, (maximized.filter (· ∈ s.summary.paneIds)).filter
      (· ∈ s.summary.paneIds) = maximized.filter (· ∈ s.summary.paneIds) := by
    intro maximized
    rw [Option.filter_filter]
    simp only [Bool.and_self]
  simp only [SharedSessionState.normalize, check_bind_eq_ok, ensure_eq_ok]
  refine ⟨hvalid, hactive, ?_⟩
  simp only [filter_filter, Bool.and_self, hmaximized, ne_eq, not_true_eq_false, or_self,
    decide_false]
  rfl

variable {isRepaired : Bool} {state : SharedSessionState V}

/-- What a repair comes to: the live panes as they are described, and a state that is normal. -/
theorem repair_cases (hlive : session.livePaneIds ≠ [])
    (h : session.repair = .ok (isRepaired, state)) :
    ∃ migrated live changed next revision, session.canonical.migrate = .ok migrated ∧
      summaryFromDaemonPanes session migrated = .ok live ∧ Describes session migrated live ∧
      live.id = session.id ∧
      SharedSessionState.normalize { migrated with summary := live } = .ok (changed, next) ∧
      state = { next with revision } ∧
      revision = (if isRepaired then nextRevision next.revision else next.revision) ∧
      isRepaired = (session.sharedState.isSome &&
        (session.summary ≠ live || migrated.summary ≠ live || changed)) := by
  obtain ⟨migrated, hmigrate, h⟩ := bind_eq_ok.mp h
  obtain ⟨live, hsummary, h⟩ := bind_eq_ok.mp h
  obtain ⟨⟨changed, next⟩, hnormalize, h⟩ := bind_eq_ok.mp h
  obtain ⟨live', hsummary', hdescribes, hid⟩ := describes_of_livePanes hlive migrated
  cases hsummary.symm.trans hsummary'
  obtain ⟨hisRepaired, hstate⟩ := Prod.mk.inj (Except.ok.inj h)
  refine ⟨migrated, live, changed, next, state.revision, hmigrate, hsummary, hdescribes, hid,
    hnormalize, ?_, ?_, hisRepaired.symm⟩
  · rw [← hstate]
    split <;> rfl
  · rw [← hstate, ← hisRepaired]
    exact apply_ite SharedSessionState.revision ..

/-- **A repair of what a repair has left** finds nothing. -/
theorem repair_settled (hlive : session.livePaneIds ≠ [])
    (h : session.repair = .ok (isRepaired, state)) :
    (session.settled state).repair = .ok (false, state) := by
  obtain ⟨migrated, live, changed, next, revision, hmigrate, -, hdescribes, hid, hnormalize, rfl, -,
    -⟩ := repair_cases hlive h
  have hversion := (SharedSessionState.migrate_eq_ok hmigrate).1
  obtain ⟨presentation, rfl⟩ := (SharedSessionState.normalize_eq_ok hnormalize).1
  have hagain := normalize_again hnormalize revision
  generalize hstate : ({ { { migrated with summary := live } with presentation } with revision } :
    SharedSessionState V) = state at hagain ⊢
  have hsummary : state.summary = live := by rw [← hstate]
  have hcanonical : (session.settled state).canonical.migrate = .ok state := by
    rw [Session.settled, Session.canonical, Option.getD_some, SharedSessionState.migrate,
      if_pos (by rw [← hstate]; exact hversion)]
  have hrebuilt : summaryFromDaemonPanes (session.settled state) state = .ok live := by
    have hstep := hdescribes.inStep hid (some state)
    rw [Session.settled, hsummary]
    exact summaryFromDaemonPanes_of_inStep hstep state
  have hsame : { state with summary := live } = state := by rw [← hsummary]
  rw [Session.repair, hcanonical]
  simp only [bind, Except.bind, hrebuilt, hsame, hagain]
  have hkept : (session.settled state).summary = live := hsummary
  simp [hkept, hsummary, pure, Except.pure]

variable {w : World V} (env : Env) (saved : Bool)

/-- Where a repair goes through, what it comes to is in place, whether it could be written or not. -/
theorem session_of_repair (h : w.session.repair = .ok (isRepaired, state)) :
    (normalizeSharedState env saved w).2.session = w.session.settled state ∧
      ∀ state', (normalizeSharedState env saved w).1 = .ok state' → state' = state := by
  have hspec := triple_normalizeSharedState env saved w w rfl
  rcases hresult : normalizeSharedState env saved w with ⟨e | state', t⟩
  · rw [hresult] at hspec
    cases hspec with
    | unrepaired hnone =>
      rw [h] at hnone
      cases hnone
    | unsaved state' hstate =>
      obtain ⟨-, rfl⟩ := Prod.mk.inj (Except.ok.inj (h.symm.trans hstate))
      exact ⟨rfl, fun _ hok => by cases hok⟩
  · rw [hresult] at hspec
    obtain ⟨isRepaired', hrepaired⟩ := hspec
    obtain ⟨-, rfl⟩ := Prod.mk.inj (Except.ok.inj (h.symm.trans hrepaired.repair))
    exact ⟨hrepaired.session, fun _ hok => (Except.ok.inj hok).symm⟩

theorem normalizeSharedState_of_error {env : Env} {saved : Bool} {e : String}
    (h : w.session.repair = .error e) : normalizeSharedState env saved w =
      (.error e, { w with session := w.session.reconciled }) := by
  rw [normalizeSharedState_apply, h]

/-- A repair that fails fails again, and leaves the summary that it has left. -/
theorem repair_reconciled {e : String} (hlive : session.livePaneIds ≠ [])
    (h : session.repair = .error e) :
    (∃ e', session.reconciled.repair = .error e') ∧
      session.reconciled.reconciled = session.reconciled := by
  cases hmigrate : session.canonical.migrate with
  | error e' =>
    have hsame : session.reconciled = session := by rw [Session.reconciled, hmigrate]
    rw [hsame, hsame]
    exact ⟨⟨e, h⟩, rfl⟩
  | ok migrated =>
    obtain ⟨live, hsummary, hdescribes, hid⟩ := describes_of_livePanes hlive migrated
    have hreconciled : session.reconciled = { session with summary := live } := by
      rw [Session.reconciled, hmigrate]
      simp only [hsummary]
    -- Validation looks at the summary alone.
    have hfails : ∀ state : SharedSessionState V,
        ∃ e', SharedSessionState.normalize { state with summary := live } = .error e' := by
      intro state
      cases hnormalize : SharedSessionState.normalize { state with summary := live } with
      | error e' => exact ⟨e', rfl⟩
      | ok result =>
        exfalso
        simp only [SharedSessionState.normalize, check_bind_eq_ok, ensure_eq_ok] at hnormalize
        obtain ⟨hvalid, hactive, -⟩ := hnormalize
        simp only [Session.repair, hmigrate, hsummary, bind, Except.bind,
          SharedSessionState.normalize, hvalid, ensure, if_pos hactive] at h
        cases h
    have hmigrated : ∃ state, (Session.canonical { session with summary := live }).migrate =
        .ok state := by
      cases hstate : session.sharedState with
      | none => exact ⟨_, if_pos rfl⟩
      | some shared =>
        rw [Session.canonical, hstate] at hmigrate
        exact ⟨migrated, hmigrate⟩
    obtain ⟨state, hstate⟩ := hmigrated
    have hagain := summaryFromDaemonPanes_of_inStep (hdescribes.inStep hid session.sharedState) state
    obtain ⟨e', he'⟩ := hfails state
    rw [hreconciled]
    constructor
    · refine ⟨e', ?_⟩
      simp only [Session.repair, hstate, bind, Except.bind, hagain, he']
    · rw [Session.reconciled, hstate]
      simp only [hagain]

/-- **Reconciliation meets its promises**: from any description and state it rebuilds a summary of
the live panes; made again, it changes nothing; what is stored passes validation, and is left by an
error. -/
structure Reconciling (env : Env) (saved : Bool) (w : World V) : Prop where
  describes : ∀ previous, ∃ live, summaryFromDaemonPanes w.session previous = .ok live ∧
    Describes w.session previous live
  again : ∀ env' saved', (normalizeSharedState env' saved' (normalizeSharedState env saved w).2).2 =
      (normalizeSharedState env saved w).2 ∧
    ∀ state, (normalizeSharedState env saved w).1 = .ok state →
      (normalizeSharedState env' saved' (normalizeSharedState env saved w).2).1 = .ok state
  valid : ∀ state, (normalizeSharedState env saved w).1 = .ok state →
    (normalizeSharedState env saved w).2.session.sharedState = some state ∧
      validateSummaryPanes state.summary = .ok ()
  kept : ∀ e, (normalizeSharedState env saved w).1 = .error e →
    (normalizeSharedState env saved w).2.session.sharedState = w.session.sharedState

theorem normalizeSharedState_again (hlive : w.session.livePaneIds ≠ []) (env' : Env) (saved' : Bool) :
    (normalizeSharedState env' saved' (normalizeSharedState env saved w).2).2 =
        (normalizeSharedState env saved w).2 ∧
      ∀ state, (normalizeSharedState env saved w).1 = .ok state →
        (normalizeSharedState env' saved' (normalizeSharedState env saved w).2).1 = .ok state := by
  cases hrepair : w.session.repair with
  | error e =>
    obtain ⟨⟨e', he'⟩, hsame⟩ := repair_reconciled hlive hrepair
    rw [normalizeSharedState_of_error hrepair, normalizeSharedState_of_error (by exact he')]
    refine ⟨?_, fun _ hok => by cases hok⟩
    rw [hsame]
  | ok result =>
    obtain ⟨isRepaired, state⟩ := result
    obtain ⟨hsession, hstate⟩ := session_of_repair env saved hrepair
    generalize normalizeSharedState env saved w = first at hsession hstate
    have hagain := repair_settled hlive hrepair
    have hsecond : normalizeSharedState env' saved' first.2 = (.ok state, first.2) := by
      have hsettled : first.2.session.settled state = first.2.session := by
        rw [hsession]
        rfl
      rw [normalizeSharedState_apply, hsession, hagain]
      dsimp only
      rw [← hsession, hsettled]
      rfl
    rw [hsecond]
    exact ⟨rfl, fun state' hok => by rw [hstate state' hok]⟩

/-- **A canonical state that is what it is rebuilt to**, apart from its revision. -/
structure Normal (live : BackgroundSessionSummary) (state : SharedSessionState V) : Prop where
  version : state.version = SHARED_SESSION_STATE_VERSION
  summary : state.summary = live
  layout : state.presentation.layout = live.layout
  active : state.presentation.activePane = live.activePane
  maximized : ∀ paneId, state.presentation.maximizedPane = some paneId → paneId ∈ live.paneIds
  minimized : ∀ paneId ∈ state.presentation.minimizedPanes, paneId ∈ live.paneIds

/-- **A repair is due**: a summary that is rebuilt passes validation, and differs from what there
is. Only a state that has run out of revisions would be stored as it was. -/
def Due (session : Session V) : Prop :=
  ∃ shared migrated live, session.sharedState = some shared ∧ shared.migrate = .ok migrated ∧
    summaryFromDaemonPanes session migrated = .ok live ∧ Described live ∧
    ¬(session.summary = live ∧ Normal live migrated) ∧
    ¬(Normal live shared ∧ shared.revision = MAX_REVISION)

/-- A summary that is rebuilt is normal once it passes validation, and a state that was normal is
not changed. -/
theorem normalize_rebuilt (migrated : SharedSessionState V)
    (hdescribes : Describes session previous live) (hdescribed : Described live) :
    ∃ changed next, SharedSessionState.normalize { migrated with summary := live } =
        .ok (changed, next) ∧
      (migrated.version = SHARED_SESSION_STATE_VERSION → Normal live next) ∧
      (migrated.version = SHARED_SESSION_STATE_VERSION → migrated.summary = live →
        (changed = false ↔ Normal live migrated)) := by
  have hactive : live.activePane ∈ live.paneIds := (hdescribes.panes _).mpr hdescribes.active
  have hvalid := validateSummaryPanes_eq_ok.mpr hdescribed
  refine ⟨_, _, by
    simp only [SharedSessionState.normalize, check_bind_eq_ok, ensure_eq_ok]
    exact ⟨hvalid, hactive, rfl⟩, fun hversion => ?_, fun hversion hsummary => ?_⟩
  · refine ⟨hversion, rfl, rfl, rfl, fun paneId hpane => ?_, fun paneId hpane => ?_⟩
    · exact of_decide_eq_true (Option.filter_eq_some_iff.mp hpane).2
    · exact of_decide_eq_true (mem_filter.mp hpane).2
  · rw [decide_eq_false_iff_not]
    simp only [not_or, not_not, ne_eq]
    constructor
    · rintro ⟨hlayout, hfocus, hminimized, hmaximized⟩
      refine ⟨hversion, hsummary, hlayout, hfocus, fun paneId hpane => ?_, fun paneId hpane => ?_⟩
      · rw [hpane] at hmaximized
        exact of_decide_eq_true (Option.filter_eq_some_iff.mp hmaximized).2
      · have hall := length_filter_eq_length_iff.mp hminimized
        exact of_decide_eq_true (hall paneId hpane)
    · intro hnormal
      refine ⟨hnormal.layout, hnormal.active, ?_, ?_⟩
      · refine length_filter_eq_length_iff.mpr fun paneId hpane => decide_eq_true ?_
        exact hnormal.minimized paneId hpane
      · cases hmaximized : migrated.presentation.maximizedPane with
        | none => rfl
        | some paneId =>
          exact Option.filter_eq_some_iff.mpr
            ⟨rfl, decide_eq_true (hnormal.maximized paneId hmaximized)⟩

/-- Where a repair goes through there is a live pane, and what it comes to is normal. -/
theorem normal_of_repair (h : session.repair = .ok (isRepaired, state)) :
    ∃ migrated, Describes session migrated state.summary ∧ Normal state.summary state ∧
      Described state.summary := by
  have hlive : session.livePaneIds ≠ [] := by
    obtain ⟨migrated, -, h⟩ := bind_eq_ok.mp h
    obtain ⟨live, hsummary, -⟩ := bind_eq_ok.mp h
    intro hnone
    rw [summaryFromDaemonPanes, if_pos hnone] at hsummary
    cases hsummary
  obtain ⟨migrated, live, changed, next, revision, hmigrate, -, hdescribes, -, hnormalize, rfl, -, -⟩ :=
    repair_cases hlive h
  have hdescribed : Described live := by
    simp only [SharedSessionState.normalize, check_bind_eq_ok] at hnormalize
    exact validateSummaryPanes_eq_ok.mp hnormalize.1
  obtain ⟨changed', next', hnormalize', hnormal, -⟩ :=
    normalize_rebuilt migrated hdescribes hdescribed
  obtain ⟨-, rfl⟩ := Prod.mk.inj (Except.ok.inj (hnormalize'.symm.trans hnormalize))
  have hnext := hnormal (SharedSessionState.migrate_eq_ok hmigrate).1
  have hsummary : next'.summary = live := hnext.summary
  subst hsummary
  exact ⟨migrated, hdescribes, ⟨hnext.version, rfl, hnext.layout, hnext.active, hnext.maximized,
    hnext.minimized⟩, hdescribed⟩

/-- A repair is due when it comes to another state than there is. -/
theorem due_iff_repair (hlive : session.livePaneIds ≠ []) :
    Due session ↔ ∃ state, session.repair = .ok (true, state) ∧ session.sharedState ≠ some state := by
  constructor
  · rintro ⟨shared, migrated, live, hshared, hmigrate, hsummary, hdescribed, hstale, hrevisions⟩
    have hcanonical : session.canonical.migrate = .ok migrated := by
      rw [Session.canonical, hshared]
      exact hmigrate
    obtain ⟨live', hsummary', hdescribes, -⟩ := describes_of_livePanes hlive migrated
    cases hsummary.symm.trans hsummary'
    obtain ⟨hversion, hsame, -, -⟩ := SharedSessionState.migrate_eq_ok hmigrate
    obtain ⟨changed, next, hnormalize, hnormal, hchanged⟩ :=
      normalize_rebuilt migrated hdescribes hdescribed
    obtain ⟨presentation, hnext⟩ := (SharedSessionState.normalize_eq_ok hnormalize).1
    have hrepaired : (session.sharedState.isSome &&
        (decide (session.summary ≠ live) || decide (migrated.summary ≠ live) || changed)) = true := by
      rw [hshared]
      by_contra hfalse
      simp only [Option.isSome_some, Bool.true_and, Bool.or_eq_true, decide_eq_true_eq, ne_eq,
        not_or, not_not, Bool.not_eq_true] at hfalse
      obtain ⟨⟨hkept, hkept'⟩, hunchanged⟩ := hfalse
      exact hstale ⟨hkept, (hchanged hversion hkept').mp hunchanged⟩
    refine ⟨{ next with revision := nextRevision next.revision }, ?_, fun heq => ?_⟩
    · simp only [Session.repair, hcanonical, hsummary, hnormalize, bind, Except.bind, hrepaired,
        if_true]
      rfl
    · rw [hshared] at heq
      cases heq
      have hnormal' := hnormal hversion
      refine hrevisions ⟨⟨hnormal'.version, hnormal'.summary, hnormal'.layout, hnormal'.active,
        hnormal'.maximized, hnormal'.minimized⟩, ?_⟩
      -- A revision that has no next one is the last.
      have hrevision : next.revision = nextRevision next.revision :=
        (congrArg SharedSessionState.revision hnext).trans hsame
      simp only [nextRevision] at hrevision ⊢
      omega
  · rintro ⟨state, hrepair, hdiffers⟩
    obtain ⟨migrated, live, changed, next, revision, hmigrate, hsummary, hdescribes, -, hnormalize,
      rfl, hrevision, hrepaired⟩ := repair_cases hlive hrepair
    have hdescribed : Described live := by
      simp only [SharedSessionState.normalize, check_bind_eq_ok] at hnormalize
      exact validateSummaryPanes_eq_ok.mp hnormalize.1
    obtain ⟨changed', next', hnormalize', hnormal, hchanged⟩ :=
      normalize_rebuilt migrated hdescribes hdescribed
    cases Except.ok.inj (hnormalize'.symm.trans hnormalize)
    obtain ⟨hversion, -, -, hcurrent⟩ := SharedSessionState.migrate_eq_ok hmigrate
    obtain ⟨hsome, hstale⟩ := Bool.and_eq_true_iff.mp hrepaired.symm
    obtain ⟨shared, hshared⟩ := Option.isSome_iff_exists.mp hsome
    rw [Session.canonical, hshared, Option.getD_some] at hmigrate hcurrent
    refine ⟨shared, migrated, live, hshared, hmigrate, hsummary, hdescribed, ?_, ?_⟩
    · rintro ⟨hkept, hnormal'⟩
      rw [(hchanged hversion hnormal'.summary).mpr hnormal'] at hstale
      simp [hkept, hnormal'.summary] at hstale
    · rintro ⟨hnormal', hlast⟩
      obtain rfl := hcurrent hnormal'.version
      have hunchanged := (hchanged hversion hnormal'.summary).mpr hnormal'
      have hsame : ({ migrated with summary := live } : SharedSessionState V) = migrated := by
        rw [← hnormal'.summary]
      have hnext := (SharedSessionState.normalize_eq_ok hnormalize).2 hunchanged
      rw [hsame] at hnext
      subst hnext
      refine hdiffers ?_
      rw [hshared, hrevision, if_pos rfl, hlast, nextRevision, min_eq_right (Nat.le_succ _), ← hlast]

/-- **Reconciliation meets its promises** if and only if no repair is due or the disk takes what
there is to write. -/
theorem reconciling_iff (env : Env) (saved : Bool) (w : World V)
    (hlive : w.session.livePaneIds ≠ []) :
    Reconciling env saved w ↔ ¬(Due w.session ∧ CannotSave env saved w) := by
  constructor
  · rintro hkeeps ⟨hdue, hcannot⟩
    obtain ⟨state, hrepair, hdiffers⟩ := (due_iff_repair hlive).mp hdue
    have hfails : CannotRepair env saved w := by
      rw [CannotRepair, hrepair]
      exact ⟨rfl, hcannot⟩
    obtain ⟨e, he⟩ := fails_normalizeSharedState_iff.mpr hfails
    have hkept := hkeeps.kept e he
    rw [(session_of_repair env saved hrepair).1] at hkept
    exact hdiffers hkept.symm
  · intro hcan
    refine ⟨fun previous => ?_, normalizeSharedState_again env saved hlive, fun state hok => ?_,
      fun e he => ?_⟩
    · obtain ⟨live, hsummary, hdescribes, -⟩ := describes_of_livePanes hlive previous
      exact ⟨live, hsummary, hdescribes⟩
    · cases hrepair : w.session.repair with
      | error e =>
        rw [normalizeSharedState_of_error hrepair] at hok
        cases hok
      | ok result =>
        obtain ⟨isRepaired, state'⟩ := result
        obtain ⟨hsession, hstate⟩ := session_of_repair env saved hrepair
        obtain rfl := hstate state hok
        refine ⟨by rw [hsession]; rfl, ?_⟩
        obtain ⟨migrated, live, changed, next, revision, -, -, -, -, hnormalize, rfl, -, -⟩ :=
          repair_cases hlive hrepair
        obtain ⟨presentation, rfl⟩ := (SharedSessionState.normalize_eq_ok hnormalize).1
        simp only [SharedSessionState.normalize, check_bind_eq_ok] at hnormalize
        exact hnormalize.1
    · have hfails : CannotRepair env saved w := fails_normalizeSharedState_iff.mp ⟨e, he⟩
      rw [CannotRepair] at hfails
      cases hrepair : w.session.repair with
      | error e' =>
        rw [normalizeSharedState_of_error hrepair]
        rcases reconciled_cases w.session with hsame | ⟨live, -, hsame⟩
        · rw [hsame]
        · rw [hsame]
      | ok result =>
        obtain ⟨isRepaired, state⟩ := result
        rw [hrepair] at hfails
        obtain ⟨rfl, hcannot⟩ := hfails
        -- Only a state that is stored as it was is stored and not written.
        have hsame : w.session.sharedState = some state := by
          by_contra hdiffers
          exact hcan ⟨(due_iff_repair hlive).mpr ⟨state, hrepair, hdiffers⟩, hcannot⟩
        rw [(session_of_repair env saved hrepair).1, hsame]
        rfl

/-- Something is persisted. -/
def persistingEnv : Env := { plainEnv with enabled := true }

/-- An offered session of two panes, one of which has exited. -/
def halfExited : World ℕ where
  session := { spawnedSession 7 5 (sharedPane 7 1 (80, 24)) 0 with
    summary := SharedSessionState.twoPanes
    sharedState := some (.new 7 SharedSessionState.twoPanes 0)
    panes := [sharedPane 7 1 (80, 24), { sharedPane 7 2 (80, 24) with exited := true }]
    offered := true }
  record := none
  taken := []

/-- The pane that has exited is dropped from the canonical state, the disk is full, and the request
fails. The next one is told of no repair, and nobody is sent what has changed. -/
theorem unsaved_halfExited :
    (normalizeSharedState persistingEnv false halfExited).1 = .error "writing the session record" ∧
      (normalizeSharedState persistingEnv false halfExited).2.session.sharedState ≠
        halfExited.session.sharedState ∧
      ((normalizeSharedState persistingEnv true
        (normalizeSharedState persistingEnv false halfExited).2).1.map (·.revision)).toOption =
          some 1 ∧
      (normalizeSharedState persistingEnv true
        (normalizeSharedState persistingEnv false halfExited).2).2.taken = [] ∧
      ¬Reconciling persistingEnv false halfExited := by
  have herror : (normalizeSharedState persistingEnv false halfExited).1 =
      .error "writing the session record" := by decide +kernel
  have hchanged : (normalizeSharedState persistingEnv false halfExited).2.session.sharedState ≠
      halfExited.session.sharedState := by decide +kernel
  exact ⟨herror, hchanged, by decide +kernel, by decide +kernel, fun h =>
    hchanged (h.kept _ herror)⟩

theorem reconciling_halfExited : Reconciling plainEnv false halfExited :=
  (reconciling_iff plainEnv false halfExited (by decide)).mpr fun h => Bool.noConfusion h.2.1

end Zetta.Zmux.Server.Control
