import Zetta.Zmux.SharedState

/-!
# What an operation on a shared session does

`SharedSessionState.Effect` says, for each operation, which fields have which value afterwards, and
that all others are left. The layout and the focus stand twice in the state, in the presentation and
in its summary, and are always set in both.

* A divider is found by one function and written by another; both are about the one split that
  separates the two panes (`SetsRatio`).
* `Removes` is a layout without a pane: the split it was a child of gives way to the other child.
* `effect_applyOperation`: what is applied has its effect. A whole tab keeps the layout and the focus
  of the session.
-/

namespace Zetta.Zmux

open BackgroundPaneLayout

/-! ### Layouts -/

/-- The ratio of a split with one pane in its first child and the other in its second is set. -/
inductive SetsRatio (firstPaneId secondPaneId : ℕ) (ratio : UInt16) :
    BackgroundPaneLayout → BackgroundPaneLayout → Prop
  | here (axis : String) (old : UInt16) {first second : BackgroundPaneLayout} :
      firstPaneId ∈ layoutPaneIds first → secondPaneId ∈ layoutPaneIds second →
      SetsRatio firstPaneId secondPaneId ratio (split axis old first second)
        (split axis ratio first second)
  | first (axis : String) (other : UInt16) {first first' : BackgroundPaneLayout}
      (second : BackgroundPaneLayout) : SetsRatio firstPaneId secondPaneId ratio first first' →
      SetsRatio firstPaneId secondPaneId ratio (split axis other first second)
        (split axis other first' second)
  | second (axis : String) (other : UInt16) (first : BackgroundPaneLayout)
      {second second' : BackgroundPaneLayout} :
      SetsRatio firstPaneId secondPaneId ratio second second' →
      SetsRatio firstPaneId secondPaneId ratio (split axis other first second)
        (split axis other first second')

/-- The pane is gone, and with it the split it was a child of. -/
inductive Removes (paneId : ℕ) : BackgroundPaneLayout → BackgroundPaneLayout → Prop
  | left (axis : String) (ratio : UInt16) (second : BackgroundPaneLayout) :
      Removes paneId (split axis ratio (pane paneId) second) second
  | right (axis : String) (ratio : UInt16) (first : BackgroundPaneLayout) :
      Removes paneId (split axis ratio first (pane paneId)) first
  | first (axis : String) (ratio : UInt16) {first first' : BackgroundPaneLayout}
      (second : BackgroundPaneLayout) : Removes paneId first first' →
      Removes paneId (split axis ratio first second) (split axis ratio first' second)
  | second (axis : String) (ratio : UInt16) (first : BackgroundPaneLayout)
      {second second' : BackgroundPaneLayout} : Removes paneId second second' →
      Removes paneId (split axis ratio first second) (split axis ratio first second')

variable {firstPaneId secondPaneId : ℕ} {layout : BackgroundPaneLayout} {ratio : UInt16}

theorem SetsRatio.mem {layout' : BackgroundPaneLayout}
    (h : SetsRatio firstPaneId secondPaneId ratio layout layout') :
    firstPaneId ∈ layoutPaneIds layout ∧ secondPaneId ∈ layoutPaneIds layout := by
  induction h with
  | here axis old hfirst hsecond => simp [hfirst, hsecond]
  | first axis other second _ ih => simp [ih.1, ih.2]
  | second axis other first _ ih => simp [ih.1, ih.2]

/-- **One split** separates two panes, where none is placed twice. -/
theorem SetsRatio.unique {layout₁ layout₂ : BackgroundPaneLayout}
    (hnodup : (layoutPaneIds layout).Nodup)
    (h₁ : SetsRatio firstPaneId secondPaneId ratio layout layout₁)
    (h₂ : SetsRatio firstPaneId secondPaneId ratio layout layout₂) : layout₁ = layout₂ := by
  induction h₁ generalizing layout₂ with
  | here axis old hfirst hsecond =>
    rw [layoutPaneIds_split, List.nodup_append] at hnodup
    cases h₂ with
    | here => rfl
    | first _ _ _ h => exact absurd rfl (hnodup.2.2 _ h.mem.2 _ hsecond)
    | second _ _ _ h => exact absurd rfl (hnodup.2.2 _ hfirst _ h.mem.1)
  | first axis other second h ih =>
    rw [layoutPaneIds_split, List.nodup_append] at hnodup
    cases h₂ with
    | here _ _ hfirst hsecond => exact absurd rfl (hnodup.2.2 _ h.mem.2 _ hsecond)
    | first _ _ _ h₂ => rw [ih hnodup.1 h₂]
    | second _ _ _ h₂ => exact absurd rfl (hnodup.2.2 _ h.mem.1 _ h₂.mem.1)
  | second axis other first h ih =>
    rw [layoutPaneIds_split, List.nodup_append] at hnodup
    cases h₂ with
    | here _ _ hfirst hsecond => exact absurd rfl (hnodup.2.2 _ hfirst _ h.mem.1)
    | first _ _ _ h₂ => exact absurd rfl (hnodup.2.2 _ h₂.mem.1 _ h.mem.1)
    | second _ _ _ h₂ => rw [ih hnodup.2.1 h₂]

/-- What is written through the reference is the ratio of the split that separates the panes. -/
theorem setsRatio_findDividerMut {write : UInt16 → BackgroundPaneLayout}
    (h : findDividerMut layout firstPaneId secondPaneId = some write) (ratio : UInt16) :
    SetsRatio firstPaneId secondPaneId ratio layout (write ratio) := by
  induction layout generalizing write with
  | pane id => cases h
  | split axis firstRatio first second ih₁ ih₂ =>
    rw [findDividerMut] at h
    by_cases hboth : (layoutContains first firstPaneId && layoutContains second secondPaneId) = true
    · rw [if_pos hboth] at h
      rw [Bool.and_eq_true, layoutContains_iff, layoutContains_iff] at hboth
      cases h
      exact .here axis firstRatio hboth.1 hboth.2
    rw [if_neg hboth] at h
    split_ifs at h
    · obtain ⟨write', hwrite', rfl⟩ := Option.map_eq_some_iff.1 h
      exact .first axis firstRatio second (ih₁ hwrite')
    · obtain ⟨write', hwrite', rfl⟩ := Option.map_eq_some_iff.1 h
      exact .second axis firstRatio first (ih₂ hwrite')

variable {paneId : ℕ}

/-- A layout without a pane that it does not have is the same. -/
theorem removePaneFromLayout_of_notMem (h : paneId ∉ layoutPaneIds layout) :
    removePaneFromLayout layout paneId = some layout := by
  induction layout with
  | pane id =>
    rw [layoutPaneIds_pane, List.mem_singleton] at h
    exact if_neg (Ne.symm h)
  | split axis firstRatio first second ih₁ ih₂ =>
    rw [layoutPaneIds_split, List.mem_append, not_or] at h
    rw [removePaneFromLayout, ih₁ h.1, ih₂ h.2]

/-- Nothing is left of a layout only if the pane was all of it. -/
theorem eq_pane_of_remove (hnodup : (layoutPaneIds layout).Nodup)
    (h : removePaneFromLayout layout paneId = none) :
    layout = pane paneId := by
  have hall : ∀ id ∈ layoutPaneIds layout, id = paneId := by
    intro id hid
    by_contra hne
    obtain ⟨rest, hrest⟩ := exists_remove hid hne
    rw [hrest] at h
    cases h
  cases layout with
  | pane id => rw [hall id (by simp)]
  | split axis firstRatio first second =>
    exfalso
    obtain ⟨a, ha⟩ := List.exists_mem_of_ne_nil _ (layoutPaneIds_ne_nil first)
    obtain ⟨b, hb⟩ := List.exists_mem_of_ne_nil _ (layoutPaneIds_ne_nil second)
    rw [layoutPaneIds_split, List.nodup_append] at hnodup
    refine hnodup.2.2 a ha b hb ?_
    rw [hall a (by simp [ha]), hall b (by simp [hb])]

/-- What is left of a layout with the pane. -/
theorem removes_of_removePaneFromLayout {rest : BackgroundPaneLayout}
    (hnodup : (layoutPaneIds layout).Nodup) (hmem : paneId ∈ layoutPaneIds layout)
    (h : removePaneFromLayout layout paneId = some rest) : Removes paneId layout rest := by
  induction layout generalizing rest with
  | pane id =>
    rw [layoutPaneIds_pane, List.mem_singleton] at hmem
    rw [removePaneFromLayout, if_pos hmem.symm] at h
    cases h
  | split axis firstRatio first second ih₁ ih₂ =>
    rw [layoutPaneIds_split] at hnodup hmem
    obtain ⟨hfirst, hsecond, hdisjoint⟩ := List.nodup_append.1 hnodup
    rw [removePaneFromLayout] at h
    rcases List.mem_append.1 hmem with hmem | hmem
    · have hother := removePaneFromLayout_of_notMem fun hid => hdisjoint _ hmem _ hid rfl
      cases hrest : removePaneFromLayout first paneId with
      | none =>
        rw [hrest, hother] at h
        cases h
        rw [eq_pane_of_remove hfirst hrest]
        exact .left axis firstRatio second
      | some first' =>
        rw [hrest, hother] at h
        cases h
        exact .first axis firstRatio second (ih₁ hfirst hmem hrest)
    · have hother := removePaneFromLayout_of_notMem fun hid => hdisjoint _ hid _ hmem rfl
      cases hrest : removePaneFromLayout second paneId with
      | none =>
        rw [hrest, hother] at h
        cases h
        rw [eq_pane_of_remove hsecond hrest]
        exact .right axis firstRatio first
      | some second' =>
        rw [hrest, hother] at h
        cases h
        exact .second axis firstRatio first (ih₂ hsecond hmem hrest)

/-! ### The effect of an operation -/

namespace SharedSessionState

variable {V R : Type}

/-- The state with another layout, in both places. -/
def arranged (s : SharedSessionState V) (layout : BackgroundPaneLayout) : SharedSessionState V :=
  { s with
    summary := { s.summary with layout }
    presentation := { s.presentation with layout } }

/-- The state with another focus, in both places. -/
def focused (s : SharedSessionState V) (activePane : ℕ) : SharedSessionState V :=
  { s with
    summary := { s.summary with activePane }
    presentation := { s.presentation with activePane } }

/-- The state with other minimized panes. -/
def minimizing (s : SharedSessionState V) (minimizedPanes : List ℕ) : SharedSessionState V :=
  { s with presentation := { s.presentation with minimizedPanes } }

/-- The state with other panes. -/
def described (s : SharedSessionState V) (panes : List BackgroundPaneSummary) :
    SharedSessionState V :=
  { s with summary := { s.summary with panes } }

/-- The operation is noted: its id, the receipt for its client, and the next revision. -/
def noted (s : SharedSessionState V) (operationId : SharedOperationId) : SharedSessionState V :=
  recordReceipt { s with
    revision := nextRevision s.revision
    lastOperationId := some operationId } ⟨operationId, []⟩

/-- The focus once a pane is gone: where it was, or on the first pane that is left. -/
def FocusLeft (s : SharedSessionState V) (paneId activePane : ℕ) : Prop :=
  if s.summary.activePane = paneId then
    ∃ head, (s.summary.panes.filter (·.id ≠ paneId)).head? = some head ∧ activePane = head.id
  else activePane = s.summary.activePane

/-- What an operation does to a state. -/
def Effect (s : SharedSessionState V) :
    SharedSessionOperation V → SharedSessionState V → Prop
  -- the layout and the focus of the session stay
  | .replaceTab summary state, t => t = { s with
      summary := { summary with layout := s.summary.layout, activePane := s.summary.activePane }
      state }
  | .setLayout layout, t => t = s.arranged layout
  | .setFocus paneId, t => t = s.focused paneId
  | .setMaximized paneId, t =>
    t = { s with presentation := { s.presentation with maximizedPane := paneId } }
  | .setMinimized paneId minimized, t => ∃ minimizedPanes, t = s.minimizing minimizedPanes ∧
      minimizedPanes.filter (· ≠ paneId) = s.presentation.minimizedPanes.filter (· ≠ paneId) ∧
      (paneId ∈ minimizedPanes ↔ minimized = true)
  | .setSplitRatio firstPaneId secondPaneId firstRatio, t => ∃ layout, t = s.arranged layout ∧
      ∀ layout', SetsRatio firstPaneId secondPaneId firstRatio s.presentation.layout layout' ↔
        layout' = layout
  | .movePane _ _, t | .swapPanes _ _, t | .rotateSplit _ _, t => ∃ layout, t = s.arranged layout ∧
      (layoutPaneIds layout).Perm (layoutPaneIds s.presentation.layout)
  | .setTabState state, t => t = { s with state }
  | .setPaneMetadata paneId metadata, t => t = s.described
      (s.summary.panes.map fun pane => if pane.id = paneId then setMetadata metadata pane else pane)
  | .closePane paneId, t => ∃ layout activePane,
      Removes paneId s.presentation.layout layout ∧ s.FocusLeft paneId activePane ∧
      t = { (((s.described (s.summary.panes.filter (·.id ≠ paneId))).arranged layout).focused
          activePane).minimizing (s.presentation.minimizedPanes.filter (· ≠ paneId)) with
        presentation.maximizedPane := s.presentation.maximizedPane.filter (· ≠ paneId) }

variable {F : AreaArithmetic R} {s t : SharedSessionState V}

/-- The layout is set in the summary as in the presentation. -/
theorem sync_arranged (h : Canonical s) (layout : BackgroundPaneLayout) :
    syncSummaryPresentation { s with presentation := { s.presentation with layout } } =
      s.arranged layout := by
  rw [syncSummaryPresentation, arranged]
  simp only [h.same_active]

/-- Nothing is left to synchronise where neither the layout nor the focus has changed. -/
theorem sync_of_same (hlayout : t.summary.layout = t.presentation.layout)
    (hactive : t.summary.activePane = t.presentation.activePane) :
    t.syncSummaryPresentation = t := by
  rw [syncSummaryPresentation, ← hlayout, ← hactive]

theorem expect_eq_ok {α : Type} {value : Option α} {message : String} {a : α} :
    expect value message = .ok a ↔ value = some a := by
  cases value with
  | none => exact iff_of_false nofun nofun
  | some b => exact ⟨fun h => congrArg some (Except.ok.inj h), fun h => by rw [Option.some.inj h]; rfl⟩

theorem map_eq_ok {ε α β : Type} {x : Except ε α} {f : α → β} {b : β} :
    x.map f = .ok b ↔ ∃ a, x = .ok a ∧ f a = b := by
  cases x <;> simp [Except.map]

/-- The panes of distinct ids with the first one of an id changed. -/
theorem updatePane_eq_some {paneId : ℕ} {f : BackgroundPaneSummary → BackgroundPaneSummary}
    {panes panes' : List BackgroundPaneSummary} (hnodup : (panes.map (·.id)).Nodup)
    (h : updatePane paneId f panes = some panes') :
    panes' = panes.map fun pane => if pane.id = paneId then f pane else pane := by
  induction panes generalizing panes' with
  | nil => cases h
  | cons pane panes ih =>
    rw [List.map_cons, List.nodup_cons] at hnodup
    rw [updatePane] at h
    by_cases hid : pane.id = paneId
    · rw [if_pos hid] at h
      cases h
      rw [List.map_cons, if_pos hid]
      -- no other pane has this id
      have hrest : (panes.map fun pane => if pane.id = paneId then f pane else pane) = panes := by
        conv_rhs => rw [← List.map_id panes]
        refine List.map_congr_left fun other hother => if_neg fun heq => hnodup.1 ?_
        rw [hid, ← heq]
        exact List.mem_map_of_mem hother
      rw [hrest]
    · rw [if_neg hid] at h
      obtain ⟨rest, hrest, rfl⟩ := Option.map_eq_some_iff.1 h
      rw [List.map_cons, if_neg hid, ← ih hnodup.2 hrest]

/-- The layout is rearranged in the presentation, and then in the summary. -/
theorem effect_rearranged (h : Canonical s) {layout : BackgroundPaneLayout}
    (hedit : t = { s with presentation := { s.presentation with layout } })
    (hlayout : Rearranges s.presentation.layout layout) :
    ∃ layout, t.syncSummaryPresentation = s.arranged layout ∧
      (layoutPaneIds layout).Perm (layoutPaneIds s.presentation.layout) :=
  ⟨layout, by rw [hedit, sync_arranged h], hlayout.panes⟩

/-- **An edit** that has been validated has its effect once it is synchronised. -/
theorem effect_edit (h : Canonical s) {operation : SharedSessionOperation V}
    (hvalid : s.validateOperation F operation = .ok ()) (hedit : s.edit F operation = .ok t) :
    s.Effect operation t.syncSummaryPresentation := by
  have hnodup := h.placed.nodup_iff.2 h.nodup
  cases operation with
  | replaceTab summary state =>
    cases hedit
    rw [Effect, syncSummaryPresentation, h.layout, h.same_active]
  | setLayout layout =>
    cases hedit
    exact sync_arranged h layout
  | setFocus paneId =>
    cases hedit
    rw [Effect, focused, syncSummaryPresentation, ← h.layout]
  | setMaximized paneId =>
    cases hedit
    exact sync_of_same h.layout h.same_active
  | setMinimized paneId minimized =>
    cases hedit
    refine ⟨_, sync_of_same h.layout h.same_active, ?_, ?_⟩
    · cases minimized with
      | true => simp [List.filter_append]
      | false => simp
    · cases minimized with
      | true => simp
      | false => simp
  | setSplitRatio firstPaneId secondPaneId firstRatio =>
    obtain ⟨write, hwrite, hedit⟩ := bind_eq_ok.1 hedit
    cases hedit
    have hset := setsRatio_findDividerMut (expect_eq_ok.1 hwrite) firstRatio
    refine ⟨write firstRatio, sync_arranged h _, fun layout' => ?_⟩
    constructor
    · intro hset'
      exact hset'.unique hnodup hset
    · rintro rfl
      exact hset
  | movePane paneId direction =>
    obtain ⟨layout, hlayout, hedit⟩ := bind_eq_ok.1 hedit
    exact effect_rearranged h (Except.ok.inj hedit).symm
      (rearranges_moveLayoutPane (expect_eq_ok.1 hlayout))
  | swapPanes firstPaneId secondPaneId =>
    simp only [validateOperation, check_bind_eq_ok, ensure_eq_ok] at hvalid
    obtain ⟨-, hfirst, hsecond⟩ := hvalid
    exact effect_rearranged h (Except.ok.inj hedit).symm (rearranges_swapLayoutPanes hnodup
      (h.placed.mem_iff.2 (ensurePane_eq_ok.mp hfirst)) (h.placed.mem_iff.2 (ensurePane_eq_ok.mp hsecond)))
  | rotateSplit paneId direction =>
    obtain ⟨layout, hlayout, hedit⟩ := bind_eq_ok.1 hedit
    exact effect_rearranged h (Except.ok.inj hedit).symm
      (rearranges_rotateLayoutPane (expect_eq_ok.1 hlayout))
  | setTabState state =>
    cases hedit
    exact sync_of_same h.layout h.same_active
  | setPaneMetadata paneId metadata =>
    obtain ⟨panes, hpanes, hedit⟩ := bind_eq_ok.1 hedit
    cases hedit
    rw [Effect, ← updatePane_eq_some h.nodup (expect_eq_ok.1 hpanes)]
    exact sync_of_same h.layout h.same_active
  | closePane paneId =>
    simp only [validateOperation, check_bind_eq_ok] at hvalid
    obtain ⟨summaryLayout, hsummary, hedit⟩ := bind_eq_ok.1 hedit
    obtain ⟨activePane, hactive, hedit⟩ := bind_eq_ok.1 hedit
    obtain ⟨layout, hlayout, hedit⟩ := bind_eq_ok.1 hedit
    cases hedit
    have hremoves := removes_of_removePaneFromLayout hnodup
      (h.placed.mem_iff.2 (ensurePane_eq_ok.mp hvalid.1)) (expect_eq_ok.1 hlayout)
    refine ⟨layout, activePane, hremoves, ?_, ?_⟩
    · rw [FocusLeft]
      rw [activeAfterClose] at hactive
      split_ifs at hactive ⊢
      · obtain ⟨head, hhead, rfl⟩ := map_eq_ok.1 hactive
        exact ⟨head, expect_eq_ok.1 hhead, rfl⟩
      · rw [h.same_active]
        exact (Except.ok.inj hactive).symm
    · have hmaximized : (if s.presentation.maximizedPane = some paneId then none
          else s.presentation.maximizedPane) =
          s.presentation.maximizedPane.filter (· ≠ paneId) := by
        cases s.presentation.maximizedPane with
        | none => rfl
        | some id =>
          by_cases hid : id = paneId
          · rw [if_pos (congrArg some hid), Option.filter_some, if_neg (by simp [hid])]
          · rw [if_neg fun heq => hid (Option.some.inj heq), Option.filter_some,
              if_pos (by simp [hid])]
      rw [withoutPane, hmaximized]
      rfl

/-- **What is applied** has its effect, and is noted. -/
theorem effect_applyOperation (h : Canonical s) {operationId : SharedOperationId}
    {operation : SharedSessionOperation V}
    (happly : s.applyOperation F operationId operation = .ok t) :
    ∃ u, s.Effect operation u ∧ t = u.noted operationId := by
  rw [applyOperation] at happly
  cases hvalid : s.validateOperation F operation with
  | error message =>
    rw [hvalid] at happly
    cases happly
  | ok _ =>
    rw [hvalid] at happly
    obtain ⟨edited, hedit, rfl⟩ := map_eq_ok.1 happly
    exact ⟨_, effect_edit h hvalid hedit, rfl⟩

/-- The two panes the other way round, with the second in focus. -/
private def turned : BackgroundSessionSummary :=
  { twoPanes with
    layout := .split "vertical" 400 (.pane 2) (.pane 1)
    activePane := 2 }

/-- A whole tab is taken, but for its layout and its focus. -/
theorem replaceTab_keeps_layout :
    ∃ t, (new 7 twoPanes ()).applyOperation .exact ⟨"a", 1⟩ (.replaceTab turned ()) = .ok t ∧
      Canonical (new 7 twoPanes ()) ∧ t.summary.layout ≠ turned.layout ∧
      t.presentation.layout ≠ turned.layout ∧ t.summary.activePane ≠ turned.activePane :=
  ⟨_, rfl, canonical_new rfl (by decide), by decide, by decide, by decide⟩

theorem effect_closeFocused :
    ∃ t u, (new 7 twoPanes ()).applyOperation .exact ⟨"a", 1⟩ (.closePane 1) = .ok t ∧
      (new 7 twoPanes ()).Effect (.closePane 1) u ∧ t = u.noted ⟨"a", 1⟩ := by
  have hclosed : (new 7 twoPanes ()).applyOperation .exact ⟨"a", 1⟩ (.closePane 1) = .ok _ := rfl
  obtain ⟨u, heffect, heq⟩ := effect_applyOperation (canonical_new rfl (by decide)) hclosed
  exact ⟨_, u, rfl, heffect, heq⟩

end SharedSessionState

end Zetta.Zmux
