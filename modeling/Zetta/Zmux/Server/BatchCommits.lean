import Zetta.Zmux.Server.Reconciliation

/-!
# What a batch leaves

A batch grafts a tree of existing panes and of the drafts it has started into the layout of a
session. What it commits is checked against the panes the daemon holds, and these may include panes
that have exited and are described nowhere any more.

* `applied_of_commit`: what a commit that is applied comes to.
* `batchConsistent_iff`: the tree it leaves is consistent if and only if no existing pane of the
  replacement has exited.
-/

namespace Zetta.Zmux.Server.Control

open List BackgroundPaneLayout

variable {V : Type}

/-! ### Grafted trees -/

/-- The existing panes that a replacement names. -/
def SharedDraftLayout.existingPanes : SharedDraftLayout → List ℕ
  | .existing paneId => [paneId]
  | .draft _ => []
  | .split _ _ first second => first.existingPanes ++ second.existingPanes

variable {mappings : List SharedDraftMapping}

theorem mappedPane_mem {draftId paneId : ℕ} (h : mappedPane mappings draftId = some paneId) :
    paneId ∈ mappings.map (·.paneId) := by
  obtain ⟨mapping, hmapping, rfl⟩ := Option.map_eq_some_iff.mp h
  exact mem_map_of_mem (mem_of_find?_eq_some hmapping)

variable {layout : BackgroundPaneLayout}

/-- A replacement is resolved to its existing panes and to panes of its drafts. -/
theorem mem_of_resolveDraftLayout {draft : SharedDraftLayout}
    (h : resolveDraftLayout mappings draft = .ok layout) :
    (∀ paneId ∈ draft.existingPanes, paneId ∈ layoutPaneIds layout) ∧
      ∀ paneId ∈ layoutPaneIds layout,
        paneId ∈ draft.existingPanes ∨ paneId ∈ mappings.map (·.paneId) := by
  induction draft generalizing layout with
  | existing paneId =>
    cases h
    exact ⟨fun _ => id, fun _ hpane => .inl hpane⟩
  | draft draftId =>
    refine ⟨fun _ hpane => absurd hpane not_mem_nil, fun paneId hpane => .inr ?_⟩
    rw [resolveDraftLayout] at h
    split at h
    · next mapped hmapped =>
      cases h
      obtain rfl := mem_singleton.mp hpane
      exact mappedPane_mem hmapped
    · cases h
  | split axis firstRatio first second ih ih' =>
    simp only [resolveDraftLayout, bind_eq_ok] at h
    obtain ⟨-, -, -, -, first', hfirst, second', hsecond, hlayout⟩ := h
    cases hlayout
    obtain ⟨hexisting, hall⟩ := ih hfirst
    obtain ⟨hexisting', hall'⟩ := ih' hsecond
    constructor
    · intro paneId hpane
      rw [layoutPaneIds_split]
      exact mem_append.mpr
        ((mem_append.mp hpane).imp (hexisting paneId) (hexisting' paneId))
    · intro paneId hpane
      rw [layoutPaneIds_split] at hpane
      rcases mem_append.mp hpane with hpane | hpane
      · exact (hall paneId hpane).imp_left (mem_append_left _)
      · exact (hall' paneId hpane).imp_left (mem_append_right _)

variable {replacement : BackgroundPaneLayout}

/-- A layout that is put in the place of a leaf brings its panes; the others were there. -/
theorem mem_of_replaceLayoutTarget {target : ℕ} {next : BackgroundPaneLayout}
    (h : replaceLayoutTarget target replacement layout = some next) :
    (∀ paneId ∈ layoutPaneIds replacement, paneId ∈ layoutPaneIds next) ∧
      ∀ paneId ∈ layoutPaneIds next,
        paneId ∈ layoutPaneIds layout ∨ paneId ∈ layoutPaneIds replacement := by
  induction layout generalizing next with
  | pane paneId =>
    rw [replaceLayoutTarget] at h
    split_ifs at h
    cases h
    exact ⟨fun _ => id, fun _ hpane => .inr hpane⟩
  | split axis firstRatio first second ih ih' =>
    rw [replaceLayoutTarget] at h
    split at h
    · next first' hfirst =>
      cases h
      obtain ⟨hbrings, hall⟩ := ih hfirst
      refine ⟨fun paneId hpane => mem_append_left _ (hbrings paneId hpane),
        fun paneId hpane => ?_⟩
      rcases mem_append.mp hpane with hpane | hpane
      · exact (hall paneId hpane).imp_left (mem_append_left _)
      · exact .inl (mem_append_right _ hpane)
    · obtain ⟨second', hsecond, rfl⟩ := Option.map_eq_some_iff.mp h
      obtain ⟨hbrings, hall⟩ := ih' hsecond
      refine ⟨fun paneId hpane => mem_append_right _ (hbrings paneId hpane),
        fun paneId hpane => ?_⟩
      rcases mem_append.mp hpane with hpane | hpane
      · exact .inl (mem_append_left _ hpane)
      · exact (hall paneId hpane).imp_left (mem_append_right _)

/-! ### What is committed -/

/-- How a commit goes on once it has its layout. -/
def graft (request : SharedSpawnBatchRequest) (paneIds : List ℕ) (state : SharedSessionState V)
    (layout : BackgroundPaneLayout) : Request V (Reply V) := do
  let mappings := draftMappings request paneIds
  let activePane ← Handler.read fun w => checkNextLayout request mappings state w.session layout
  let next := withBatch request paneIds layout activePane state
  edit fun session => session.withCanonical next (batchPanes request paneIds layout state session)
  takeSnapshot next
  takeSnapshot next
  return .spawned mappings next

variable {request : SharedSpawnBatchRequest} {state : SharedSessionState V} {paneIds : List ℕ}

variable {next : SharedSessionState V}

theorem eq_of_graft {w w' : World V}
    (h : graft request paneIds state layout w = (.ok (.spawned mappings next), w')) :
    ∃ activePane, checkNextLayout request mappings state w.session layout = .ok activePane ∧
      mappings = draftMappings request paneIds ∧
      next = withBatch request paneIds layout activePane state ∧
      w'.session = w.session.withCanonical next (batchPanes request paneIds layout state w.session) := by
  rw [graft, Handler.read_bind] at h
  cases hcheck : checkNextLayout request (draftMappings request paneIds) state w.session layout with
  | error e =>
    rw [hcheck] at h
    cases congrArg Prod.fst h
  | ok activePane =>
    rw [hcheck] at h
    have hreply := congrArg Prod.fst h
    have hworld := congrArg Prod.snd h
    cases Except.ok.inj hreply
    exact ⟨activePane, hcheck, rfl, rfl, (congrArg World.session hworld).symm⟩

/-- **A commit that is applied**: the layout has passed its checks, and is put in place. -/
theorem applied_of_commit {env : Env} {caller : Caller} {repaired : Bool} {w w₁ w' : World V}
    (hstate : normalizeSharedState env repaired w = (.ok state, w₁))
    (hreceipt : state.receipt request.operationId = none)
    (hcommit : commitSharedBatch env request paneIds replacement caller repaired w =
      (.ok (.spawned mappings next), w')) :
    ∃ layout, request.nextLayout replacement state = some layout ∧
      graft request paneIds state layout w₁ = (.ok (.spawned mappings next), w') := by
  have hconflict : (do takeSnapshot state; return .conflict state : Request V (Reply V)) w₁ ≠
      (.ok (.spawned mappings next), w') := fun h => by cases congrArg Prod.fst h
  rw [commitSharedBatch, Handler.require, Handler.read_bind] at hcommit
  by_cases hauthorized : sessionControlAuthorized w.session caller.peerProcessId caller.proven = true
  · rw [if_pos hauthorized] at hcommit
    dsimp only at hcommit
    rw [Handler.bind_of_ok hstate, hreceipt] at hcommit
    dsimp only at hcommit
    cases htarget : request.targetPaneId with
    | none =>
      rw [htarget] at hcommit
      dsimp only at hcommit
      by_cases hrevision : state.revision = request.baseRevision
      · rw [if_pos hrevision] at hcommit
        refine ⟨replacement, ?_, hcommit⟩
        rw [SharedSpawnBatchRequest.nextLayout, htarget]
        exact if_pos hrevision
      · rw [if_neg hrevision] at hcommit
        exact absurd hcommit hconflict
    | some target =>
      rw [htarget] at hcommit
      dsimp only at hcommit
      cases hlayout : replaceLayoutTarget target replacement state.presentation.layout with
      | none =>
        rw [hlayout] at hcommit
        exact absurd hcommit hconflict
      | some layout =>
        rw [hlayout] at hcommit
        refine ⟨layout, ?_, hcommit⟩
        rw [SharedSpawnBatchRequest.nextLayout, htarget]
        exact hlayout
  · rw [if_neg hauthorized] at hcommit
    cases congrArg Prod.fst hcommit

/-! ### What holds of the tree -/

/-- **The tree that a batch leaves is consistent**: it places each pane of the summary once, all of
them live, and all drafts; the panes that are gone are those of the old layout that it lacks; and
what is focused, maximized or minimized is in it. -/
structure BatchConsistent (request : SharedSpawnBatchRequest) (old next : SharedSessionState V)
    (before after : Session V) (mappings : List SharedDraftMapping) : Prop where
  canonical : after.sharedState = some next ∧ after.summary = next.summary ∧
    next.summary.layout = next.presentation.layout
  nodup : (layoutPaneIds next.presentation.layout).Nodup
  placed : (layoutPaneIds next.presentation.layout).Perm next.summary.paneIds
  live : ∀ paneId ∈ layoutPaneIds next.presentation.layout, paneId ∈ after.livePaneIds
  drafts : ∀ draft ∈ request.panes, ∃ mapping ∈ mappings, mapping.draftId = draft.draftId ∧
    mapping.paneId ∈ layoutPaneIds next.presentation.layout
  removed : ∀ paneId, (paneId ∈ before.panes.map (·.id) ∧ paneId ∉ after.panes.map (·.id)) ↔
    paneId ∈ layoutPaneIds old.presentation.layout ∧
      paneId ∉ layoutPaneIds next.presentation.layout
  active : next.presentation.activePane ∈ layoutPaneIds next.presentation.layout
  maximized : ∀ paneId, next.presentation.maximizedPane = some paneId →
    paneId ∈ layoutPaneIds next.presentation.layout
  minimized : ∀ paneId ∈ next.presentation.minimizedPanes,
    paneId ∈ layoutPaneIds next.presentation.layout

section Panes

variable {request : SharedSpawnBatchRequest} {paneIds : List ℕ} {layout : BackgroundPaneLayout}
  {state : SharedSessionState V} {session : Session V}

theorem map_zipWith_right {α β γ δ : Type} {f : α → β → γ} {g : γ → δ} {h : β → δ}
    (hg : ∀ a b, g (f a b) = h b) {l : List α} {m : List β} (hlength : m.length = l.length) :
    (List.zipWith f l m).map g = m.map h := by
  induction l generalizing m with
  | nil =>
    rw [length_eq_zero_iff.mp hlength]
    rfl
  | cons a l ih =>
    cases m with
    | nil => rfl
    | cons b m =>
      rw [zipWith_cons_cons, map_cons, map_cons, hg, ih (Nat.succ.inj hlength)]

/-- Forgetting the sizes that were reported leaves the panes that there are, and the live ones. -/
theorem map_clearSharedSizeReports {β : Type} {f : Pane → β}
    (hf : ∀ pane attachment, f { pane with attachment } = f pane) (panes : List Pane) :
    (clearSharedSizeReports panes).map f = panes.map f := by
  rw [clearSharedSizeReports, map_map]
  refine map_congr_left fun pane _ => ?_
  rw [Function.comp_apply]
  split
  · exact hf pane _
  · rfl

variable {paneId : ℕ}

theorem mem_livePaneIds {session : Session V} : paneId ∈ session.livePaneIds ↔
    (paneId, false) ∈ session.panes.map fun pane => (pane.id, pane.exited) := by
  simp only [Session.livePaneIds, mem_map, mem_filter, Bool.not_eq_true', Prod.mk.injEq]
  constructor
  · rintro ⟨pane, ⟨hpane, hlive⟩, rfl⟩
    exact ⟨pane, hpane, rfl, hlive⟩
  · rintro ⟨pane, hpane, rfl, hlive⟩
    exact ⟨pane, ⟨hpane, hlive⟩, rfl⟩

/-- The panes that a session has once a batch is committed, and which of them are live. -/
theorem mem_batchPanes (hlength : paneIds.length = request.panes.length) {exited : Bool} :
    (paneId, exited) ∈ (batchPanes request paneIds layout state session).map
        (fun pane => (pane.id, pane.exited)) ↔
      ((paneId, exited) ∈ session.panes.map (fun pane => (pane.id, pane.exited)) ∨
        paneId ∈ paneIds ∧ exited = false) ∧
      ¬(paneId ∈ layoutPaneIds state.presentation.layout ∧ paneId ∉ layoutPaneIds layout) := by
  have hadded : (List.zipWith (fun draft paneId => sharedPane session.id paneId draft.size)
      request.panes paneIds).map (fun pane => (pane.id, pane.exited)) =
        paneIds.map fun paneId => (paneId, false) :=
    map_zipWith_right (by intros; rfl) hlength
  have hfilter : ∀ panes : List Pane, (panes.filter fun pane => pane.id ∉
      (layoutPaneIds state.presentation.layout).filter (· ∉ layoutPaneIds layout)).map
        (fun pane => (pane.id, pane.exited)) =
      (panes.map fun pane => (pane.id, pane.exited)).filter fun pane => pane.1 ∉
        (layoutPaneIds state.presentation.layout).filter (· ∉ layoutPaneIds layout) := by
    intro panes
    rw [filter_map]
    rfl
  rw [batchPanes, map_clearSharedSizeReports fun _ _ => rfl, hfilter, map_append, hadded,
    mem_filter, mem_append, decide_eq_true_eq, mem_filter, decide_eq_true_eq]
  refine and_congr_left fun _ => or_congr_right ?_
  simp only [mem_map, Prod.mk.injEq]
  constructor
  · rintro ⟨_, hpane, rfl, rfl⟩
    exact ⟨hpane, rfl⟩
  · rintro ⟨hpane, rfl⟩
    exact ⟨paneId, hpane, rfl, rfl⟩

theorem mem_livePaneIds_batch (hlength : paneIds.length = request.panes.length)
    {next : SharedSessionState V} :
    paneId ∈ (session.withCanonical next
        (batchPanes request paneIds layout state session)).livePaneIds ↔
      (paneId ∈ session.livePaneIds ∨ paneId ∈ paneIds) ∧
        ¬(paneId ∈ layoutPaneIds state.presentation.layout ∧ paneId ∉ layoutPaneIds layout) := by
  rw [mem_livePaneIds, Session.withCanonical, mem_batchPanes hlength, ← mem_livePaneIds]
  simp only [and_true]

theorem mem_panes_batch (hlength : paneIds.length = request.panes.length) :
    paneId ∈ (batchPanes request paneIds layout state session).map (·.id) ↔
      (paneId ∈ session.panes.map (·.id) ∨ paneId ∈ paneIds) ∧
        ¬(paneId ∈ layoutPaneIds state.presentation.layout ∧ paneId ∉ layoutPaneIds layout) := by
  have hids : ∀ panes : List Pane, paneId ∈ panes.map (·.id) ↔
      ∃ exited, (paneId, exited) ∈ panes.map fun pane => (pane.id, pane.exited) := by
    intro panes
    simp only [mem_map, Prod.mk.injEq]
    constructor
    · rintro ⟨pane, hpane, rfl⟩
      exact ⟨pane.exited, pane, hpane, rfl, rfl⟩
    · rintro ⟨exited, pane, hpane, rfl, rfl⟩
      exact ⟨pane, hpane, rfl⟩
  rw [hids, hids session.panes]
  simp only [mem_batchPanes hlength, exists_and_right, exists_or, exists_and_left, exists_eq,
    and_true]

/-- The panes that are described once a batch is committed. -/
theorem paneIds_withBatch (hlength : paneIds.length = request.panes.length) (activePane : ℕ) :
    (withBatch request paneIds layout activePane state).summary.paneIds =
      (state.summary.paneIds ++ paneIds).filter fun paneId => paneId ∉
        (layoutPaneIds state.presentation.layout).filter (· ∉ layoutPaneIds layout) := by
  have hadded : (List.zipWith draftSummary request.panes paneIds).map (·.id) = paneIds.map id :=
    map_zipWith_right (by intros; rfl) hlength
  rw [map_id] at hadded
  have hall : state.summary.paneIds ++ paneIds =
      (state.summary.panes ++ List.zipWith draftSummary request.panes paneIds).map (·.id) := by
    rw [map_append, hadded]
    rfl
  rw [hall, filter_map]
  rfl

end Panes

/-- A layout that passes its checks. -/
theorem checkNextLayout_eq_ok {session : Session V} {activePane : ℕ}
    (h : checkNextLayout request mappings state session layout = .ok activePane) :
    (layoutPaneIds layout).Nodup ∧
      (∀ mapping ∈ mappings, mapping.paneId ∈ layoutPaneIds layout) ∧
      (∀ paneId ∈ layoutPaneIds layout,
        paneId ∈ session.panes.map (·.id) ∨ paneId ∈ mappings.map (·.paneId)) ∧
      activePane ∈ layoutPaneIds layout := by
  simp only [checkNextLayout, bind_eq_ok] at h
  obtain ⟨⟨⟩, hnodup, ⟨⟩, hdrafts, ⟨⟩, hheld, active, -, ⟨⟩, hactive, hsame⟩ := h
  cases hsame
  exact ⟨ensure_eq_ok.mp hnodup, ensure_eq_ok.mp hdrafts, ensure_eq_ok.mp hheld,
    ensure_eq_ok.mp hactive⟩

/-- The panes of the layout that a batch asks for. -/
theorem mem_of_nextLayout (h : request.nextLayout replacement state = some layout) :
    (∀ paneId ∈ layoutPaneIds replacement, paneId ∈ layoutPaneIds layout) ∧
      ∀ paneId ∈ layoutPaneIds layout,
        paneId ∈ layoutPaneIds state.presentation.layout ∨ paneId ∈ layoutPaneIds replacement := by
  rw [SharedSpawnBatchRequest.nextLayout] at h
  split at h
  · exact mem_of_replaceLayoutTarget h
  · split_ifs at h
    cases h
    exact ⟨fun _ => id, fun _ hpane => .inr hpane⟩

/-- Every draft has become a pane. -/
theorem exists_draftMapping (hlength : paneIds.length = request.panes.length)
    {draft : SharedPaneDraft} (h : draft ∈ request.panes) :
    ∃ mapping ∈ draftMappings request paneIds, mapping.draftId = draft.draftId := by
  obtain ⟨k, hk, rfl⟩ := mem_iff_getElem.mp h
  have hk' : k < (draftMappings request paneIds).length := by
    rw [draftMappings, length_zipWith, hlength, Nat.min_self]
    exact hk
  refine ⟨(draftMappings request paneIds)[k], getElem_mem hk', ?_⟩
  simp only [draftMappings, getElem_zipWith]

/-- **The tree a batch leaves is consistent** if and only if the existing panes that its replacement
names, and that the daemon holds, are live. The panes of its drafts are new. -/
theorem batchConsistent_iff {env : Env} {request : SharedSpawnBatchRequest} {paneIds : List ℕ}
    {replacement : BackgroundPaneLayout} {caller : Caller} {repaired : Bool} {w w₁ w' : World V}
    {state next : SharedSessionState V} {mappings : List SharedDraftMapping}
    (hlength : paneIds.length = request.panes.length) (hnodup : paneIds.Nodup)
    (hnew : ∀ paneId ∈ paneIds, paneId ∉ w.session.panes.map (·.id))
    (hresolve : resolveDraftLayout (draftMappings request paneIds) request.replacement =
      .ok replacement)
    (hstate : normalizeSharedState env repaired w = (.ok state, w₁))
    (hreceipt : state.receipt request.operationId = none)
    (hcommit : commitSharedBatch env request paneIds replacement caller repaired w =
      (.ok (.spawned mappings next), w')) :
    BatchConsistent request state next w.session w'.session mappings ↔
      ∀ paneId ∈ request.replacement.existingPanes, paneId ∈ w.session.panes.map (·.id) →
        paneId ∈ w.session.livePaneIds := by
  obtain ⟨layout, hlayout, hgraft⟩ := applied_of_commit hstate hreceipt hcommit
  obtain ⟨activePane, hcheck, rfl, rfl, hafter⟩ := eq_of_graft hgraft
  obtain ⟨hlayoutNodup, hdrafts, hheld, hactive⟩ := checkNextLayout_eq_ok hcheck
  -- The session is the one that was repaired.
  have hrepaired := triple_normalizeSharedState env repaired w w rfl
  rw [hstate] at hrepaired
  obtain ⟨isRepaired, hrepaired⟩ := hrepaired
  obtain ⟨migrated, hdescribes, hnormal, hdescribed⟩ := normal_of_repair hrepaired.repair
  have hpanes : w₁.session.panes = w.session.panes := by rw [hrepaired.session]; rfl
  have hlivePanes : w₁.session.livePaneIds = w.session.livePaneIds := by
    rw [Session.livePaneIds, hpanes, Session.livePaneIds]
  have hids : (draftMappings request paneIds).map (·.paneId) = paneIds := by
    have hzip : (List.zipWith (fun draft paneId => (⟨draft.draftId, paneId⟩ : SharedDraftMapping))
        request.panes paneIds).map (·.paneId) = paneIds.map id :=
      map_zipWith_right (by intros; rfl) hlength
    rwa [map_id] at hzip
  -- The old layout places the live panes, and the summary has them.
  have hold : ∀ paneId, paneId ∈ layoutPaneIds state.presentation.layout ↔
      paneId ∈ w.session.livePaneIds := by
    intro paneId
    rw [hnormal.layout]
    exact hdescribes.placed paneId
  have hheldPanes : ∀ paneId ∈ w.session.livePaneIds, paneId ∈ w.session.panes.map (·.id) := by
    intro paneId hpane
    obtain ⟨pane, hmem, rfl⟩ := mem_map.mp hpane
    exact mem_map_of_mem (mem_of_mem_filter hmem)
  have hdraftIds : ∀ paneId ∈ paneIds, paneId ∈ layoutPaneIds layout := by
    intro paneId hpane
    rw [← hids] at hpane
    obtain ⟨mapping, hmapping, rfl⟩ := mem_map.mp hpane
    exact hdrafts mapping hmapping
  obtain ⟨hgrafted, hfrom⟩ := mem_of_nextLayout hlayout
  obtain ⟨hexisting, hresolved⟩ := mem_of_resolveDraftLayout hresolve
  rw [hids] at hresolved hheld
  rw [hpanes] at hheld
  have hplaced : ∀ paneId,
      paneId ∈ (withBatch request paneIds layout activePane state).summary.paneIds ↔
        (paneId ∈ w.session.livePaneIds ∨ paneId ∈ paneIds) ∧ paneId ∈ layoutPaneIds layout := by
    intro paneId
    rw [paneIds_withBatch hlength, mem_filter, mem_append, hdescribes.panes,
      decide_eq_true_eq, mem_filter, decide_eq_true_eq, hold]
    refine and_congr_right fun hsome => ?_
    constructor
    · intro hkept
      rcases hsome with hpane | hpane
      · by_contra hnotin
        exact hkept ⟨hpane, hnotin⟩
      · exact hdraftIds paneId hpane
    · exact fun hin hgone => hgone.2 hin
  constructor
  · intro hconsistent paneId hpane hpresent
    have hsummary := hconsistent.placed.mem_iff.mp (hgrafted paneId (hexisting paneId hpane))
    exact ((hplaced paneId).mp hsummary).1.resolve_right fun hdraft => hnew paneId hdraft hpresent
  · intro hlive
    have hsound : ∀ paneId ∈ layoutPaneIds layout,
        paneId ∈ w.session.livePaneIds ∨ paneId ∈ paneIds := by
      intro paneId hpane
      rcases hfrom paneId hpane with hpast | hpane'
      · exact .inl ((hold paneId).mp hpast)
      · rcases hresolved paneId hpane' with hnamed | hdraft
        · exact (hheld paneId hpane).imp_left (hlive paneId hnamed)
        · exact .inr hdraft
    rw [hafter]
    refine ⟨⟨rfl, rfl, rfl⟩, hlayoutNodup, ?_, fun paneId hpane => ?_, fun draft hdraft => ?_,
      fun paneId => ?_, hactive, fun paneId hpane => ?_, fun paneId hpane => ?_⟩
    · refine (perm_ext_iff_of_nodup hlayoutNodup ?_).mpr fun paneId => ?_
      · rw [paneIds_withBatch hlength]
        refine (nodup_append.mpr ⟨hdescribes.nodup, hnodup, ?_⟩).filter _
        rintro paneId hpane _ hpane' rfl
        exact hnew paneId hpane' (hheldPanes paneId ((hdescribes.panes paneId).mp hpane))
      · rw [hplaced]
        exact ⟨fun hpane => ⟨hsound paneId hpane, hpane⟩, fun h => h.2⟩
    · rw [mem_livePaneIds_batch hlength, hlivePanes]
      exact ⟨hsound paneId hpane, fun hgone => hgone.2 hpane⟩
    · obtain ⟨mapping, hmapping, hid⟩ := exists_draftMapping hlength hdraft
      exact ⟨mapping, hmapping, hid, hdrafts mapping hmapping⟩
    · change (_ ∧ paneId ∉ (batchPanes request paneIds layout state w₁.session).map (·.id)) ↔ _
      rw [mem_panes_batch hlength, hpanes]
      constructor
      · rintro ⟨hpresent, hgone⟩
        by_contra hkept
        exact hgone ⟨.inl hpresent, hkept⟩
      · intro hgone
        exact ⟨hheldPanes paneId ((hold paneId).mp hgone.1), fun hkept => hkept.2 hgone⟩
    · obtain ⟨hmaximized, hkept⟩ := Option.filter_eq_some_iff.mp hpane
      have hpast := (hold paneId).mpr ((hdescribes.panes paneId).mp
        (hnormal.maximized paneId hmaximized))
      by_contra hnotin
      exact of_decide_eq_true hkept (mem_filter.mpr ⟨hpast, decide_eq_true hnotin⟩)
    · obtain ⟨hminimized, hkept⟩ := mem_filter.mp hpane
      have hpast := (hold paneId).mpr ((hdescribes.panes paneId).mp
        (hnormal.minimized paneId hminimized))
      by_contra hnotin
      exact of_decide_eq_true hkept (mem_filter.mpr ⟨hpast, decide_eq_true hnotin⟩)

/-- The session whose second pane has exited, as it is repaired. -/
def repairedState : SharedSessionState ℕ :=
  { SharedSessionState.new 7 { SharedSessionState.twoPanes with
      layout := .pane 1
      panes := [SharedSessionState.plainPane 1] } 0 with revision := 1 }

/-- A draft beside the panes of the session, of which `others` are named. -/
def graftBeside (others : SharedDraftLayout) : SharedSpawnBatchRequest where
  sessionId := 7
  baseRevision := 1
  operationId := ⟨"a", 1⟩
  targetPaneId := none
  replacement := .split "vertical" 500 others (.draft 1)
  panes := [⟨1, SharedSessionState.plainPane 0, (80, 24)⟩]
  activePane := none

/-- What is grafted beside it. -/
def grafted (others : SharedDraftLayout) (layout : BackgroundPaneLayout) : SharedSessionState ℕ :=
  withBatch (graftBeside others) [3] (.split "vertical" 500 layout (.pane 3)) 1 repairedState

/-- The pane that has exited. -/
def exitedBeside : SharedDraftLayout := .split "vertical" 500 (.existing 1) (.existing 2)

theorem normalize_halfExited :
    (normalizeSharedState plainEnv true halfExited).1 = .ok repairedState := by
  decide +kernel

/-- A pane that has exited is named in a replacement. The commit is applied, and the layout has a
pane that no summary describes and that is not live. -/
theorem exited_pane_grafted :
    (commitSharedBatch plainEnv (graftBeside exitedBeside) [3] (.split "vertical" 500
        (.split "vertical" 500 (.pane 1) (.pane 2)) (.pane 3)) guest true halfExited).1 =
      .ok (.spawned [⟨1, 3⟩]
        (grafted exitedBeside (.split "vertical" 500 (.pane 1) (.pane 2)))) ∧
    layoutPaneIds (grafted exitedBeside
      (.split "vertical" 500 (.pane 1) (.pane 2))).presentation.layout = [1, 2, 3] ∧
    (grafted exitedBeside
      (.split "vertical" 500 (.pane 1) (.pane 2))).summary.paneIds = [1, 3] ∧
    ∀ after mappings, ¬BatchConsistent (graftBeside exitedBeside) repairedState
      (grafted exitedBeside (.split "vertical" 500 (.pane 1) (.pane 2))) halfExited.session after
      mappings := by
  refine ⟨by decide +kernel, by decide +kernel, by decide +kernel, fun after mappings h => ?_⟩
  have hplaced := h.placed.mem_iff (a := 2)
  exact absurd (hplaced.mp (by decide +kernel)) (by decide +kernel)

theorem batchConsistent_grafted :
    BatchConsistent (graftBeside (.existing 1)) repairedState (grafted (.existing 1) (.pane 1))
      halfExited.session
      (commitSharedBatch plainEnv (graftBeside (.existing 1)) [3]
        (.split "vertical" 500 (.pane 1) (.pane 3)) guest true halfExited).2.session [⟨1, 3⟩] := by
  have hstate : normalizeSharedState plainEnv true halfExited =
      (.ok repairedState, (normalizeSharedState plainEnv true halfExited).2) :=
    Prod.ext normalize_halfExited rfl
  have hcommit : commitSharedBatch plainEnv (graftBeside (.existing 1)) [3]
      (.split "vertical" 500 (.pane 1) (.pane 3)) guest true halfExited =
        (.ok (.spawned [⟨1, 3⟩] (grafted (.existing 1) (.pane 1))),
          (commitSharedBatch plainEnv (graftBeside (.existing 1)) [3]
            (.split "vertical" 500 (.pane 1) (.pane 3)) guest true halfExited).2) :=
    Prod.ext (by decide +kernel) rfl
  exact (batchConsistent_iff (by rfl) (by decide) (by decide) (by decide +kernel) hstate
    (by decide +kernel) hcommit).mpr (by decide +kernel)

end Zetta.Zmux.Server.Control
