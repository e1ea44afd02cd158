import Zetta.Lib.Run
import Zetta.Pane.Tab

/-!
# What a tab shows stays consistent

`Tab.Arranged` says how the panes, the layout, the index, the minimized and the maximized
panes, the selection and the focus history fit together; `Tab.Coherent` adds that the active
pane is visible. An operation first rearranges the tab, which keeps `Arranged`, and then
activates a pane that is visible, which makes it `Coherent` (`Arranged.activatePane`).

* `Arranged.paneIds_visibleLayout`: the layout that is drawn places the visible panes, each
  once.
* `coherent_of_run`: a tab that was opened with one pane stays coherent, whatever is done to it,
  and no operation panics.
-/

namespace Zetta.Pane

open List

namespace Tab

variable {ι R : Type} [DecidableEq ι]

/-- The pane is one of the tab and is neither minimized nor hidden by a maximized one. -/
def Visible (t : Tab ι) (id : ι) : Prop :=
  id ∈ t.ids ∧ id ∉ t.minimizedPanes ∧ ∀ maximized ∈ t.maximizedPane, maximized = id

/-- **The parts of a tab fit together**, except for the active pane. -/
structure Arranged (t : Tab ι) : Prop where
  nodup : t.ids.Nodup
  index : ∀ id i, t.paneIndices id = some i ↔ t.ids[i]? = some id
  layout : t.layout.paneIds.Perm t.ids
  minimized_nodup : t.minimizedPanes.Nodup
  minimized_subset : t.minimizedPanes ⊆ t.ids
  not_all_minimized : ∃ id ∈ t.ids, id ∉ t.minimizedPanes
  maximized : ∀ id ∈ t.maximizedPane, id ∈ t.ids ∧ id ∉ t.minimizedPanes
  selected_mem : ∀ id ∈ t.selectedMinimizedPane, id ∈ t.minimizedPanes
  selected_isSome : t.minimizedPanes ≠ [] → t.selectedMinimizedPane.isSome
  history_nodup : t.focusHistory.Nodup
  history_subset : t.focusHistory ⊆ t.ids

/-- **The parts of a tab fit together**, and the active pane is visible. -/
structure Coherent (t : Tab ι) : Prop extends Arranged t where
  active : t.Visible t.activePane

/-! ### Panes -/

omit [DecidableEq ι] in
@[simp] theorem length_ids (t : Tab ι) : t.ids.length = t.panes.length := length_map ..

variable {t : Tab ι} {id : ι}

omit [DecidableEq ι] in
/-- The index finds the panes of the tab. -/
theorem isSome_pane (h : ∀ id i, t.paneIndices id = some i ↔ t.ids[i]? = some id) :
    (t.pane id).isSome ↔ id ∈ t.ids := by
  have hget : ∀ i : ℕ, t.ids[i]? = (t.panes[i]?).map TerminalPane.id := fun i =>
    getElem?_map ..
  rw [pane, Option.isSome_bind]
  constructor
  · intro hsome
    obtain ⟨i, hi, -⟩ := (Option.any_eq_true ..).mp hsome
    exact mem_of_getElem? ((h id i).mp hi)
  · intro hmem
    obtain ⟨i, hi⟩ := mem_iff_getElem?.mp hmem
    obtain ⟨p, hp, -⟩ := Option.map_eq_some_iff.mp ((hget i).symm.trans hi)
    rw [(h id i).mpr hi]
    simp [hp]

omit [DecidableEq ι] in
theorem isNone_pane (h : ∀ id i, t.paneIndices id = some i ↔ t.ids[i]? = some id) :
    (t.pane id).isNone = true ↔ id ∉ t.ids := by
  rw [← isSome_pane h, Option.not_isSome_iff_eq_none, Option.isNone_iff_eq_none]

theorem activatePane_eq (h : t.Arranged) (hid : id ∈ t.ids) :
    t.activatePane id = { t with
      focusHistory := (t.focusHistory.filter fun paneId => paneId ≠ id) ++ [id]
      activePane := id } := by
  rw [activatePane, if_neg]
  rw [isNone_pane h.index]
  exact not_not.mpr hid

/-- **Activating a visible pane** makes a tab coherent. -/
theorem Arranged.activatePane (h : t.Arranged) (hid : t.Visible id) :
    (t.activatePane id).Coherent := by
  rw [activatePane_eq h hid.1]
  refine { h with history_nodup := ?_, history_subset := ?_, active := hid }
  · refine nodup_append.mpr ⟨h.history_nodup.filter _, nodup_singleton _, ?_⟩
    intro a ha b hb
    rw [mem_singleton.mp hb]
    simpa using (mem_filter.mp ha).2
  · intro a ha
    rcases mem_append.mp ha with ha | ha
    · exact h.history_subset (mem_of_mem_filter ha)
    · exact mem_singleton.mp ha ▸ hid.1

/-- The selection after it was repaired is a minimized pane, if there is one. -/
theorem repairMinimizedSelection_eq (t : Tab ι) : ∃ s,
    t.repairMinimizedSelection = { t with selectedMinimizedPane := s } ∧
      (∀ id ∈ s, id ∈ t.minimizedPanes) ∧ (t.minimizedPanes ≠ [] → s.isSome) := by
  rw [repairMinimizedSelection]
  split
  · next hany =>
    obtain ⟨id, hid, hmem⟩ := (Option.any_eq_true ..).mp hany
    refine ⟨t.selectedMinimizedPane, rfl, fun id' hid' => ?_, fun _ => by simp [hid]⟩
    obtain rfl := Option.mem_unique hid' hid
    exact of_decide_eq_true hmem
  · refine ⟨_, rfl, fun id hid => mem_of_getLast? hid, fun hne => ?_⟩
    rw [getLast?_eq_some_getLast hne]
    rfl

/-! ### Counting -/

/-- The panes that are not minimized are as many as the lengths say. -/
theorem Arranged.length_filter (h : t.Arranged) :
    (t.ids.filter fun id => id ∉ t.minimizedPanes).length =
      t.panes.length - t.minimizedPanes.length := by
  have hperm : (t.ids.filter fun id => id ∈ t.minimizedPanes).Perm t.minimizedPanes := by
    refine (perm_ext_iff_of_nodup (h.nodup.filter _) h.minimized_nodup).mpr fun id => ?_
    simp only [mem_filter, decide_eq_true_eq, and_iff_right_iff_imp]
    exact fun hid => h.minimized_subset hid
  have hsplit := length_eq_length_filter_add (l := t.ids) fun id => decide (id ∈ t.minimizedPanes)
  rw [hperm.length_eq, length_ids] at hsplit
  have hnot : (t.ids.filter fun id => !decide (id ∈ t.minimizedPanes)) =
      t.ids.filter fun id => id ∉ t.minimizedPanes := by simp
  rw [hnot] at hsplit
  omega

/-- **The count of `toggle_maximize`** is the number of panes that are shown side by side once
the pane is no longer minimized. -/
theorem Arranged.visiblePaneCount_eq (h : t.Arranged) {paneId : ι} (hid : paneId ∈ t.ids) :
    t.visiblePaneCount paneId =
      (t.ids.filter fun id => id ∉ t.minimizedPanes.filter fun id => id ≠ paneId).length := by
  rw [visiblePaneCount, ← h.length_filter]
  by_cases hmin : paneId ∈ t.minimizedPanes
  · rw [if_pos hmin]
    have hperm : (t.ids.filter fun id => id ∉ t.minimizedPanes.filter fun id => id ≠ paneId).Perm
        (paneId :: t.ids.filter fun id => id ∉ t.minimizedPanes) := by
      refine (perm_ext_iff_of_nodup (h.nodup.filter _) (nodup_cons.mpr
        ⟨by simp [hmin], h.nodup.filter _⟩)).mpr fun id => ?_
      by_cases heq : id = paneId
      · simp [heq, hid]
      · simp [heq]
    rw [hperm.length_eq, length_cons]
  · have hsame : (t.minimizedPanes.filter fun id => id ≠ paneId) = t.minimizedPanes :=
      filter_eq_self.mpr fun id hmem => by
        simpa using fun heq : id = paneId => hmin (heq ▸ hmem)
    rw [if_neg hmin, hsame, Nat.add_zero]

/-! ### What is visible -/

theorem Arranged.paneIsVisible_iff (h : t.Arranged) :
    t.paneIsVisible id = true ↔ t.Visible id := by
  rw [paneIsVisible, Bool.and_eq_true, isSome_pane h.index, Visible]
  refine and_congr_right fun hid => ?_
  cases hmax : t.maximizedPane with
  | none => simp
  | some m =>
    simp only [decide_eq_true_eq, Option.mem_def, Option.some.injEq, forall_eq']
    exact ⟨fun heq => ⟨heq ▸ (h.maximized m hmax).2, heq⟩, fun hboth => hboth.2⟩

/-- **The layout that is drawn** places the visible panes, each once. -/
theorem Arranged.paneIds_visibleLayout (h : t.Arranged) : ∃ l,
    t.visibleLayout = some l ∧ l.paneIds.Nodup ∧ ∀ id, id ∈ l.paneIds ↔ t.Visible id := by
  have hmem : ∀ id, id ∈ t.layout.paneIds ↔ id ∈ t.ids := fun id => h.layout.mem_iff
  rw [visibleLayout]
  cases hmax : t.maximizedPane with
  | some m =>
    obtain ⟨hm, hnot⟩ := h.maximized m hmax
    obtain ⟨p, hp⟩ := Option.isSome_iff_exists.mp ((isSome_pane h.index).mpr hm)
    refine ⟨.pane m, by simp [hp], nodup_singleton _, fun id => ?_⟩
    simp only [PaneLayout.paneIds_pane, mem_singleton, Visible, hmax, Option.mem_def,
      Option.some.injEq, forall_eq']
    constructor
    · rintro rfl
      exact ⟨hm, hnot, rfl⟩
    · exact fun hv => hv.2.2.symm
  | none =>
    dsimp only
    by_cases hmin : t.minimizedPanes = []
    · refine ⟨t.layout, if_pos hmin, h.layout.nodup_iff.mpr h.nodup, fun id => ?_⟩
      simp [Visible, hmem, hmin, hmax]
    · rw [if_neg hmin]
      have hids := PaneLayout.paneIds_withoutAll t.minimizedPanes t.layout
      obtain ⟨id, hid, hnot⟩ := h.not_all_minimized
      cases hl : t.layout.withoutAll t.minimizedPanes with
      | none =>
        rw [hl, Option.elim_none] at hids
        have hin : id ∈ t.layout.paneIds.filter fun id => id ∉ t.minimizedPanes := by
          simp [hmem, hid, hnot]
        rw [← hids] at hin
        cases hin
      | some l =>
        rw [hl, Option.elim_some] at hids
        refine ⟨l, rfl, hids ▸ (h.layout.nodup_iff.mpr h.nodup).filter _, fun id => ?_⟩
        simp [hids, Visible, hmem, hmax]

/-! ### Operations on what is shown -/

theorem Coherent.toggleMaximize (h : t.Coherent) (paneId : ι) :
    (t.toggleMaximize paneId).2.Coherent := by
  rw [Tab.toggleMaximize]
  split
  · exact h
  next hpane =>
  split
  · exact h
  have hid : paneId ∈ t.ids := by
    rw [isNone_pane h.index, not_not] at hpane
    exact hpane
  obtain ⟨s, heq, hmem, hsome⟩ := repairMinimizedSelection_eq
    { t with minimizedPanes := t.minimizedPanes.filter fun id => id ≠ paneId }
  have hnot : paneId ∉ t.minimizedPanes.filter fun id => id ≠ paneId := by simp
  simp only [heq]
  refine Arranged.activatePane ?_ ⟨hid, hnot, fun m hm => ?_⟩
  · exact { h.toArranged with
      minimized_nodup := h.minimized_nodup.filter _
      minimized_subset := fun id hid => h.minimized_subset (mem_of_mem_filter hid)
      not_all_minimized := ⟨paneId, hid, hnot⟩
      maximized := fun id hid' => by
        dsimp only at hid'
        split at hid'
        · obtain rfl := Option.mem_some_iff.mp hid'
          exact ⟨hid, hnot⟩
        · cases hid'
      selected_mem := hmem
      selected_isSome := hsome }
  · dsimp only at hm
    split at hm
    · exact (Option.mem_some_iff.mp hm).symm
    · cases hm

omit [DecidableEq ι] in
private theorem exists_notMem_of_length_lt {l l' : List ι} (h : l.Nodup)
    (hlt : l'.length < l.length) : ∃ id ∈ l, id ∉ l' := by
  by_contra hall
  push Not at hall
  have := (subperm_of_subset h hall).length_le
  omega

/-- **Minimizing** finds another visible pane to focus. -/
theorem Coherent.minimize (h : t.Coherent) (F : Arithmetic R) (paneId : ι) :
    ∃ r, t.minimize F paneId = some r ∧ r.2.Coherent := by
  rw [Tab.minimize]
  split
  · exact ⟨_, rfl, h⟩
  next hcan =>
  simp only [not_or, isNone_pane h.index, not_not, not_le] at hcan
  obtain ⟨hid, hnot, hcount⟩ := hcan
  let t' : Tab ι := { t with
    maximizedPane := none
    minimizedPanes := t.minimizedPanes ++ [paneId]
    selectedMinimizedPane := some paneId }
  have hmore : (t.minimizedPanes ++ [paneId]).length < t.ids.length := by
    simp only [length_append, length_singleton, length_ids]
    omega
  have hmany := exists_notMem_of_length_lt h.nodup hmore
  have harranged : t'.Arranged := { h.toArranged with
    minimized_nodup := nodup_append.mpr ⟨h.minimized_nodup, nodup_singleton _,
      fun a ha b hb => by
        rw [mem_singleton.mp hb]
        exact fun heq => hnot (heq ▸ ha)⟩
    minimized_subset := append_subset.mpr ⟨h.minimized_subset, cons_subset.mpr ⟨hid, nil_subset _⟩⟩
    not_all_minimized := hmany
    maximized := fun id hid' => nomatch hid'
    selected_mem := fun id hid' => by simp [t', Option.mem_some_iff.mp hid']
    selected_isSome := fun _ => rfl }
  have hfallback : ∃ f, t'.minimizeFallback F paneId = some f ∧ t'.Visible f := by
    rw [minimizeFallback]
    cases hfind : t'.focusHistory.reverse.find?
        fun id => id ≠ paneId ∧ id ∉ t'.minimizedPanes with
    | some f =>
      have hf : f ≠ paneId ∧ f ∉ t'.minimizedPanes := by simpa using find?_some hfind
      have hmem := mem_reverse.mp (mem_of_find?_eq_some hfind)
      exact ⟨f, rfl, h.history_subset hmem, hf.2, fun m hm => nomatch hm⟩
    | none =>
      rw [Option.none_or, PaneLayout.map_id_regions]
      obtain ⟨id, hid', hnot'⟩ := hmany
      have hsome : (t'.layout.paneIds.find? fun id => id ∉ t'.minimizedPanes).isSome := by
        rw [find?_isSome]
        exact ⟨id, h.layout.mem_iff.mpr hid', decide_eq_true hnot'⟩
      obtain ⟨f, hf⟩ := Option.isSome_iff_exists.mp hsome
      exact ⟨f, hf, h.layout.mem_iff.mp (mem_of_find?_eq_some hf),
        by simpa using find?_some hf, fun m hm => nomatch hm⟩
  obtain ⟨f, hf, hvisible⟩ := hfallback
  exact ⟨(true, t'.activatePane f),
    congrArg (Option.map fun fallback => (true, t'.activatePane fallback)) hf,
    harranged.activatePane hvisible⟩

/-- **Restoring** a minimized pane makes it visible. -/
theorem Coherent.restoreMinimized (h : t.Coherent) (paneId : ι) :
    (t.restoreMinimized paneId).2.Coherent := by
  rw [Tab.restoreMinimized]
  split
  · exact h
  next index hindex =>
  obtain ⟨hlt, hget, -⟩ := findIdx?_eq_some_iff_getElem.mp hindex
  have hget : t.minimizedPanes[index] = paneId := of_decide_eq_true hget
  have hmem : paneId ∈ t.minimizedPanes := hget ▸ getElem_mem hlt
  have hsub := eraseIdx_sublist t.minimizedPanes index
  have hnot : paneId ∉ t.minimizedPanes.eraseIdx index := by
    rw [mem_eraseIdx_iff_getElem]
    rintro ⟨i, hi, hne, heq⟩
    exact hne ((h.minimized_nodup.getElem_inj_iff).mp (heq.trans hget.symm))
  have harranged : ∀ s, (∀ id ∈ s, id ∈ t.minimizedPanes.eraseIdx index) →
      (t.minimizedPanes.eraseIdx index ≠ [] → s.isSome) →
      ({ t with
        minimizedPanes := t.minimizedPanes.eraseIdx index
        selectedMinimizedPane := s
        maximizedPane := none }.activatePane paneId).Coherent := by
    intro s hs hsome
    refine Arranged.activatePane ?_ ⟨h.minimized_subset hmem, hnot, fun m hm => nomatch hm⟩
    exact { h.toArranged with
      minimized_nodup := h.minimized_nodup.sublist hsub
      minimized_subset := List.Subset.trans hsub.subset h.minimized_subset
      not_all_minimized := ⟨paneId, h.minimized_subset hmem, hnot⟩
      maximized := fun id hid => nomatch hid
      selected_mem := hs
      selected_isSome := hsome }
  dsimp only
  split
  · refine harranged _ (fun id hid => ?_) fun hne => ?_
    · split at hid
      · cases hid
      · exact mem_of_getElem? hid
    · rw [if_neg hne, getElem?_eq_getElem
        (Nat.mod_lt _ (length_pos_iff.mpr hne))]
      rfl
  · obtain ⟨s, heq, hs, hsome⟩ := repairMinimizedSelection_eq
      { t with minimizedPanes := t.minimizedPanes.eraseIdx index }
    rw [heq]
    exact harranged s hs hsome

theorem Coherent.restoreLastMinimized (h : t.Coherent) :
    t.restoreLastMinimized.2.Coherent := by
  rw [Tab.restoreLastMinimized]
  split
  · exact h.restoreMinimized _
  · exact h

theorem adjacentIndex_lt {count : ℕ} (h : 0 < count) (forward : Bool) {position : Option ℕ}
    (hposition : ∀ i ∈ position, i < count) : adjacentIndex count forward position < count := by
  cases position with
  | none => cases forward <;> simp [adjacentIndex, h]
  | some i =>
    have hi := hposition i rfl
    cases forward with
    | true => exact Nat.mod_lt _ h
    | false =>
      simp only [adjacentIndex, Bool.false_eq_true, if_false]
      split <;> omega

/-- **Moving the selection** leaves it on a minimized pane. -/
theorem Coherent.selectAdjacentMinimized (h : t.Coherent) (forward : Bool) :
    (t.selectAdjacentMinimized forward).2.Coherent := by
  rw [Tab.selectAdjacentMinimized]
  split
  · next hnil =>
    exact { h with
      selected_mem := fun id hid => nomatch hid
      selected_isSome := fun hne => absurd hnil hne }
  next hne =>
  have hposition : ∀ i ∈ t.selectedMinimizedPane.bind fun paneId =>
      t.minimizedPanes.findIdx? fun id => id = paneId, i < t.minimizedPanes.length := by
    intro i hi
    obtain ⟨paneId, -, hfind⟩ := Option.bind_eq_some_iff.mp hi
    exact (findIdx?_eq_some_iff_getElem.mp hfind).1
  have hlt := adjacentIndex_lt (length_pos_iff.mpr hne) forward hposition
  exact { h with
    selected_mem := fun id hid => mem_of_getElem? hid
    selected_isSome := fun _ => by simp [getElem?_eq_getElem hlt] }

/-- **The focus** moves to a visible pane. -/
theorem Coherent.focusPane (h : t.Coherent) (F : Arithmetic R) (direction : PaneDirection) :
    (t.focusPane F direction).Coherent := by
  rw [Tab.focusPane]
  split
  · exact h
  split
  · next paneId hbind =>
    obtain ⟨l, hl, hadjacent⟩ := Option.bind_eq_some_iff.mp hbind
    obtain ⟨l', hl', -, hmem⟩ := h.paneIds_visibleLayout
    obtain rfl : l' = l := Option.some.inj (hl'.symm.trans hl)
    exact h.toArranged.activatePane
      ((hmem _).mp (PaneLayout.mem_paneIds_adjacentPane hadjacent))
  · exact h

/-! ### Splitting -/

omit [DecidableEq ι] in
theorem ids_append (t : Tab ι) (p : TerminalPane ι) : { t with panes := t.panes ++ [p] }.ids =
    t.ids ++ [p.id] := by simp [ids]

/-- **Splitting a visible pane** adds a pane and makes it active. -/
theorem Coherent.splitPane (h : t.Coherent) {target : ι} (axis : SplitAxis)
    (position : SplitPosition) {paneId : ι} (htarget : t.Visible target) (hnew : paneId ∉ t.ids) :
    (t.splitPane target axis position paneId).2.Coherent ∧
      (t.splitPane target axis position paneId).2.ids ⊆ paneId :: t.ids := by
  rw [Tab.splitPane]
  split
  · exact ⟨h, subset_cons_self ..⟩
  split
  · exact ⟨h, subset_cons_self ..⟩
  obtain ⟨l, hl, hperm⟩ : ∃ l, t.layout.splitPane target axis paneId position = some l ∧
      l.paneIds.Perm (paneId :: t.layout.paneIds) :=
    PaneLayout.exists_splitPane (h.layout.mem_iff.mpr htarget.1)
  simp only [hl]
  let t' : Tab ι := { t with maximizedPane := none, layout := l }
  let p : TerminalPane ι := { id := paneId, labelNumber := t.nextPaneLabel }
  have hids : (t'.pushPane { id := paneId }).ids = t.ids ++ [paneId] := ids_append t' p
  have hindex : ∀ id i, (t'.pushPane { id := paneId }).paneIndices id = some i ↔
      (t.ids ++ [paneId])[i]? = some id := by
    intro id i
    have hpush : (t'.pushPane { id := paneId }).paneIndices id =
        if id = paneId then some t.panes.length else t.paneIndices id := rfl
    rw [hpush, getElem?_append, length_ids]
    by_cases heq : id = paneId
    · subst heq
      rw [if_pos rfl]
      split
      · next hlt =>
        refine iff_of_false (fun hi => by simp only [Option.some.injEq] at hi; omega) fun hi => ?_
        exact hnew (mem_of_getElem? hi)
      · rw [getElem?_singleton]
        split <;> simp <;> omega
    · rw [if_neg heq, h.index]
      split
      · rfl
      · next hge =>
        rw [getElem?_eq_none (by simpa using hge), getElem?_singleton]
        split <;> simp [Ne.symm heq]
  have harranged : (t'.pushPane { id := paneId }).Arranged := { h.toArranged with
    nodup := hids ▸ nodup_append.mpr ⟨h.nodup, nodup_singleton _, fun a ha b hb heq =>
      hnew (by rwa [← mem_singleton.mp hb, ← heq])⟩
    index := fun id i => hids ▸ hindex id i
    layout := hids ▸ (hperm.trans ((h.layout.cons _).trans (perm_append_singleton ..).symm))
    minimized_subset := hids ▸ subset_append_of_subset_left _ h.minimized_subset
    not_all_minimized := by
      obtain ⟨id, hid, hnot⟩ := h.not_all_minimized
      exact ⟨id, hids ▸ mem_append_left _ hid, hnot⟩
    maximized := fun id hid => nomatch hid
    history_subset := hids ▸ subset_append_of_subset_left _ h.history_subset }
  have hvisible : (t'.pushPane { id := paneId }).Visible paneId :=
    ⟨hids ▸ mem_append_right _ (mem_singleton.mpr rfl),
      fun hmem => hnew (h.minimized_subset hmem), fun m hm => nomatch hm⟩
  refine ⟨harranged.activatePane hvisible, ?_⟩
  rw [activatePane_eq harranged hvisible.1]
  intro id hid
  have hid' : id ∈ t.ids ++ [paneId] := hids ▸ hid
  rcases mem_append.mp hid' with hid' | hid'
  · exact mem_cons_of_mem _ hid'
  · exact mem_singleton.mp hid' ▸ mem_cons_self ..

/-! ### Closing -/

/-- The index of the panes entered anew, and of the others as before. -/
theorem reindex_eq_some {f : ι → Option ℕ} {panes : List (TerminalPane ι)} {position : ℕ}
    (h : (panes.map TerminalPane.id).Nodup) {i : ℕ} :
    reindex f position panes id = some i ↔
      (∃ k, (panes.map TerminalPane.id)[k]? = some id ∧ i = position + k) ∨
        id ∉ panes.map TerminalPane.id ∧ f id = some i := by
  induction panes generalizing f position with
  | nil => simp [reindex]
  | cons pane panes ih =>
    rw [map_cons, nodup_cons] at h
    rw [reindex, ih h.2, map_cons]
    have hhead : (∃ k, (pane.id :: panes.map TerminalPane.id)[k]? = some id ∧ i = position + k) ↔
        (pane.id = id ∧ i = position) ∨
          ∃ k, (panes.map TerminalPane.id)[k]? = some id ∧ i = position + 1 + k := by
      constructor
      · rintro ⟨k, hk, hi⟩
        cases k with
        | zero => exact .inl ⟨Option.some.inj hk, hi⟩
        | succ k => exact .inr ⟨k, hk, by omega⟩
      · rintro (⟨hid, hi⟩ | ⟨k, hk, hi⟩)
        · exact ⟨0, by simp [hid], hi⟩
        · exact ⟨k + 1, hk, by omega⟩
    rw [hhead, mem_cons, not_or]
    by_cases heq : id = pane.id
    · subst heq
      simp only [h.1, not_false_eq_true, true_and, if_true, Option.some.injEq, not_true_eq_false,
        false_and, or_false]
      rw [or_comm]
      exact or_congr_left eq_comm
    · simp only [Ne.symm heq, false_and, false_or, heq, if_false, not_false_eq_true,
        true_and]

/-- **Taking a pane out** leaves the index right for the others. -/
theorem Arranged.removePane (h : t.Arranged) (hid : id ∈ t.ids) :
    ∃ panes indices, t.removePane id = some { t with panes := panes, paneIndices := indices } ∧
      panes.map TerminalPane.id = t.ids.filter (fun id' => id' ≠ id) ∧
      ∀ id' i, indices id' = some i ↔ (panes.map TerminalPane.id)[i]? = some id' := by
  obtain ⟨index, hindex⟩ := mem_iff_getElem?.mp hid
  obtain ⟨hlt, hget⟩ := List.getElem?_eq_some_iff.mp hindex
  have hpanes : index < t.panes.length := length_ids t ▸ hlt
  have hmap : (t.panes.eraseIdx index).map TerminalPane.id = t.ids.eraseIdx index :=
    (eraseIdx_map ..).symm
  let indices := reindex (fun id' => if id' = id then none else t.paneIndices id') index
    ((t.panes.eraseIdx index).drop index)
  refine ⟨t.panes.eraseIdx index, indices, ?_, ?_, ?_⟩
  · rw [Tab.removePane, (h.index id index).mpr hindex]
    exact if_pos hpanes
  · have hindexOf : t.ids.idxOf id = index := hget ▸ h.nodup.idxOf_getElem index hlt
    rw [hmap, ← erase_eq_eraseIdx_of_idxOf hindexOf, h.nodup.erase_eq_filter]
    exact filter_congr fun id' _ => Bool.eq_iff_iff.mpr (by simp)
  · intro id' i
    have hdrop : ((t.panes.eraseIdx index).drop index).map TerminalPane.id =
        (t.ids.eraseIdx index).drop index := by rw [map_drop, hmap]
    have hnodup : (t.ids.eraseIdx index).Nodup := h.nodup.sublist (eraseIdx_sublist ..)
    rw [reindex_eq_some (hdrop ▸ hnodup.sublist (drop_sublist ..)), hdrop, hmap]
    simp only [getElem?_drop]
    constructor
    · rintro (⟨k, hk, rfl⟩ | ⟨hnot, hold⟩)
      · exact hk
      · split at hold
        · cases hold
        next hne =>
        have hi := (h.index id' i).mp hold
        rcases Nat.lt_trichotomy i index with hlt' | rfl | hgt
        · rwa [getElem?_eraseIdx, if_pos hlt']
        · exact absurd (Option.some.inj (hi.symm.trans hindex)) hne
        · -- A pane behind the one taken out is entered anew.
          refine absurd (mem_iff_getElem?.mpr ⟨i - 1 - index, ?_⟩) hnot
          rw [getElem?_drop, getElem?_eraseIdx, if_neg (by omega)]
          rw [show index + (i - 1 - index) + 1 = i by omega]
          exact hi
    · intro hi
      by_cases hlt' : i < index
      · refine .inr ⟨fun hmem => ?_, ?_⟩
        · obtain ⟨k, hk⟩ := mem_iff_getElem?.mp hmem
          rw [getElem?_drop] at hk
          have := (getElem?_inj (List.getElem?_eq_some_iff.mp hi).1 hnodup).mp
            (hi.trans hk.symm)
          omega
        · rw [getElem?_eraseIdx, if_pos hlt'] at hi
          have hne : id' ≠ id := fun heq => by
            have := (getElem?_inj (hlt'.trans hlt) h.nodup).mp
              (hi.trans (heq ▸ hindex.symm))
            omega
          rw [if_neg hne]
          exact (h.index id' i).mpr hi
      · exact .inl ⟨i - index, by rwa [show index + (i - index) = i by omega], by omega⟩

/-- If only minimized panes are left the last one is restored, so that one is visible. -/
theorem restoreLastSurvivor_spec (hnodup : t.ids.Nodup)
    (hindex : ∀ id i, t.paneIndices id = some i ↔ t.ids[i]? = some id) (hne : t.ids ≠ [])
    (hmin : t.minimizedPanes.Nodup) (hsub : t.minimizedPanes ⊆ t.ids)
    (hhistory : t.focusHistory.Nodup) :
    ∃ minimized history active, t.restoreLastSurvivor = some { t with
        minimizedPanes := minimized, focusHistory := history, activePane := active } ∧
      minimized.Sublist t.minimizedPanes ∧ (∃ id ∈ t.ids, id ∉ minimized) ∧ history.Nodup ∧
      (active = t.activePane ∨ t.ids ⊆ t.minimizedPanes) := by
  rw [restoreLastSurvivor]
  split
  · next hall =>
    have hsubset : t.ids ⊆ t.minimizedPanes :=
      ((subperm_of_subset hmin hsub).perm_of_length_le hall.2.le).symm.subset
    have hnonempty : t.minimizedPanes ≠ [] := fun hnil => by
      rw [hnil, length_nil, length_eq_zero_iff] at hall
      exact hne hall.2
    rw [getLast?_eq_some_getLast hnonempty, Option.map_some]
    have hlast := hsub (getLast_mem hnonempty)
    have hisSome : ¬ (({ t with minimizedPanes := t.minimizedPanes.dropLast } : Tab ι).pane
        (t.minimizedPanes.getLast hnonempty)).isNone = true := fun hnone =>
      (isNone_pane hindex).mp hnone hlast
    rw [activatePane, if_neg hisSome]
    refine ⟨_, _, _, rfl, dropLast_sublist _, ⟨_, hlast, fun hmem => ?_⟩, ?_, .inr hsubset⟩
    · rw [← dropLast_append_getLast hnonempty, nodup_append] at hmin
      exact hmin.2.2 _ hmem _ (mem_singleton.mpr rfl) rfl
    · refine nodup_append.mpr ⟨hhistory.filter _, nodup_singleton _, ?_⟩
      intro a ha b hb
      rw [mem_singleton.mp hb]
      simpa using (mem_filter.mp ha).2
  · next hsome =>
    refine ⟨_, _, _, rfl, List.Sublist.refl _, ?_, hhistory, .inl rfl⟩
    by_contra hall
    push Not at hall
    have hperm : t.ids.Perm t.minimizedPanes :=
      (subperm_of_subset hnodup hall).antisymm (subperm_of_subset hmin hsub)
    exact hsome ⟨hne, hperm.length_eq⟩

/-- **The focus after a close** goes to a visible pane. -/
theorem Arranged.refocus (h : t.Arranged) (closed fallback : ι)
    (hmax : ∀ m ∈ t.maximizedPane, m = t.activePane ∧ m ≠ closed) :
    (t.refocus closed fallback).Coherent := by
  rw [Tab.refocus]
  split
  · next hactive =>
    exact { h with active := ⟨hactive.2.1, hactive.2.2, fun m hm => (hmax m hm).1⟩ }
  next hactive =>
  -- Where a pane is maximized it is active, and the focus stays.
  have hnone : t.maximizedPane = none := by
    by_contra hsome
    obtain ⟨m, hm⟩ := Option.ne_none_iff_exists'.mp hsome
    obtain ⟨rfl, hne⟩ := hmax m hm
    exact hactive ⟨hne, h.maximized _ hm⟩
  refine h.activatePane ?_
  rw [focusAfterClose]
  cases hfind : t.focusHistory.reverse.find? fun paneId => paneId ∉ t.minimizedPanes with
  | some f =>
    have hmem := mem_reverse.mp (mem_of_find?_eq_some hfind)
    exact ⟨h.history_subset hmem, by simpa using find?_some hfind,
      fun m hm => by rw [hnone] at hm; cases hm⟩
  | none =>
    obtain ⟨l, hl, -, hvisible⟩ := h.paneIds_visibleLayout
    rw [hl]
    exact (hvisible _).mp l.firstPane_mem

/-- The end of a close, once the panes that are left fit together. -/
theorem settleFocus_spec {closed fallback : ι} (hnodup : t.ids.Nodup)
    (hindex : ∀ id i, t.paneIndices id = some i ↔ t.ids[i]? = some id)
    (hlayout : t.layout.paneIds.Perm t.ids) (hmin : t.minimizedPanes.Nodup)
    (hsub : t.minimizedPanes ⊆ t.ids) (hleft : ∃ id ∈ t.ids, id ∉ t.minimizedPanes)
    (hmax : ∀ m ∈ t.maximizedPane, m ∈ t.ids ∧ m ∉ t.minimizedPanes ∧ m = t.activePane ∧
      m ≠ closed) (hhistory : t.focusHistory.Nodup) :
    (t.settleFocus closed fallback).Coherent ∧ (t.settleFocus closed fallback).ids = t.ids := by
  obtain ⟨s, hrepair, hmem, hsome⟩ := repairMinimizedSelection_eq t
  obtain ⟨m, hone, hm⟩ : ∃ m, (if t.repairMinimizedSelection.panes.length = 1 then
      { t.repairMinimizedSelection with maximizedPane := none } else t.repairMinimizedSelection) =
        { t with selectedMinimizedPane := s, maximizedPane := m } ∧ m.toList ⊆ t.maximizedPane.toList := by
    rw [hrepair]
    split
    · exact ⟨none, rfl, nil_subset _⟩
    · exact ⟨t.maximizedPane, rfl, List.Subset.refl _⟩
  have hm' : ∀ id ∈ m, id ∈ t.maximizedPane := fun id hid => by
    simpa using hm (Option.mem_toList.mpr hid)
  have harranged : ({ t with
      selectedMinimizedPane := s
      maximizedPane := m
      focusHistory := t.focusHistory.filter fun paneId => paneId ≠ closed ∧ paneId ∈ t.ids
      } : Tab ι).Arranged :=
    { nodup := hnodup
      index := hindex
      layout := hlayout
      minimized_nodup := hmin
      minimized_subset := hsub
      not_all_minimized := hleft
      maximized := fun id hid => ⟨(hmax id (hm' id hid)).1, (hmax id (hm' id hid)).2.1⟩
      selected_mem := hmem
      selected_isSome := hsome
      history_nodup := hhistory.filter _
      history_subset := fun id hid => by
        have := (mem_filter.mp hid).2
        simp only [decide_eq_true_eq] at this
        exact this.2 }
  have hcoherent := harranged.refocus closed fallback fun id hid => (hmax id (hm' id hid)).2.2
  rw [settleFocus]
  simp only [hone]
  refine ⟨hcoherent, ?_⟩
  rw [Tab.refocus]
  split
  · rfl
  · rw [activatePane]
    split <;> rfl

/-- **What the tab shows after a pane was taken out.** -/
theorem restoreFocusAfterClose_spec {closed fallback : ι} (hnodup : t.ids.Nodup)
    (hindex : ∀ id i, t.paneIndices id = some i ↔ t.ids[i]? = some id)
    (hlayout : t.layout.paneIds.Perm t.ids) (hne : t.ids ≠ []) (hmin : t.minimizedPanes.Nodup)
    (hsub : t.minimizedPanes ⊆ closed :: t.ids) (hmax : ∀ m ∈ t.maximizedPane, m ≠ closed →
      m ∈ t.ids ∧ m ∉ t.minimizedPanes ∧ m = t.activePane) (hhistory : t.focusHistory.Nodup) :
    ∃ t', t.restoreFocusAfterClose closed fallback = some t' ∧ t'.Coherent ∧ t'.ids = t.ids := by
  obtain ⟨r, b, hrename⟩ : ∃ r b, (if t.renamingPane = some closed then
      { t with renamingPane := none, renameBuffer := none } else t) =
        { t with renamingPane := r, renameBuffer := b } := by
    split
    · exact ⟨none, none, rfl⟩
    · exact ⟨_, _, rfl⟩
  obtain ⟨m, hmaximized, hm⟩ : ∃ m, (if t.maximizedPane = some closed then
      { t with renamingPane := r, renameBuffer := b, maximizedPane := none }
        else { t with renamingPane := r, renameBuffer := b }) =
        { t with renamingPane := r, renameBuffer := b, maximizedPane := m } ∧
      ∀ id ∈ m, id ∈ t.maximizedPane ∧ id ≠ closed := by
    split
    · exact ⟨none, rfl, fun id hid => nomatch hid⟩
    · next hne' => exact ⟨_, rfl, fun id hid => ⟨hid, fun heq => hne' (heq ▸ hid)⟩⟩
  let u : Tab ι := { t with
    renamingPane := r
    renameBuffer := b
    maximizedPane := m
    minimizedPanes := t.minimizedPanes.filter fun paneId => paneId ≠ closed }
  have hsub' : u.minimizedPanes ⊆ u.ids := fun id hid => by
    obtain ⟨hmem, hid'⟩ := mem_filter.mp hid
    simp only [decide_eq_true_eq] at hid'
    exact (mem_cons.mp (hsub hmem)).resolve_left hid'
  obtain ⟨minimized, history, active, hrestore, hsublist, hleft, hhistory', hactive⟩ :=
    restoreLastSurvivor_spec (t := u) hnodup hindex hne (hmin.filter _) hsub' hhistory
  have heq : t.restoreFocusAfterClose closed fallback =
      some (({ u with
        minimizedPanes := minimized
        focusHistory := history
        activePane := active } : Tab ι).settleFocus closed fallback) := by
    rw [restoreFocusAfterClose, hrename]
    simp only [hmaximized]
    exact congrArg (Option.map fun t => Tab.settleFocus t closed fallback) hrestore
  refine ⟨_, heq, settleFocus_spec hnodup hindex hlayout ((hmin.filter _).sublist hsublist)
    (List.Subset.trans hsublist.subset hsub') hleft (fun id hid => ?_) hhistory'⟩
  obtain ⟨hid', hclosed⟩ := hm id hid
  obtain ⟨hmem, hnot, hisActive⟩ := hmax id hid' hclosed
  have hnot' : id ∉ u.minimizedPanes := fun hin => hnot (mem_of_mem_filter hin)
  refine ⟨hmem, fun hin => hnot' (hsublist.subset hin), ?_, hclosed⟩
  rcases hactive with hactive | hall
  · exact hisActive.trans hactive.symm
  · exact absurd (hall hmem) hnot'

/-- **Closing a pane** that is not the last one leaves a coherent tab. -/
theorem Coherent.closePane (h : t.Coherent) (paneId : ι) :
    match t.closePane paneId with
    | .remains t' => t'.Coherent ∧ t'.ids ⊆ t.ids
    | .panics => False
    | .tabCloses => t.panes.length = 1
    | .unknown => paneId ∉ t.ids := by
  rw [Tab.closePane]
  by_cases hid : paneId ∈ t.ids
  swap
  · simp only [if_pos hid]
    exact hid
  rw [if_neg (not_not.mpr hid)]
  by_cases hone : t.panes.length = 1
  · simpa only [if_pos hone] using hone
  rw [if_neg hone]
  obtain ⟨panes, indices, hremove, hpanes, hindices⟩ := h.toArranged.removePane hid
  have hsub : panes.map TerminalPane.id ⊆ t.ids := hpanes ▸ filter_subset_self _
  have hnodup : (panes.map TerminalPane.id).Nodup := hpanes ▸ h.nodup.filter _
  have hne : panes.map TerminalPane.id ≠ [] := fun hnil => by
    rw [hpanes, filter_eq_nil_iff] at hnil
    have hall : t.ids ⊆ [paneId] := fun id hmem => by simpa using hnil id hmem
    have hle := (subperm_of_subset h.nodup hall).length_le
    have hpos := length_pos_of_mem hid
    simp only [length_ids, length_singleton] at hle hpos
    omega
  have hlayout : ∃ l, t.layout.without paneId = some l ∧
      l.paneIds.Perm (panes.map TerminalPane.id) := by
    have hids := PaneLayout.paneIds_without paneId t.layout
    have hperm : (t.layout.paneIds.filter fun id => id ≠ paneId).Perm
        (panes.map TerminalPane.id) := hpanes ▸ h.layout.filter _
    cases hl : t.layout.without paneId with
    | none =>
      rw [hl, Option.elim_none] at hids
      rw [← hids] at hperm
      exact absurd hperm.symm.eq_nil hne
    | some l =>
      rw [hl, Option.elim_some] at hids
      exact ⟨l, rfl, hids ▸ hperm⟩
  obtain ⟨l, hl, hperm⟩ := hlayout
  simp only [hremove, hl]
  let u : Tab ι := { t with panes := panes, paneIndices := indices, layout := l }
  have hkept : ∀ id ∈ t.ids, id ≠ paneId → id ∈ u.ids := fun id hmem hclosed => by
    have hin : id ∈ panes.map TerminalPane.id := by
      rw [hpanes, mem_filter]
      exact ⟨hmem, decide_eq_true hclosed⟩
    exact hin
  have hsubset : u.minimizedPanes ⊆ paneId :: u.ids := fun id hmem => by
    by_cases heq : id = paneId
    · exact heq ▸ mem_cons_self ..
    · exact mem_cons_of_mem _ (hkept id (h.minimized_subset hmem) heq)
  have hmax : ∀ m ∈ u.maximizedPane, m ≠ paneId →
      m ∈ u.ids ∧ m ∉ u.minimizedPanes ∧ m = u.activePane := fun m hm hclosed => by
    obtain ⟨hmem, hnot⟩ := h.maximized m hm
    exact ⟨hkept m hmem hclosed, hnot, h.active.2.2 m hm⟩
  obtain ⟨t', heq, hcoherent, hids⟩ := restoreFocusAfterClose_spec (t := u) hnodup hindices hperm
    hne h.minimized_nodup hsubset hmax h.history_nodup
  rw [heq]
  exact ⟨hcoherent, hids ▸ hsub⟩

end Tab

/-! ### Every run -/

/-- What is done to a tab. -/
inductive TabAction where
  | split (target : ℕ) (axis : SplitAxis) (position : SplitPosition)
  | close (paneId : ℕ)
  | toggleMaximize (paneId : ℕ)
  | minimize (paneId : ℕ)
  | restoreMinimized (paneId : ℕ)
  | restoreLastMinimized
  | selectPreviousMinimized
  | selectNextMinimized
  | focus (direction : PaneDirection)

/-- Why there is no tab after an action. -/
inductive TabStop where
  /-- Only a visible pane is split. -/
  | notVisible
  /-- The last pane was closed. -/
  | tabCloses
  | panics

/-- A tab in a window, which numbers its panes. -/
structure TabWindow where
  tab : Tab ℕ
  nextPaneId : ℕ

namespace TabWindow

variable {R : Type}

/-- A window opens a tab. -/
def new (id : UInt64) (paneId : ℕ) : TabWindow := ⟨.new id paneId, paneId + 1⟩

/-- One action. -/
def step (F : Arithmetic R) (s : TabWindow) : TabAction → Except TabStop TabWindow
  | .split target axis position =>
    if s.tab.paneIsVisible target then
      .ok ⟨(s.tab.splitPane target axis position s.nextPaneId).2, s.nextPaneId + 1⟩
    else .error .notVisible
  | .close paneId =>
    match s.tab.closePane paneId with
    | .unknown => .ok s
    | .tabCloses => .error .tabCloses
    | .remains tab => .ok { s with tab := tab }
    | .panics => .error .panics
  | .toggleMaximize paneId => .ok { s with tab := (s.tab.toggleMaximize paneId).2 }
  | .minimize paneId =>
    match s.tab.minimize F paneId with
    | some result => .ok { s with tab := result.2 }
    | none => .error .panics
  | .restoreMinimized paneId => .ok { s with tab := (s.tab.restoreMinimized paneId).2 }
  | .restoreLastMinimized => .ok { s with tab := s.tab.restoreLastMinimized.2 }
  | .selectPreviousMinimized => .ok { s with tab := s.tab.selectPreviousMinimized.2 }
  | .selectNextMinimized => .ok { s with tab := s.tab.selectNextMinimized.2 }
  | .focus direction => .ok { s with tab := s.tab.focusPane F direction }

/-- The tab is coherent, and the window gives out new ids. -/
structure Sound (s : TabWindow) : Prop where
  coherent : s.tab.Coherent
  fresh : ∀ id ∈ s.tab.ids, id < s.nextPaneId

theorem sound_new (id : UInt64) (paneId : ℕ) : (new id paneId).Sound := by
  have hindex : ∀ id' i, (if id' = paneId then some 0 else none) = some i ↔
      [paneId][i]? = some id' := by
    intro id' i
    rw [getElem?_singleton]
    by_cases hid : id' = paneId
    · by_cases hi : i = 0 <;> simp [hid, hi, eq_comm]
    · by_cases hi : i = 0 <;> simp [hid, hi, Ne.symm hid]
  constructor
  · exact
      { nodup := nodup_singleton _
        index := hindex
        layout := List.Perm.refl _
        minimized_nodup := nodup_nil
        minimized_subset := nil_subset _
        not_all_minimized := ⟨paneId, mem_singleton.mpr rfl, not_mem_nil⟩
        maximized := fun _ h => nomatch h
        selected_mem := fun _ h => nomatch h
        selected_isSome := fun h => absurd rfl h
        history_nodup := nodup_singleton _
        history_subset := List.Subset.refl _
        active := ⟨mem_singleton.mpr rfl, not_mem_nil, fun _ h => nomatch h⟩ }
  · intro id' hid
    rw [mem_singleton.mp hid]
    exact Nat.lt_succ_self _

variable (t : Tab ℕ) (id : ℕ)

/-- No operation but a split changes which panes there are, and a close only removes one. -/
private theorem ids_activatePane : (t.activatePane id).ids = t.ids := by
  rw [Tab.activatePane]
  split <;> rfl

private theorem ids_restoreMinimized : (t.restoreMinimized id).2.ids = t.ids := by
  rw [Tab.restoreMinimized]
  split
  · rfl
  · simp only [ids_activatePane]
    split
    · rfl
    · rw [Tab.repairMinimizedSelection]
      split <;> rfl

private theorem ids_toggleMaximize : (t.toggleMaximize id).2.ids = t.ids := by
  obtain ⟨s, heq, -⟩ := Tab.repairMinimizedSelection_eq
    { t with minimizedPanes := t.minimizedPanes.filter fun id' => id' ≠ id }
  rw [Tab.toggleMaximize]
  split
  · rfl
  split
  · rfl
  · simp only [heq, ids_activatePane]
    rfl

private theorem ids_minimize {F : Arithmetic R} {t : Tab ℕ} {id : ℕ} {r : Bool × Tab ℕ}
    (h : t.minimize F id = some r) : r.2.ids = t.ids := by
  rw [Tab.minimize] at h
  split at h
  · rw [← Option.some.inj h]
  · obtain ⟨f, -, rfl⟩ := Option.map_eq_some_iff.mp h
    exact ids_activatePane ..

private theorem ids_selectAdjacentMinimized (forward : Bool) :
    (t.selectAdjacentMinimized forward).2.ids = t.ids := by
  rw [Tab.selectAdjacentMinimized]
  split <;> rfl

private theorem ids_focusPane (F : Arithmetic R) (t : Tab ℕ) (direction : PaneDirection) :
    (t.focusPane F direction).ids = t.ids := by
  rw [Tab.focusPane]
  split
  · rfl
  split
  · exact ids_activatePane ..
  · rfl

/-- **One action** keeps a tab coherent. -/
theorem Sound.step {F : Arithmetic R} {s t : TabWindow} (h : s.Sound) {action : TabAction}
    (hstep : s.step F action = .ok t) : t.Sound := by
  obtain ⟨hcoherent, hfresh⟩ := h
  cases action with
  | split target axis position =>
    simp only [TabWindow.step] at hstep
    split at hstep
    swap
    · cases hstep
    next hvisible =>
    rw [← Except.ok.inj hstep]
    obtain ⟨hsplit, hids⟩ := hcoherent.splitPane axis position
      (hcoherent.paneIsVisible_iff.mp hvisible) fun hmem => Nat.lt_irrefl _ (hfresh _ hmem)
    refine ⟨hsplit, fun id hid => ?_⟩
    rcases mem_cons.mp (hids hid) with rfl | hid
    · exact Nat.lt_succ_self _
    · exact (hfresh id hid).trans (Nat.lt_succ_self _)
  | close paneId =>
    have hclose := hcoherent.closePane paneId
    simp only [TabWindow.step] at hstep
    split at hstep
    · rw [← Except.ok.inj hstep]
      exact ⟨hcoherent, hfresh⟩
    · cases hstep
    · next t' heq =>
      rw [heq] at hclose
      rw [← Except.ok.inj hstep]
      exact ⟨hclose.1, fun id hid => hfresh id (hclose.2 hid)⟩
    · cases hstep
  | toggleMaximize paneId =>
    rw [← Except.ok.inj hstep]
    exact ⟨hcoherent.toggleMaximize paneId, ids_toggleMaximize s.tab paneId ▸ hfresh⟩
  | minimize paneId =>
    obtain ⟨r, heq, hr⟩ := hcoherent.minimize F paneId
    simp only [TabWindow.step, heq] at hstep
    rw [← Except.ok.inj hstep]
    exact ⟨hr, ids_minimize heq ▸ hfresh⟩
  | restoreMinimized paneId =>
    rw [← Except.ok.inj hstep]
    exact ⟨hcoherent.restoreMinimized paneId, ids_restoreMinimized s.tab paneId ▸ hfresh⟩
  | restoreLastMinimized =>
    rw [← Except.ok.inj hstep]
    refine ⟨hcoherent.restoreLastMinimized, ?_⟩
    have hids : s.tab.restoreLastMinimized.2.ids = s.tab.ids := by
      rw [Tab.restoreLastMinimized]
      split
      · exact ids_restoreMinimized ..
      · rfl
    exact hids ▸ hfresh
  | selectPreviousMinimized =>
    rw [← Except.ok.inj hstep]
    exact ⟨hcoherent.selectAdjacentMinimized false,
      ids_selectAdjacentMinimized s.tab false ▸ hfresh⟩
  | selectNextMinimized =>
    rw [← Except.ok.inj hstep]
    exact ⟨hcoherent.selectAdjacentMinimized true,
      ids_selectAdjacentMinimized s.tab true ▸ hfresh⟩
  | focus direction =>
    rw [← Except.ok.inj hstep]
    exact ⟨hcoherent.focusPane F direction, ids_focusPane F s.tab direction ▸ hfresh⟩

/-- No action on a coherent tab panics. -/
theorem Sound.not_panics {s : TabWindow} (h : s.Sound) (F : Arithmetic R) (action : TabAction) :
    s.step F action ≠ .error .panics := by
  cases action with
  | split target axis position =>
    simp only [TabWindow.step]
    split <;> simp
  | close paneId =>
    have hclose := h.coherent.closePane paneId
    simp only [TabWindow.step]
    split
    · simp
    · simp
    · simp
    · next heq =>
      rw [heq] at hclose
      exact hclose.elim
  | minimize paneId =>
    obtain ⟨r, heq, -⟩ := h.coherent.minimize F paneId
    simp [TabWindow.step, heq]
  | toggleMaximize paneId => simp [TabWindow.step]
  | restoreMinimized paneId => simp [TabWindow.step]
  | restoreLastMinimized => simp [TabWindow.step]
  | selectPreviousMinimized => simp [TabWindow.step]
  | selectNextMinimized => simp [TabWindow.step]
  | focus direction => simp [TabWindow.step]

/-- **What a tab shows stays consistent**, whatever is done to it: its parts fit together, the
layout that is drawn places the visible panes, each once, the active pane is one of them, the
count of `toggle_maximize` is right and nothing panics. -/
theorem coherent_of_run {F : Arithmetic R} {id : UInt64} {paneId : ℕ} {actions : List TabAction}
    {s : TabWindow} (hrun : Run (Succeeds (step F)) (new id paneId) actions s) :
    s.tab.Coherent ∧
      (∃ l, s.tab.visibleLayout = some l ∧ l.paneIds.Nodup ∧
        ∀ id, id ∈ l.paneIds ↔ s.tab.paneIsVisible id = true) ∧
      s.tab.paneIsVisible s.tab.activePane = true ∧
      (∀ id ∈ s.tab.ids, s.tab.visiblePaneCount id = (s.tab.ids.filter fun id' =>
        id' ∉ s.tab.minimizedPanes.filter fun id' => id' ≠ id).length) ∧
      ∀ action, s.step F action ≠ .error .panics := by
  have hsound := hrun.invariant (I := Sound) (sound_new id paneId) fun _ _ _ h hstep => h.step hstep
  have hcoherent := hsound.coherent
  obtain ⟨l, hl, hnodup, hmem⟩ := hcoherent.paneIds_visibleLayout
  exact ⟨hcoherent, ⟨l, hl, hnodup, fun id => (hmem id).trans hcoherent.paneIsVisible_iff.symm⟩,
    hcoherent.paneIsVisible_iff.mpr hcoherent.active,
    fun id hid => hcoherent.visiblePaneCount_eq hid, hsound.not_panics F⟩

/-- Two splits, a minimized and a maximized pane, and a close that restores the last one. -/
def closedActions : List TabAction :=
  [.split 1 .vertical .after, .split 2 .horizontal .before, .focus .left, .minimize 1,
    .toggleMaximize 2, .toggleMaximize 2, .minimize 3, .close 2]

theorem coherent_of_closedActions : ∃ s : TabWindow, s.tab.Coherent ∧
    s.tab.ids = [1, 3] ∧ s.tab.minimizedPanes = [1] ∧ s.tab.activePane = 3 := by
  obtain ⟨s, hrun, hend⟩ := exists_run_of_guarded closedActions (C := fun _ _ => True)
    (f := step Arithmetic.exact) (s := new 0 1)
    (P := fun s => s.tab.ids = [1, 3] ∧ s.tab.minimizedPanes = [1] ∧ s.tab.activePane = 3)
    (by decide +kernel)
  exact ⟨s, (coherent_of_run hrun.of_meeting).1, hend⟩

end TabWindow

end Zetta.Pane
