import Zetta.Pane.Visibility

/-!
# Renumbering a tab that enters a window

Every registry of a window is keyed by pane id alone, so a tab that comes from another window
gets fresh ids: first its panes, then the entries of their stacks, counting on from the
window's next id (with the overflow of a `u64`). `Tab.reassignIds` rewrites what refers to the
old ids: panes, focus and layout through a map from old to new ids, the selection of a stack
while its entries are renumbered one at a time.

* `Renames` says that all of this is one injective renaming.
* `reassignIds_renames_iff`: it is, unless the fresh id of a selected entry is the old id of a
  later entry of its stack. Then the selection, already rewritten, is taken for the later
  entry and rewritten again, as in `selection_moves`.
-/

namespace Zetta.Pane

open List

/-! ### The program -/

/-- `repair_selection`: a selection without an entry becomes the last entry. -/
def PaneStack.repairSelection {ι : Type} [DecidableEq ι] (stack : PaneStack ι) : PaneStack ι :=
  match stack.selected with
  | .base => stack
  | .stacked id =>
    if stack.entries.any fun entry => entry.id = id then stack
    else { stack with
      selected := (stack.entries.getLast?.map fun entry => .stacked entry.id).getD .base }

/-- The ids of the entries of a stack. -/
def PaneStack.ids {ι : Type} (stack : PaneStack ι) : List ι := stack.entries.map StackedPane.id

/-- Gives the panes new ids, and notes which had which. -/
def renumberPanes : List (TerminalPane UInt64) → UInt64 →
    List (TerminalPane UInt64) × List (UInt64 × UInt64) × UInt64
  | [], next => ([], [], next)
  | pane :: panes, next =>
    let (panes, ids, last) := renumberPanes panes (next + 1)
    ({ pane with id := next } :: panes, (pane.id, next) :: ids, last)

/-- Gives the entries of a stack new ids one at a time, and the selection with them. -/
def renumberEntries : List (StackedPane UInt64) → PaneStackSelection UInt64 → UInt64 →
    List (StackedPane UInt64) × PaneStackSelection UInt64 × UInt64
  | [], selected, next => ([], selected, next)
  | entry :: entries, selected, next =>
    let selected := if selected = .stacked entry.id then .stacked next else selected
    let (entries, selected, last) := renumberEntries entries selected (next + 1)
    ({ entry with id := next } :: entries, selected, last)

/-- Gives the entries of every pane new ids. -/
def renumberStacks : List (TerminalPane UInt64) → UInt64 → List (TerminalPane UInt64) × UInt64
  | [], next => ([], next)
  | pane :: panes, next =>
    let (entries, selected, middle) :=
      renumberEntries pane.stack.entries pane.stack.selected next
    let (panes, last) := renumberStacks panes middle
    ({ pane with stack := PaneStack.repairSelection ⟨entries, selected⟩ } :: panes, last)

/-- The value of a key in a map collected from pairs, of which the last counts. -/
def lookup (pairs : List (UInt64 × UInt64)) (key : UInt64) : Option UInt64 :=
  (pairs.reverse.find? fun pair => pair.1 = key).map Prod.snd

/-- `reassign_ids`: the tab, the next id and the map from old to new ids of panes. A pane of
the layout or an active pane that is not one of the tab is a panic. -/
def Tab.reassignIds (t : Tab UInt64) (tabId next : UInt64) :
    Option (Tab UInt64 × UInt64 × (UInt64 → Option UInt64)) :=
  let (panes, pairs, middle) := renumberPanes t.panes next
  let paneIds := lookup pairs
  let (panes, last) := if pairs = [] then (panes, middle) else renumberStacks panes middle
  do
    let layout ← t.layout.remapPaneIds paneIds
    let activePane ← paneIds t.activePane
    pure ({ t with
      id := tabId
      panes := panes
      paneIndices := Tab.reindex (fun _ => none) 0 panes
      layout := layout
      activePane := activePane
      focusHistory := t.focusHistory.filterMap paneIds
      maximizedPane := t.maximizedPane.bind paneIds
      minimizedPanes := t.minimizedPanes.filterMap paneIds
      selectedMinimizedPane := t.selectedMinimizedPane.bind paneIds
      renamingPane := none
      renameBuffer := none
      editingOverlayPane := none
      overlayBuffer := none
      overlayStylePicker := false }, last, paneIds)

/-! ### Its purpose -/

/-- The selection with its entry renamed. -/
def PaneStackSelection.map {ι : Type} (f : ι → ι) : PaneStackSelection ι → PaneStackSelection ι
  | .base => .base
  | .stacked id => .stacked (f id)

/-- The selection is the base terminal or one of the entries. -/
def PaneStack.Valid {ι : Type} (stack : PaneStack ι) : Prop :=
  ∀ id, stack.selected = .stacked id → id ∈ stack.ids

/-- The ids of all panes, then of all entries. -/
def Tab.allIds (t : Tab UInt64) : List UInt64 := t.ids ++ t.panes.flatMap fun p => p.stack.ids

/-- The `k`-th id that is given out, counting on from the next one. -/
def freshId (next : UInt64) (k : ℕ) : UInt64 := next + UInt64.ofNat k

/-- **One injective renaming** of everything that refers to a pane or an entry. -/
structure Renames (t : Tab UInt64) (next : UInt64) (f : UInt64 → UInt64) (t' : Tab UInt64)
    (next' : UInt64) (paneIds : UInt64 → Option UInt64) : Prop where
  injective : ∀ a ∈ t.allIds, ∀ b ∈ t.allIds, f a = f b → a = b
  consecutive : t'.allIds = (List.range t.allIds.length).map (freshId next)
  next : next' = freshId next t.allIds.length
  panes : t'.ids = t.ids.map f
  labels : t'.panes.map TerminalPane.labelNumber = t.panes.map TerminalPane.labelNumber
  entries : (t'.panes.map fun p => p.stack.ids) = t.panes.map fun p => p.stack.ids.map f
  selections : List.Forall₂ (fun s s' => s.Valid → s'.selected = s.selected.map f)
    (t.panes.map TerminalPane.stack) (t'.panes.map TerminalPane.stack)
  layout : t'.layout = t.layout.map f
  activePane : t'.activePane = f t.activePane
  focusHistory : t'.focusHistory = (t.focusHistory.filter fun id => id ∈ t.ids).map f
  maximizedPane : t'.maximizedPane = (t.maximizedPane.filter fun id => id ∈ t.ids).map f
  minimizedPanes : t'.minimizedPanes = (t.minimizedPanes.filter fun id => id ∈ t.ids).map f
  selectedMinimizedPane :
    t'.selectedMinimizedPane = (t.selectedMinimizedPane.filter fun id => id ∈ t.ids).map f
  index : ∀ id i, t'.paneIndices id = some i ↔ t'.ids[i]? = some id
  paneIds : ∀ id, paneIds id = if id ∈ t.ids then some (f id) else none

/-- The new id of an old one, by its position among all of them. -/
def Tab.newId (t : Tab UInt64) (next id : UInt64) : UInt64 := freshId next (t.allIds.idxOf id)

/-- **No clash**: no entry behind the selected one has the id that the selected one gets. -/
def Tab.NoClash (t : Tab UInt64) (next : UInt64) : Prop :=
  ∀ p ∈ t.panes, ∀ id ∈ p.stack.ids, p.stack.selected = .stacked id →
    ¬ [id, t.newId next id].Sublist p.stack.ids

/-! ### Ids that are given out -/

theorem freshId_succ (next : UInt64) (k : ℕ) : freshId (next + 1) k = freshId next (k + 1) := by
  rw [freshId, freshId, UInt64.ofNat_add, UInt64.add_assoc, UInt64.add_comm 1]
  rfl

theorem freshId_zero (next : UInt64) : freshId next 0 = next := UInt64.add_zero next

theorem freshId_add (next : UInt64) (j k : ℕ) :
    freshId (freshId next j) k = freshId next (j + k) := by
  rw [freshId, freshId, freshId, UInt64.ofNat_add, UInt64.add_assoc]

variable {next : UInt64}

/-- As long as not all ids are given out they are distinct. -/
theorem freshId_injective {j k : ℕ} (hj : j < 2 ^ 64) (hk : k < 2 ^ 64)
    (h : freshId next j = freshId next k) : j = k := by
  have hof : UInt64.ofNat j = UInt64.ofNat k := UInt64.add_right_inj next |>.mp h
  have hnat := congrArg UInt64.toNat hof
  rwa [UInt64.toNat_ofNat_of_lt' hj, UInt64.toNat_ofNat_of_lt' hk] at hnat

/-- There are no more than `2 ^ 64` distinct ids. -/
theorem length_le_of_nodup {l : List UInt64} (h : l.Nodup) : l.length ≤ 2 ^ 64 := by
  have hnat : (l.map UInt64.toNat).Nodup := h.map fun _ _ heq => UInt64.toNat_inj.mp heq
  have hsub : l.map UInt64.toNat ⊆ List.range (2 ^ 64) := fun n hn => by
    obtain ⟨x, -, rfl⟩ := mem_map.mp hn
    exact mem_range.mpr x.toNat_lt
  simpa using (subperm_of_subset hnat hsub).length_le

/-- A list of ids in the order in which they are given out. -/
theorem map_range_freshId_succ (next : UInt64) (n : ℕ) :
    (List.range (n + 1)).map (freshId next) =
      next :: (List.range n).map (freshId (next + 1)) := by
  rw [range_succ_eq_map, map_cons, freshId_zero, map_map]
  exact congrArg _ (map_congr_left fun k _ => (freshId_succ next k).symm)

theorem map_range_freshId_add (next : UInt64) (m n : ℕ) :
    (List.range (m + n)).map (freshId next) =
      (List.range m).map (freshId next) ++ (List.range n).map (freshId (freshId next m)) := by
  rw [range_add, map_append, map_map]
  exact congrArg _ (map_congr_left fun k _ => (freshId_add next m k).symm)

/-! ### What the loops do -/

theorem renumberPanes_spec (panes : List (TerminalPane UInt64)) (next : UInt64) :
    ∃ panes', renumberPanes panes next =
        (panes', (panes.map TerminalPane.id).zip ((List.range panes.length).map (freshId next)),
          freshId next panes.length) ∧
      panes'.map TerminalPane.id = (List.range panes.length).map (freshId next) ∧
      panes'.map TerminalPane.stack = panes.map TerminalPane.stack ∧
      panes'.map TerminalPane.labelNumber = panes.map TerminalPane.labelNumber := by
  induction panes generalizing next with
  | nil => exact ⟨[], by simp [renumberPanes, freshId_zero], rfl, rfl, rfl⟩
  | cons pane panes ih =>
    obtain ⟨panes', heq, hids, hstacks, hlabels⟩ := ih (next + 1)
    refine ⟨{ pane with id := next } :: panes', ?_, ?_, by simp [hstacks], by simp [hlabels]⟩
    · simp only [renumberPanes, heq, length_cons, map_range_freshId_succ, map_cons,
        zip_cons_cons, freshId_succ]
    · rw [map_cons, hids, length_cons, map_range_freshId_succ]

theorem renumberEntries_spec (entries : List (StackedPane UInt64))
    (selected : PaneStackSelection UInt64) (next : UInt64) :
    (renumberEntries entries selected next).1.map StackedPane.id =
        (List.range entries.length).map (freshId next) ∧
      (renumberEntries entries selected next).2.2 = freshId next entries.length := by
  induction entries generalizing selected next with
  | nil => exact ⟨rfl, (freshId_zero next).symm⟩
  | cons entry entries ih =>
    obtain ⟨hids, hlast⟩ := ih (if selected = .stacked entry.id then .stacked next else selected)
      (next + 1)
    constructor
    · rw [length_cons, map_range_freshId_succ, ← hids]
      rfl
    · rw [length_cons, ← freshId_succ, ← hlast]
      rfl

variable {entries : List (StackedPane UInt64)}

/-- A selection that is no entry's old id stays. -/
theorem selected_of_notMem {selected : PaneStackSelection UInt64} (next : UInt64)
    (h : ∀ entry ∈ entries, selected ≠ .stacked entry.id) :
    (renumberEntries entries selected next).2.1 = selected := by
  induction entries generalizing next with
  | nil => rfl
  | cons entry entries ih =>
    have hne : selected ≠ .stacked entry.id := h entry (mem_cons_self ..)
    have hrest := ih (next + 1) fun e he => h e (mem_cons_of_mem _ he)
    simp only [renumberEntries, if_neg hne]
    exact hrest

/-- A selection that is an entry's old id becomes the new id of this entry or a later one. -/
theorem selected_of_mem {id : UInt64} (next : UInt64) (h : id ∈ entries.map StackedPane.id) :
    ∃ k < entries.length,
      (renumberEntries entries (.stacked id) next).2.1 = .stacked (freshId next k) := by
  induction entries generalizing id next with
  | nil => cases h
  | cons entry entries ih =>
    have hlater : ∀ id', id' ∈ entries.map StackedPane.id →
        ∃ k < entries.length + 1,
          (renumberEntries entries (.stacked id') (next + 1)).2.1 =
            .stacked (freshId next k) := fun id' hid' => by
      obtain ⟨k, hk, heq⟩ := ih (next + 1) hid'
      exact ⟨k + 1, Nat.succ_lt_succ hk, by rw [heq, freshId_succ]⟩
    by_cases hid : id = entry.id
    · subst hid
      by_cases hnext : next ∈ entries.map StackedPane.id
      · obtain ⟨k, hk, heq⟩ := hlater next hnext
        exact ⟨k, hk, by simpa only [renumberEntries, if_true] using heq⟩
      · refine ⟨0, Nat.succ_pos _, ?_⟩
        simp only [renumberEntries, if_true, freshId_zero]
        refine selected_of_notMem _ fun e he heq => hnext ?_
        cases heq
        exact mem_map_of_mem he
    · have hmem : id ∈ entries.map StackedPane.id :=
        (mem_cons.mp h).resolve_left hid
      obtain ⟨k, hk, heq⟩ := hlater id hmem
      have hne : PaneStackSelection.stacked id ≠ .stacked entry.id :=
        fun heq => hid (PaneStackSelection.stacked.inj heq)
      exact ⟨k, hk, by simpa only [renumberEntries, if_neg hne] using heq⟩

/-- The entries before the selected one leave the selection alone. -/
theorem selected_append {before after : List (StackedPane UInt64)} {entry : StackedPane UInt64}
    (next : UInt64) (h : entry.id ∉ before.map StackedPane.id) :
    (renumberEntries (before ++ entry :: after) (.stacked entry.id) next).2.1 =
      (renumberEntries after (.stacked (freshId next before.length))
        (freshId next (before.length + 1))).2.1 := by
  induction before generalizing next with
  | nil =>
    simp only [nil_append, renumberEntries, if_true, length_nil, freshId_zero,
      Nat.zero_add, ← freshId_succ next 0]
  | cons e before ih =>
    rw [map_cons, mem_cons, not_or] at h
    have hne : PaneStackSelection.stacked entry.id ≠ .stacked e.id :=
      fun heq => h.1 (PaneStackSelection.stacked.inj heq)
    simp only [cons_append, renumberEntries, if_neg hne, ih (next + 1) h.2,
      length_cons, freshId_succ]

theorem repairSelection_of_valid {ι : Type} [DecidableEq ι] {stack : PaneStack ι}
    (h : stack.Valid) : stack.repairSelection = stack := by
  rw [PaneStack.repairSelection]
  split
  · rfl
  next id hid =>
  obtain ⟨e, he, heq⟩ := mem_map.mp (h id hid)
  exact if_pos (any_eq_true.mpr ⟨e, he, decide_eq_true heq⟩)

/-- One entry stands before another in a list without repetition. -/
theorem pair_sublist_iff {ι : Type} {before after : List ι} {x y : ι}
    (h : (before ++ x :: after).Nodup) : [x, y].Sublist (before ++ x :: after) ↔ y ∈ after := by
  obtain ⟨-, hafter, hdisjoint⟩ := nodup_append.mp h
  constructor
  · intro hsub
    obtain ⟨l₁, l₂, heq, hl₁, hl₂⟩ := sublist_append_iff.mp hsub
    cases l₁ with
    | nil =>
      rw [nil_append] at heq
      rw [← heq, cons_sublist_cons] at hl₂
      exact singleton_sublist.mp hl₂
    | cons z l₁ =>
      obtain rfl : x = z := (List.cons.inj heq).1
      exact absurd rfl (hdisjoint x (hl₁.subset (mem_cons_self ..)) x
        (mem_cons_self ..))
  · intro hy
    refine List.Sublist.trans ?_ (sublist_append_right before _)
    exact cons_sublist_cons.mpr (singleton_sublist.mpr hy)

/-- The selection of a stack is renamed if no later entry has the id that the selected one
gets, and only then. -/
def RenamesSelection (f : UInt64 → UInt64) (stack stack' : PaneStack UInt64) : Prop :=
  stack.Valid → (stack'.selected = stack.selected.map f ↔
    ∀ id ∈ stack.ids, stack.selected = .stacked id → ¬ [id, f id].Sublist stack.ids)

variable {f : UInt64 → UInt64}

/-- **One stack**: its entries are renamed; its selection is, unless a later entry has the id
that the selected one gets. -/
theorem renumberStack_spec {stack : PaneStack UInt64} (hnodup : stack.ids.Nodup)
    (hf : stack.ids.map f = (List.range stack.entries.length).map (freshId next)) :
    let entries := renumberEntries stack.entries stack.selected next
    let stack' := PaneStack.repairSelection ⟨entries.1, entries.2.1⟩
    stack'.ids = stack.ids.map f ∧ RenamesSelection f stack stack' := by
  intro entries stack'
  obtain ⟨hids, -⟩ := renumberEntries_spec stack.entries stack.selected next
  have hlen : stack.ids.length = stack.entries.length := length_map ..
  have hbound : stack.entries.length ≤ 2 ^ 64 := hlen ▸ length_le_of_nodup hnodup
  have hids' : stack'.ids = stack.ids.map f := by
    have hkeep : ∀ s : PaneStack UInt64, s.repairSelection.ids = s.ids := fun s => by
      rw [PaneStack.repairSelection]
      split
      · rfl
      · split <;> rfl
    rw [hf, ← hids]
    exact hkeep _
  refine ⟨hids', fun hvalid => ?_⟩
  cases hselected : stack.selected with
  | base =>
    have hbase : entries.2.1 = .base := by
      simp only [entries, hselected]
      exact selected_of_notMem next fun e _ h => nomatch h
    have hstack : stack'.selected = .base := by
      simp only [stack', hbase, PaneStack.repairSelection]
    simp [hstack, PaneStackSelection.map]
  | stacked x =>
    obtain ⟨before, entry, after, heq, hx⟩ : ∃ before entry after,
        stack.entries = before ++ entry :: after ∧ entry.id = x := by
      obtain ⟨e, he, hx⟩ := mem_map.mp (hvalid x hselected)
      obtain ⟨before, after, heq⟩ := append_of_mem he
      exact ⟨before, e, after, heq, hx⟩
    subst hx
    have hsplit : stack.ids = before.map StackedPane.id ++ entry.id :: after.map StackedPane.id := by
      rw [PaneStack.ids, heq, map_append, map_cons]
    have hnodup' := hsplit ▸ hnodup
    have hbefore : entry.id ∉ before.map StackedPane.id := fun hmem =>
      (nodup_append.mp hnodup').2.2 _ hmem _ (mem_cons_self ..) rfl
    have hafter : entry.id ∉ after.map StackedPane.id :=
      (nodup_cons.mp (nodup_append.mp hnodup').2.1).1
    -- The new id of the selected entry, by its position.
    have hfx : f entry.id = freshId next before.length := by
      have hget := congrArg (fun l => l[before.length]?) hf
      simp only [hsplit, map_append, map_cons, getElem?_append_right,
        length_map, Nat.le_refl, Nat.sub_self, getElem?_cons_zero] at hget
      rw [getElem?_map, getElem?_range (by rw [heq]; simp)] at hget
      exact Option.some.inj hget
    have hlast : entries.2.1 = (renumberEntries after (.stacked (f entry.id))
        (freshId next (before.length + 1))).2.1 := by
      simp only [entries, hselected, heq, selected_append next hbefore, hfx]
    have hmem : ∀ k < stack.entries.length, entries.2.1 = .stacked (freshId next k) →
        stack'.selected = entries.2.1 := by
      intro k hk hk'
      have hvalid' : PaneStack.Valid ⟨entries.1, entries.2.1⟩ := fun id hid => by
        cases hk'.symm.trans hid
        have : freshId next k ∈ (List.range stack.entries.length).map (freshId next) :=
          mem_map_of_mem (mem_range.mpr hk)
        rwa [← hids] at this
      exact congrArg PaneStack.selected (repairSelection_of_valid hvalid')
    have hlength : stack.entries.length = before.length + 1 + after.length := by
      rw [heq, length_append, length_cons]
      omega
    have hrhs : (∀ id ∈ stack.ids, PaneStackSelection.stacked entry.id = .stacked id →
        ¬ [id, f id].Sublist stack.ids) ↔ f entry.id ∉ after.map StackedPane.id := by
      constructor
      · intro hall hin
        refine hall entry.id (hvalid _ hselected) rfl ?_
        rw [hsplit]
        exact (pair_sublist_iff hnodup').mpr hin
      · rintro hnot id - hid hsub
        cases hid
        rw [hsplit] at hsub
        exact hnot ((pair_sublist_iff hnodup').mp hsub)
    rw [hrhs, PaneStackSelection.map]
    by_cases hclash : f entry.id ∈ after.map StackedPane.id
    · refine iff_of_false (fun hsame => ?_) (not_not.mpr hclash)
      obtain ⟨k, hk, hsel⟩ := selected_of_mem (freshId next (before.length + 1)) hclash
      have hsel' := hlast.trans hsel
      rw [freshId_add] at hsel'
      rw [hmem (before.length + 1 + k) (by omega) hsel', hsel', hfx] at hsame
      have := freshId_injective (by omega) (by omega) (PaneStackSelection.stacked.inj hsame)
      omega
    · refine iff_of_true ?_ hclash
      have hsel : entries.2.1 = .stacked (f entry.id) := hlast.trans
        (selected_of_notMem _ fun e he h => hclash
          (PaneStackSelection.stacked.inj h ▸ mem_map_of_mem he))
      rw [hmem before.length (by omega) (hfx ▸ hsel), hsel]

/-- **All stacks**, one after the other. -/
theorem renumberStacks_spec {panes : List (TerminalPane UInt64)}
    (hnodup : (panes.flatMap fun p => p.stack.ids).Nodup)
    (hf : (panes.flatMap fun p => p.stack.ids).map f =
      (List.range (panes.flatMap fun p => p.stack.ids).length).map (freshId next)) :
    ∃ panes', renumberStacks panes next =
        (panes', freshId next (panes.flatMap fun p => p.stack.ids).length) ∧
      panes'.map TerminalPane.id = panes.map TerminalPane.id ∧
      panes'.map TerminalPane.labelNumber = panes.map TerminalPane.labelNumber ∧
      (panes'.map fun p => p.stack.ids) = panes.map (fun p => p.stack.ids.map f) ∧
      List.Forall₂ (RenamesSelection f) (panes.map TerminalPane.stack)
        (panes'.map TerminalPane.stack) := by
  induction panes generalizing next with
  | nil => exact ⟨[], by simp [renumberStacks, freshId_zero], rfl, rfl, rfl, .nil⟩
  | cons p panes ih =>
    rw [flatMap_cons] at hnodup hf ⊢
    obtain ⟨hp, hrest, -⟩ := nodup_append.mp hnodup
    rw [map_append, length_append, map_range_freshId_add] at hf
    obtain ⟨hfp, hfrest⟩ := append_inj hf (by simp)
    have hlen : p.stack.ids.length = p.stack.entries.length := length_map ..
    obtain ⟨-, hmiddle⟩ := renumberEntries_spec p.stack.entries p.stack.selected next
    rw [hlen] at hfrest
    obtain ⟨panes', heq, hids, hlabels, hentries, hselections⟩ := ih hrest hfrest
    obtain ⟨hids', hselected⟩ := renumberStack_spec hp (hlen ▸ hfp)
    let entries := renumberEntries p.stack.entries p.stack.selected next
    let stack' := PaneStack.repairSelection ⟨entries.1, entries.2.1⟩
    refine ⟨{ p with stack := stack' } :: panes', ?_, ?_, ?_, ?_, .cons hselected hselections⟩
    · simp only [renumberStacks, hmiddle, heq, freshId_add, hlen, length_append]
      rfl
    · rw [map_cons, map_cons, hids]
    · rw [map_cons, map_cons, hlabels]
    · rw [map_cons, map_cons, hentries, hids']

/-! ### The whole tab -/

variable {keys values : List UInt64} {key : UInt64}

theorem lookup_zip (hnodup : keys.Nodup) {i : ℕ} (hkey : keys[i]? = some key) {value : UInt64}
    (hvalue : values[i]? = some value) :
    lookup (keys.zip values) key = some value := by
  have hmem : (key, value) ∈ (keys.zip values).reverse := by
    rw [mem_reverse]
    exact mem_of_getElem? (getElem?_zip_eq_some.mpr ⟨hkey, hvalue⟩)
  rw [lookup, Option.map_eq_some_iff]
  cases hfind : (keys.zip values).reverse.find? fun pair => pair.1 = key with
  | none =>
    have hnone := find?_eq_none.mp hfind _ hmem
    simp at hnone
  | some pair =>
    have hpair : pair.1 = key := by simpa using find?_some hfind
    obtain ⟨j, hj⟩ := mem_iff_getElem?.mp
      (mem_reverse.mp (mem_of_find?_eq_some hfind))
    obtain ⟨hk, hv⟩ := getElem?_zip_eq_some.mp hj
    obtain rfl : i = j := (getElem?_inj (List.getElem?_eq_some_iff.mp hkey).1 hnodup).mp
      (hkey.trans (hpair ▸ hk.symm))
    exact ⟨pair, rfl, Option.some.inj (hv.symm.trans hvalue)⟩

theorem lookup_of_notMem (h : key ∉ keys) :
    lookup (keys.zip values) key = none := by
  rw [lookup, Option.map_eq_none_iff, find?_eq_none]
  intro pair hpair hkey
  have hin := (of_mem_zip (mem_reverse.mp hpair)).1
  exact h ((of_decide_eq_true hkey) ▸ hin)

namespace Tab

variable {t : Tab UInt64} {next : UInt64}

/-- The renaming takes the ids to those that are given out, in their order. -/
theorem map_newId (h : t.allIds.Nodup) :
    t.allIds.map (t.newId next) = (List.range t.allIds.length).map (freshId next) := by
  refine ext_getElem (by simp) fun i hi _ => ?_
  rw [length_map] at hi
  simp only [getElem_map, getElem_range, newId, h.idxOf_getElem i hi]

theorem newId_injective (h : t.allIds.Nodup) :
    ∀ a ∈ t.allIds, ∀ b ∈ t.allIds, t.newId next a = t.newId next b → a = b := by
  intro a ha b hb heq
  have hbound := length_le_of_nodup h
  have hidx := freshId_injective (lt_of_lt_of_le (idxOf_lt_length_iff.mpr ha) hbound)
    (lt_of_lt_of_le (idxOf_lt_length_iff.mpr hb) hbound) heq
  exact (idxOf_inj ha).mp hidx

variable {paneIds : UInt64 → Option UInt64} {f : UInt64 → UInt64} {keys : List UInt64}

/-- What a map that is defined on the panes does to a list of ids. -/
private theorem filterMap_eq (h : ∀ id, paneIds id = if id ∈ keys then some (f id) else none)
    (l : List UInt64) : l.filterMap paneIds = (l.filter fun id => id ∈ keys).map f := by
  induction l with
  | nil => rfl
  | cons id l ih =>
    by_cases hid : id ∈ keys
    · rw [filterMap_cons_some (by rw [h, if_pos hid]), ih, filter_cons_of_pos (by simpa),
        map_cons]
    · rw [filterMap_cons_none (by rw [h, if_neg hid]), ih, filter_cons_of_neg (by simpa)]

private theorem bind_eq (h : ∀ id, paneIds id = if id ∈ keys then some (f id) else none)
    (o : Option UInt64) : o.bind paneIds = (o.filter fun id => id ∈ keys).map f := by
  cases o with
  | none => rfl
  | some id => by_cases hid : id ∈ keys <;> simp [h, hid, Option.filter]

/-- **What the program does** to a tab whose ids are distinct: a renaming, with each selection
renamed where there is no clash. -/
theorem reassignIds_spec (hdistinct : t.allIds.Nodup) (hlayout : t.layout.paneIds ⊆ t.ids)
    (hactive : t.activePane ∈ t.ids) (tabId next : UInt64) :
    ∃ t' paneIds, t.reassignIds tabId next = some (t', freshId next t.allIds.length, paneIds) ∧
      (∀ id, paneIds id = if id ∈ t.ids then some (t.newId next id) else none) ∧
      t'.ids = t.ids.map (t.newId next) ∧
      t'.panes.map TerminalPane.labelNumber = t.panes.map TerminalPane.labelNumber ∧
      (t'.panes.map fun p => p.stack.ids) =
        t.panes.map (fun p => p.stack.ids.map (t.newId next)) ∧
      List.Forall₂ (RenamesSelection (t.newId next)) (t.panes.map TerminalPane.stack)
        (t'.panes.map TerminalPane.stack) ∧
      t' = { t with
        id := tabId
        panes := t'.panes
        paneIndices := reindex (fun _ => none) 0 t'.panes
        layout := t.layout.map (t.newId next)
        activePane := t.newId next t.activePane
        focusHistory := t.focusHistory.filterMap paneIds
        maximizedPane := t.maximizedPane.bind paneIds
        minimizedPanes := t.minimizedPanes.filterMap paneIds
        selectedMinimizedPane := t.selectedMinimizedPane.bind paneIds
        renamingPane := none
        renameBuffer := none
        editingOverlayPane := none
        overlayBuffer := none
        overlayStylePicker := false } := by
  obtain ⟨hids, hentries, -⟩ := nodup_append.mp hdistinct
  have hmap : t.allIds.map (t.newId next) = _ := map_newId hdistinct
  have hlen : t.allIds.length = t.panes.length + (t.panes.flatMap fun p => p.stack.ids).length := by
    rw [allIds, length_append, ids, length_map]
  rw [hlen, map_range_freshId_add, allIds, map_append] at hmap
  obtain ⟨hmapIds, hmapEntries⟩ := append_inj hmap (by simp [ids])
  obtain ⟨panes₁, hpanes, hids₁, hstacks₁, hlabels₁⟩ := renumberPanes_spec t.panes next
  have hflat : (panes₁.flatMap fun p => p.stack.ids) = t.panes.flatMap fun p => p.stack.ids := by
    have := congrArg (List.flatMap PaneStack.ids) hstacks₁
    simpa only [flatMap_map] using this
  rw [← hflat] at hentries hmapEntries
  obtain ⟨panes₂, hstacks, hids₂, hlabels₂, hentries₂, hselections⟩ :=
    renumberStacks_spec hentries hmapEntries
  have hne : t.ids ≠ [] := ne_nil_of_mem hactive
  have hpairs : ((t.panes.map TerminalPane.id).zip
      ((List.range t.panes.length).map (freshId next))) ≠ [] := by
    rw [Ne, zip_eq_nil_iff, not_or]
    refine ⟨hne, fun hnil => hne ?_⟩
    have : t.panes.length = 0 := by simpa using congrArg List.length hnil
    simpa [ids] using this
  let paneIds := lookup ((t.panes.map TerminalPane.id).zip
    ((List.range t.panes.length).map (freshId next)))
  have hlookup : ∀ id, paneIds id = if id ∈ t.ids then some (t.newId next id) else none := by
    intro id
    split
    · next hid =>
      obtain ⟨i, hi⟩ := mem_iff_getElem?.mp hid
      refine lookup_zip hids hi ?_
      rw [← hmapIds, getElem?_map, hi]
      rfl
    · next hid => exact lookup_of_notMem hid
  have hfound : ∀ id ∈ t.ids, paneIds id = some (t.newId next id) := fun id hid =>
    (hlookup id).trans (if_pos hid)
  have hremap : t.layout.remapPaneIds paneIds = some (t.layout.map (t.newId next)) :=
    PaneLayout.remapPaneIds_eq_some fun id hid => hfound id (hlayout hid)
  have hlast : freshId (freshId next t.panes.length) (panes₁.flatMap fun p => p.stack.ids).length =
      freshId next t.allIds.length := by rw [freshId_add, hflat, hlen]
  rw [hlast] at hstacks
  let t' : Tab UInt64 := { t with
    id := tabId
    panes := panes₂
    paneIndices := reindex (fun _ => none) 0 panes₂
    layout := t.layout.map (t.newId next)
    activePane := t.newId next t.activePane
    focusHistory := t.focusHistory.filterMap paneIds
    maximizedPane := t.maximizedPane.bind paneIds
    minimizedPanes := t.minimizedPanes.filterMap paneIds
    selectedMinimizedPane := t.selectedMinimizedPane.bind paneIds
    renamingPane := none
    renameBuffer := none
    editingOverlayPane := none
    overlayBuffer := none
    overlayStylePicker := false }
  refine ⟨t', paneIds, ?_, hlookup, ?_, ?_, ?_, ?_, rfl⟩
  · simp only [reassignIds, hpanes, if_neg hpairs, hstacks]
    rw [show lookup _ = paneIds from rfl, hremap, hfound _ hactive]
    rfl
  · exact (hids₂.trans hids₁).trans hmapIds.symm
  · exact hlabels₂.trans hlabels₁
  · refine hentries₂.trans ?_
    have hmapped := congrArg (List.map fun s : PaneStack UInt64 => s.ids.map (t.newId next)) hstacks₁
    rw [map_map, map_map] at hmapped
    exact hmapped
  · exact hstacks₁ ▸ hselections

/-- Two relations between lists, at a member of the first. -/
private theorem exists_of_mem {α β : Type} {R Q : α → β → Prop} {l : List α} {l' : List β}
    (hR : List.Forall₂ R l l') (hQ : List.Forall₂ Q l l') : ∀ a ∈ l, ∃ b, R a b ∧ Q a b := by
  induction hR with
  | nil => exact fun a ha => nomatch ha
  | cons hab _ ih =>
    obtain ⟨hab', hQ⟩ := List.forall₂_cons.mp hQ
    intro a ha
    rcases mem_cons.mp ha with rfl | ha
    · exact ⟨_, hab, hab'⟩
    · exact ih hQ a ha

private theorem forall₂_of_mem {α β : Type} {R Q : α → β → Prop} {l : List α} {l' : List β}
    (hR : List.Forall₂ R l l') (h : ∀ a ∈ l, ∀ b, R a b → Q a b) : List.Forall₂ Q l l' := by
  induction hR with
  | nil => exact .nil
  | cons hab _ ih =>
    exact .cons (h _ (mem_cons_self ..) _ hab)
      (ih fun a ha => h a (mem_cons_of_mem _ ha))

/-- **A tab that enters a window keeps its meaning** exactly if there is no clash. -/
theorem reassignIds_renames_iff (hdistinct : t.allIds.Nodup)
    (hlayout : t.layout.paneIds ⊆ t.ids) (hactive : t.activePane ∈ t.ids) (tabId : UInt64) :
    (∃ f t' next' paneIds, t.reassignIds tabId next = some (t', next', paneIds) ∧
      Renames t next f t' next' paneIds) ↔ t.NoClash next := by
  obtain ⟨t', paneIds, heq, hlookup, hids, hlabels, hentries, hselections, htab⟩ :=
    reassignIds_spec hdistinct hlayout hactive tabId next
  constructor
  · rintro ⟨f, t'', next', paneIds', heq', hrenames⟩ p hp id hid hselected
    obtain ⟨rfl, rfl, rfl⟩ : t' = t'' ∧ _ = next' ∧ paneIds = paneIds' := by
      simpa only [Option.some.injEq, Prod.mk.injEq] using heq.symm.trans heq'
    -- Any renaming agrees with the program's on the entries, whose new ids are there.
    have hagree : f id = t.newId next id := by
      have hp' := map_inj_left.mp (hrenames.entries.symm.trans hentries) p hp
      exact map_inj_left.mp hp' id hid
    obtain ⟨stack', hprogram, hrenamed⟩ :=
      exists_of_mem hselections hrenames.selections _ (mem_map_of_mem hp)
    have hvalid : p.stack.Valid := fun id' hid' => by
      cases hselected.symm.trans hid'
      exact hid
    refine (hprogram hvalid).mp ?_ id hid hselected
    rw [hrenamed hvalid, hselected, PaneStackSelection.map, PaneStackSelection.map, hagree]
  · intro hclash
    have hflat : (t'.panes.flatMap fun p => p.stack.ids) =
        (t.panes.flatMap fun p => p.stack.ids).map (t.newId next) := by
      rw [flatMap_def, hentries, map_flatMap, flatMap_def]
    refine ⟨t.newId next, t', _, paneIds, heq, ?_⟩
    exact {
      injective := newId_injective hdistinct
      consecutive := by rw [← map_newId hdistinct, allIds, hids, hflat, allIds, map_append]
      next := rfl
      panes := hids
      labels := hlabels
      entries := hentries
      selections := by
        refine forall₂_of_mem hselections fun stack hstack stack' hprogram hvalid => ?_
        obtain ⟨p, hp, rfl⟩ := mem_map.mp hstack
        exact (hprogram hvalid).mpr (hclash p hp)
      layout := by rw [htab]
      activePane := by rw [htab]
      focusHistory := by rw [htab]; exact filterMap_eq hlookup _
      maximizedPane := by rw [htab]; exact bind_eq hlookup _
      minimizedPanes := by rw [htab]; exact filterMap_eq hlookup _
      selectedMinimizedPane := by rw [htab]; exact bind_eq hlookup _
      index := by
        intro id i
        have hnodup : t'.ids.Nodup := by
          rw [hids]
          refine List.Nodup.map_on (fun a ha b hb => ?_) (nodup_append.mp hdistinct).1
          exact newId_injective hdistinct a (mem_append_left _ ha) b
            (mem_append_left _ hb)
        rw [htab, reindex_eq_some hnodup]
        simp [ids]
      paneIds := hlookup }

/-- The tab of a window that has given out the ids up to four, with a stack of two. -/
def stackedTab : Tab UInt64 :=
  { new 1 2 with
    panes := [{ id := 2, labelNumber := 1, stack := ⟨[⟨3⟩, ⟨4⟩], .stacked 3⟩ }] }

/-- In a window whose next id is far off the tab is renamed. -/
theorem reassignIds_renames_stackedTab : ∃ f t' next' paneIds,
    stackedTab.reassignIds 10 20 = some (t', next', paneIds) ∧
      Renames stackedTab 20 f t' next' paneIds :=
  (reassignIds_renames_iff (by decide) (by decide) (by decide) 10).mpr <| by
    simp [NoClash, stackedTab, PaneStack.ids, newId, freshId, allIds, ids]

/-- **A selection moves.** In a window whose next id is three the selected first entry gets the
id that the second had, and the second is selected from then on. -/
theorem selection_moves :
    stackedTab.allIds.Nodup ∧ stackedTab.layout.paneIds ⊆ stackedTab.ids ∧
      stackedTab.activePane ∈ stackedTab.ids ∧
      (stackedTab.reassignIds 10 3).map (fun r => r.1.panes) =
        some [{ id := 3, labelNumber := 1, stack := ⟨[⟨4⟩, ⟨5⟩], .stacked 5⟩ }] ∧
      ¬ ∃ f t' next' paneIds, stackedTab.reassignIds 10 3 = some (t', next', paneIds) ∧
        Renames stackedTab 3 f t' next' paneIds := by
  refine ⟨by decide, by decide, by decide, rfl, ?_⟩
  rintro ⟨f, t', next', paneIds, heq, h⟩
  have hpanes : t'.panes =
      [{ id := 3, labelNumber := 1, stack := ⟨[⟨4⟩, ⟨5⟩], .stacked 5⟩ }] := by
    have hrun : (stackedTab.reassignIds 10 3).map (fun r => r.1.panes) =
        some [{ id := 3, labelNumber := 1, stack := ⟨[⟨4⟩, ⟨5⟩], .stacked 5⟩ }] := rfl
    rw [heq] at hrun
    exact Option.some.inj hrun
  have hentries : [[4, 5]] = [[f 3, f 4]] := by
    have := h.entries
    rw [hpanes] at this
    exact this
  have hselections := h.selections
  rw [hpanes] at hselections
  have hselected := (List.forall₂_cons.mp hselections).1
    (fun id hid => PaneStackSelection.stacked.inj hid ▸ by decide)
  have hmoved : (5 : UInt64) = f 3 := PaneStackSelection.stacked.inj hselected
  have hkept : (4 : UInt64) = f 3 := by simpa using congrArg (fun l => l.head?.bind List.head?) hentries
  exact absurd (hmoved.trans hkept.symm) (by decide)

end Tab

end Zetta.Pane
