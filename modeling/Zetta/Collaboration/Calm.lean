import Zetta.Collaboration.Coordinator

/-!
# What starts nothing

* `PaneMapping.Inverse`: the two translations of the pane ids are inverse to each other, whatever
  is recorded and removed.
* `SharedSessionBinding.Rests`: a snapshot that is applied, and a pane that is removed, leave the
  queue alone, and give the focus up that was chosen only for a cause, or with its pane.
* `Window.Calm`: the same of the window, which may only have scheduled a publication besides.
-/

namespace Zetta.Collaboration

open Zmux (SharedSessionState)
open SharedOperation

/-! ### The translation of pane ids -/

namespace PaneMapping

/-- Each pane has at most one on the other side, which has it. -/
def Inverse (p : PaneMapping) : Prop :=
  ∀ m l, p.muxToLocal.get? m = some l ↔ p.localToMux.get? l = some m

variable {p : PaneMapping}

theorem inverse_empty : empty.Inverse := fun m l => by
  have hm : (OrdMap.empty : OrdMap ℕ ℕ).get? m = none := rfl
  have hl : (OrdMap.empty : OrdMap ℕ ℕ).get? l = none := rfl
  rw [empty, hm, hl]
  exact iff_of_false (by simp) (by simp)

theorem Inverse.bindPair (h : p.Inverse) {pair : ℕ × ℕ} {p' : PaneMapping}
    (hp : p.bindPair pair = some p') : p'.Inverse := by
  rw [PaneMapping.bindPair] at hp
  split_ifs at hp with hfree
  cases hp
  rw [not_or, Option.not_isSome_iff_eq_none, Option.not_isSome_iff_eq_none] at hfree
  intro m l
  dsimp only
  rw [OrdMap.get?_insert, OrdMap.get?_insert]
  by_cases hm : m = pair.1
  · by_cases hl : l = pair.2
    · rw [if_pos hm, if_pos hl, hm, hl]
      exact iff_of_true rfl rfl
    · rw [if_pos hm, if_neg hl, ← h m l, hm, hfree.1]
      exact iff_of_false (fun heq => hl (Option.some.inj heq).symm) (by simp)
  · by_cases hl : l = pair.2
    · rw [if_neg hm, if_pos hl, h m l, hl, hfree.2]
      exact iff_of_false (by simp) fun heq => hm (Option.some.inj heq).symm
    · rw [if_neg hm, if_neg hl]
      exact h m l

theorem Inverse.removeLocal (h : p.Inverse) (localPaneId : ℕ) :
    (p.removeLocal localPaneId).Inverse := by
  rw [PaneMapping.removeLocal]
  split
  · next muxPaneId hmux =>
    intro m l
    dsimp only
    rw [OrdMap.get?_erase, OrdMap.get?_erase]
    by_cases hm : m = muxPaneId
    · by_cases hl : l = localPaneId
      · rw [if_pos hm, if_pos hl]
        exact iff_of_false (by simp) (by simp)
      · rw [if_pos hm, if_neg hl, ← h m l, hm, (h muxPaneId localPaneId).mpr hmux]
        exact iff_of_false (by simp) fun heq => hl (Option.some.inj heq).symm
    · by_cases hl : l = localPaneId
      · rw [if_neg hm, if_pos hl, h m l, hl, hmux]
        exact iff_of_false (fun heq => hm (Option.some.inj heq).symm) (by simp)
      · rw [if_neg hm, if_neg hl]
        exact h m l
  · exact h

theorem Inverse.removeMux (h : p.Inverse) (muxPaneId : ℕ) : (p.removeMux muxPaneId).Inverse := by
  rw [PaneMapping.removeMux]
  split
  · next localPaneId hlocal =>
    -- It is what removing its pane of the tab comes to.
    have hmux := (h muxPaneId localPaneId).mp hlocal
    have hremoved := h.removeLocal localPaneId
    rw [PaneMapping.removeLocal, hmux] at hremoved
    exact hremoved
  · exact h

/-- A pane that is recorded anew replaces what either side had. -/
theorem Inverse.recordPane (h : p.Inverse) (muxPaneId localPaneId : ℕ) :
    (p.recordPane muxPaneId localPaneId).Inverse := by
  intro m l
  have hml := h m l
  have hm := h m localPaneId
  have hl := h muxPaneId l
  have hboth := h muxPaneId localPaneId
  rw [PaneMapping.recordPane]
  cases hprevious : p.muxToLocal.get? muxPaneId with
  | none =>
    cases hmux : p.localToMux.get? localPaneId with
    | none => grind [OrdMap.get?_insert]
    | some previousMux => grind [OrdMap.get?_insert, OrdMap.get?_erase]
  | some previousLocal =>
    have hpl := h m previousLocal
    have hpreviousMux := (h muxPaneId previousLocal).mp hprevious
    cases hmux : (p.localToMux.erase previousLocal).get? localPaneId with
    | none =>
      by_cases hlp : l = previousLocal
      · grind [OrdMap.get?_insert, OrdMap.get?_erase]
      · grind [OrdMap.get?_insert, OrdMap.get?_erase]
    | some previousMux =>
      by_cases hlp : l = previousLocal
      · grind [OrdMap.get?_insert, OrdMap.get?_erase]
      · grind [OrdMap.get?_insert, OrdMap.get?_erase]

theorem Inverse.bindPairs {mappings : List (ℕ × ℕ)} (h : p.Inverse) {p' : PaneMapping}
    (hp : mappings.foldlM PaneMapping.bindPair p = some p') : p'.Inverse := by
  induction mappings generalizing p with
  | nil => exact Option.some.inj hp ▸ h
  | cons pair mappings ih =>
    rw [List.foldlM_cons] at hp
    obtain ⟨p₁, hp₁, hp⟩ := Option.bind_eq_some_iff.mp hp
    exact ih (h.bindPair hp₁) hp

theorem mapped_of_removeLocal {localPaneId m l : ℕ}
    (h : (p.removeLocal localPaneId).muxToLocal.get? m = some l) :
    p.muxToLocal.get? m = some l := by
  rw [PaneMapping.removeLocal] at h
  split at h
  · dsimp only at h
    rw [OrdMap.get?_erase] at h
    split_ifs at h
    exact h
  · exact h

theorem mapped_of_removeMux {muxPaneId m l : ℕ}
    (h : (p.removeMux muxPaneId).muxToLocal.get? m = some l) : p.muxToLocal.get? m = some l := by
  rw [PaneMapping.removeMux] at h
  split at h
  · dsimp only at h
    rw [OrdMap.get?_erase] at h
    split_ifs at h
    exact h
  · exact h

/-- A pane of the tab that is removed stands for none of the session. -/
theorem unmapped_removeLocal {localPaneId muxPaneId : ℕ}
    (h : p.localToMux.get? localPaneId = some muxPaneId) :
    (p.removeLocal localPaneId).muxToLocal.get? muxPaneId = none := by
  rw [PaneMapping.removeLocal, h]
  exact (OrdMap.get?_erase ..).trans (if_pos rfl)

end PaneMapping

/-! ### What leaves the queue alone -/

/-- Neither the queue nor what is out changes, and the focus that was chosen is only given up for
a cause, or with its pane. -/
structure SharedSessionBinding.Rests {V : Type} (cause : PendingFocusIntent → Prop)
    (b b' : SharedSessionBinding V) : Prop where
  queue : b'.queue = b.queue
  inFlight : b'.inFlight = b.inFlight
  generation : b'.nextFocusGeneration = b.nextFocusGeneration
  inverse : b.panes.Inverse → b'.panes.Inverse
  mapped : ∀ m l, b'.panes.muxToLocal.get? m = some l → b.panes.muxToLocal.get? m = some l
  chosen : ∀ intent, b'.pendingFocus = some intent → b.pendingFocus = some intent
  focus : ∀ intent, b.pendingFocus = some intent → b'.pendingFocus = some intent ∨ cause intent ∨
    b'.panes.muxToLocal.get? intent.muxPaneId = none

namespace SharedSessionBinding

variable {V : Type} {cause : PendingFocusIntent → Prop} {b b' b₁ : SharedSessionBinding V}

theorem Rests.refl (b : SharedSessionBinding V) : b.Rests cause b where
  queue := rfl
  inFlight := rfl
  generation := rfl
  inverse h := h
  mapped _ _ h := h
  chosen _ h := h
  focus _ h := .inl h

theorem Rests.trans (h : b.Rests cause b₁) (h' : b₁.Rests cause b') : b.Rests cause b' where
  queue := h'.queue.trans h.queue
  inFlight := h'.inFlight.trans h.inFlight
  generation := h'.generation.trans h.generation
  inverse hinverse := h'.inverse (h.inverse hinverse)
  mapped m l hl := h.mapped m l (h'.mapped m l hl)
  chosen intent hintent := h.chosen intent (h'.chosen intent hintent)
  focus intent hintent := by
    obtain hkept | hcause | hlost := h.focus intent hintent
    · exact h'.focus intent hkept
    · exact .inr (.inl hcause)
    · -- A pane that is lost stays so.
      refine .inr (.inr (Option.eq_none_iff_forall_ne_some.mpr fun l hl => ?_))
      exact Option.ne_none_iff_exists'.mpr ⟨l, h'.mapped _ l hl⟩ hlost

variable {state : SharedSessionState V}

/-- What only sets the state and the panes, and keeps the pairs, or removes some. -/
theorem Rests.of_panes {panes : PaneMapping} {publicationScheduled : Bool}
    (hinverse : b.panes.Inverse → panes.Inverse)
    (hmapped : ∀ m l, panes.muxToLocal.get? m = some l → b.panes.muxToLocal.get? m = some l) :
    b.Rests cause { b with
      state := state, panes := panes, publicationScheduled := publicationScheduled } where
  queue := rfl
  inFlight := rfl
  generation := rfl
  inverse := hinverse
  mapped := hmapped
  chosen _ h := h
  focus _ h := .inl h

/-- Giving the focus up that was chosen takes a cause. -/
theorem Rests.of_clear (h : ∀ intent, b.pendingFocus = some intent →
      cause intent ∨ b.panes.muxToLocal.get? intent.muxPaneId = none) :
    b.Rests cause { b with pendingFocus := none } where
  queue := rfl
  inFlight := rfl
  generation := rfl
  inverse h := h
  mapped _ _ h := h
  chosen _ h := by cases h
  focus intent hintent := .inr (h intent hintent)

theorem rests_clearFocusIntent {muxPaneId generation : ℕ}
    (h : cause ⟨muxPaneId, generation⟩) :
    b.Rests cause (b.clearFocusIntent muxPaneId generation) := by
  rw [clearFocusIntent]
  split_ifs with hcurrent
  · refine .of_clear fun intent hintent => .inl ?_
    rw [focusIntentIsCurrent, hintent, decide_eq_true_eq] at hcurrent
    exact Option.some.inj hcurrent ▸ h
  · exact .refl b

theorem rests_removeLocalPane (localPaneId : ℕ) :
    b.Rests cause (b.removeLocalPane localPaneId) := by
  rw [removeLocalPane]
  cases hmux : b.panes.localToMux.get? localPaneId with
  | none => exact .refl b
  | some muxPaneId =>
    refine ⟨rfl, rfl, rfl, fun h => h.removeLocal localPaneId,
      fun m l => PaneMapping.mapped_of_removeLocal, fun intent h => ?_, fun intent h => ?_⟩
    · exact (Option.filter_eq_some_iff.mp h).1
    · by_cases hlost : intent.muxPaneId = muxPaneId
      · exact .inr (.inr (hlost.symm ▸ PaneMapping.unmapped_removeLocal hmux))
      · exact .inl (Option.filter_eq_some_iff.mpr ⟨h, decide_eq_true hlost⟩)

/-- What a snapshot says about the pane that was chosen. -/
structure Answers (b : SharedSessionBinding V) (view : TabView) (state : SharedSessionState V)
    (cause : PendingFocusIntent → Prop) : Prop where
  acknowledged : ∀ intent, state.presentation.activePane = intent.muxPaneId → cause intent
  absent : ∀ intent, state.containsPane intent.muxPaneId = false → cause intent
  hidden : ∀ intent l, b.panes.muxToLocal.get? intent.muxPaneId = some l →
    view.visible l = false → cause intent

variable {view : TabView}

theorem Answers.of_rests (h : b.Answers view state cause) (hrests : b.Rests cause b') :
    b'.Answers view state cause where
  acknowledged := h.acknowledged
  absent := h.absent
  hidden intent l hl hvisible := h.hidden intent l (hrests.mapped _ l hl) hvisible

theorem rests_pendingFocusForSnapshot (h : b.Answers view state cause) :
    b.Rests cause (b.pendingFocusForSnapshot view state) := by
  rw [pendingFocusForSnapshot]
  cases hfocus : b.pendingFocus with
  | none => exact .refl b
  | some intent =>
    have hclear : (cause intent ∨ b.panes.muxToLocal.get? intent.muxPaneId = none) →
        b.Rests cause { b with pendingFocus := none } := fun hcause => .of_clear fun other hother =>
      Option.some.inj (hfocus.symm.trans hother) ▸ hcause
    dsimp only
    split_ifs with hactive
    · exact hclear (.inl (h.acknowledged intent hactive))
    · cases hlocal : b.panes.muxToLocal.get? intent.muxPaneId with
      | none => exact hclear (.inr hlocal)
      | some localPaneId =>
        dsimp only
        split_ifs with hpresent
        · exact .refl b
        · rw [Bool.and_eq_true, not_and_or, Bool.not_eq_true, Bool.not_eq_true] at hpresent
          obtain habsent | hhidden := hpresent
          · exact hclear (.inl (h.absent intent habsent))
          · exact hclear (.inl (h.hidden intent localPaneId hlocal hhidden))

theorem rests_applySnapshotToTab (h : b.Answers view state cause) :
    b.Rests cause (b.applySnapshotToTab view state).2 := by
  have hfocus := rests_pendingFocusForSnapshot h
  rw [applySnapshotToTab]
  split_ifs
  · exact .refl b
  · exact .refl b
  · dsimp only
    split
    · exact hfocus
    · exact hfocus.trans (.of_panes (fun h => h) fun _ _ => id)

theorem rests_acceptPaneRemoved {muxPaneId : ℕ} :
    b.Rests cause (b.acceptPaneRemoved state muxPaneId) := by
  rw [acceptPaneRemoved]
  split_ifs
  · exact .refl b
  · exact .of_panes (fun h => h.removeMux muxPaneId) fun _ _ => PaneMapping.mapped_of_removeMux

end SharedSessionBinding

namespace Window

variable {V : Type} {cause : PendingFocusIntent → Prop} {w w' w₁ : Window V}

/-- What starts nothing and queues nothing. -/
structure Calm (cause : PendingFocusIntent → Prop) (w w' : Window V) : Prop where
  requests : w'.requests = w.requests
  epoch : w'.epoch = w.epoch
  due : w'.due = w.due
  unbound : w.binding = none → w'.binding = none
  bound : ∀ b, w.binding = some b → ∃ b', w'.binding = some b' ∧ b.Rests cause b'
  scheduled : (∀ b, w.binding = some b → b.publicationScheduled = true →
      w.publicationTimers ≠ []) →
    ∀ b, w'.binding = some b → b.publicationScheduled = true → w'.publicationTimers ≠ []

theorem Calm.refl (w : Window V) : w.Calm cause w where
  requests := rfl
  epoch := rfl
  due := rfl
  unbound h := h
  bound b h := ⟨b, h, .refl b⟩
  scheduled h := h

theorem Calm.trans (h : w.Calm cause w₁) (h' : w₁.Calm cause w') : w.Calm cause w' where
  requests := h'.requests.trans h.requests
  epoch := h'.epoch.trans h.epoch
  due := h'.due.trans h.due
  unbound hw := h'.unbound (h.unbound hw)
  bound b hb := by
    obtain ⟨b₁, hb₁, hrests⟩ := h.bound b hb
    obtain ⟨b', hb', hrests'⟩ := h'.bound b₁ hb₁
    exact ⟨b', hb', hrests.trans hrests'⟩
  scheduled hw := h'.scheduled (h.scheduled hw)

theorem Calm.of_bound {b' : SharedSessionBinding V} (h : w.Calm cause w')
    (hb' : w'.binding = some b') : ∃ b, w.binding = some b ∧ b.Rests cause b' := by
  cases hb : w.binding with
  | none => exact nomatch hb'.symm.trans (h.unbound hb)
  | some b =>
    obtain ⟨b₁, hb₁, hrests⟩ := h.bound b hb
    exact ⟨b, rfl, Option.some.inj (hb₁.symm.trans hb') ▸ hrests⟩

/-- What changes the binding alone. -/
theorem Calm.of_binding {b b' : SharedSessionBinding V} (hb : w.binding = some b)
    (h : b.Rests cause b') (hscheduled : b'.publicationScheduled = b.publicationScheduled) :
    w.Calm cause { w with binding := some b' } where
  requests := rfl
  epoch := rfl
  due := rfl
  unbound hw := nomatch hw.symm.trans hb
  bound other hother := ⟨b', rfl, Option.some.inj (hb.symm.trans hother) ▸ h⟩
  scheduled hw other hother := by
    rw [← Option.some.inj hother, hscheduled]
    exact hw b hb

variable {f : SharedSessionBinding V → SharedSessionBinding V}

theorem modify_of_none (h : w.binding = none) : w.modify f = w := by
  cases w
  obtain rfl : _ = none := h
  rfl

theorem modify_of_some {b : SharedSessionBinding V} (h : w.binding = some b) :
    w.modify f = { w with binding := some (f b) } := by
  rw [modify, h]
  rfl

theorem calm_modify (h : ∀ b, w.binding = some b →
      b.Rests cause (f b) ∧ (f b).publicationScheduled = b.publicationScheduled) :
    w.Calm cause (w.modify f) := by
  cases hb : w.binding with
  | none =>
    rw [modify_of_none hb]
    exact .refl w
  | some b =>
    rw [modify_of_some hb]
    exact .of_binding hb (h b hb).1 (h b hb).2

theorem calm_schedule (tabId : ℕ) : w.Calm cause (w.schedule tabId) := by
  rw [schedule]
  cases hb : w.binding with
  | none => exact .refl w
  | some b =>
    dsimp only
    split_ifs
    · exact .refl w
    · refine ⟨rfl, rfl, rfl, fun hw => absurd (hw.symm.trans hb) (by simp), fun other hother => ?_,
        fun _ _ _ _ => by simp⟩
      rw [hb] at hother
      exact ⟨_, rfl, Option.some.inj hother ▸ .of_panes (fun h => h) fun _ _ => id⟩

variable (b : SharedSessionBinding V)

theorem scheduled_removeLocalPane (localPaneId : ℕ) :
    (b.removeLocalPane localPaneId).publicationScheduled = b.publicationScheduled := by
  rw [SharedSessionBinding.removeLocalPane]
  split <;> rfl

theorem calm_removeLocalSharedPane (view : TabView) (localPaneId : ℕ) :
    w.Calm cause (removeLocalSharedPane view w localPaneId) := by
  rw [removeLocalSharedPane]
  cases hb : w.binding with
  | none => exact .refl w
  | some b =>
    have hremoved : w.Calm cause { w with binding := some (b.removeLocalPane localPaneId) } :=
      .of_binding hb (SharedSessionBinding.rests_removeLocalPane localPaneId)
        (scheduled_removeLocalPane b localPaneId)
    dsimp only
    split_ifs
    · exact hremoved.trans (calm_schedule b.tabId)
    · exact hremoved

theorem calm_removeLocalSharedPanes (view : TabView) (panes : List ℕ) :
    w.Calm cause (panes.foldl (removeLocalSharedPane view) w) := by
  induction panes generalizing w with
  | nil => exact .refl w
  | cons localPaneId panes ih => exact (calm_removeLocalSharedPane view localPaneId).trans ih

theorem scheduled_applySnapshotToTab (view : TabView) (state : SharedSessionState V) :
    (b.applySnapshotToTab view state).2.publicationScheduled = b.publicationScheduled := by
  have hfocus : (b.pendingFocusForSnapshot view state).publicationScheduled =
      b.publicationScheduled := by
    rw [SharedSessionBinding.pendingFocusForSnapshot]
    repeat' split
    all_goals rfl
  rw [SharedSessionBinding.applySnapshotToTab]
  split_ifs
  · rfl
  · rfl
  · dsimp only
    split
    · exact hfocus
    · exact hfocus

/-- What an answer or a snapshot says about the panes that the binding has. -/
def Answers (w : Window V) (view : TabView) (state : SharedSessionState V)
    (cause : PendingFocusIntent → Prop) : Prop :=
  ∀ b, w.binding = some b → b.Answers view state cause

variable {view : TabView} {state : SharedSessionState V}

theorem Answers.of_calm (h : w.Answers view state cause) (hcalm : w.Calm cause w') :
    w'.Answers view state cause := by
  intro b' hb'
  obtain ⟨b, hb, hrests⟩ := hcalm.of_bound hb'
  exact (h b hb).of_rests hrests

theorem calm_applySnapshot (h : w.Answers view state cause) :
    w.Calm cause (w.applySnapshot view state) := by
  rw [applySnapshot]
  cases hb : w.binding with
  | none => exact .refl w
  | some b =>
    have happlied : w.Calm cause
        { w with binding := some (b.applySnapshotToTab view state).2 } :=
      .of_binding hb (SharedSessionBinding.rests_applySnapshotToTab (h b hb))
        (scheduled_applySnapshotToTab b view state)
    dsimp only
    split_ifs
    · exact happlied.trans (calm_schedule b.tabId)
    · exact happlied

theorem calm_installPublicationResponse (h : w.Answers view state cause) :
    w.Calm cause (w.installPublicationResponse view state) :=
  calm_modify fun b hb => ⟨SharedSessionBinding.rests_applySnapshotToTab (h b hb),
    scheduled_applySnapshotToTab b view state⟩

theorem calm_installSharedSnapshot (h : w.Answers view state cause) :
    w.Calm cause (w.installSharedSnapshot view state) := by
  rw [installSharedSnapshot]
  cases hb : w.binding with
  | none => exact .refl w
  | some b =>
    have hremoved : w.Calm cause _ :=
      calm_removeLocalSharedPanes view (b.panesMissingFromSnapshot state)
    dsimp only
    split_ifs
    · exact .refl w
    · exact hremoved.trans (calm_applySnapshot (h.of_calm hremoved))

theorem calm_focusSettled {request : Request} {muxPaneId generation attempts : ℕ}
    (h : SHARED_FOCUS_ATTEMPTS ≤ attempts + 1 → cause ⟨muxPaneId, generation⟩) :
    w.Calm cause (w.focusSettled request muxPaneId generation attempts) := by
  rw [focusSettled]
  cases hb : w.binding with
  | none => exact .refl w
  | some b =>
    dsimp only
    split_ifs with hcurrent hagain
    · exact .refl w
    · exact ⟨rfl, rfl, rfl, fun hnone => hb.symm.trans hnone,
        fun other hother => ⟨other, hb.symm.trans hother, .refl other⟩,
        fun hw other hother => hw other (hb.trans hother)⟩
    · refine .of_binding hb
        (SharedSessionBinding.rests_clearFocusIntent (h (not_lt.mp hagain))) ?_
      rw [SharedSessionBinding.clearFocusIntent]
      split_ifs <;> rfl

theorem calm_paneRemoved {muxPaneId : ℕ} (h : w.Answers view state cause) :
    w.Calm cause (w.paneRemoved state muxPaneId view) := by
  rw [paneRemoved]
  cases hb : w.binding with
  | none => exact .refl w
  | some b =>
    have hscheduled : (b.acceptPaneRemoved state muxPaneId).publicationScheduled =
        b.publicationScheduled := by
      rw [SharedSessionBinding.acceptPaneRemoved]
      split_ifs <;> rfl
    have hremoved : w.Calm cause
        { w with binding := some (b.acceptPaneRemoved state muxPaneId) } :=
      .of_binding hb SharedSessionBinding.rests_acceptPaneRemoved hscheduled
    have hcalm : w.Calm cause
        (if view.shared then
          { w with binding := some (b.acceptPaneRemoved state muxPaneId) }.schedule b.tabId
        else { w with binding := some (b.acceptPaneRemoved state muxPaneId) }) := by
      split_ifs
      · exact hremoved.trans (calm_schedule b.tabId)
      · exact hremoved
    exact hcalm.trans (calm_installSharedSnapshot (h.of_calm hcalm))

end Window

end Zetta.Collaboration
