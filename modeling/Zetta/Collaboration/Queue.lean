import Zetta.Collaboration.Calm

/-!
# One request at a time

* `Window.Ordered`: one request is out at most, and it is of the binding that there is; nothing
  waits while none is out; and a publication that is asked for waits with all its attempts.
* `Window.Kept`: what becomes in one step of the focus that was chosen, and of a publication that
  waits.

All of it holds of every run (`orderly`) in which a session is bound again only when nothing is out,
a focus is asked for again only in the binding that it was chosen in, and a publication is asked for
only when none waits that has used some of its attempts.
-/

namespace Zetta.Collaboration

open List
open Zmux (SharedSessionState)
open SharedOperation

/-! ### The next operation -/

namespace SharedSessionBinding

variable {V : Type} {b b' b₁ : SharedSessionBinding V}

/-- The focus that was chosen is only given up when the session lacks its pane. -/
structure Pumped (b b' : SharedSessionBinding V) : Prop where
  panes : b'.panes = b.panes
  state : b'.state = b.state
  generation : b'.nextFocusGeneration = b.nextFocusGeneration
  scheduled : b'.publicationScheduled = b.publicationScheduled
  chosen : ∀ intent, b'.pendingFocus = some intent → b.pendingFocus = some intent
  focus : ∀ intent, b.pendingFocus = some intent →
    b'.pendingFocus = some intent ∨ b'.state.containsPane intent.muxPaneId = false

theorem Pumped.refl (b : SharedSessionBinding V) : b.Pumped b where
  panes := rfl
  state := rfl
  generation := rfl
  scheduled := rfl
  chosen _ h := h
  focus _ h := .inl h

theorem Pumped.trans (h : b.Pumped b₁) (h' : b₁.Pumped b') : b.Pumped b' where
  panes := h'.panes.trans h.panes
  state := h'.state.trans h.state
  generation := h'.generation.trans h.generation
  scheduled := h'.scheduled.trans h.scheduled
  chosen intent hintent := h.chosen intent (h'.chosen intent hintent)
  focus intent hintent := by
    obtain hkept | hlacks := h.focus intent hintent
    · exact h'.focus intent hkept
    · exact .inr (h'.state ▸ hlacks)

theorem pumped_take (b : SharedSessionBinding V) (queue : List SharedOperation) (inFlight : Bool) :
    b.Pumped { b with queue := queue, inFlight := inFlight } where
  panes := rfl
  state := rfl
  generation := rfl
  scheduled := rfl
  chosen _ h := h
  focus _ h := .inl h

/-- Looking for what there is to send leaves the queue, and what is out. -/
theorem pumped_request (b : SharedSessionBinding V) (plan : Plan) (operation : SharedOperation) :
    b.Pumped (b.request plan operation).1 ∧ (b.request plan operation).1.queue = b.queue ∧
      (b.request plan operation).1.inFlight = b.inFlight := by
  unfold request
  split
  · next muxPaneId generation attempts =>
    split_ifs with hcurrent hpresent
    · exact ⟨.refl b, rfl, rfl⟩
    · rw [Bool.not_eq_true', Bool.not_eq_false, focusIntentIsCurrent, decide_eq_true_eq] at hcurrent
      rw [Bool.not_eq_true'] at hpresent
      rw [clearFocusIntent, focusIntentIsCurrent, hcurrent, if_pos (decide_eq_true rfl)]
      refine ⟨⟨rfl, rfl, rfl, rfl, fun _ h => (by cases h), fun intent h => .inr ?_⟩, rfl, rfl⟩
      rw [← Option.some.inj (hcurrent.symm.trans h)]
      exact hpresent
    · exact ⟨.refl b, rfl, rfl⟩
  · exact ⟨.refl b, rfl, rfl⟩

end SharedSessionBinding

namespace Window

variable {V : Type} {w w' : Window V}

/-! ### What the window is like -/

/-- What also holds while an answer is handled. -/
structure Sound (w : Window V) : Prop where
  inverse : ∀ b, w.binding = some b → b.panes.Inverse
  generation : ∀ b, w.binding = some b → ∀ intent, b.pendingFocus = some intent →
    intent.generation ≤ b.nextFocusGeneration
  /-- The publication that was asked for, and no other, waits in the queue. -/
  publications : ∀ b, w.binding = some b →
    b.queue.filter isPublication = w.due.toList.map publishState
  unbound : w.binding = none → w.due = none
  scheduled : ∀ b, w.binding = some b → b.publicationScheduled = true →
    w.publicationTimers ≠ []

/-- What also holds before the next operation is started. -/
structure Ready (w : Window V) : Prop extends Sound w where
  single : w.requests.length ≤ 1
  sent : ∀ b, w.binding = some b → (b.inFlight = true ↔ w.requests ≠ [])
  own : ∀ b, w.binding = some b → ∀ request ∈ w.requests, request.epoch = w.epoch
  fresh : ∀ request ∈ w.requests, request.operation.isPublication = true →
    w.due = none ∨ w.due = some 0

structure Ordered (w : Window V) : Prop extends Ready w where
  started : ∀ b, w.binding = some b → b.inFlight = false → b.queue = []

variable {cause : PendingFocusIntent → Prop}

theorem Sound.of_calm (h : w.Sound) (hcalm : w.Calm cause w') : w'.Sound := by
  refine ⟨fun b' hb' => ?_, fun b' hb' intent hintent => ?_, fun b' hb' => ?_, fun hnone => ?_,
    hcalm.scheduled h.scheduled⟩
  · obtain ⟨b, hb, hrests⟩ := hcalm.of_bound hb'
    exact hrests.inverse (h.inverse b hb)
  · obtain ⟨b, hb, hrests⟩ := hcalm.of_bound hb'
    rw [hrests.generation]
    exact h.generation b hb intent (hrests.chosen intent hintent)
  · obtain ⟨b, hb, hrests⟩ := hcalm.of_bound hb'
    rw [hrests.queue, hcalm.due]
    exact h.publications b hb
  · rw [hcalm.due]
    cases hb : w.binding with
    | none => exact h.unbound hb
    | some b =>
      obtain ⟨b₁, hb₁, -⟩ := hcalm.bound b hb
      exact nomatch hb₁.symm.trans hnone

theorem Ordered.of_calm (h : w.Ordered) (hcalm : w.Calm cause w') : w'.Ordered := by
  refine ⟨⟨h.toSound.of_calm hcalm, hcalm.requests ▸ h.single, fun b' hb' => ?_,
    fun b' hb' => ?_, ?_⟩, fun b' hb' => ?_⟩
  · obtain ⟨b, hb, hrests⟩ := hcalm.of_bound hb'
    rw [hrests.inFlight, hcalm.requests]
    exact h.sent b hb
  · obtain ⟨b, hb, -⟩ := hcalm.of_bound hb'
    rw [hcalm.requests, hcalm.epoch]
    exact h.own b hb
  · rw [hcalm.requests, hcalm.due]
    exact h.fresh
  · obtain ⟨b, hb, hrests⟩ := hcalm.of_bound hb'
    rw [hrests.inFlight, hrests.queue]
    exact h.started b hb

/-! ### Starting the next operation -/

/-- A publication that waits still does, or was started, or there was nothing to send for it. -/
def Carries (w w' : Window V) (plan : Plan) : Prop :=
  ∀ b b' attempts, w.binding = some b → w'.binding = some b' → publishState attempts ∈ b.queue →
    publishState attempts ∈ b'.queue ∨
    (∃ request ∈ w'.requests, request.operation = publishState attempts) ∨
    plan (publishState attempts) = none

theorem filter_cons_publication {operation : SharedOperation} {queue : List SharedOperation}
    {due : Option ℕ}
    (h : (operation :: queue).filter isPublication = due.toList.map publishState) :
    queue.filter isPublication =
      (if operation.isPublication then none else due).toList.map publishState := by
  split_ifs with hpublication
  · rw [filter_cons_of_pos hpublication] at h
    cases due with
    | none => cases h
    | some attempts => exact (List.cons.inj h).2
  · rwa [filter_cons_of_neg hpublication] at h

/-- The operation that is taken is asked for, or nothing is left of it. -/
theorem pumpUpTo_spec {plan : Plan} {tabId n : ℕ} {b : SharedSessionBinding V} (h : w.Ready)
    (hb : w.binding = some b) (hn : b.queue.length ≤ n) :
    (w.pumpUpTo plan tabId n).Ordered ∧ (w.pumpUpTo plan tabId n).epoch = w.epoch ∧
    (∃ b', (w.pumpUpTo plan tabId n).binding = some b' ∧ b.Pumped b') ∧
    w.Carries (w.pumpUpTo plan tabId n) plan := by
  induction n generalizing w b with
  | zero =>
    have hqueue : b.queue = [] := eq_nil_of_length_eq_zero (Nat.le_zero.mp hn)
    refine ⟨⟨h, fun other hother _ => ?_⟩, rfl, ⟨b, hb, .refl b⟩, fun other _ _ hother _ hmem => ?_⟩
    · exact Option.some.inj (hb.symm.trans hother) ▸ hqueue
    · rw [← Option.some.inj (hb.symm.trans hother), hqueue] at hmem
      cases hmem
  | succ n ih =>
    -- Whatever is not taken is left as it is.
    have hrest : (b.inFlight = false → b.queue = []) → w.Ordered ∧ w.epoch = w.epoch ∧
        (∃ b', w.binding = some b' ∧ b.Pumped b') ∧ w.Carries w plan := by
      refine fun hstarted => ⟨⟨h, fun other hother => ?_⟩, rfl, ⟨b, hb, .refl b⟩,
        fun other other' _ hother hother' hmem => .inl ?_⟩
      · exact Option.some.inj (hb.symm.trans hother) ▸ hstarted
      · exact Option.some.inj (hother.symm.trans hother') ▸ hmem
    rw [pumpUpTo, hb, Option.bind_some, SharedSessionBinding.takeNextOperation]
    by_cases hflight : b.inFlight = true
    · rw [if_pos hflight]
      exact hrest fun hfree => nomatch hflight.symm.trans hfree
    rw [if_neg hflight]
    cases hqueue : b.queue with
    | nil => exact hrest fun _ => hqueue
    | cons operation queue =>
      dsimp only
      -- The publication that waits is the one that is taken, if one is.
      have hpublications := filter_cons_publication (hqueue ▸ h.publications b hb)
      have hrequests : w.requests = [] := by
        by_contra hout
        exact hflight ((h.sent b hb).mpr hout)
      obtain ⟨hlooked, hqueue', hflight'⟩ :=
        ({ b with queue := queue, inFlight := true } : SharedSessionBinding V).pumped_request
          plan operation
      generalize hrequest : SharedSessionBinding.request
        { b with queue := queue, inFlight := true } plan operation = asked at *
      obtain ⟨b₁, durable⟩ := asked
      dsimp only at hlooked hqueue' hflight'
      have hpumped := (b.pumped_take queue true).trans hlooked
      have hsound : Sound { w with
          binding := some b₁, due := if operation.isPublication then none else w.due } := by
        refine ⟨fun other hother => ?_, fun other hother intent hintent => ?_,
          fun other hother => ?_, fun hnone => (by cases hnone), fun other hother => ?_⟩
        · rw [← Option.some.inj hother, hpumped.panes]
          exact h.inverse b hb
        · rw [← Option.some.inj hother] at hintent ⊢
          rw [hpumped.generation]
          exact h.generation b hb intent (hpumped.chosen intent hintent)
        · rw [← Option.some.inj hother, hqueue']
          exact hpublications
        · rw [← Option.some.inj hother, hpumped.scheduled]
          exact h.scheduled b hb
      cases durable with
      | some durable =>
        dsimp only
        refine ⟨⟨⟨⟨hsound.1, hsound.2, hsound.3, hsound.4, hsound.5⟩, ?_, fun other hother => ?_,
          fun other _ request hmem => ?_, fun request hmem hpublication => ?_⟩,
          fun other hother hfree => ?_⟩, rfl, ⟨b₁, rfl, hpumped⟩,
          fun other other' attempts hother hother' hmem => ?_⟩
        · simp [hrequests]
        · rw [← Option.some.inj hother, hflight']
          simp
        · simp only [hrequests, nil_append, mem_singleton] at hmem
          rw [hmem]
        · simp only [hrequests, nil_append, mem_singleton] at hmem
          rw [hmem] at hpublication
          exact .inl (if_pos hpublication)
        · rw [← Option.some.inj hother, hflight'] at hfree
          cases hfree
        · rw [← Option.some.inj (hb.symm.trans hother), hqueue, mem_cons] at hmem
          obtain htaken | hmem := hmem
          · exact .inr (.inl ⟨_, mem_append_right _ (mem_singleton_self _), htaken.symm⟩)
          · rw [← Option.some.inj hother', hqueue']
            exact .inl hmem
      | none =>
        dsimp only
        have hready : Ready { w with
            binding := some b₁.finishOperation
            due := if operation.isPublication then none else w.due } := by
          refine ⟨⟨fun other hother => ?_, fun other hother => ?_, fun other hother => ?_,
            fun hnone => (by cases hnone), fun other hother => ?_⟩, h.single,
            fun other hother => ?_, fun other _ => h.own b hb, fun request hmem => ?_⟩
          · exact Option.some.inj hother ▸ hsound.inverse b₁ rfl
          · exact Option.some.inj hother ▸ hsound.generation b₁ rfl
          · exact Option.some.inj hother ▸ hsound.publications b₁ rfl
          · exact Option.some.inj hother ▸ hsound.scheduled b₁ rfl
          · rw [← Option.some.inj hother]
            exact iff_of_false (by simp [SharedSessionBinding.finishOperation]) (by simp [hrequests])
          · rw [hrequests] at hmem
            cases hmem
        have hlength : b₁.finishOperation.queue.length ≤ n := by
          rw [hqueue, length_cons] at hn
          exact hqueue'.symm ▸ Nat.le_of_succ_le_succ hn
        obtain ⟨hordered, hepoch, ⟨b', hb', hpumped'⟩, hcarries⟩ := ih hready rfl hlength
        refine ⟨hordered, hepoch, ⟨b', hb', ?_⟩, fun other other' attempts hother hother' hmem => ?_⟩
        · exact (hpumped.trans (b₁.pumped_take b₁.queue false)).trans hpumped'
        · rw [← Option.some.inj (hb.symm.trans hother), hqueue, mem_cons] at hmem
          obtain htaken | hmem := hmem
          · -- There was nothing to send for the publication that was taken.
            rw [← htaken] at hrequest
            exact .inr (.inr (congrArg Prod.snd hrequest))
          · exact hcarries b₁.finishOperation other' attempts rfl hother' (hqueue'.symm ▸ hmem)

theorem ready_of_requests (h : w.Sound) (hrequests : w.requests = [])
    (hfree : ∀ b, w.binding = some b → b.inFlight = false) : w.Ready where
  toSound := h
  single := by simp [hrequests]
  sent b hb := iff_of_false (by simp [hfree b hb]) (by simp [hrequests])
  own _ _ request hmem := by
    rw [hrequests] at hmem
    cases hmem
  fresh request hmem := by
    rw [hrequests] at hmem
    cases hmem

theorem Ready.pump_of_unbound (hb : w.binding = none) (plan : Plan) (tabId : ℕ) :
    w.pump plan tabId = w := by
  rw [pump, hb]
  rfl

/-- Nothing waits afterwards while none is out. -/
theorem Ready.pump (h : w.Ready) (plan : Plan) (tabId : ℕ) : (w.pump plan tabId).Ordered := by
  cases hb : w.binding with
  | none =>
    rw [pump_of_unbound hb]
    exact ⟨h, fun b hsome => absurd (hb.symm.trans hsome) (by simp)⟩
  | some b =>
    rw [Window.pump, hb]
    exact (pumpUpTo_spec h hb le_rfl).1

theorem Ready.pumped (h : w.Ready) {plan : Plan} {tabId : ℕ} {b' : SharedSessionBinding V}
    (hb' : (w.pump plan tabId).binding = some b') : ∃ b, w.binding = some b ∧ b.Pumped b' := by
  cases hb : w.binding with
  | none =>
    rw [pump_of_unbound hb, hb] at hb'
    cases hb'
  | some b =>
    rw [Window.pump, hb] at hb'
    obtain ⟨b₁, hb₁, hpumped⟩ := (pumpUpTo_spec h hb le_rfl).2.2.1
    exact ⟨b, rfl, Option.some.inj (hb₁.symm.trans hb') ▸ hpumped⟩

theorem Ready.carries (h : w.Ready) (plan : Plan) (tabId : ℕ) :
    w.Carries (w.pump plan tabId) plan := by
  intro b b' attempts hb
  rw [Window.pump, hb]
  exact (pumpUpTo_spec h hb le_rfl).2.2.2 b b' attempts hb

end Window

/-! ### Queueing an operation -/

namespace SharedSessionBinding

variable {V : Type} {b : SharedSessionBinding V}

theorem pumped_enqueue (b : SharedSessionBinding V) (operation : SharedOperation) :
    b.Pumped (b.enqueue operation) := by
  rw [enqueue]
  split_ifs
  · exact .refl b
  · exact b.pumped_take (b.queue ++ [operation]) b.inFlight

theorem inFlight_enqueue (b : SharedSessionBinding V) (operation : SharedOperation) :
    (b.enqueue operation).inFlight = b.inFlight := by
  rw [enqueue]
  split_ifs <;> rfl

theorem mem_enqueue_of_mem {operation other : SharedOperation} (h : other ∈ b.queue) :
    other ∈ (b.enqueue operation).queue := by
  rw [enqueue]
  split_ifs
  · exact h
  · exact mem_append_left _ h

theorem filter_enqueue_of_not_publication {operation : SharedOperation}
    (h : operation.isPublication = false) :
    (b.enqueue operation).queue.filter isPublication = b.queue.filter isPublication := by
  rw [enqueue]
  split_ifs
  · rfl
  · rw [filter_append, filter_singleton, h]
    exact append_nil _

theorem any_isSameWork_publishState (attempts : ℕ) (queue : List SharedOperation) :
    queue.any (·.isSameWork (publishState attempts)) = queue.any isPublication := by
  congr 1
  funext operation
  cases operation <;> rfl

/-- A publication is only queued when none waits. -/
theorem filter_enqueue_publishState {due : Option ℕ}
    (h : b.queue.filter isPublication = due.toList.map publishState) (attempts : ℕ) :
    (b.enqueue (publishState attempts)).queue.filter isPublication =
      [publishState (due.getD attempts)] := by
  rw [enqueue, any_isSameWork_publishState]
  cases due with
  | none =>
    have hnone : b.queue.any isPublication = false := by
      rw [any_eq_false]
      exact filter_eq_nil_iff.mp h
    rw [hnone, if_neg (by simp), filter_append, h]
    rfl
  | some waiting =>
    have hsome : b.queue.any isPublication = true := by
      rw [any_eq_true]
      have hmem : publishState waiting ∈ b.queue.filter isPublication := by rw [h]; simp
      exact ⟨_, mem_of_mem_filter hmem, rfl⟩
    rw [hsome, if_pos rfl, h]
    rfl

end SharedSessionBinding

namespace Window

variable {V : Type} {w w' : Window V}

/-- A publication waits if it is the one that is due. -/
theorem Sound.mem_queue_iff (h : w.Sound) {b : SharedSessionBinding V} (hb : w.binding = some b)
    {attempts : ℕ} : publishState attempts ∈ b.queue ↔ w.due = some attempts := by
  have hfilter : publishState attempts ∈ b.queue ↔
      publishState attempts ∈ b.queue.filter isPublication := by
    rw [mem_filter]
    exact (and_iff_left rfl).symm
  rw [hfilter, h.publications b hb]
  cases w.due with
  | none => simp
  | some due => simp [eq_comm]

/-- What only changes the queue and what is due. -/
theorem Sound.of_pumped (h : w.Sound) {b b' : SharedSessionBinding V} {due : Option ℕ}
    (hb : w.binding = some b) (hpumped : b.Pumped b')
    (hpublications : b'.queue.filter isPublication = due.toList.map publishState) :
    Sound { w with binding := some b', due := due } where
  inverse other hother := by
    rw [← Option.some.inj hother, hpumped.panes]
    exact h.inverse b hb
  generation other hother intent hintent := by
    rw [← Option.some.inj hother] at hintent ⊢
    rw [hpumped.generation]
    exact h.generation b hb intent (hpumped.chosen intent hintent)
  publications other hother := by
    rw [← Option.some.inj hother]
    exact hpublications
  unbound hnone := by cases hnone
  scheduled other hother := by
    rw [← Option.some.inj hother, hpumped.scheduled]
    exact h.scheduled b hb

theorem Sound.enqueue (h : w.Sound) {operation : SharedOperation}
    (hoperation : operation.isPublication = false) :
    (w.modify (·.enqueue operation)).Sound := by
  cases hb : w.binding with
  | none => rwa [modify_of_none hb]
  | some b =>
    rw [modify_of_some hb]
    refine h.of_pumped hb (b.pumped_enqueue operation) ?_
    rw [SharedSessionBinding.filter_enqueue_of_not_publication hoperation]
    exact h.publications b hb

theorem Sound.enqueuePublication (h : w.Sound) (hdue : w.due = none ∨ w.due = some 0) :
    w.enqueuePublication.Sound := by
  rw [Window.enqueuePublication]
  cases hb : w.binding with
  | none => exact h
  | some b =>
    refine h.of_pumped hb (b.pumped_enqueue _) ?_
    rw [SharedSessionBinding.filter_enqueue_publishState (h.publications b hb)]
    obtain hdue | hdue := hdue
    · rw [hdue]; rfl
    · rw [hdue]; rfl

theorem Sound.retryPublication (h : w.Sound) (hdue : w.due = none ∨ w.due = some 0)
    (attempts : ℕ) : (w.retryPublication attempts).Sound := by
  rw [Window.retryPublication, publicationRetry]
  cases hb : w.binding with
  | none => exact h
  | some b =>
    split_ifs
    · refine h.of_pumped hb (b.pumped_enqueue _) ?_
      rw [SharedSessionBinding.filter_enqueue_publishState (h.publications b hb)]
      obtain hdue | hdue := hdue
      · rw [hdue]; simp
      · rw [hdue]; simp
    · exact h

end Window

end Zetta.Collaboration
