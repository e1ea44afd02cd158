import Zetta.Collaboration.Queue

/-!
# Every run of the window is orderly

One lemma for each kind of event, together `step_spec`, and the run lemma `orderly`.
-/

namespace Zetta.Collaboration

open Zmux (SharedSessionState)
open SharedOperation

variable {V : Type} {w w' : Window V}

/-! ### What becomes of the focus that was chosen -/

/-- The snapshot that comes with an event, and what applying it comes to. -/
def Event.brought : Event V → Option (SharedSessionState V × TabView)
  | .paneRemoved state _ view | .snapshot state view => some (state, view)
  | .answer _ (.applied state) view _ | .answer _ (.conflict state) view _ => some (state, view)
  | _ => none

/-- Why the focus is given up that was chosen. -/
inductive Event.Ends (w : Window V) (event : Event V) (intent : PendingFocusIntent) : Prop
  /-- The last request for it was answered. -/
  | last {index attempts : ℕ} {answer : Answer V} {view : TabView} {plan : Plan}
      {request : Request} (hevent : event = .answer index answer view plan)
      (hrequest : w.requests[index]? = some request)
      (hoperation : request.operation = focusPane intent.muxPaneId intent.generation attempts)
      (hattempts : SHARED_FOCUS_ATTEMPTS ≤ attempts + 1)
  /-- The session has the pane active. -/
  | acknowledged {state : SharedSessionState V} {view : TabView}
      (hbrought : event.brought = some (state, view))
      (hactive : state.presentation.activePane = intent.muxPaneId)
  /-- The session has no such pane any more. -/
  | absent {state : SharedSessionState V} {view : TabView}
      (hbrought : event.brought = some (state, view))
      (habsent : state.containsPane intent.muxPaneId = false)
  /-- The tab does not show the pane any more. -/
  | hidden {state : SharedSessionState V} {view : TabView} {b : SharedSessionBinding V} {l : ℕ}
      (hbrought : event.brought = some (state, view)) (hbinding : w.binding = some b)
      (hlocal : b.panes.muxToLocal.get? intent.muxPaneId = some l)
      (hhidden : view.visible l = false)

/-- The focus that was chosen still is, or was given up for a cause or with its pane, or another
one was chosen since. -/
def SharedSessionBinding.Holds (cause : PendingFocusIntent → Prop)
    (b b' : SharedSessionBinding V) : Prop :=
  ∀ intent, b.pendingFocus = some intent → b'.pendingFocus = some intent ∨ cause intent ∨
    b'.panes.muxToLocal.get? intent.muxPaneId = none ∨
    b'.state.containsPane intent.muxPaneId = false ∨
    ∃ newer, b'.pendingFocus = some newer ∧ intent.generation < newer.generation

namespace SharedSessionBinding

variable {cause : PendingFocusIntent → Prop} {b b' b₁ : SharedSessionBinding V}

theorem Rests.holds (h : b.Rests cause b₁) (h' : b₁.Pumped b') : b.Holds cause b' := by
  intro intent hintent
  obtain hkept | hcause | hlost := h.focus intent hintent
  · obtain hkept | hlacks := h'.focus intent hkept
    · exact .inl hkept
    · exact .inr (.inr (.inr (.inl hlacks)))
  · exact .inr (.inl hcause)
  · exact .inr (.inr (.inl (h'.panes ▸ hlost)))

theorem Pumped.holds (h : b.Pumped b') : b.Holds cause b' := (Rests.refl b).holds h

theorem Holds.of_eq (h : b'.pendingFocus = b.pendingFocus) : b.Holds cause b' :=
  fun _ hintent => .inl (h.trans hintent)

end SharedSessionBinding

/-! ### What a step keeps -/

/-- There is nothing to send for a publication when the event lets it be started. -/
def Event.Idle (event : Event V) (attempts : ℕ) : Prop :=
  match event with
  | .publish _ plan | .focus _ _ plan | .focusAgain _ plan | .close _ _ _ plan |
    .answer _ _ _ plan => plan (publishState attempts) = none
  | _ => False

/-- A publication waits, or was started, or there was nothing to send for it. -/
def Window.Carried (w : Window V) (event : Event V) (attempts : ℕ) : Prop :=
  (∃ b, w.binding = some b ∧ publishState attempts ∈ b.queue) ∨
  (∃ request ∈ w.requests, request.operation = publishState attempts) ∨ event.Idle attempts

/-- What one step does within a binding. -/
structure Window.Kept (w : Window V) (event : Event V) (w' : Window V) : Prop where
  focus : ∀ b b', w.binding = some b → w'.binding = some b' → w'.epoch = w.epoch →
    b.Holds (event.Ends w) b'
  /-- A publication that waits is not lost. -/
  waiting : ∀ b attempts, w.binding = some b → w'.binding ≠ none → w'.epoch = w.epoch →
    publishState attempts ∈ b.queue → w'.Carried event attempts
  /-- One that is asked for has all its attempts. -/
  asked : ∀ index plan, event = .publish index plan → w'.binding ≠ none → w'.Carried event 0
  /-- One that has to be made again has the rest of them at least. -/
  again : ∀ index answer view plan request attempts, event = .answer index answer view plan →
    w.requests[index]? = some request → request.operation = publishState attempts →
    (request.durable = false ∧ ∃ state, answer = .applied state) ∨
      (∃ state, answer = .conflict state) →
    attempts + 1 < SHARED_PUBLISH_ATTEMPTS → w'.binding ≠ none →
    ∃ left ≤ attempts + 1, w'.Carried event left
  /-- What is left of an earlier binding changes nothing of this one. -/
  stale : ∀ index answer view plan request, event = .answer index answer view plan →
    w.requests[index]? = some request → request.epoch ≠ w.epoch →
    w.binding = none ∧ w'.binding = none
  staleFocus : ∀ index plan timer, event = .focusAgain index plan →
    w.focusTimers[index]? = some timer → timer.epoch ≠ w.epoch → w'.binding = w.binding

/-- A session is bound again only when nothing is out, a publication is asked for only when none
waits that has used some of its attempts, and a focus is asked for again only in its binding. -/
def Window.Meets (w : Window V) : Event V → Prop
  | .bind _ _ _ => w.requests = []
  | .publish _ _ => ∀ b, w.binding = some b → ∀ attempts, publishState attempts ∈ b.queue →
    attempts = 0
  | .focusAgain index _ => ∀ b timer, w.binding = some b → w.focusTimers[index]? = some timer →
    timer.epoch = w.epoch ∨ b.focusIntentIsCurrent timer.muxPaneId timer.generation = false
  | _ => True

namespace Window

variable {cause : PendingFocusIntent → Prop}

/-! ### An answer -/

variable {request : Request} {view : TabView} {answer : Answer V}

/-- An answer is applied, and its operation is queued again, if at all. -/
theorem answered_cases (hstate : ∀ state, answer = .applied state ∨ answer = .conflict state →
      w.Answers view state cause) (hlast : ∀ muxPaneId generation attempts,
      request.operation = focusPane muxPaneId generation attempts →
      SHARED_FOCUS_ATTEMPTS ≤ attempts + 1 → cause ⟨muxPaneId, generation⟩) :
    ∃ w₀, w.Calm cause w₀ ∧ (w.answered request view answer = w₀ ∨
      (∃ attempts, request.operation = publishState attempts ∧
        w.answered request view answer = w₀.retryPublication attempts) ∨
      ∃ operation, operation.isPublication = false ∧
        w.answered request view answer = w₀.modify (·.enqueue operation)) := by
  rw [answered]
  cases hoperation : request.operation with
  | publishState attempts =>
    cases answer with
    | applied state =>
      have hcalm := calm_installPublicationResponse (hstate state (.inl rfl))
      refine ⟨_, hcalm, ?_⟩
      cases hdurable : request.durable with
      | true => exact .inl rfl
      | false => exact .inr (.inl ⟨attempts, rfl, rfl⟩)
    | conflict state =>
      exact ⟨_, calm_installPublicationResponse (hstate state (.inr rfl)),
        .inr (.inl ⟨attempts, rfl, rfl⟩)⟩
    | failed => exact ⟨w, .refl w, .inl rfl⟩
  | focusPane muxPaneId generation attempts =>
    have hsettled {w₀ : Window V} :
        w₀.Calm cause (w₀.focusSettled request muxPaneId generation attempts) :=
      calm_focusSettled (hlast muxPaneId generation attempts hoperation)
    dsimp only
    cases answer with
    | applied state =>
      exact ⟨_, (calm_installSharedSnapshot (hstate state (.inl rfl))).trans hsettled, .inl rfl⟩
    | conflict state =>
      exact ⟨_, (calm_installSharedSnapshot (hstate state (.inr rfl))).trans hsettled, .inl rfl⟩
    | failed => exact ⟨_, hsettled, .inl rfl⟩
  | closePane localPaneId muxPaneId attempts =>
    -- A close that is given up leaves what there is.
    have hretry (w₀ : Window V) : w₀.retryClose localPaneId muxPaneId attempts = w₀ ∨
        ∃ operation, operation.isPublication = false ∧
          w₀.retryClose localPaneId muxPaneId attempts = w₀.modify (·.enqueue operation) := by
      rw [retryClose]
      split_ifs
      · exact .inl rfl
      · exact .inr ⟨_, rfl, rfl⟩
    dsimp only
    cases answer with
    | applied state =>
      exact ⟨_, calm_installSharedSnapshot (hstate state (.inl rfl)), .inl rfl⟩
    | conflict state =>
      refine ⟨_, calm_installSharedSnapshot (hstate state (.inr rfl)), ?_⟩
      rw [closeAnswered]
      split_ifs
      · exact (hretry _).imp_right .inr
      · exact .inl rfl
    | failed => exact ⟨w, .refl w, (hretry w).imp_right .inr⟩

variable (attempts : ℕ)

theorem requests_retryPublication : (w.retryPublication attempts).requests = w.requests := by
  rw [retryPublication]
  split <;> rfl

theorem epoch_retryPublication : (w.retryPublication attempts).epoch = w.epoch := by
  rw [retryPublication]
  split <;> rfl

variable {b' : SharedSessionBinding V}

theorem pumped_retryPublication {attempts : ℕ}
    (hb' : (w.retryPublication attempts).binding = some b') :
    ∃ b, w.binding = some b ∧ b.Pumped b' ∧ ∀ operation ∈ b.queue, operation ∈ b'.queue := by
  rw [retryPublication] at hb'
  split at hb'
  · next b operation hb _ =>
    cases hb'
    exact ⟨b, hb, b.pumped_enqueue operation,
      fun _ => SharedSessionBinding.mem_enqueue_of_mem⟩
  · exact ⟨b', hb', .refl b', fun _ => id⟩

theorem pumped_modify_enqueue {operation : SharedOperation}
    (hb' : (w.modify (·.enqueue operation)).binding = some b') :
    ∃ b, w.binding = some b ∧ b.Pumped b' ∧ ∀ operation ∈ b.queue, operation ∈ b'.queue := by
  cases hb : w.binding with
  | none =>
    rw [modify_of_none hb, hb] at hb'
    cases hb'
  | some b =>
    rw [modify_of_some hb] at hb'
    cases hb'
    exact ⟨b, rfl, b.pumped_enqueue operation, fun _ => SharedSessionBinding.mem_enqueue_of_mem⟩

/-- What was queued before an answer still is, and the focus was only given up for a cause. -/
theorem answered_spec (h : w.Sound)
    (hdue : request.operation.isPublication = true → w.due = none ∨ w.due = some 0)
    (hstate : ∀ state, answer = .applied state ∨ answer = .conflict state →
      w.Answers view state cause) (hlast : ∀ muxPaneId generation attempts,
      request.operation = focusPane muxPaneId generation attempts →
      SHARED_FOCUS_ATTEMPTS ≤ attempts + 1 → cause ⟨muxPaneId, generation⟩) :
    (w.answered request view answer).Sound ∧
    (w.answered request view answer).requests = w.requests ∧
    (w.answered request view answer).epoch = w.epoch ∧
    ∀ b', (w.answered request view answer).binding = some b' → ∃ b b₁, w.binding = some b ∧
      b.Rests cause b₁ ∧ b₁.Pumped b' ∧ ∀ operation ∈ b.queue, operation ∈ b'.queue := by
  obtain ⟨w₀, hcalm, hsettled | ⟨attempts, hoperation, hretried⟩ | ⟨operation, hother, hqueued⟩⟩ :=
    answered_cases hstate hlast
  · rw [hsettled]
    refine ⟨h.of_calm hcalm, hcalm.requests, hcalm.epoch, fun b' hb' => ?_⟩
    obtain ⟨b, hb, hrests⟩ := hcalm.of_bound hb'
    exact ⟨b, b', hb, hrests, .refl b', fun _ hmem => hrests.queue.symm ▸ hmem⟩
  · rw [hretried]
    have hsound := (h.of_calm hcalm).retryPublication
      (hcalm.due.symm ▸ hdue (by rw [hoperation]; rfl)) attempts
    refine ⟨hsound, (requests_retryPublication attempts).trans hcalm.requests,
      (epoch_retryPublication attempts).trans hcalm.epoch, fun b' hb' => ?_⟩
    obtain ⟨b₁, hb₁, hpumped, hqueue⟩ := pumped_retryPublication hb'
    obtain ⟨b, hb, hrests⟩ := hcalm.of_bound hb₁
    exact ⟨b, b₁, hb, hrests, hpumped, fun _ hmem => hqueue _ (hrests.queue.symm ▸ hmem)⟩
  · rw [hqueued]
    refine ⟨(h.of_calm hcalm).enqueue hother, hcalm.requests, hcalm.epoch, fun b' hb' => ?_⟩
    obtain ⟨b₁, hb₁, hpumped, hqueue⟩ := pumped_modify_enqueue hb'
    obtain ⟨b, hb, hrests⟩ := hcalm.of_bound hb₁
    exact ⟨b, b₁, hb, hrests, hpumped, fun _ hmem => hqueue _ (hrests.queue.symm ▸ hmem)⟩

theorem ready_finishOperation (h : w.Sound) (hrequests : w.requests = []) :
    (w.modify (·.finishOperation)).Ready := by
  cases hb : w.binding with
  | none =>
    rw [modify_of_none hb]
    exact ready_of_requests h hrequests fun b hsome => nomatch hb.symm.trans hsome
  | some b =>
    rw [modify_of_some hb]
    have hsound := h.of_pumped hb (b.pumped_take b.queue false) (h.publications b hb)
    exact ready_of_requests hsound hrequests fun other hother => Option.some.inj hother ▸ rfl

/-- The answer that is awaited. -/
structure Awaited (w : Window V) (index : ℕ) (request : Request) : Prop where
  erased : w.requests.eraseIdx index = []
  sound : Sound { w with requests := w.requests.eraseIdx index }
  due : request.operation.isPublication = true → w.due = none ∨ w.due = some 0
  own : ∀ b, w.binding = some b → request.epoch = w.epoch

theorem Ordered.awaited (h : w.Ordered) {index : ℕ} (hrequest : w.requests[index]? = some request) :
    w.Awaited index request where
  erased := by
    have hlength := h.single
    have hindex := (List.getElem?_eq_some_iff.mp hrequest).1
    refine List.eq_nil_of_length_eq_zero ?_
    rw [List.length_eraseIdx, if_pos hindex]
    omega
  sound := ⟨h.inverse, h.generation, h.publications, h.unbound, h.scheduled⟩
  due := h.fresh request (List.mem_of_getElem? hrequest)
  own b hb := h.own b hb request (List.mem_of_getElem? hrequest)

/-- What an answer says about the focus that was chosen. -/
theorem answers_brought {event : Event V} {state : SharedSessionState V}
    (h : event.brought = some (state, view)) : w.Answers view state (event.Ends w) :=
  fun _ hb => ⟨fun _ hactive => .acknowledged h hactive, fun _ habsent => .absent h habsent,
    fun _ _ hlocal hhidden => .hidden h hb hlocal hhidden⟩

theorem step_answer (h : w.Ordered) {index : ℕ} (answer : Answer V) (view : TabView) (plan : Plan)
    (hrequest : w.requests[index]? = some request) :
    let r := { w with requests := w.requests.eraseIdx index }.answered request view answer
    r.Sound ∧ r.requests = [] ∧ r.epoch = w.epoch ∧ ∀ b', r.binding = some b' →
      ∃ b b₁, w.binding = some b ∧ b.Rests ((Event.answer index answer view plan).Ends w) b₁ ∧
        b₁.Pumped b' ∧ ∀ operation ∈ b.queue, operation ∈ b'.queue := by
  have hawaited := h.awaited hrequest
  have hstate : ∀ state, answer = .applied state ∨ answer = .conflict state →
      w.Answers view state ((Event.answer index answer view plan).Ends w) := by
    rintro state (rfl | rfl)
    · have hbrought : (Event.answer index (.applied state) view plan).brought =
        some (state, view) := rfl
      exact answers_brought hbrought
    · have hbrought : (Event.answer index (.conflict state) view plan).brought =
        some (state, view) := rfl
      exact answers_brought hbrought
  obtain ⟨hsound, hrequests, hepoch, hbound⟩ := answered_spec hawaited.sound hawaited.due hstate
    fun _ _ attempts hoperation hattempts => .last rfl hrequest hoperation hattempts
  exact ⟨hsound, hrequests.trans hawaited.erased, hepoch, hbound⟩

end Window

/-! ### One step -/

/-- An event after which nothing is asked for again. -/
def Event.Plain : Event V → Prop
  | .publish _ _ | .focusAgain _ _ | .answer _ _ _ _ => False
  | _ => True

namespace Window

variable {event : Event V}

theorem kept_of_plain (hplain : event.Plain)
    (h : ∀ b b', w.binding = some b → w'.binding = some b' → w'.epoch = w.epoch →
      b.Holds (event.Ends w) b' ∧
      ∀ attempts, publishState attempts ∈ b.queue → w'.Carried event attempts) :
    w.Kept event w' where
  focus b b' hb hb' hepoch := (h b b' hb hb' hepoch).1
  waiting b attempts hb hb' hepoch := by
    obtain ⟨b', hb'⟩ := Option.ne_none_iff_exists'.mp hb'
    exact (h b b' hb hb' hepoch).2 attempts
  asked _ _ hevent := by
    rw [hevent] at hplain
    exact hplain.elim
  again _ _ _ _ _ _ hevent := by
    rw [hevent] at hplain
    exact hplain.elim
  stale _ _ _ _ _ hevent := by
    rw [hevent] at hplain
    exact hplain.elim
  staleFocus _ _ _ hevent := by
    rw [hevent] at hplain
    exact hplain.elim

theorem kept_of_calm (hplain : event.Plain) (h : w.Calm (event.Ends w) w') : w.Kept event w' := by
  refine kept_of_plain hplain fun b b' hb hb' _ => ?_
  obtain ⟨other, hother, hrests⟩ := h.of_bound hb'
  cases hb.symm.trans hother
  exact ⟨hrests.holds (.refl b'), fun attempts hmem => .inl ⟨b', hb', hrests.queue.symm ▸ hmem⟩⟩

theorem step_calm (hplain : event.Plain) (h : w.Ordered) (hcalm : w.Calm (event.Ends w) w') :
    w'.Ordered ∧ w.Kept event w' :=
  ⟨h.of_calm hcalm, kept_of_calm hplain hcalm⟩

/-- What changes the panes alone, and keeps them inverse to each other. -/
theorem step_panes (event : Event V) (hplain : event.Plain) (h : w.Ordered)
    {f : SharedSessionBinding V → SharedSessionBinding V}
    (hinverse : ∀ b, b.panes.Inverse → (f b).panes.Inverse)
    (hf : ∀ b, (f b).queue = b.queue ∧ (f b).inFlight = b.inFlight ∧
      (f b).pendingFocus = b.pendingFocus ∧ (f b).nextFocusGeneration = b.nextFocusGeneration ∧
      (f b).publicationScheduled = b.publicationScheduled) :
    (w.modify f).Ordered ∧ w.Kept event (w.modify f) := by
  cases hb : w.binding with
  | none =>
    rw [modify_of_none hb]
    exact ⟨h, kept_of_calm hplain (.refl w)⟩
  | some b =>
    rw [modify_of_some hb]
    obtain ⟨hqueue, hflight, hfocus, hgeneration, hscheduled⟩ := hf b
    refine ⟨⟨⟨⟨fun other hother => ?_, fun other hother intent hintent => ?_,
      fun other hother => ?_, fun hnone => (by cases hnone), fun other hother => ?_⟩, h.single,
      fun other hother => ?_, fun _ _ => h.own b hb, h.fresh⟩, fun other hother => ?_⟩, ?_⟩
    · exact Option.some.inj hother ▸ hinverse b (h.inverse b hb)
    · rw [← Option.some.inj hother] at hintent ⊢
      rw [hgeneration]
      exact h.generation b hb intent (hfocus ▸ hintent)
    · rw [← Option.some.inj hother, hqueue]
      exact h.publications b hb
    · rw [← Option.some.inj hother, hscheduled]
      exact h.scheduled b hb
    · rw [← Option.some.inj hother, hflight]
      exact h.sent b hb
    · rw [← Option.some.inj hother, hflight, hqueue]
      exact h.started b hb
    · refine kept_of_plain hplain fun other b' hother hb' _ => ?_
      cases hb.symm.trans hother
      cases hb'
      exact ⟨.of_eq hfocus, fun attempts hmem => .inl ⟨f b, rfl, hqueue.symm ▸ hmem⟩⟩

variable {tabId : ℕ}

theorem step_bind (h : w.Ordered) {state : SharedSessionState V} {mappings : List (ℕ × ℕ)}
    (hrequests : w.requests = []) :
    (w.bind tabId state mappings).Ordered ∧
      w.Kept (.bind tabId state mappings) (w.bind tabId state mappings) := by
  rw [Window.bind]
  cases hbind : SharedSessionBinding.bind w.sessionId tabId state mappings with
  | none => exact ⟨h, kept_of_calm trivial (.refl w)⟩
  | some b =>
    dsimp only
    rw [SharedSessionBinding.bind] at hbind
    split_ifs at hbind
    obtain ⟨panes, hpanes, rfl⟩ := Option.map_eq_some_iff.mp hbind
    have hsound : Sound { w with
        binding := some ⟨tabId, state, panes, [], false, none, 0, false⟩
        epoch := w.epoch + 1
        due := none } := by
      refine ⟨fun other hother => ?_, fun other hother _ hintent => ?_, fun other hother => ?_,
        fun _ => rfl, fun other hother hscheduled => ?_⟩
      · exact Option.some.inj hother ▸ PaneMapping.inverse_empty.bindPairs hpanes
      · rw [← Option.some.inj hother] at hintent
        cases hintent
      · exact Option.some.inj hother ▸ rfl
      · rw [← Option.some.inj hother] at hscheduled
        cases hscheduled
    refine ⟨⟨ready_of_requests hsound hrequests fun other hother => ?_, fun other hother _ => ?_⟩,
      kept_of_plain trivial fun _ _ _ _ hepoch => absurd hepoch (Nat.succ_ne_self _)⟩
    · exact Option.some.inj hother ▸ rfl
    · exact Option.some.inj hother ▸ rfl

theorem step_forget (h : w.Ordered) :
    ({ w with binding := none, due := none } : Window V).Ordered ∧
      w.Kept .forget { w with binding := none, due := none } := by
  refine ⟨⟨⟨⟨fun _ hb => (by cases hb), fun _ hb => (by cases hb), fun _ hb => (by cases hb),
    fun _ => rfl, fun _ hb => (by cases hb)⟩, h.single, fun _ hb => (by cases hb),
    fun _ hb => (by cases hb), fun _ _ _ => .inl rfl⟩, fun _ hb => (by cases hb)⟩, ?_⟩
  exact kept_of_plain trivial fun _ _ _ hb' => by cases hb'

/-- What queues an operation, before the next is started. -/
structure Queued (w w' : Window V) : Prop where
  sound : w'.Sound
  requests : w'.requests = w.requests
  epoch : w'.epoch = w.epoch
  due : w'.due = w.due ∨ w'.due = some 0
  bound : ∀ b', w'.binding = some b' → ∃ b, w.binding = some b ∧ b'.inFlight = b.inFlight ∧
    ∀ attempts, publishState attempts ∈ b.queue → publishState attempts ∈ b'.queue

theorem Queued.ready (h : w.Ordered) (hqueued : w.Queued w') : w'.Ready where
  toSound := hqueued.sound
  single := hqueued.requests ▸ h.single
  sent b' hb' := by
    obtain ⟨b, hb, hflight, -⟩ := hqueued.bound b' hb'
    rw [hflight, hqueued.requests]
    exact h.sent b hb
  own b' hb' := by
    obtain ⟨b, hb, -⟩ := hqueued.bound b' hb'
    rw [hqueued.requests, hqueued.epoch]
    exact h.own b hb
  fresh request hmem hpublication := by
    obtain hdue | hdue := hqueued.due
    · rw [hdue]
      exact h.fresh request (hqueued.requests ▸ hmem) hpublication
    · exact .inr hdue

variable {plan : Plan}

theorem Queued.carried (h : w.Ordered) (hqueued : w.Queued w') {attempts : ℕ}
    {b b' : SharedSessionBinding V} (hb : w.binding = some b)
    (hb' : (w'.pump plan tabId).binding = some b') (hmem : publishState attempts ∈ b.queue)
    (hidle : plan (publishState attempts) = none → event.Idle attempts) :
    (w'.pump plan tabId).Carried event attempts := by
  have hready := hqueued.ready h
  obtain ⟨b₁, hb₁, -⟩ := hready.pumped hb'
  obtain ⟨other, hother, -, hqueue⟩ := hqueued.bound b₁ hb₁
  cases hb.symm.trans hother
  obtain hkept | hstarted | hnone :=
    hready.carries plan tabId b₁ b' attempts hb₁ hb' (hqueue attempts hmem)
  · exact .inl ⟨b', hb', hkept⟩
  · exact .inr (.inl hstarted)
  · exact .inr (.inr (hidle hnone))

theorem queued_enqueue (h : w.Ordered) {operation : SharedOperation}
    (hoperation : operation.isPublication = false) :
    w.Queued (w.modify (·.enqueue operation)) where
  sound := h.enqueue hoperation
  requests := rfl
  epoch := rfl
  due := .inl rfl
  bound b' hb' := by
    cases hb : w.binding with
    | none =>
      rw [modify_of_none hb, hb] at hb'
      cases hb'
    | some b =>
      rw [modify_of_some hb] at hb'
      cases hb'
      exact ⟨b, rfl, b.inFlight_enqueue operation,
        fun _ => SharedSessionBinding.mem_enqueue_of_mem⟩

/-- An operation that is no publication is queued, and the next is started. -/
theorem step_enqueue (h : w.Ordered) (event : Event V) (cause : PendingFocusIntent → Prop)
    (operation : SharedOperation) (tabId : ℕ) (hoperation : operation.isPublication = false)
    (hidle : ∀ attempts, plan (publishState attempts) = none → event.Idle attempts) :
    ((w.modify (·.enqueue operation)).pump plan tabId).Ordered ∧
    ∀ b b', w.binding = some b →
      ((w.modify (·.enqueue operation)).pump plan tabId).binding = some b' →
      b.Holds cause b' ∧ ∀ attempts, publishState attempts ∈ b.queue →
        ((w.modify (·.enqueue operation)).pump plan tabId).Carried event attempts := by
  have hqueued := queued_enqueue h hoperation
  have hready := hqueued.ready h
  refine ⟨hready.pump plan tabId, fun b b' hb hb' => ⟨?_, fun attempts hmem =>
    hqueued.carried h hb hb' hmem (hidle attempts)⟩⟩
  obtain ⟨b₁, hb₁, hpumped⟩ := hready.pumped hb'
  obtain ⟨other, hother, henqueued, -⟩ := pumped_modify_enqueue hb₁
  cases hb.symm.trans hother
  exact (henqueued.trans hpumped).holds

theorem step_close (h : w.Ordered) (tabId localPaneId : ℕ) (known : Option ℕ) (plan : Plan) :
    (w.close tabId localPaneId known plan).Ordered ∧
      w.Kept (.close tabId localPaneId known plan) (w.close tabId localPaneId known plan) := by
  rw [close]
  cases hb : w.binding with
  | none => exact ⟨h, kept_of_calm trivial (.refl w)⟩
  | some b =>
    dsimp only
    cases b.panes.localToMux.get? localPaneId <|> known with
    | none => exact ⟨h, kept_of_calm trivial (.refl w)⟩
    | some muxPaneId =>
      obtain ⟨hordered, hkept⟩ := step_enqueue h (.close tabId localPaneId known plan)
        ((Event.close tabId localPaneId known plan).Ends w) (closePane localPaneId muxPaneId 0)
        tabId rfl fun _ => id
      exact ⟨hordered, kept_of_plain trivial fun b b' hb hb' _ => hkept b b' hb hb'⟩

theorem step_focus (h : w.Ordered) (tabId localPaneId : ℕ) (plan : Plan) :
    (w.focus tabId localPaneId plan).Ordered ∧
      w.Kept (.focus tabId localPaneId plan) (w.focus tabId localPaneId plan) := by
  rw [focus]
  split
  · exact ⟨h, kept_of_calm trivial (.refl w)⟩
  · next b₁ hfocus =>
    obtain ⟨b, hb, hfocus⟩ := Option.bind_eq_some_iff.mp hfocus
    obtain ⟨muxPaneId, -, hfocus⟩ := Option.bind_eq_some_iff.mp hfocus
    rw [SharedSessionBinding.requestFocus] at hfocus
    split_ifs at hfocus with hpresent
    cases hfocus
    have hpublications : ((b.queue.filter fun operation => !operation.isFocus) ++
        [focusPane muxPaneId (b.nextFocusGeneration + 1) 0]).filter isPublication =
        b.queue.filter isPublication := by
      rw [List.filter_append, List.filter_filter]
      refine (List.append_nil _).trans (List.filter_congr fun operation _ => ?_)
      cases operation <;> rfl
    have hqueued : w.Queued { w with binding := some { b with
        nextFocusGeneration := b.nextFocusGeneration + 1
        pendingFocus := some ⟨muxPaneId, b.nextFocusGeneration + 1⟩
        queue := (b.queue.filter fun operation => !operation.isFocus) ++
          [focusPane muxPaneId (b.nextFocusGeneration + 1) 0] } } := by
      refine ⟨⟨fun other hother => ?_, fun other hother intent hintent => ?_,
        fun other hother => ?_, fun hnone => (by cases hnone), fun other hother => ?_⟩,
        rfl, rfl, .inl rfl, fun other hother => ⟨b, hb, ?_, fun attempts hmem => ?_⟩⟩
      · exact Option.some.inj hother ▸ h.inverse b hb
      · rw [← Option.some.inj hother] at hintent ⊢
        rw [← Option.some.inj hintent]
      · exact Option.some.inj hother ▸ hpublications.trans (h.publications b hb)
      · exact Option.some.inj hother ▸ h.scheduled b hb
      · exact Option.some.inj hother ▸ rfl
      · have hfilter : publishState attempts ∈ b.queue.filter isPublication :=
          List.mem_filter.mpr ⟨hmem, rfl⟩
        rw [← hpublications] at hfilter
        exact Option.some.inj hother ▸ List.mem_of_mem_filter hfilter
    have hready := hqueued.ready h
    refine ⟨hready.pump plan tabId, kept_of_plain trivial fun other b' hother hb' _ =>
      ⟨fun intent hintent => ?_, fun attempts hmem =>
        hqueued.carried h hother hb' hmem fun hnone => hnone⟩⟩
    cases hb.symm.trans hother
    obtain ⟨b₁, hb₁, hpumped⟩ := hready.pumped hb'
    cases hb₁
    -- The pane that was chosen last is there, so that the choice stands.
    obtain hkept | hlacks := hpumped.focus _ rfl
    · exact .inr (.inr (.inr (.inr
        ⟨_, hkept, Nat.lt_succ_of_le (h.generation b hb intent hintent)⟩)))
    · rw [hpumped.state] at hlacks
      exact nomatch hpresent.1.symm.trans hlacks

theorem Ordered.of_focusTimers (h : w.Ordered) (focusTimers : List FocusTimer) :
    ({ w with focusTimers := focusTimers } : Window V).Ordered :=
  ⟨⟨⟨h.inverse, h.generation, h.publications, h.unbound, h.scheduled⟩, h.single, h.sent, h.own,
    h.fresh⟩, h.started⟩

variable {index : ℕ}

theorem step_focusAgain (h : w.Ordered) {timer : FocusTimer}
    (htimer : w.focusTimers[index]? = some timer) (hmeets : w.Meets (.focusAgain index plan)) :
    let w' := { w with focusTimers := w.focusTimers.eraseIdx index }.focusAgain timer plan
    w'.Ordered ∧ w.Kept (.focusAgain index plan) w' := by
  have herased := h.of_focusTimers (w.focusTimers.eraseIdx index)
  have hkept : ∀ w', (∀ b b', w.binding = some b → w'.binding = some b' →
        b.Holds ((Event.focusAgain index plan).Ends w) b' ∧ ∀ attempts,
          publishState attempts ∈ b.queue → w'.Carried (.focusAgain index plan) attempts) →
      (timer.epoch ≠ w.epoch → w'.binding = w.binding) → w.Kept (.focusAgain index plan) w' := by
    intro w' hbound hstale
    refine ⟨fun b b' hb hb' _ => (hbound b b' hb hb').1, fun b attempts hb hb' _ => ?_,
      fun _ _ hevent => (by cases hevent), fun _ _ _ _ _ _ hevent => (by cases hevent),
      fun _ _ _ _ _ hevent => (by cases hevent), fun _ _ other hevent hother => ?_⟩
    · obtain ⟨b', hb'⟩ := Option.ne_none_iff_exists'.mp hb'
      exact (hbound b b' hb hb').2 attempts
    · cases hevent
      cases htimer.symm.trans hother
      exact hstale
  have hrefl : w.Kept (.focusAgain index plan)
      { w with focusTimers := w.focusTimers.eraseIdx index } := by
    refine hkept _ (fun b b' hb hb' => ?_) fun _ => rfl
    cases hb.symm.trans hb'
    exact ⟨.of_eq rfl, fun attempts hmem => .inl ⟨b, hb, hmem⟩⟩
  dsimp only
  rw [focusAgain]
  cases hb : w.binding with
  | none =>
    rw [hb] at herased hrefl
    exact ⟨herased, hrefl⟩
  | some b =>
    dsimp only
    split_ifs with hcurrent
    · obtain ⟨hordered, hbound⟩ := step_enqueue herased (.focusAgain index plan)
        ((Event.focusAgain index plan).Ends w)
        (focusPane timer.muxPaneId timer.generation timer.attempts) timer.tabId rfl
        fun _ => id
      dsimp only at hbound
      rw [hb] at hordered hbound
      refine ⟨hordered, hkept _ (fun other b' hother hb' => ?_) fun hstale => ?_⟩
      · exact hbound other b' (hb.symm.trans hother) hb'
      · obtain howned | hother := hmeets b timer hb htimer
        · exact absurd howned hstale
        · exact nomatch hcurrent.symm.trans hother
    · rw [hb] at herased hrefl
      exact ⟨herased, hrefl⟩

theorem Sound.expire (h : w.Sound) (index : ℕ) : (w.expire index).Sound := by
  have hbound : ∀ {b'}, w.binding.map (fun b : SharedSessionBinding V =>
      { b with publicationScheduled := false }) = some b' →
      ∃ b, w.binding = some b ∧ { b with publicationScheduled := false } = b' :=
    Option.map_eq_some_iff.mp
  refine ⟨fun b' hb' => ?_, fun b' hb' => ?_, fun b' hb' => ?_, fun hnone => ?_,
    fun b' hb' hscheduled => ?_⟩
  · obtain ⟨b, hb, rfl⟩ := hbound hb'
    exact h.inverse b hb
  · obtain ⟨b, hb, rfl⟩ := hbound hb'
    exact h.generation b hb
  · obtain ⟨b, hb, rfl⟩ := hbound hb'
    exact h.publications b hb
  · exact h.unbound (Option.map_eq_none_iff.mp hnone)
  · obtain ⟨b, hb, rfl⟩ := hbound hb'
    cases hscheduled

theorem enqueuePublication_spec (w : Window V) :
    w.enqueuePublication.requests = w.requests ∧ w.enqueuePublication.epoch = w.epoch ∧
    (w.enqueuePublication.due = w.due ∨ w.enqueuePublication.due = some 0) ∧
    ∀ b', w.enqueuePublication.binding = some b' → w.enqueuePublication.due = some 0 ∧
      ∃ b, w.binding = some b ∧ b.enqueue (publishState 0) = b' := by
  rw [enqueuePublication]
  cases hb : w.binding with
  | none => exact ⟨rfl, rfl, .inl rfl, fun b' hb' => absurd (hb.symm.trans hb') (by simp)⟩
  | some b => exact ⟨rfl, rfl, .inr rfl, fun b' hb' => ⟨rfl, b, rfl, Option.some.inj hb'⟩⟩

/-- The publication that is asked for waits with all its attempts. -/
theorem queued_publish (h : w.Ordered) (hdue : w.due = none ∨ w.due = some 0) (index : ℕ) :
    w.Queued (w.expire index).enqueuePublication ∧
    ∀ b₁, (w.expire index).enqueuePublication.binding = some b₁ → publishState 0 ∈ b₁.queue ∧
      ∃ b, w.binding = some b ∧ b.Rests (fun _ => False) { b with publicationScheduled := false } ∧
        ({ b with publicationScheduled := false } : SharedSessionBinding V).Pumped b₁ := by
  have hsound := (h.toSound.expire index).enqueuePublication hdue
  obtain ⟨hrequests, hepoch, hdue', hbound⟩ := (w.expire index).enqueuePublication_spec
  have hbinding : ∀ b₁, (w.expire index).enqueuePublication.binding = some b₁ → ∃ b, w.binding = some b ∧
      ({ b with publicationScheduled := false } : SharedSessionBinding V).enqueue
        (publishState 0) = b₁ := by
    intro b₁ hb₁
    obtain ⟨-, b₀, hb₀, rfl⟩ := hbound b₁ hb₁
    obtain ⟨b, hb, rfl⟩ := Option.map_eq_some_iff.mp hb₀
    exact ⟨b, hb, rfl⟩
  refine ⟨⟨hsound, hrequests, hepoch, hdue', fun b₁ hb₁ => ?_⟩,
    fun b₁ hb₁ => ⟨(hsound.mem_queue_iff hb₁).mpr (hbound b₁ hb₁).1, ?_⟩⟩
  · obtain ⟨b, hb, rfl⟩ := hbinding b₁ hb₁
    exact ⟨b, hb, SharedSessionBinding.inFlight_enqueue _ _,
      fun _ hmem => SharedSessionBinding.mem_enqueue_of_mem hmem⟩
  · obtain ⟨b, hb, rfl⟩ := hbinding b₁ hb₁
    exact ⟨b, hb, .of_panes (fun h => h) fun _ _ => id, SharedSessionBinding.pumped_enqueue _ _⟩

theorem step_publish (h : w.Ordered) (hmeets : w.Meets (.publish index plan)) :
    let w' := (w.expire index).enqueuePublication.pump plan tabId
    w'.Ordered ∧ w.Kept (.publish index plan) w' := by
  -- What waits has all its attempts already.
  have hdue : w.due = none ∨ w.due = some 0 := by
    cases hb : w.binding with
    | none => exact .inl (h.unbound hb)
    | some b =>
      cases hdue : w.due with
      | none => exact .inl rfl
      | some attempts => exact .inr (congrArg some (hmeets b hb _ ((h.mem_queue_iff hb).mpr hdue)))
  obtain ⟨hqueued, hpublish⟩ := queued_publish h hdue index
  have hready := hqueued.ready h
  refine ⟨hready.pump plan tabId, ⟨fun b b' hb hb' _ => ?_, fun b attempts hb hb' _ hmem => ?_,
    fun _ other hevent hb' => ?_, fun _ _ _ _ _ _ hevent => (by cases hevent),
    fun _ _ _ _ _ hevent => (by cases hevent), fun _ _ _ hevent => (by cases hevent)⟩⟩
  · obtain ⟨b₁, hb₁, hpumped⟩ := hready.pumped hb'
    obtain ⟨-, other, hother, hrests, henqueued⟩ := hpublish b₁ hb₁
    cases hb.symm.trans hother
    have hholds : b.Holds (fun _ => False) b' := hrests.holds (henqueued.trans hpumped)
    exact fun intent hintent => (hholds intent hintent).imp_right (.imp_left False.elim)
  · obtain ⟨b', hb'⟩ := Option.ne_none_iff_exists'.mp hb'
    exact hqueued.carried h hb hb' hmem fun hnone => hnone
  · obtain ⟨b', hb'⟩ := Option.ne_none_iff_exists'.mp hb'
    obtain ⟨b₁, hb₁, -⟩ := hready.pumped hb'
    cases hevent
    obtain hkept | hstarted | hnone :=
      hready.carries plan tabId b₁ b' 0 hb₁ hb' (hpublish b₁ hb₁).1
    · exact .inl ⟨b', hb', hkept⟩
    · exact .inr (.inl hstarted)
    · exact .inr (.inr hnone)

/-- A publication that was not made whole waits again. -/
theorem due_answered (w : Window V) (request : Request) (view : TabView) (answer : Answer V)
    (attempts : ℕ) (hoperation : request.operation = publishState attempts)
    (hagain : (request.durable = false ∧ ∃ state, answer = .applied state) ∨
      (∃ state, answer = .conflict state))
    (hattempts : attempts + 1 < SHARED_PUBLISH_ATTEMPTS)
    (hbound : (w.answered request view answer).binding ≠ none) :
    ∃ left ≤ attempts + 1, (w.answered request view answer).due = some left := by
  have hretried : ∃ w₀ : Window V, w₀.due = w.due ∧
      w.answered request view answer = w₀.retryPublication attempts := by
    rw [answered, hoperation]
    obtain ⟨hdurable, state, rfl⟩ | ⟨state, rfl⟩ := hagain
    · rw [hdurable]
      exact ⟨w.installPublicationResponse view state, rfl, rfl⟩
    · exact ⟨w.installPublicationResponse view state, rfl, rfl⟩
  obtain ⟨w₀, hw₀, hretried⟩ := hretried
  rw [hretried] at hbound ⊢
  rw [retryPublication, publicationRetry, if_pos hattempts] at hbound ⊢
  cases hb : w₀.binding with
  | none =>
    simp only [hb] at hbound
    exact absurd rfl hbound
  | some b => exact ⟨_, Nat.min_le_left .., rfl⟩

theorem step_answered (h : w.Ordered) (answer : Answer V) (view : TabView) (plan : Plan)
    {request : Request} (hrequest : w.requests[index]? = some request) :
    let w' := ({ w with requests := w.requests.eraseIdx index }.answered request view
      answer).finish plan request.tabId
    w'.Ordered ∧ w.Kept (.answer index answer view plan) w' := by
  have hawaited := h.awaited hrequest
  obtain ⟨hsound, hrequests, hepoch, hbound⟩ := step_answer h answer view plan hrequest
  have hagain :=
    due_answered { w with requests := w.requests.eraseIdx index } request view answer
  generalize ({ w with requests := w.requests.eraseIdx index } : Window V).answered request view
    answer = w₁ at *
  have hready := ready_finishOperation hsound hrequests
  dsimp only
  rw [finish]
  -- What is bound after the answer is what was before it, less what was out.
  have hfinished : ∀ b', ((w₁.modify (·.finishOperation)).pump plan request.tabId).binding =
      some b' → ∃ b₁, w₁.binding = some b₁ ∧ b₁.finishOperation.Pumped b' ∧ ∀ attempts,
        publishState attempts ∈ b₁.queue →
        ((w₁.modify (·.finishOperation)).pump plan request.tabId).Carried
          (.answer index answer view plan) attempts := by
    intro b' hb'
    obtain ⟨b₀, hb₀, hpumped⟩ := hready.pumped hb'
    obtain ⟨b₁, hb₁, rfl⟩ := Option.map_eq_some_iff.mp hb₀
    refine ⟨b₁, hb₁, hpumped, fun attempts hmem => ?_⟩
    obtain hkept | hstarted | hnone :=
      hready.carries plan request.tabId b₁.finishOperation b' attempts hb₀ hb' hmem
    · exact .inl ⟨b', hb', hkept⟩
    · exact .inr (.inl hstarted)
    · exact .inr (.inr hnone)
  refine ⟨hready.pump plan request.tabId, ⟨fun b b' hb hb' _ => ?_,
    fun b attempts hb hb' _ hmem => ?_, fun _ _ hevent => (by cases hevent),
    fun _ _ _ _ _ attempts hevent hother hoperation hretry hattempts hb' => ?_,
    fun _ _ _ _ other hevent hother hstale => ?_, fun _ _ _ hevent => (by cases hevent)⟩⟩
  · obtain ⟨b₁, hb₁, hpumped, -⟩ := hfinished b' hb'
    obtain ⟨other, b₀, hother, hrests, hqueued, -⟩ := hbound b₁ hb₁
    cases hb.symm.trans hother
    exact hrests.holds ((hqueued.trans (b₁.pumped_take b₁.queue false)).trans hpumped)
  · obtain ⟨b', hb'⟩ := Option.ne_none_iff_exists'.mp hb'
    obtain ⟨b₁, hb₁, -, hcarried⟩ := hfinished b' hb'
    obtain ⟨other, b₀, hother, -, -, hqueue⟩ := hbound b₁ hb₁
    cases hb.symm.trans hother
    exact hcarried attempts (hqueue _ hmem)
  · cases hevent
    cases hrequest.symm.trans hother
    obtain ⟨b', hb'⟩ := Option.ne_none_iff_exists'.mp hb'
    obtain ⟨b₁, hb₁, -, hcarried⟩ := hfinished b' hb'
    obtain ⟨left, hleft, hdue⟩ := hagain attempts hoperation hretry hattempts (by rw [hb₁]; simp)
    exact ⟨left, hleft, hcarried left ((hsound.mem_queue_iff hb₁).mpr hdue)⟩
  · cases hevent
    cases hrequest.symm.trans hother
    cases hb : w.binding with
    | none =>
      refine ⟨rfl, Option.eq_none_iff_forall_ne_some.mpr fun b' hb' => ?_⟩
      obtain ⟨b₁, hb₁, -⟩ := hfinished b' hb'
      obtain ⟨other, -, hother, -⟩ := hbound b₁ hb₁
      exact nomatch hb.symm.trans hother
    | some b => exact absurd (hawaited.own b hb) hstale

theorem step_spec {event : Event V} (h : w.Ordered) (hmeets : w.Meets event)
    (hstep : w.step event = some w') : w'.Ordered ∧ w.Kept event w' := by
  cases event with
  | bind tabId state mappings =>
    cases hstep
    exact step_bind h hmeets
  | forget =>
    cases hstep
    exact step_forget h
  | schedule tabId =>
    cases hstep
    exact step_calm trivial h (calm_schedule tabId)
  | publish index plan =>
    obtain ⟨tabId, -, rfl⟩ := Option.map_eq_some_iff.mp hstep
    exact step_publish h hmeets
  | focus tabId localPaneId plan =>
    cases hstep
    exact step_focus h tabId localPaneId plan
  | focusAgain index plan =>
    obtain ⟨timer, htimer, rfl⟩ := Option.map_eq_some_iff.mp hstep
    exact step_focusAgain h htimer hmeets
  | close tabId localPaneId known plan =>
    cases hstep
    exact step_close h tabId localPaneId known plan
  | recordPane muxPaneId localPaneId =>
    cases hstep
    exact step_panes (.recordPane muxPaneId localPaneId) trivial h
      (fun b hinverse => hinverse.recordPane muxPaneId localPaneId)
      fun b => ⟨rfl, rfl, rfl, rfl, rfl⟩
  | removeLocalPane localPaneId =>
    cases hstep
    exact step_calm trivial h (calm_modify fun b _ =>
      ⟨SharedSessionBinding.rests_removeLocalPane localPaneId,
        scheduled_removeLocalPane b localPaneId⟩)
  | paneAdded state muxPaneId localPaneId =>
    cases hstep
    refine step_panes (.paneAdded state muxPaneId localPaneId) trivial h (fun b hinverse => ?_) fun b => ?_
    · rw [SharedSessionBinding.acceptPaneAdded]
      split_ifs
      · exact hinverse
      · exact hinverse.recordPane muxPaneId localPaneId
    · rw [SharedSessionBinding.acceptPaneAdded]
      split_ifs
      · exact ⟨rfl, rfl, rfl, rfl, rfl⟩
      · exact ⟨rfl, rfl, rfl, rfl, rfl⟩
  | paneRemoved state muxPaneId view =>
    cases hstep
    have hbrought : (Event.paneRemoved state muxPaneId view).brought = some (state, view) := rfl
    exact step_calm trivial h (calm_paneRemoved (answers_brought hbrought))
  | snapshot state view =>
    cases hstep
    have hbrought : (Event.snapshot state view).brought = some (state, view) := rfl
    exact step_calm trivial h (calm_installSharedSnapshot (answers_brought hbrought))
  | answer index answer view plan =>
    obtain ⟨request, hrequest, rfl⟩ := Option.map_eq_some_iff.mp hstep
    exact step_answered h answer view plan hrequest

/-! ### Runs -/

def Next (w : Window V) (event : Event V) (w' : Window V) : Prop := w.step event = some w'

/-- A window in which nothing is shared. -/
theorem ordered_initial (sessionId : ℕ) : (initial sessionId : Window V).Ordered where
  inverse _ hb := by cases hb
  generation _ hb := by cases hb
  publications _ hb := by cases hb
  unbound _ := rfl
  scheduled _ hb := by cases hb
  single := Nat.zero_le 1
  sent _ hb := by cases hb
  own _ hb := by cases hb
  fresh _ hmem := by cases hmem
  started _ hb := by cases hb

/-- **One request at a time**: in every run the two maps are inverse to each other, one request is
out at most, of the binding that there is, nothing waits while none is out, a publication that is
asked for waits with all its attempts, and the focus that was chosen is only given up for a
cause. -/
theorem orderly {sessionId : ℕ} {events : List (Event V)}
    (hrun : Run (Meeting Meets Next) (initial sessionId) events w) :
    w.Ordered ∧ ∀ event w', w.Meets event → w.Next event w' → w.Kept event w' := by
  have hordered : w.Ordered :=
    hrun.invariant (ordered_initial sessionId) fun _ _ _ h hnext => (step_spec h hnext.1 hnext.2).1
  exact ⟨hordered, fun event w' hmeets hnext => (step_spec hordered hmeets hnext).2⟩

/-- A session with one pane. -/
def onePane : SharedSessionState Unit where
  version := Zmux.SHARED_SESSION_STATE_VERSION
  sessionId := 1
  revision := 0
  lastOperationId := none
  operationReceipts := []
  summary := ⟨1, "", false, 5, .pane 5, [⟨5, "", "", "", "", none, none, none, .running, none⟩],
    false, none, none⟩
  presentation := ⟨.pane 5, 5, none, []⟩
  state := ()

def shown : TabView := ⟨false, fun _ => true, true, true⟩

/-- Sharing is switched on, and a publication is asked for. -/
def published : List (Event Unit) :=
  [.bind 7 onePane [(5, 10)], .schedule 7, .publish 0 fun _ => some true]

theorem orderly_published : ∃ w w' : Window Unit,
    Run (Meeting Meets Next) (initial 1) published w ∧ w.requests.length = 1 ∧ w.Ordered ∧
    w.Next (.answer 0 .failed shown fun _ => none) w' ∧
    w.Kept (.answer 0 .failed shown fun _ => none) w' := by
  have hrun : ∃ w : Window Unit, Run (Meeting Meets Next) (initial 1) published w ∧
      w.requests.length = 1 ∧ (w.step (.answer 0 .failed shown fun _ => none)).isSome = true := by
    refine ⟨_, .cons ⟨rfl, rfl⟩ (.cons ⟨trivial, rfl⟩ (.cons ⟨fun b hb attempts hmem => ?_, rfl⟩
      (.nil _))), rfl, rfl⟩
    cases hb
    cases hmem
  obtain ⟨w, hrun, hlength, hstep⟩ := hrun
  obtain ⟨w', hnext⟩ := Option.isSome_iff_exists.mp hstep
  obtain ⟨hordered, hkept⟩ := orderly hrun
  exact ⟨w, w', hrun, hlength, hordered, hnext, hkept _ _ trivial hnext⟩

/-- A publication waits behind a close to be made again, when another is asked for. -/
def collapsed : List (Event Unit) :=
  [.bind 7 onePane [(5, 10)], .schedule 7, .publish 0 fun _ => some false,
    .close 7 10 none fun _ => some false, .answer 0 (.applied onePane) shown fun _ => some false,
    .schedule 7]

/-- Sharing is switched off and on while a request is out: two are, and the answer to the first
releases what the second has claimed. And a publication that is asked for while another waits to be
made again has no more attempts left than that one. -/
theorem disorderly :
    (∃ w w' : Window Unit, Run Next (initial 1) (published ++ [.forget] ++ published) w ∧
      w.requests.length = 2 ∧ w.Next (.answer 0 .failed shown fun _ => none) w' ∧
      w'.requests.length = 1 ∧ (w'.binding.any fun b => !b.inFlight) = true) ∧
    ∃ w w' : Window Unit, Run Next (initial 1) collapsed w ∧
      w.Next (.publish 0 fun _ => some false) w' ∧
      (w'.binding.any fun b => b.queue == [publishState 1]) = true ∧
      ∀ request ∈ w'.requests, request.operation.isPublication = false := by
  constructor
  · obtain ⟨w, hrun, hlength, hstep⟩ := exists_run_of_foldlM (f := Window.step)
      (P := fun w : Window Unit => w.requests.length = 2 ∧
        ((w.step (.answer 0 .failed shown fun _ => none)).any fun w' =>
          w'.requests.length = 1 ∧ (w'.binding.any fun b => !b.inFlight) = true) = true)
      (published ++ [.forget] ++ published) (s := initial 1) (by decide)
    obtain ⟨w', hnext, hend⟩ := (Option.any_eq_true _ _).mp hstep
    exact ⟨w, w', hrun, hlength, hnext, of_decide_eq_true hend⟩
  · obtain ⟨w, hrun, hstep⟩ := exists_run_of_foldlM (f := Window.step)
      (P := fun w : Window Unit => ((w.step (.publish 0 fun _ => some false)).any fun w' =>
        (w'.binding.any fun b => b.queue == [publishState 1]) = true ∧
          ∀ request ∈ w'.requests, request.operation.isPublication = false) = true)
      collapsed (s := initial 1) (by decide)
    obtain ⟨w', hnext, hend⟩ := (Option.any_eq_true _ _).mp hstep
    exact ⟨w, w', hrun, hnext, of_decide_eq_true hend⟩

end Window

end Zetta.Collaboration
