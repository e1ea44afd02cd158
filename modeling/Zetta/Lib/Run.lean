import Mathlib

/-!
# Runs of a labelled transition relation

A system is given by its labelled steps `next : σ → α → σ → Prop`. `Run next s as t` says
that the labels `as`, in order, lead from `s` to `t`; a condition on the steps of a run is
put into the relation itself with `Meeting`, so that "every step of the run meets the
condition" is again a run.

* **Invariants**: what holds at the start and is preserved by one step holds at the end of
  every run (`Run.invariant`); since every prefix of a run is a run, it holds in every state
  the run passes.
* **Programs that can fail**: a fold of an `Except`-valued step that succeeds is a run of the
  steps that succeed (`run_of_foldlM_ok`), and one that fails does so at a step taken from
  the end of a run (`exists_run_of_foldlM_error`).
-/

namespace Zetta

universe u v w

variable {σ : Type u} {α : Type v}

/-- The labels `as` lead from the first state to the second. -/
inductive Run (next : σ → α → σ → Prop) : σ → List α → σ → Prop
  | nil (s : σ) : Run next s [] s
  | cons {s t u : σ} {a : α} {as : List α} :
      next s a t → Run next t as u → Run next s (a :: as) u

/-- The steps of `next` taken from a state and with a label that meet `C`. -/
def Meeting (C : σ → α → Prop) (next : σ → α → σ → Prop) : σ → α → σ → Prop :=
  fun s a t => C s a ∧ next s a t

namespace Run

variable {next : σ → α → σ → Prop} {s t u : σ} {as bs : List α} {a : α}

/-- Runs compose. -/
theorem append (h₁ : Run next s as t) (h₂ : Run next t bs u) : Run next s (as ++ bs) u := by
  induction h₁ with
  | nil => exact h₂
  | cons hstep _ ih => exact .cons hstep (ih h₂)

/-- A run extends by one step at its end. -/
theorem snoc (h : Run next s as t) (hstep : next t a u) : Run next s (as ++ [a]) u :=
  h.append (.cons hstep (.nil u))

/-- **Invariance**: a property preserved by one step is preserved by a run. -/
theorem invariant {I : σ → Prop} (h : Run next s as t) (h₀ : I s)
    (hstep : ∀ s a t, I s → next s a t → I t) : I t := by
  induction h with
  | nil => exact h₀
  | cons hn _ ih => exact ih (hstep _ _ _ h₀ hn)

/-- A run of some steps is a run of any larger set of them. -/
theorem mono {next' : σ → α → σ → Prop} (h : Run next s as t)
    (hmono : ∀ s a t, next s a t → next' s a t) : Run next' s as t := by
  induction h with
  | nil => exact .nil _
  | cons hn _ ih => exact .cons (hmono _ _ _ hn) ih

/-- A run whose steps meet a condition is a run. -/
theorem of_meeting {C : σ → α → Prop} (h : Run (Meeting C next) s as t) : Run next s as t :=
  h.mono fun _ _ _ hn => hn.2

/-- A run all of whose labels meet a condition. -/
theorem meeting {C : α → Prop} (h : Run next s as t) (hC : ∀ a ∈ as, C a) :
    Run (Meeting (fun _ a => C a) next) s as t := by
  induction h with
  | nil => exact .nil _
  | cons hn _ ih =>
    exact .cons ⟨hC _ (List.mem_cons_self ..), hn⟩ (ih fun a ha => hC a (List.mem_cons_of_mem _ ha))

end Run

variable {f : σ → α → Option σ}

/-- A run on fixed labels, computed. -/
theorem exists_run_of_foldlM {P : σ → Prop} [DecidablePred P] (l : List α) {s : σ}
    (h : ((l.foldlM f s).any fun t => decide (P t)) = true) :
    ∃ t, Run (fun s a t => f s a = some t) s l t ∧ P t := by
  induction l generalizing s with
  | nil => exact ⟨s, .nil s, by simpa using h⟩
  | cons a l ih =>
    rw [List.foldlM_cons] at h
    cases hs : f s a with
    | none => simp [hs] at h
    | some s' =>
      obtain ⟨t, hrun, hP⟩ := ih (by simpa [hs] using h)
      exact ⟨t, .cons hs hrun, hP⟩

/-- A fold whose steps succeed and keep an invariant succeeds and keeps it. -/
theorem exists_foldlM {I : σ → Prop} {l : List α} {s : σ}
    (hstep : ∀ s, ∀ a ∈ l, I s → ∃ t, f s a = some t ∧ I t) (h₀ : I s) :
    ∃ t, l.foldlM f s = some t ∧ I t := by
  induction l generalizing s with
  | nil => exact ⟨s, rfl, h₀⟩
  | cons a l ih =>
    obtain ⟨s', hs, hI⟩ := hstep s a (List.mem_cons_self ..) h₀
    obtain ⟨t, ht, hIt⟩ := ih (fun s b hb => hstep s b (List.mem_cons_of_mem _ hb)) hI
    exact ⟨t, by rw [List.foldlM_cons, hs]; exact ht, hIt⟩

/-- A map whose applications succeed succeeds. -/
theorem exists_mapM {β : Type w} {f : α → Option β} {l : List α}
    (h : ∀ a ∈ l, ∃ b, f a = some b) : ∃ bs, l.mapM f = some bs ∧ bs.length = l.length := by
  induction l with
  | nil => exact ⟨[], rfl, rfl⟩
  | cons a l ih =>
    obtain ⟨b, hb⟩ := h a (List.mem_cons_self ..)
    obtain ⟨bs, hbs, hlength⟩ := ih fun a ha => h a (List.mem_cons_of_mem _ ha)
    refine ⟨b :: bs, ?_, by rw [List.length_cons, hlength, List.length_cons]⟩
    simp [List.mapM_cons, hb, hbs]

/-! ### Programs that can fail -/

section Fold

variable {ε : Type w} {f : σ → α → Except ε σ}

/-- The steps of a program on which it does not fail. -/
def Succeeds (f : σ → α → Except ε σ) : σ → α → σ → Prop :=
  fun s a t => f s a = .ok t

/-- A fold that does not fail is a run of the steps that do not fail. -/
theorem run_of_foldlM_ok {as : List α} {s t : σ} (h : as.foldlM f s = .ok t) :
    Run (Succeeds f) s as t := by
  induction as generalizing s with
  | nil =>
    simp only [List.foldlM_nil, pure, Except.pure, Except.ok.injEq] at h
    exact h ▸ .nil s
  | cons a as ih =>
    rw [List.foldlM_cons] at h
    cases hs : f s a with
    | error e => simp [hs, bind, Except.bind] at h
    | ok s' =>
      simp only [hs, bind, Except.bind] at h
      exact .cons hs (ih h)

/-- A fold that fails does so at one step, taken from the end of a run. -/
theorem exists_run_of_foldlM_error {as : List α} {s : σ} {e : ε}
    (h : as.foldlM f s = .error e) :
    ∃ bs t a, Run (Succeeds f) s bs t ∧ f t a = .error e := by
  induction as generalizing s with
  | nil => simp [pure, Except.pure] at h
  | cons a as ih =>
    rw [List.foldlM_cons] at h
    cases hs : f s a with
    | error e' =>
      simp only [hs, bind, Except.bind, Except.error.injEq] at h
      exact ⟨[], s, a, .nil s, h ▸ hs⟩
    | ok s' =>
      simp only [hs, bind, Except.bind] at h
      obtain ⟨bs, t, b, hrun, hfail⟩ := ih h
      exact ⟨a :: bs, t, b, .cons hs hrun, hfail⟩

/-- The steps of a program, refused where a condition fails. -/
def guarded (C : σ → α → Prop) [∀ s a, Decidable (C s a)] (f : σ → α → Except ε σ) (s : σ)
    (a : α) : Option σ :=
  if C s a then (f s a).toOption else none

/-- A run on fixed labels, computed: if the guarded fold ends in a state with a property, then
there is a run of the steps that meet the condition, and it ends there. -/
theorem exists_run_of_guarded {C : σ → α → Prop} [∀ s a, Decidable (C s a)] {P : σ → Prop}
    [DecidablePred P] (l : List α) {s : σ}
    (h : ((l.foldlM (guarded C f) s).any fun t => decide (P t)) = true) :
    ∃ t, Run (Meeting C (Succeeds f)) s l t ∧ P t := by
  induction l generalizing s with
  | nil => exact ⟨s, .nil s, by simpa using h⟩
  | cons a l ih =>
    rw [List.foldlM_cons] at h
    cases hs : guarded C f s a with
    | none => simp [hs] at h
    | some s' =>
      obtain ⟨t, hrun, hP⟩ := ih (by simpa [hs] using h)
      refine ⟨t, .cons ?_ hrun, hP⟩
      rw [guarded] at hs
      split_ifs at hs with hC
      cases hf : f s a with
      | error e => simp [hf, Except.toOption] at hs
      | ok s'' =>
        simp only [hf, Except.toOption, Option.some.injEq] at hs
        exact ⟨hC, hs ▸ hf⟩

end Fold

end Zetta
