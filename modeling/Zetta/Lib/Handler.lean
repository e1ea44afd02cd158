import Mathlib.Tactic.Common

/-!
# Handlers that may fail midway

A handler runs on a state and ends with a value or with an error. Unlike a transaction it is not
undone by an error: what it has changed by then stays changed. Specifications are triples with
one postcondition for values and one for errors.

* The rules of the primitives are `triple_pure`, `triple_read`, `triple_get`, `triple_modify`,
  `triple_require` and `triple_when`; `triple_bind` composes and `Triple.mono` weakens.
* `FailsIn` asks what is left by a handler that fails; its rules are equivalences, so that they
  compute exactly when an error leaves things well.
-/

namespace Zetta

universe u

/-- What runs on a state, and leaves one whether it fails or not. -/
def Handler (σ ε α : Type u) : Type u := σ → Except ε α × σ

namespace Handler

variable {σ ε α β : Type u}

instance : Monad (Handler σ ε) where
  pure a := fun s => (.ok a, s)
  bind m f := fun s =>
    match m s with
    | (.ok a, t) => f a t
    | (.error e, t) => (.error e, t)

/-- A computation on the state that does not change it. -/
def read (f : σ → Except ε α) : Handler σ ε α := fun s => (f s, s)

/-- What can be seen of the state. -/
def get (f : σ → α) : Handler σ ε α := fun s => (.ok (f s), s)

def modify (f : σ → σ) : Handler σ ε PUnit := fun s => (.ok ⟨⟩, f s)

/-- Fails unless the state satisfies a condition. -/
def require (p : σ → Bool) (e : ε) : Handler σ ε PUnit :=
  read fun s => if p s then .ok ⟨⟩ else .error e

/-- Runs on the states that satisfy a condition. -/
def when (p : σ → Bool) (m : Handler σ ε PUnit) : Handler σ ε PUnit :=
  fun s => if p s then m s else (.ok ⟨⟩, s)

variable {f : α → Handler σ ε β}

theorem bind_of_ok {m : Handler σ ε α} {s t : σ} {a : α} (h : m s = (.ok a, t)) :
    (m >>= f) s = f a t := by
  change (match m s with
    | (.ok a, t) => f a t
    | (.error e, t) => (.error e, t)) = f a t
  rw [h]

theorem bind_of_error {m : Handler σ ε α} {s t : σ} {e : ε} (h : m s = (.error e, t)) :
    (m >>= f) s = (.error e, t) := by
  change (match m s with
    | (.ok a, t) => f a t
    | (.error e, t) => (.error e, t)) = (.error e, t)
  rw [h]

theorem read_bind (f : σ → Except ε α) (k : α → Handler σ ε β) (s : σ) :
    (read f >>= k) s = match f s with
      | .ok a => k a s
      | .error e => (.error e, s) := by
  cases h : f s with
  | ok a => exact bind_of_ok (by rw [read, h])
  | error e => exact bind_of_error (by rw [read, h])

theorem bind_assoc {γ : Type u} (m : Handler σ ε α) (f : α → Handler σ ε β)
    (g : β → Handler σ ε γ) : m >>= f >>= g = m >>= fun a => f a >>= g := by
  funext s
  rcases hms : m s with ⟨e | a, t⟩
  · rw [bind_of_error (bind_of_error hms), bind_of_error hms]
  · rw [bind_of_ok hms]
    rcases hfs : f a t with ⟨e | b, u⟩
    · rw [bind_of_error ((bind_of_ok hms).trans hfs), bind_of_error hfs]
    · rw [bind_of_ok ((bind_of_ok hms).trans hfs), bind_of_ok hfs]

theorem get_bind (f : σ → α) (k : α → Handler σ ε β) (s : σ) : (get f >>= k) s = k (f s) s := rfl

theorem modify_bind (f : σ → σ) (k : PUnit → Handler σ ε β) (s : σ) :
    (modify f >>= k) s = k ⟨⟩ (f s) := rfl

/-- From a state in `P`, `m` ends in `Q` with a value, or in `E` with an error. -/
def Triple (P : σ → Prop) (m : Handler σ ε α) (Q : α → σ → Prop) (E : ε → σ → Prop) : Prop :=
  ∀ s, P s → match m s with
    | (.ok a, t) => Q a t
    | (.error e, t) => E e t

/-- However `m` ends, it keeps `I`. -/
def Keeps (I : σ → Prop) (m : Handler σ ε α) : Prop :=
  Triple I m (fun _ => I) (fun _ => I)

variable {P P' I : σ → Prop} {m : Handler σ ε α} {Q Q' : α → σ → Prop} {E E' : ε → σ → Prop}

theorem triple_pure {a : α} (h : ∀ s, P s → Q a s) : Triple P (pure a : Handler σ ε α) Q E := h

theorem triple_read {f : σ → Except ε α} (hok : ∀ s a, P s → f s = .ok a → Q a s)
    (herror : ∀ s e, P s → f s = .error e → E e s) : Triple P (read f) Q E := by
  intro s hs
  cases hf : f s with
  | ok a => simpa [read, hf] using hok s a hs hf
  | error e => simpa [read, hf] using herror s e hs hf

theorem triple_get {f : σ → α} (h : ∀ s, P s → Q (f s) s) :
    Triple P (get f : Handler σ ε α) Q E := h

theorem triple_modify {f : σ → σ} {Q : PUnit → σ → Prop} (h : ∀ s, P s → Q ⟨⟩ (f s)) :
    Triple P (modify f : Handler σ ε PUnit) Q E := h

variable {p : σ → Bool}

theorem triple_require {e : ε} {Q : PUnit → σ → Prop} (hok : ∀ s, P s → p s = true → Q ⟨⟩ s)
    (herror : ∀ s, P s → p s = false → E e s) :
    Triple P (require p e) Q E := by
  refine triple_read (fun s _ hs hp => hok s hs ?_) fun s e' hs hp => ?_
  · by_contra hne
    rw [if_neg hne] at hp
    cases hp
  · by_cases hps : p s = true
    · rw [if_pos hps] at hp
      cases hp
    · rw [if_neg hps] at hp
      cases hp
      exact herror s hs (by simpa using hps)

theorem triple_when {m : Handler σ ε PUnit} {Q : PUnit → σ → Prop}
    (hm : Triple (fun s => P s ∧ p s = true) m Q E) (hskip : ∀ s, P s → p s = false → Q ⟨⟩ s) :
    Triple P (when p m) Q E := by
  intro s hs
  by_cases hp : p s = true
  · rw [when, if_pos hp]
    exact hm s ⟨hs, hp⟩
  · rw [when, if_neg hp]
    exact hskip s hs (by simpa using hp)

/-- One after the other. -/
theorem triple_bind {R : β → σ → Prop} (hm : Triple P m Q E) (hf : ∀ a, Triple (Q a) (f a) R E) :
    Triple P (m >>= f) R E := by
  intro s hs
  have h := hm s hs
  rcases hms : m s with ⟨e | a, t⟩
  · rw [hms] at h
    rw [bind_of_error hms]
    exact h
  · rw [hms] at h
    rw [bind_of_ok hms]
    exact hf a t h

/-- The rule of consequence. -/
theorem Triple.mono (h : Triple P m Q E) (hP : ∀ s, P' s → P s) (hQ : ∀ a s, Q a s → Q' a s)
    (hE : ∀ e s, E e s → E' e s) : Triple P' m Q' E' := by
  intro s hs
  have := h s (hP s hs)
  rcases hms : m s with ⟨e | a, t⟩
  · rw [hms] at this
    exact hE e t this
  · rw [hms] at this
    exact hQ a t this

/-- A precondition that is not about the state is a hypothesis. -/
theorem triple_fact {p : Prop} (h : p → Triple P m Q E) : Triple (fun s => P s ∧ p) m Q E :=
  fun s hs => h hs.2 s hs.1

/-- It is enough to start from each state. -/
theorem triple_forall (h : ∀ s, P s → Triple (· = s) m Q E) : Triple P m Q E :=
  fun s hs => h s hs s rfl

/-- A case split on a condition. -/
theorem triple_ite {p : Prop} [Decidable p] {m' : Handler σ ε α} (hpos : p → Triple P m Q E)
    (hneg : ¬p → Triple P m' Q E) : Triple P (if p then m else m') Q E := by
  split
  next h => exact hpos h
  next h => exact hneg h

theorem keeps_pure (a : α) : Keeps I (pure a : Handler σ ε α) := triple_pure fun _ => id

theorem keeps_read (f : σ → Except ε α) : Keeps I (read f) :=
  triple_read (fun _ _ h _ => h) fun _ _ h _ => h

theorem keeps_get (f : σ → α) : Keeps I (get f : Handler σ ε α) := triple_get fun _ => id

theorem keeps_modify {f : σ → σ} (h : ∀ s, I s → I (f s)) :
    Keeps I (modify f : Handler σ ε PUnit) := triple_modify h

theorem keeps_when {m : Handler σ ε PUnit} (hm : Keeps I m) :
    Keeps I (when p m) :=
  triple_when (fun s hs => hm s hs.1) fun _ hs _ => hs

theorem keeps_bind (hm : Keeps I m) (hf : ∀ a, Keeps I (f a)) :
    Keeps I (m >>= f) := triple_bind hm hf

/-- The state that a handler leaves, however it ends. -/
theorem Triple.snd (h : Triple P m (fun _ => I) (fun _ => I)) {s : σ} (hs : P s) : I (m s).2 := by
  have := h s hs
  rcases hms : m s with ⟨e | a, t⟩ <;> rwa [hms] at this

/-- If `m` fails from a state, it leaves one in `I`. -/
def FailsIn (I : σ → Prop) (m : Handler σ ε α) (s : σ) : Prop :=
  ∀ e t, m s = (.error e, t) → I t

section

variable {s : σ} {k : α → Handler σ ε β}

theorem failsIn_pure (a : α) : FailsIn I (pure a : Handler σ ε α) s :=
  fun _ _ h => nomatch congrArg Prod.fst h

theorem failsIn_bind_iff : FailsIn I (m >>= k) s ↔
    FailsIn I m s ∧ ∀ a t, m s = (.ok a, t) → FailsIn I (k a) t := by
  constructor
  · intro h
    refine ⟨fun e t hms => h e t (bind_of_error hms), fun a t hms e u hk => ?_⟩
    exact h e u ((bind_of_ok hms).trans hk)
  · rintro ⟨hm, hk⟩ e u hfails
    rcases hms : m s with ⟨e' | a, t⟩
    · rw [bind_of_error hms] at hfails
      obtain ⟨he, rfl⟩ := Prod.mk.inj hfails
      exact hm e t (by rw [hms, Except.error.inj he])
    · rw [bind_of_ok hms] at hfails
      exact hk a t hms e u hfails

theorem failsIn_read_iff {f : σ → Except ε α} :
    FailsIn I (read f) s ↔ ∀ e, f s = .error e → I s := by
  constructor
  · exact fun h e hf => h e s (by rw [read, hf])
  · intro h e t hread
    obtain ⟨hf, rfl⟩ := Prod.mk.inj hread
    exact h e hf

/-- What is read decides how to go on. -/
theorem failsIn_read_bind_iff {f : σ → Except ε α} : FailsIn I (read f >>= k) s ↔
    (∀ e, f s = .error e → I s) ∧ ∀ a, f s = .ok a → FailsIn I (k a) s := by
  rw [failsIn_bind_iff, failsIn_read_iff]
  refine and_congr_right fun _ => ⟨fun h a hf => h a s (by rw [read, hf]), fun h a t hread => ?_⟩
  obtain ⟨hf, rfl⟩ := Prod.mk.inj hread
  exact h a hf

variable {p : σ → Bool}

theorem failsIn_require_bind_iff {e : ε} {k : PUnit → Handler σ ε β} :
    FailsIn I (require p e >>= k) s ↔ if p s = true then FailsIn I (k ⟨⟩) s else I s := by
  rw [require, failsIn_read_bind_iff]
  split
  · exact ⟨fun h => h.2 ⟨⟩ rfl, fun h => ⟨fun _ hne => (nomatch hne), fun _ _ => h⟩⟩
  · exact ⟨fun h => h.1 e rfl, fun h => ⟨fun _ _ => h, fun _ hne => (nomatch hne)⟩⟩

theorem failsIn_modify {f : σ → σ} : FailsIn I (modify f : Handler σ ε PUnit) s :=
  fun _ _ h => nomatch congrArg Prod.fst h

theorem failsIn_when_iff {m : Handler σ ε PUnit} :
    FailsIn I (when p m) s ↔ (p s = true → FailsIn I m s) := by
  by_cases hp : p s = true
  · have hwhen : when p m s = m s := if_pos hp
    rw [FailsIn, hwhen]
    exact ⟨fun h _ => h, fun h => h hp⟩
  · have hwhen : when p m s = (.ok ⟨⟩, s) := if_neg hp
    rw [FailsIn, hwhen]
    exact ⟨fun _ h => absurd h hp, fun _ _ _ h => nomatch congrArg Prod.fst h⟩

/-- What only turns a result into another does not fail. -/
theorem failsIn_bind_pure_iff {f : α → β} : FailsIn I (m >>= fun a => pure (f a)) s ↔
    FailsIn I m s := by
  rw [failsIn_bind_iff]
  exact and_iff_left fun a t _ => failsIn_pure (f a)

/-- `m` fails from a state. -/
def Fails (m : Handler σ ε α) (s : σ) : Prop := ∃ e, (m s).1 = .error e

theorem failsIn_iff : FailsIn I m s ↔ (Fails m s → I (m s).2) := by
  constructor
  · rintro h ⟨e, he⟩
    exact h e (m s).2 (Prod.ext he rfl)
  · intro h e t hms
    have := h ⟨e, congrArg Prod.fst hms⟩
    rwa [hms] at this

theorem fails_iff : Fails m s ↔ ¬FailsIn (fun _ => False) m s := by
  rw [failsIn_iff]
  exact not_not.symm

theorem not_fails_iff : ¬Fails m s ↔ FailsIn (fun _ => False) m s := fails_iff.not_left

end

end Handler

end Zetta
