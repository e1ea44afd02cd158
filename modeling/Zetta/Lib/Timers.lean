import Mathlib

/-!
# Timers and the earliest deadline

A component with several timers sleeps until the earliest deadline and then asks which timer is
due. That is sound if no timer is due before its deadline, and it is exact if a timer whose
deadline has passed stays due until it is served.

* `Timer` is a deadline and a gap after it: a timer may stop being due at `closes` and become due
  again at `reopens`. A timer without a gap is `Timer.plain`.
* `Timer.next` is the earliest deadline of a list of timers. Nothing is due before it
  (`not_due_of_lt_next`), and at the first instant that is not before it something is due, unless
  all that has run out is in its gap (`exists_due_iff`).
-/

namespace Zetta

/-- A timer that runs out at `deadline`, and is not due from `closes` until `reopens`. -/
structure Timer where
  deadline : ℕ
  closes : ℕ
  reopens : ℕ
  /-- There is no gap at the deadline itself. -/
  due_first : deadline < closes ∨ reopens ≤ closes

namespace Timer

/-- A timer that stays due. -/
def plain (deadline : ℕ) : Timer := ⟨deadline, 0, 0, .inr (Nat.le_refl 0)⟩

/-- The timer has run out, and is not in its gap. -/
def Due (timer : Timer) (now : ℕ) : Prop :=
  timer.deadline ≤ now ∧ (now < timer.closes ∨ timer.reopens ≤ now)

/-- The timer has run out, and is in its gap. -/
def Missed (timer : Timer) (now : ℕ) : Prop :=
  timer.deadline ≤ now ∧ timer.closes ≤ now ∧ now < timer.reopens

@[simp] theorem plain_deadline (deadline : ℕ) : (plain deadline).deadline = deadline := rfl

@[simp] theorem due_plain {deadline now : ℕ} : (plain deadline).Due now ↔ deadline ≤ now :=
  and_iff_left (.inr (Nat.zero_le now))

@[simp] theorem not_missed_plain {deadline now : ℕ} : ¬ (plain deadline).Missed now := by
  rintro ⟨-, -, hreopens⟩
  exact Nat.not_lt_zero now hreopens

theorem due_deadline (timer : Timer) : timer.Due timer.deadline := by
  refine ⟨Nat.le_refl _, ?_⟩
  have hfirst := timer.due_first
  omega

theorem due_or_missed {timer : Timer} {now : ℕ} (h : timer.deadline ≤ now) :
    timer.Due now ∨ timer.Missed now := by
  unfold Due Missed
  omega

/-! ### The earliest deadline -/

/-- The earliest deadline. -/
def next (timers : List Timer) : Option ℕ := (timers.map deadline).min?

variable {timers : List Timer} {d now : ℕ}

theorem next_eq_none_iff : next timers = none ↔ timers = [] := by
  rw [next, List.min?_eq_none_iff, List.map_eq_nil_iff]

private theorem next_eq_some_iff :
    next timers = some d ↔
      (∃ timer ∈ timers, timer.deadline = d) ∧ ∀ timer ∈ timers, d ≤ timer.deadline := by
  rw [next, List.min?_eq_some_iff, List.mem_map]
  simp

/-- Nothing is due before the earliest deadline. -/
theorem not_due_of_lt_next (h : next timers = some d) (hlt : now < d) :
    ∀ timer ∈ timers, ¬ timer.Due now := by
  intro timer hmem hdue
  have hle := (next_eq_some_iff.mp h).2 timer hmem
  exact absurd hdue.1 (by omega)

/-- Something is due at the first instant from `now` on that is not before the earliest deadline,
unless what has run out is in its gap and nothing else is due. -/
theorem exists_due_iff (h : next timers = some d) :
    (∃ timer ∈ timers, timer.Due (max now d)) ↔
      ((∃ timer ∈ timers, timer.Missed now) → ∃ timer ∈ timers, timer.Due now) := by
  obtain ⟨⟨first, hfirst, rfl⟩, hleast⟩ := next_eq_some_iff.mp h
  by_cases hpast : first.deadline ≤ now
  · -- the deadline has passed: the question is what is due now
    rw [Nat.max_eq_left hpast]
    refine ⟨fun hdue _ => hdue, fun hmissed => ?_⟩
    rcases due_or_missed hpast with hdue | hgap
    · exact ⟨first, hfirst, hdue⟩
    · exact hmissed ⟨first, hfirst, hgap⟩
  · -- it has not: then no gap has been reached, and the first timer is due at its deadline
    rw [Nat.max_eq_right (Nat.le_of_not_le hpast)]
    refine iff_of_true ⟨first, hfirst, first.due_deadline⟩ ?_
    rintro ⟨timer, hmem, hle, -⟩
    exact absurd ((hleast timer hmem).trans hle) hpast

end Timer

end Zetta
