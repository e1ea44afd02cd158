import Mathlib

/-!
# Queues with a cached total

`CountedQueue α` is a queue together with a running total of what its items cost, the way a
program keeps a byte count beside a queue instead of summing it each time. The count is *not*
tied to the items by the type: `Balanced cost` says that it is right, and every operation is
shown to keep it so.

Removing an item subtracts its cost, and the subtraction is checked: `none` is the underflow
of a count smaller than what is taken from it. **No underflow**: on a balanced queue every
removal succeeds (`Balanced.popWhile`, `Balanced.dropFirst`).
-/

namespace Zetta

universe u

/-- A queue, oldest item first, and the running total of its items' costs. -/
structure CountedQueue (α : Type u) where
  /-- The items. -/
  items : List α
  /-- The running total. -/
  total : ℕ

namespace CountedQueue

variable {α : Type u}

/-- The queue without items. -/
def empty : CountedQueue α := ⟨[], 0⟩

/-- Appends an item. -/
def push (cost : α → ℕ) (q : CountedQueue α) (a : α) : CountedQueue α :=
  ⟨q.items ++ [a], q.total + cost a⟩

/-- Appends items in order. -/
def pushAll (cost : α → ℕ) (q : CountedQueue α) (as : List α) : CountedQueue α :=
  as.foldl (push cost) q

/-- Removes items from the front of `items` for as long as `p`, given the running total and
the front item, says so. -/
def popWhileFrom (cost : α → ℕ) (p : ℕ → α → Bool) : List α → ℕ → Option (CountedQueue α)
  | [], total => some ⟨[], total⟩
  | a :: as, total =>
    if p total a then
      if cost a ≤ total then popWhileFrom cost p as (total - cost a) else none
    else some ⟨a :: as, total⟩

/-- Removes items from the front for as long as `p` says so. -/
def popWhile (cost : α → ℕ) (p : ℕ → α → Bool) (q : CountedQueue α) :
    Option (CountedQueue α) :=
  popWhileFrom cost p q.items q.total

/-- Removes the first `n` items. -/
def dropFirst (cost : α → ℕ) (n : ℕ) (q : CountedQueue α) : Option (CountedQueue α) :=
  if ((q.items.take n).map cost).sum ≤ q.total then
    some ⟨q.items.drop n, q.total - ((q.items.take n).map cost).sum⟩
  else none

/-- The running total is the sum of the items' costs. -/
def Balanced (cost : α → ℕ) (q : CountedQueue α) : Prop :=
  q.total = (q.items.map cost).sum

@[simp] theorem items_empty : (empty : CountedQueue α).items = [] := rfl

@[simp] theorem total_empty : (empty : CountedQueue α).total = 0 := rfl

@[simp] theorem items_push (cost : α → ℕ) (q : CountedQueue α) (a : α) :
    (q.push cost a).items = q.items ++ [a] := rfl

@[simp] theorem items_pushAll (cost : α → ℕ) (q : CountedQueue α) (as : List α) :
    (q.pushAll cost as).items = q.items ++ as := by
  induction as generalizing q with
  | nil => simp [pushAll]
  | cons a as ih =>
    rw [pushAll, List.foldl_cons, ← pushAll, ih]
    simp

/-! ### The count stays right -/

variable {cost : α → ℕ} {q : CountedQueue α}

theorem balanced_empty : (empty : CountedQueue α).Balanced cost := rfl

theorem Balanced.push (h : q.Balanced cost) (a : α) : (q.push cost a).Balanced cost := by
  simp only [Balanced] at h
  simp [Balanced, CountedQueue.push, h]

theorem Balanced.pushAll (h : q.Balanced cost) (as : List α) :
    (q.pushAll cost as).Balanced cost := by
  induction as generalizing q with
  | nil => exact h
  | cons a as ih => exact ih (h.push a)

/-- **No underflow, from the front**: on a balanced queue `popWhile` succeeds. It leaves a
balanced suffix, from which nothing more is to be removed. -/
theorem Balanced.popWhile (h : q.Balanced cost) (p : ℕ → α → Bool) :
    ∃ q', q.popWhile cost p = some q' ∧ q'.Balanced cost ∧ q'.items <:+ q.items ∧
      ∀ a ∈ q'.items.head?, p q'.total a = false := by
  obtain ⟨items, total⟩ := q
  simp only [Balanced] at h
  induction items generalizing total with
  | nil => exact ⟨⟨[], total⟩, rfl, h, List.suffix_refl _, by simp⟩
  | cons a as ih =>
    simp only [CountedQueue.popWhile, popWhileFrom]
    rw [List.map_cons, List.sum_cons] at h
    by_cases hp : p total a
    · rw [if_pos hp, if_pos (by omega)]
      obtain ⟨q', hq', hbal, hsuf, hstop⟩ := ih (total - cost a) (by omega)
      exact ⟨q', hq', hbal, hsuf.trans (List.suffix_cons a as), hstop⟩
    · rw [if_neg hp]
      refine ⟨⟨a :: as, total⟩, rfl, by simp [Balanced, h], List.suffix_refl _, ?_⟩
      intro b hb
      obtain rfl : a = b := by simpa using hb
      simpa using hp

variable {q' : CountedQueue α}

/-- Removing by a test on the items alone is `dropWhile`. -/
theorem popWhile_items {p : α → Bool} (h : q.popWhile cost (fun _ a => p a) = some q') :
    q'.items = q.items.dropWhile p := by
  obtain ⟨items, total⟩ := q
  simp only [CountedQueue.popWhile] at h
  induction items generalizing total with
  | nil =>
    cases h
    rfl
  | cons a as ih =>
    rw [popWhileFrom] at h
    by_cases hp : p a
    · rw [if_pos hp] at h
      split_ifs at h
      rw [List.dropWhile_cons_of_pos hp]
      exact ih _ h
    · rw [if_neg hp] at h
      cases h
      rw [List.dropWhile_cons_of_neg hp]

/-- Removing until the total is at most `budget` brings it there. -/
theorem Balanced.total_le_of_popWhile {budget : ℕ} (h : q.Balanced cost)
    (hpop : q.popWhile cost (fun total _ => decide (budget < total)) = some q') :
    q'.total ≤ budget := by
  obtain ⟨q'', hq'', hbal, -, hstop⟩ := h.popWhile (fun total _ => decide (budget < total))
  cases hpop.symm.trans hq''
  cases hitems : q'.items with
  | nil => simp only [Balanced, hitems, List.map_nil, List.sum_nil] at hbal; omega
  | cons a as => simpa using hstop a (by simp [hitems])

/-- A balanced queue that is a suffix of another is worth no more. -/
theorem Balanced.total_le_of_suffix {p : CountedQueue α} (h : q.Balanced cost)
    (h' : p.Balanced cost) (hsuf : p.items <:+ q.items) : p.total ≤ q.total := by
  obtain ⟨front, hfront⟩ := hsuf
  rw [h, h', ← hfront, List.map_append, List.sum_append]
  exact Nat.le_add_left _ _

/-- **No underflow, of a prefix**: on a balanced queue `dropFirst` succeeds and leaves a
balanced queue. -/
theorem Balanced.dropFirst (h : q.Balanced cost) (n : ℕ) :
    ∃ q', q.dropFirst cost n = some q' ∧ q'.Balanced cost ∧ q'.items = q.items.drop n := by
  have hsum : ((q.items.take n).map cost).sum + ((q.items.drop n).map cost).sum = q.total := by
    rw [h, ← List.sum_append, ← List.map_append, List.take_append_drop]
  refine ⟨_, if_pos (by omega), ?_, rfl⟩
  simp only [Balanced]
  omega

end CountedQueue

end Zetta
