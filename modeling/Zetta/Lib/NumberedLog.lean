import Mathlib
import Zetta.Lib.OrdMap

/-!
# Logs of numbered records

A log is a list of records numbered in increasing order (`Increasing`). A component that has
to answer for the records after an acknowledged number, but keeps only the last `cap` of them,
holds the **window** `window log base cap`. The lemmas say what the window becomes when a
record is logged (`window_concat`) and when the acknowledged number moves (`filter_window`),
and which record it finds for a number (`getLast?_window`): the newest one of the log at or
below it (`newest?`), unless `cap` records above it have pushed that one out.

`Mirrors` relates the window to an ordered map that holds it under a change of values; the map
operations then follow the log.
-/

namespace Zetta

open List

universe u v

namespace NumberedLog

variable {β : Type u} {γ : Type v}

/-- The numbers of the records increase. -/
def Increasing (log : List (ℕ × β)) : Prop := log.Pairwise fun x y => x.1 < y.1

/-- The last `cap` records numbered above `base`. -/
def window (log : List (ℕ × β)) (base cap : ℕ) : List (ℕ × β) :=
  (log.filter fun x => base < x.1).rtake cap

/-- The newest record numbered `n` or below. -/
def newest? (log : List (ℕ × β)) (n : ℕ) : Option (ℕ × β) :=
  (log.filter fun x => x.1 ≤ n).getLast?

/-- The records numbered above `base`, up to `n`. -/
def between (log : List (ℕ × β)) (base n : ℕ) : List (ℕ × β) :=
  log.filter fun x => base < x.1 ∧ x.1 ≤ n

/-- The records numbered above `n`. -/
def after (log : List (ℕ × β)) (n : ℕ) : List (ℕ × β) := log.filter fun x => n < x.1

/-! ### The last entries of a list -/

theorem rtake_append (xs ys : List β) (n : ℕ) :
    (xs ++ ys).rtake n = xs.rtake (n - ys.length) ++ ys.rtake n := by
  simp only [rtake_eq_reverse_take_reverse, reverse_append, take_append,
    length_reverse]

theorem rtake_concat_rtake (xs : List β) (y : β) (n : ℕ) :
    (xs.rtake n ++ [y]).rtake n = (xs ++ [y]).rtake n := by
  cases n with
  | zero => simp
  | succ n =>
    rw [rtake_concat_succ, rtake_concat_succ]
    simp [rtake_eq_reverse_take_reverse, take_take]

theorem getLast?_rtake (xs : List β) (n : ℕ) :
    (xs.rtake n).getLast? = if n = 0 then none else xs.getLast? := by
  rw [rtake_eq_reverse_take_reverse, getLast?_reverse, head?_take]
  simp

/-! ### Windows -/

section

variable {log : List (ℕ × β)} {base n cap : ℕ}

/-- An increasing log splits at a number. -/
theorem Increasing.filter_append (h : Increasing log) (hle : base ≤ n) :
    (log.filter fun x => base < x.1) = between log base n ++ after log n := by
  induction log with
  | nil => rfl
  | cons x log ih =>
    obtain ⟨hx, hlog⟩ := pairwise_cons.mp h
    by_cases hn : n < x.1
    · -- Everything from here on is above `n`.
      have hbetween : between (x :: log) base n = [] := by
        rw [between, filter_eq_nil_iff]
        intro y hy
        rcases mem_cons.mp hy with rfl | hy
        · simp only [decide_eq_true_eq]; omega
        · have := hx y hy
          simp only [decide_eq_true_eq]; omega
      have hall : ∀ m ≤ n, ((x :: log).filter fun x => m < x.1) = x :: log := by
        intro m hm
        rw [filter_eq_self]
        intro y hy
        rcases mem_cons.mp hy with rfl | hy
        · simp only [decide_eq_true_eq]; omega
        · have := hx y hy
          simp only [decide_eq_true_eq]; omega
      rw [hbetween, after, hall base hle, hall n le_rfl, nil_append]
    · have hafter : after (x :: log) n = after log n := filter_cons_of_neg (by simpa using hn)
      have hbetween : between (x :: log) base n =
          if base < x.1 then x :: between log base n else between log base n := by
        simp [between, filter_cons, Nat.le_of_not_lt hn]
      rw [hafter, hbetween, filter_cons, ih hlog]
      by_cases hb : base < x.1 <;> simp [hb]

variable {x : ℕ × β}

/-- A record logged above all others enters the window. -/
theorem window_concat (hx : base < x.1) :
    window (log ++ [x]) base cap = (window log base cap ++ [x]).rtake cap := by
  rw [window, window, rtake_concat_rtake, List.filter_append]
  simp [hx]

/-- The window above a later number is what is left of it above that number. -/
theorem Increasing.filter_window (h : Increasing log) (hle : base ≤ n) :
    ((window log base cap).filter fun x => n < x.1) = window log n cap := by
  have hbetween : ∀ k, (((between log base n).rtake k).filter fun x => n < x.1) = [] := by
    intro k
    rw [filter_eq_nil_iff]
    intro x hx
    have hx' := (mem_filter.mp (mem_of_mem_drop hx)).2
    simp only [decide_eq_true_eq] at hx' ⊢
    omega
  have hafter : ((after log n).rtake cap).filter (fun x => n < x.1) = (after log n).rtake cap := by
    rw [filter_eq_self]
    intro x hx
    exact (mem_filter.mp (mem_of_mem_drop hx)).2
  rw [window, h.filter_append hle, rtake_append, List.filter_append, hbetween, hafter]
  rfl

/-- **What a window finds**: the newest record up to `n`, unless the records above `n` fill
it. -/
theorem Increasing.getLast?_window (h : Increasing log) (hle : base ≤ n) (cap : ℕ) :
    ((window log base cap).filter fun x => x.1 ≤ n).getLast? =
      if (after log n).length < cap then (between log base n).getLast? else none := by
  have hafter : (((after log n).rtake cap).filter fun x => x.1 ≤ n) = [] := by
    rw [filter_eq_nil_iff]
    intro x hx
    have hx' := (mem_filter.mp (mem_of_mem_drop hx)).2
    simp only [decide_eq_true_eq] at hx' ⊢
    omega
  have hbetween : ∀ k, (((between log base n).rtake k).filter fun x => x.1 ≤ n) =
      (between log base n).rtake k := by
    intro k
    rw [filter_eq_self]
    intro x hx
    have hx' := (mem_filter.mp (mem_of_mem_drop hx)).2
    simp only [decide_eq_true_eq] at hx' ⊢
    exact hx'.2
  rw [window, h.filter_append hle, rtake_append, List.filter_append, hafter, hbetween,
    append_nil, getLast?_rtake]
  by_cases hcap : (after log n).length < cap
  · rw [if_neg (by omega), if_pos hcap]
  · rw [if_pos (by omega), if_neg hcap]

/-- The newest record up to `n` is one above `base` if there is one, else the newest up to
`base`. -/
theorem Increasing.newest?_eq (h : Increasing log) (hle : base ≤ n) :
    newest? log n = (between log base n).getLast?.or (newest? log base) := by
  have hsplit : (log.filter fun x => x.1 ≤ n) =
      (log.filter fun x => x.1 ≤ base) ++ between log base n := by
    induction log with
    | nil => rfl
    | cons x log ih =>
      obtain ⟨hx, hlog⟩ := pairwise_cons.mp h
      by_cases hb : x.1 ≤ base
      · rw [between, filter_cons_of_pos (by simpa using hb.trans hle),
          filter_cons_of_pos (by simpa using hb),
          filter_cons_of_neg (by simp only [decide_eq_true_eq]; omega), ih hlog]
        rfl
      · have hnil : ((x :: log).filter fun x => x.1 ≤ base) = [] := by
          rw [filter_eq_nil_iff]
          intro y hy
          rcases mem_cons.mp hy with rfl | hy
          · simpa using hb
          · have := hx y hy
            simp only [decide_eq_true_eq]; omega
        rw [hnil, nil_append, between]
        refine filter_congr fun y hy => ?_
        have hby : base < y.1 := by
          rcases mem_cons.mp hy with rfl | hy
          · omega
          · have := hx y hy; omega
        simp [hby]
  rw [newest?, hsplit, getLast?_append, newest?]

/-- A record logged above a number does not change the newest up to it. -/
theorem newest?_concat_of_lt (hx : n < x.1) : newest? (log ++ [x]) n = newest? log n := by
  simp [newest?, List.filter_append, Nat.not_le.mpr hx]

theorem mem_of_newest? (h : newest? log n = some x) : x ∈ log ∧ x.1 ≤ n := by
  have := mem_filter.mp (mem_of_getLast? h)
  simpa using this

theorem mem_of_getLast?_between (h : (between log base n).getLast? = some x) :
    x ∈ log ∧ base < x.1 ∧ x.1 ≤ n := by
  have := mem_filter.mp (mem_of_getLast? h)
  simpa using this

/-- A record of an increasing log is the newest up to its own number. -/
theorem Increasing.newest?_of_mem (h : Increasing log) (hx : x ∈ log) :
    newest? log x.1 = some x := by
  induction log with
  | nil => simp at hx
  | cons y log ih =>
    obtain ⟨hy, hlog⟩ := pairwise_cons.mp h
    rcases mem_cons.mp hx with rfl | hx
    · have hnil : (log.filter fun z => z.1 ≤ x.1) = [] := by
        rw [filter_eq_nil_iff]
        intro z hz
        have := hy z hz
        simp only [decide_eq_true_eq]; omega
      rw [newest?, filter_cons_of_pos (by simp), hnil]
      rfl
    · have hle : y.1 ≤ x.1 := (hy x hx).le
      have hx' := ih hlog hx
      rw [newest?] at hx' ⊢
      rw [filter_cons_of_pos (by simpa using hle), getLast?_cons, hx']
      rfl

end

end NumberedLog

/-! ### Maps that hold a window -/

namespace OrdMap

variable {β : Type u} {γ : Type v}

open NumberedLog

/-- The map holds the window of the log, with `f` applied to the records. -/
def Mirrors (m : OrdMap ℕ γ) (log : List (ℕ × β)) (base cap : ℕ) (f : β → γ) : Prop :=
  m.entries = (window log base cap).map fun x => (x.1, f x.2)

variable {m : OrdMap ℕ γ} {log : List (ℕ × β)} {base n cap : ℕ} {f : β → γ}

theorem mirrors_empty : (empty : OrdMap ℕ γ).Mirrors ([] : List (ℕ × β)) base cap f := by
  simp [Mirrors, window]

/-- Logging a record above all others and inserting its image keep the map in step. -/
theorem Mirrors.insert (h : m.Mirrors log base cap f) {b : β} (hn : base < n)
    (hlog : ∀ x ∈ log, x.1 < n) :
    ((m.insert n (f b)).keepLast cap).Mirrors (log ++ [(n, b)]) base cap f := by
  have hlt : ∀ x ∈ m.entries, x.1 < n := by
    intro x hx
    rw [h, mem_map] at hx
    obtain ⟨y, hy, rfl⟩ := hx
    exact hlog y (mem_of_mem_filter (mem_of_mem_drop hy))
  rw [Mirrors, window_concat hn, entries_keepLast, entries_insert_of_forall_lt hlt, h]
  simp only [rtake_eq_reverse_take_reverse, reverse_append, reverse_cons,
    reverse_nil, nil_append, map_reverse, map_take, singleton_append,
    map_cons]

/-- Dropping the entries up to a number moves the window. -/
theorem Mirrors.above (h : m.Mirrors log base cap f) (hlog : Increasing log) (hle : base ≤ n) :
    (m.above n).Mirrors log n cap f := by
  rw [Mirrors, ← hlog.filter_window hle, entries_above, h, filter_map]
  rfl

/-- Changing the values changes the image. -/
theorem Mirrors.mapValues (h : m.Mirrors log base cap f) (g : γ → γ) {k : β → γ}
    (hg : ∀ x ∈ log, g (f x.2) = k x.2) : (m.mapValues g).Mirrors log base cap k := by
  rw [Mirrors, entries_mapValues, h, map_map]
  refine map_congr_left fun x hx => ?_
  have hx' : x ∈ log := mem_of_mem_filter (mem_of_mem_drop hx)
  simp [hg x hx']

/-- **What the map finds** for a number: the image of the newest record up to it and above
`base`, unless `cap` newer records have pushed it out. -/
theorem Mirrors.floor?_eq (h : m.Mirrors log base cap f) (hlog : Increasing log)
    (hle : base ≤ n) :
    m.floor? n =
      if (after log n).length < cap then
        (between log base n).getLast?.map fun x => (x.1, f x.2)
      else none := by
  have hlast := congrArg (Option.map fun x : ℕ × β => (x.1, f x.2))
    (hlog.getLast?_window hle cap)
  rw [floor?, h, filter_map, getLast?_map]
  refine Eq.trans hlast ?_
  split_ifs <;> rfl

end OrdMap

end Zetta
