import Mathlib.Data.List.Basic
import Mathlib.Tactic.Common

/-!
# First occurrences

Of several entries with one key the first one counts. `firsts` keeps it and drops the others, in the
order of the list.

* `mem_map_firsts`, `nodup_map_firsts`: each key occurs once.
* `find?_of_mem_firsts`: an entry that is kept is the first one of its key.
* `firsts_append_of_subset`: entries whose keys have occurred change nothing.
-/

namespace Zetta

open List

variable {α κ : Type*} [DecidableEq κ] (f : α → κ)

def firsts (l : List α) : List α := l.eraseDupsBy fun a b => f a = f b

@[simp] theorem firsts_nil : firsts f [] = [] := rfl

theorem firsts_cons (a : α) (l : List α) :
    firsts f (a :: l) = a :: firsts f (l.filter fun b => f b ≠ f a) := by
  simp only [firsts, eraseDupsBy_cons, decide_eq_false_iff_not, ne_eq]

variable {f}

/-- Induction along the list, without the key that has occurred. -/
theorem firsts_induction {P : List α → Prop} (hnil : P [])
    (hcons : ∀ a l, P (l.filter fun b => f b ≠ f a) → P (a :: l)) (l : List α) : P l := by
  induction hn : l.length using Nat.strongRecOn generalizing l with
  | ind n ih =>
    cases l with
    | nil => exact hnil
    | cons a l =>
      subst hn
      exact hcons a l (ih _ (Nat.lt_succ_of_le (length_filter_le _ l)) _ rfl)

theorem firsts_sublist (l : List α) : (firsts f l).Sublist l := by
  induction l using firsts_induction (f := f) with
  | hnil => exact .slnil
  | hcons a l ih =>
    rw [firsts_cons]
    exact .cons_cons a (ih.trans filter_sublist)

variable {l : List α}

@[simp] theorem mem_map_firsts {k : κ} : k ∈ (firsts f l).map f ↔ k ∈ l.map f := by
  induction l using firsts_induction (f := f) with
  | hnil => exact Iff.rfl
  | hcons a l ih =>
    rw [firsts_cons, map_cons, mem_cons, ih, map_cons, mem_cons]
    by_cases hk : k = f a
    · simp [hk]
    · simp only [hk, false_or, mem_map, mem_filter, decide_eq_true_eq]
      constructor
      · rintro ⟨b, ⟨hb, -⟩, rfl⟩
        exact ⟨b, hb, rfl⟩
      · rintro ⟨b, hb, rfl⟩
        exact ⟨b, ⟨hb, hk⟩, rfl⟩

theorem nodup_map_firsts (l : List α) : ((firsts f l).map f).Nodup := by
  induction l using firsts_induction (f := f) with
  | hnil => exact .nil
  | hcons a l ih =>
    rw [firsts_cons, map_cons, nodup_cons, mem_map_firsts]
    refine ⟨fun hmem => ?_, ih⟩
    obtain ⟨b, hb, hfb⟩ := mem_map.mp hmem
    exact of_decide_eq_true (mem_filter.mp hb).2 hfb

/-- What is kept is the first one of its key. -/
theorem find?_of_mem_firsts {a : α} (h : a ∈ firsts f l) :
    l.find? (fun b => f b = f a) = some a := by
  induction l using firsts_induction (f := f) with
  | hnil => cases h
  | hcons b l ih =>
    rw [firsts_cons, mem_cons] at h
    rcases h with rfl | h
    · simp
    · have hne : f b ≠ f a := by
        have hmem := (mem_filter.mp ((firsts_sublist _).subset h)).2
        exact Ne.symm (of_decide_eq_true hmem)
      rw [find?_cons_of_neg (by simpa using hne), ← ih h]
      -- The entries that were dropped have another key.
      rw [find?_filter]
      congr 1
      funext c
      by_cases hc : f c = f a
      · simp [hc, hne.symm]
      · simp [hc]

/-- Where each key occurs once, all is kept. -/
theorem firsts_of_nodup (h : (l.map f).Nodup) : firsts f l = l := by
  induction l with
  | nil => rfl
  | cons a l ih =>
    obtain ⟨hnotin, hnodup⟩ := nodup_cons.mp h
    have hfilter : (l.filter fun b => f b ≠ f a) = l := by
      refine filter_eq_self.mpr fun b hb => decide_eq_true fun heq => hnotin ?_
      exact heq ▸ mem_map_of_mem hb
    rw [firsts_cons, hfilter, ih hnodup]

/-- Of a second list, what has not occurred in the first. -/
theorem firsts_append (l m : List α) :
    firsts f (l ++ m) = firsts f l ++ firsts f (m.filter fun b => f b ∉ l.map f) := by
  induction l using firsts_induction (f := f) generalizing m with
  | hnil => simp
  | hcons a l ih =>
    rw [cons_append, firsts_cons, firsts_cons, filter_append, ih, cons_append,
      filter_filter]
    congr 3
    refine filter_congr fun b _ => ?_
    rw [← Bool.decide_and, map_cons, decide_eq_decide]
    constructor
    · rintro ⟨hnotin, hne⟩ hmem
      obtain ⟨c, hc, hfc⟩ := mem_map.mp ((mem_cons.mp hmem).resolve_left hne)
      exact hnotin (mem_map.mpr
        ⟨c, mem_filter.mpr ⟨hc, decide_eq_true (hfc ▸ hne)⟩, hfc⟩)
    · intro hnotin
      refine ⟨fun hmem => hnotin (mem_cons_of_mem _ ?_), fun heq => hnotin ?_⟩
      · obtain ⟨c, hc, hfc⟩ := mem_map.mp hmem
        exact mem_map.mpr ⟨c, mem_of_mem_filter hc, hfc⟩
      · exact heq ▸ mem_cons_self

/-- Entries whose keys have occurred are dropped. -/
theorem firsts_append_of_subset {m : List α} (h : ∀ k ∈ m.map f, k ∈ l.map f) :
    firsts f (l ++ m) = firsts f l := by
  have hnone : (m.filter fun b => f b ∉ l.map f) = [] :=
    filter_eq_nil_iff.mpr fun b hb => by simpa using h _ (mem_map_of_mem hb)
  rw [firsts_append, hnone, firsts_nil, append_nil]

end Zetta
