import Mathlib

/-!
# Ordered maps as sorted association lists

`OrdMap κ β` is a finite map whose keys are kept in increasing order; the order is a field,
so that an unsorted map cannot be built. The operations are those of an ordered tree map that
queues of numbered states need: `insert`, lookup (`get?`), the greatest entry at or below a
key (`floor?`), dropping the smallest entries (`keepLast`), keeping the entries above a key
(`above`) and mapping the values (`mapValues`).

Every operation comes with the entries it leaves (`mem_insert`, `mem_above`, …) and the two
lookups with their characterisations (`get?_eq_some_iff`, `floor?_eq_some_iff`), so that no
proof about a map has to look inside the list.
-/

namespace Zetta

open List

universe u v w

/-- A finite map with its entries in increasing order of keys. -/
structure OrdMap (κ : Type u) (β : Type v) [LinearOrder κ] where
  /-- The entries. -/
  entries : List (κ × β)
  /-- The keys increase. -/
  sorted : entries.Pairwise fun x y => x.1 < y.1

namespace OrdMap

variable {κ : Type u} {β : Type v} {γ : Type w} [LinearOrder κ]

instance [DecidableEq β] : DecidableEq (OrdMap κ β) := fun m m' =>
  decidable_of_iff (m.entries = m'.entries) (by cases m; cases m'; simp)

/-- The map without entries. -/
def empty : OrdMap κ β := ⟨[], .nil⟩

/-- How many entries the map has. -/
def size (m : OrdMap κ β) : ℕ := m.entries.length

/-- The value at a key. -/
def get? (m : OrdMap κ β) (k : κ) : Option β :=
  (m.entries.find? fun x => x.1 = k).map Prod.snd

/-- The entry with the greatest key at or below `k`. -/
def floor? (m : OrdMap κ β) (k : κ) : Option (κ × β) :=
  (m.entries.filter fun x => x.1 ≤ k).getLast?

/-- Sets the value at a key. -/
def insert (m : OrdMap κ β) (k : κ) (b : β) : OrdMap κ β where
  entries := m.entries.filter (fun x => x.1 < k) ++ (k, b) :: m.entries.filter (fun x => k < x.1)
  sorted := by
    simp only [pairwise_append, pairwise_cons, mem_filter, mem_cons,
      decide_eq_true_eq]
    refine ⟨m.sorted.filter _, ⟨fun x hx => hx.2, m.sorted.filter _⟩, ?_⟩
    rintro x ⟨-, hx⟩ y (rfl | ⟨-, hy⟩)
    · exact hx
    · exact hx.trans hy

/-- Removes a key. -/
def erase (m : OrdMap κ β) (k : κ) : OrdMap κ β where
  entries := m.entries.filter (fun x => x.1 < k) ++ m.entries.filter (fun x => k < x.1)
  sorted := by
    simp only [pairwise_append, mem_filter, decide_eq_true_eq]
    exact ⟨m.sorted.filter _, m.sorted.filter _, fun x hx y hy => hx.2.trans hy.2⟩

/-- The sum of a function of the values. -/
def sumBy (f : β → ℕ) (m : OrdMap κ β) : ℕ := (m.entries.map fun x => f x.2).sum

/-- Removes the smallest entries while there are more than `cap`. -/
def keepLast (m : OrdMap κ β) (cap : ℕ) : OrdMap κ β where
  entries := m.entries.rtake cap
  sorted := m.sorted.drop

/-- The entries with a key above `k`. -/
def above (m : OrdMap κ β) (k : κ) : OrdMap κ β where
  entries := m.entries.filter fun x => k < x.1
  sorted := m.sorted.filter _

/-- The entries whose key meets a test. -/
def retain (m : OrdMap κ β) (p : κ → Bool) : OrdMap κ β where
  entries := m.entries.filter fun x => p x.1
  sorted := m.sorted.filter _

/-- Applies a function to every value. -/
def mapValues (f : β → γ) (m : OrdMap κ β) : OrdMap κ γ where
  entries := m.entries.map fun x => (x.1, f x.2)
  sorted := by rw [pairwise_map]; exact m.sorted

/-! ### The entries each operation leaves -/

@[simp] theorem entries_empty : (empty : OrdMap κ β).entries = [] := rfl

@[simp] theorem entries_keepLast (m : OrdMap κ β) (cap : ℕ) :
    (m.keepLast cap).entries = m.entries.rtake cap := rfl

@[simp] theorem entries_above (m : OrdMap κ β) (k : κ) :
    (m.above k).entries = m.entries.filter fun x => k < x.1 := rfl

@[simp] theorem entries_mapValues (m : OrdMap κ β) (f : β → γ) :
    (m.mapValues f).entries = m.entries.map fun x => (x.1, f x.2) := rfl

@[simp] theorem size_empty : (empty : OrdMap κ β).size = 0 := rfl

variable {m : OrdMap κ β} {k : κ} {b : β} {x : κ × β}

@[simp] theorem mem_insert :
    x ∈ (m.insert k b).entries ↔ x = (k, b) ∨ x ∈ m.entries ∧ x.1 ≠ k := by
  simp only [insert, mem_append, mem_filter, mem_cons, decide_eq_true_eq]
  have hne : x.1 ≠ k ↔ x.1 < k ∨ k < x.1 := ne_iff_lt_or_gt
  tauto

@[simp] theorem mem_erase :
    x ∈ (m.erase k).entries ↔ x ∈ m.entries ∧ x.1 ≠ k := by
  simp only [erase, mem_append, mem_filter, decide_eq_true_eq]
  have hne : x.1 ≠ k ↔ x.1 < k ∨ k < x.1 := ne_iff_lt_or_gt
  tauto

theorem mem_above :
    x ∈ (m.above k).entries ↔ x ∈ m.entries ∧ k < x.1 := by
  simp

theorem mem_retain {p : κ → Bool} :
    x ∈ (m.retain p).entries ↔ x ∈ m.entries ∧ p x.1 = true := by
  simp [retain]

theorem mem_mapValues {f : β → γ} {x : κ × γ} :
    x ∈ (m.mapValues f).entries ↔ ∃ b, (x.1, b) ∈ m.entries ∧ f b = x.2 := by
  obtain ⟨k, c⟩ := x
  simp

theorem mem_of_mem_keepLast {cap : ℕ} (h : x ∈ (m.keepLast cap).entries) : x ∈ m.entries :=
  mem_of_mem_drop h

/-- Two entries with one key are one entry. -/
theorem eq_of_key_eq {y : κ × β} (hx : x ∈ m.entries) (hy : y ∈ m.entries) (h : x.1 = y.1) :
    x = y := by
  have hnodup : (m.entries.map Prod.fst).Nodup := by
    rw [List.Nodup, pairwise_map]
    exact m.sorted.imp fun hlt => hlt.ne
  exact inj_on_of_nodup_map hnodup hx hy h

/-- Inserting above every key appends. -/
theorem entries_insert_of_forall_lt (h : ∀ x ∈ m.entries, x.1 < k) :
    (m.insert k b).entries = m.entries ++ [(k, b)] := by
  have hlow : m.entries.filter (fun x => x.1 < k) = m.entries :=
    filter_eq_self.mpr fun x hx => decide_eq_true (h x hx)
  have hhigh : m.entries.filter (fun x => k < x.1) = [] :=
    filter_eq_nil_iff.mpr fun x hx => by simpa using (h x hx).le
  simp [insert, hlow, hhigh]

/-! ### The lookups -/

theorem get?_eq_some_iff :
    m.get? k = some b ↔ (k, b) ∈ m.entries := by
  constructor
  · intro h
    obtain ⟨x, hx, rfl⟩ := Option.map_eq_some_iff.mp h
    have hk : x.1 = k := by simpa using find?_some hx
    exact hk ▸ mem_of_find?_eq_some hx
  · intro h
    cases hf : m.entries.find? fun x => x.1 = k with
    | none =>
      have := find?_eq_none.mp hf _ h
      simp at this
    | some x =>
      have hk : x.1 = k := by simpa using find?_some hf
      have hx := eq_of_key_eq (mem_of_find?_eq_some hf) h hk
      simp [get?, hf, hx]

theorem get?_eq_none_iff :
    m.get? k = none ↔ ∀ x ∈ m.entries, x.1 ≠ k := by
  simp [get?, find?_eq_none]

/-- The floor of `k` is the entry at or below `k` that no other such entry exceeds. -/
theorem floor?_eq_some_iff :
    m.floor? k = some x ↔
      x ∈ m.entries ∧ x.1 ≤ k ∧ ∀ y ∈ m.entries, y.1 ≤ k → y.1 ≤ x.1 := by
  have hmem : ∀ y, y ∈ m.entries.filter (fun x => x.1 ≤ k) ↔ y ∈ m.entries ∧ y.1 ≤ k := by
    simp
  have hfloor : ∀ x, m.floor? k = some x →
      x ∈ m.entries ∧ x.1 ≤ k ∧ ∀ y ∈ m.entries, y.1 ≤ k → y.1 ≤ x.1 := by
    intro x h
    have hx := (hmem x).mp (mem_of_getLast? h)
    refine ⟨hx.1, hx.2, fun y hy hyk => ?_⟩
    obtain ⟨ys, hys⟩ := getLast?_eq_some_iff.mp h
    have hsorted : (ys ++ [x]).Pairwise fun x y => x.1 < y.1 := hys ▸ m.sorted.filter _
    have hy' : y ∈ ys ++ [x] := hys ▸ (hmem y).mpr ⟨hy, hyk⟩
    rcases mem_append.mp hy' with hy' | hy'
    · exact ((pairwise_append.mp hsorted).2.2 y hy' x (by simp)).le
    · rw [mem_singleton.mp hy']
  refine ⟨hfloor x, fun ⟨hx, hxk, hmax⟩ => ?_⟩
  cases h : m.floor? k with
  | none =>
    have hnil := getLast?_eq_none_iff.mp h
    have hx' := (hmem x).mpr ⟨hx, hxk⟩
    simp [hnil] at hx'
  | some z =>
    obtain ⟨hz, hzk, hzmax⟩ := hfloor z h
    have hkey := le_antisymm (hmax z hz hzk) (hzmax x hx hxk)
    rw [eq_of_key_eq hz hx hkey]

theorem floor?_eq_none_iff :
    m.floor? k = none ↔ ∀ x ∈ m.entries, k < x.1 := by
  simp [floor?]

/-- A map is determined by its entries, whatever their order. -/
theorem ext_mem {m' : OrdMap κ β} (h : ∀ x, x ∈ m.entries ↔ x ∈ m'.entries) : m = m' := by
  have hnodup : ∀ m : OrdMap κ β, m.entries.Nodup := fun m =>
    m.sorted.imp fun hlt heq => hlt.ne (congrArg Prod.fst heq)
  have hperm : m.entries.Perm m'.entries :=
    (perm_ext_iff_of_nodup (hnodup m) (hnodup m')).mpr h
  have heq : m.entries = m'.entries :=
    hperm.eq_of_pairwise (fun x y _ _ hxy hyx => absurd hyx hxy.not_gt) m.sorted m'.sorted
  cases m
  cases m'
  simp_all

/-- Looking up what was inserted. -/
theorem get?_insert (m : OrdMap κ β) (k k' : κ) (b : β) :
    (m.insert k b).get? k' = if k' = k then some b else m.get? k' := by
  ext c
  rw [get?_eq_some_iff, mem_insert]
  by_cases h : k' = k
  · rw [if_pos h]
    constructor
    · rintro (heq | ⟨-, hne⟩)
      · rw [(Prod.mk.inj heq).2]
      · exact absurd h hne
    · intro heq
      exact .inl (by rw [h, Option.some.inj heq])
  · rw [if_neg h, get?_eq_some_iff]
    constructor
    · rintro (heq | ⟨hmem, -⟩)
      · exact absurd (Prod.mk.inj heq).1 h
      · exact hmem
    · exact fun hmem => .inr ⟨hmem, h⟩

/-- Looking up after a key is removed. -/
theorem get?_erase (m : OrdMap κ β) (k k' : κ) :
    (m.erase k).get? k' = if k' = k then none else m.get? k' := by
  ext c
  rw [get?_eq_some_iff, mem_erase]
  by_cases h : k' = k
  · simp [h]
  · rw [if_neg h, get?_eq_some_iff]
    exact and_iff_left h

/-- Looking up what was retained. -/
theorem get?_retain (m : OrdMap κ β) (p : κ → Bool) (k : κ) :
    (m.retain p).get? k = if p k then m.get? k else none := by
  ext c
  rw [get?_eq_some_iff, mem_retain]
  split_ifs with h
  · rw [get?_eq_some_iff]
    exact and_iff_left h
  · simp [h]

/-- Looking up what was mapped. -/
theorem get?_mapValues (m : OrdMap κ β) (f : β → γ) (k : κ) :
    (m.mapValues f).get? k = (m.get? k).map f := by
  ext c
  rw [get?_eq_some_iff, mem_mapValues, Option.map_eq_some_iff]
  simp only [get?_eq_some_iff]

private theorem insert_of_get? (h : m.get? k = some b) :
    m.insert k b = m := by
  refine ext_mem fun x => ?_
  rw [mem_insert]
  have hmem := get?_eq_some_iff.mp h
  constructor
  · rintro (rfl | ⟨hx, -⟩)
    · exact hmem
    · exact hx
  · intro hx
    by_cases hk : x.1 = k
    · exact .inl (eq_of_key_eq hx hmem hk)
    · exact .inr ⟨hx, hk⟩

theorem erase_of_get?_eq_none (h : m.get? k = none) :
    m.erase k = m :=
  ext_mem fun x => by
    rw [mem_erase]
    exact and_iff_left_of_imp (get?_eq_none_iff.mp h x)

variable (f : β → ℕ)

/-- An inserted value is counted beside the entries at other keys. -/
theorem sumBy_insert (m : OrdMap κ β) (k : κ) (b : β) :
    (m.insert k b).sumBy f = (m.erase k).sumBy f + f b := by
  simp only [sumBy, insert, erase, map_append, map_cons, sum_append, sum_cons]
  omega

/-- A value is counted beside the entries at other keys. -/
theorem sumBy_eq_of_get? (h : m.get? k = some b) : m.sumBy f = (m.erase k).sumBy f + f b := by
  rw [← sumBy_insert, insert_of_get? h]

/-- The values of a map are worth at least one of them. -/
theorem le_sumBy (h : m.get? k = some b) : f b ≤ m.sumBy f := by
  rw [sumBy_eq_of_get? f h]
  exact Nat.le_add_left _ _

/-- Values that are worth something are counted. -/
theorem sumBy_eq_zero_iff : m.sumBy f = 0 ↔ ∀ k b, m.get? k = some b → f b = 0 := by
  constructor
  · exact fun h k b hb => Nat.eq_zero_of_le_zero ((le_sumBy f hb).trans h.le)
  · intro h
    rw [sumBy, sum_eq_zero_iff]
    intro n hn
    obtain ⟨x, hx, rfl⟩ := mem_map.mp hn
    exact h x.1 x.2 (get?_eq_some_iff.mpr hx)

end OrdMap

end Zetta
