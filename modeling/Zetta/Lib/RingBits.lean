import Mathlib

/-!
# Recent numbers in a ring of bits

A set of natural numbers is remembered as far as its members are among the `N` greatest numbers up
to its highest: the bit of `n` is at `n % N`. When the highest number moves up, the bits of the
numbers that are skipped are cleared, or all of them if the jump is `N` or more.
-/

namespace Zetta.RingBits

/-- The bits tell which of the `N` numbers up to the highest are in the set. -/
def Remembers (N : ℕ) (ring : ℕ → Prop) (highest : ℕ) (S : Set ℕ) : Prop :=
  ∀ n ≤ highest, highest < n + N → (ring (n % N) ↔ n ∈ S)

variable {N : ℕ} {ring ring' : ℕ → Prop} {highest n : ℕ} {S : Set ℕ}

/-- Two numbers at the same bit that are less than `N` apart are the same. -/
theorem eq_of_mod_eq {a b : ℕ} (h : a % N = b % N) (hab : a < b + N) (hba : b < a + N) : a = b := by
  have hmod : Nat.ModEq N a b := h
  rcases le_total a b with hle | hle
  · have hdvd := (Nat.modEq_iff_dvd' hle).1 hmod
    have := Nat.eq_zero_of_dvd_of_lt hdvd (by omega)
    omega
  · have hdvd := (Nat.modEq_iff_dvd' hle).1 hmod.symm
    have := Nat.eq_zero_of_dvd_of_lt hdvd (by omega)
    omega

/-- One of the `N` numbers is added. -/
theorem Remembers.add (h : Remembers N ring highest S) (hn : n ≤ highest)
    (hnear : highest < n + N) (hring : ∀ k, ring' k ↔ k = n % N ∨ ring k) :
    Remembers N ring' highest (insert n S) := by
  intro m hm hmnear
  rw [hring, h m hm hmnear, Set.mem_insert_iff]
  refine or_congr_left ⟨fun hmod => ?_, fun heq => by rw [heq]⟩
  exact eq_of_mod_eq hmod (by omega) (by omega)

/-- The highest number moves up by less than `N`. -/
theorem Remembers.advance (h : Remembers N ring highest S) (hS : ∀ m ∈ S, m ≤ highest)
    (hlt : highest < n) (hnear : n < highest + N)
    (hring : ∀ k, ring' k ↔
      k = n % N ∨ ring k ∧ ∀ stale, highest < stale → stale < n → k ≠ stale % N) :
    Remembers N ring' n (insert n S) := by
  intro m hm hmnear
  rw [hring, Set.mem_insert_iff]
  constructor
  · rintro (hmod | ⟨hbit, hfresh⟩)
    · exact .inl (eq_of_mod_eq hmod (by omega) (by omega))
    · -- a number that was skipped has been cleared
      rcases hm.lt_or_eq with hm | hm
      · have hle : m ≤ highest := by
          by_contra hgt
          exact hfresh m (by omega) hm rfl
        exact .inr ((h m hle (by omega)).1 hbit)
      · exact .inl hm
  · rintro (rfl | hmem)
    · exact .inl rfl
    · have hle := hS m hmem
      refine .inr ⟨(h m hle (by omega)).2 hmem, fun stale hgt hstale hmod => ?_⟩
      have := eq_of_mod_eq hmod (by omega) (by omega)
      omega

/-- The highest number moves up by `N` or more. -/
theorem Remembers.jump (hS : ∀ m ∈ S, m + N ≤ n) (hring : ∀ k, ring' k ↔ k = n % N) :
    Remembers N ring' n (insert n S) := by
  intro m hm hmnear
  rw [hring, Set.mem_insert_iff]
  constructor
  · intro hmod
    exact .inl (eq_of_mod_eq hmod (by omega) (by omega))
  · rintro (rfl | hmem)
    · rfl
    · have := hS m hmem
      omega

end Zetta.RingBits
