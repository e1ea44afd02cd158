import Mathlib

/-!
# Machine integers of the console

The console's requests carry 16-bit coordinates and its arithmetic is done in `i16` and `i32`.
A cast wraps (`asI16`, `asI32`); arithmetic that leaves the type panics (`i16`, `i32`).
-/

namespace Zetta.Console

/-- A number cast to `i32`. -/
def asI32 (n : ℕ) : ℤ := Int.bmod n 4294967296

/-- The largest `i32`. -/
def I32_MAX : ℤ := 2147483647

/-- What `i32` arithmetic comes to; overflow panics. -/
def i32 (n : ℤ) : Option ℤ := if -2147483648 ≤ n ∧ n ≤ I32_MAX then some n else none

/-- What `u32` arithmetic comes to; overflow panics. -/
def u32 (n : ℕ) : Option ℕ := if n < 4294967296 then some n else none

/-- A number cast to `i16`. -/
def asI16 (n : ℤ) : ℤ := Int.bmod n 65536

/-- The largest `i16`. -/
def I16_MAX : ℤ := 32767

/-- What `i16` arithmetic comes to; overflow panics. -/
def i16 (n : ℤ) : Option ℤ := if -32768 ≤ n ∧ n ≤ I16_MAX then some n else none

/-- A 16-bit coordinate, as a request carries it. -/
abbrev I16 := {n : ℤ // -32768 ≤ n ∧ n ≤ I16_MAX}

theorem asI32_of_le {n : ℕ} (h : (n : ℤ) ≤ I32_MAX) : asI32 n = n := by
  rw [I32_MAX] at h
  exact Int.bmod_eq_of_le (by omega) (by omega)

theorem asI32_le (n : ℕ) : asI32 n ≤ I32_MAX :=
  Int.lt_add_one_iff.mp (Int.bmod_lt (by decide))

theorem i32_of_le {n : ℤ} (hmin : -2 ≤ n) (hmax : n ≤ I32_MAX) : i32 n = some n :=
  if_pos ⟨by omega, hmax⟩

theorem asI16_of_le {n : ℤ} (hmin : 0 ≤ n) (hmax : n ≤ I16_MAX) : asI16 n = n := by
  rw [I16_MAX] at hmax
  exact Int.bmod_eq_of_le (by omega) (by omega)

theorem asI16_le (n : ℤ) : asI16 n ≤ I16_MAX :=
  Int.lt_add_one_iff.mp (Int.bmod_lt (by decide))

theorem i16_of_le {n : ℤ} (hmin : 0 ≤ n) (hmax : n ≤ I16_MAX) : i16 n = some n :=
  if_pos ⟨by omega, hmax⟩

end Zetta.Console
