import Mathlib

/-!
# Numbers as bytes, the highest first

`beBytes width n` writes a number in `width` bytes, `ofBeBytes` reads one. Reading what was
written gives the number modulo `256 ^ width` (`ofBeBytes_beBytes`), the number itself if it
fits (`ofBeBytes_beBytes_of_lt`).
-/

namespace Zetta

/-- A number in some bytes, the highest first. What does not fit is cut off. -/
def beBytes : (width n : ℕ) → List UInt8
  | 0, _ => []
  | width + 1, n => beBytes width (n / 256) ++ [UInt8.ofNat n]

/-- The number that some bytes stand for. -/
def ofBeBytes (bytes : List UInt8) : ℕ := bytes.foldl (fun n b => n * 256 + b.toNat) 0

@[simp]
theorem length_beBytes (width n : ℕ) : (beBytes width n).length = width := by
  induction width generalizing n with
  | zero => rfl
  | succ width ih => rw [beBytes, List.length_append, ih, List.length_singleton]

/-- Reading what was written. -/
theorem ofBeBytes_beBytes (width n : ℕ) : ofBeBytes (beBytes width n) = n % 256 ^ width := by
  induction width generalizing n with
  | zero => exact (Nat.mod_one n).symm
  | succ width ih =>
    rw [ofBeBytes, beBytes, List.foldl_append, ← ofBeBytes, ih]
    have hbyte : (UInt8.ofNat n).toNat = n % 256 := UInt8.toNat_ofNat'
    rw [List.foldl_cons, List.foldl_nil, hbyte, pow_succ', Nat.mod_mul]
    omega

theorem ofBeBytes_beBytes_of_lt {width n : ℕ} (h : n < 256 ^ width) :
    ofBeBytes (beBytes width n) = n := (ofBeBytes_beBytes width n).trans (Nat.mod_eq_of_lt h)

end Zetta
