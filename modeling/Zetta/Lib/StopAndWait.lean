import Mathlib

/-!
# Stop and wait

A sender cuts a list into blocks, the last one shorter than the others, and sends a block only
when the one before it was acknowledged. Numbers travel modulo `modulus`, and the network may
repeat and reorder what was sent.

* **Blocks**: the first blocks of a list are a prefix of it (`take_append_block`), the whole list
  from the first short one on (`take_of_length_block_lt`).
* **Turns**: the number of blocks sent and the number accepted differ by one at most
  (`Alternates`). A number that arrives before the one awaited is `modulus` ahead of it means what
  it says (`eq_of_mod_eq`), and so a block accepted is the next one (`Alternates.accept`), an
  acknowledgement taken is for the block sent last (`Alternates.acknowledge`).
-/

namespace Zetta.StopAndWait

/-! ### Blocks -/

section Blocks

variable {α : Type*} (size : ℕ) (l : List α)

/-- The block of a number, from one on. -/
def block (n : ℕ) : List α := (l.drop ((n - 1) * size)).take size

theorem block_succ (n : ℕ) : block size l (n + 1) = (l.drop (n * size)).take size := rfl

/-- One block more. -/
theorem take_append_block (n : ℕ) :
    l.take (n * size) ++ block size l (n + 1) = l.take ((n + 1) * size) := by
  rw [block_succ, Nat.succ_mul, List.take_add]

variable {size l} {n : ℕ}

/-- **A short block is the last one.** -/
theorem take_of_length_block_lt (h : (block size l (n + 1)).length < size) :
    l.take ((n + 1) * size) = l := by
  rw [block_succ, List.length_take, List.length_drop] at h
  refine List.take_of_length_le ?_
  rw [Nat.succ_mul]
  omega

end Blocks

/-! ### Turns -/

/-- How many blocks were sent, and how many of them were accepted. -/
structure Alternates (sent accepted : ℕ) : Prop where
  le : accepted ≤ sent
  le_succ : sent ≤ accepted + 1

/-- **Numbers that are not too late** are what they say. -/
theorem eq_of_mod_eq {modulus n awaited : ℕ} (hle : n ≤ awaited) (hfresh : awaited < n + modulus)
    (hmod : n % modulus = awaited % modulus) : n = awaited := by
  have hdvd : modulus ∣ awaited - n := (Nat.modEq_iff_dvd' hle).mp hmod
  have hzero : awaited - n = 0 := Nat.eq_zero_of_dvd_of_lt hdvd (by omega)
  omega

namespace Alternates

variable {sent accepted n modulus : ℕ}

/-- A block with the number awaited is the next one, and it is the one sent last. -/
theorem accept (h : Alternates sent accepted) (hn : n ≤ sent)
    (hfresh : accepted + 1 < n + modulus) (hmod : n % modulus = (accepted + 1) % modulus) :
    n = accepted + 1 ∧ Alternates sent (accepted + 1) := by
  have heq := eq_of_mod_eq (hn.trans h.le_succ) hfresh hmod
  exact ⟨heq, heq ▸ hn, h.le_succ.trans (Nat.le_succ _)⟩

/-- An acknowledgement with the number awaited is for the block sent last. -/
theorem acknowledge (h : Alternates sent accepted) (hn : n ≤ accepted)
    (hfresh : sent < n + modulus) (hmod : n % modulus = sent % modulus) :
    n = sent ∧ Alternates (sent + 1) accepted := by
  have heq := eq_of_mod_eq (hn.trans h.le) hfresh hmod
  have hsent : sent ≤ accepted := heq ▸ hn
  exact ⟨heq, h.le.trans (Nat.le_succ _), Nat.succ_le_succ hsent⟩

end Alternates

end Zetta.StopAndWait
