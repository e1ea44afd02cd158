import Mathlib.Data.List.Pairwise
import Mathlib.Order.Nat

/-!
# Versioned snapshots

A value changes over time, and each of its versions has a number. Snapshots of it are sent one
after the other. The numbers identify them if they never go back, and equal numbers mean equal
values: then one who keeps the last snapshot, and ignores those whose number is not new, always has
the value that was sent last.
-/

namespace Zetta

variable {α : Type*} (number : α → ℕ)

/-- What has been sent is no newer than `a`, and is `a` if it is as new. -/
def UpTo (a b : α) : Prop := number a ≤ number b ∧ (number a = number b → a = b)

/-- Snapshots in the order in which they are sent. -/
def Versioned (log : List α) : Prop := log.Pairwise (UpTo number)

/-- One who keeps the last snapshot whose number was new. -/
def follow (held update : α) : α := if number update ≤ number held then held else update

variable {number} {log : List α} {a b : α}

theorem UpTo.refl (a : α) : UpTo number a a := ⟨le_rfl, fun _ => rfl⟩

theorem upTo_of_lt (h : number a < number b) : UpTo number a b := ⟨h.le, fun heq => absurd heq h.ne⟩

theorem Versioned.concat (h : Versioned number log) (ha : ∀ b ∈ log, UpTo number b a) :
    Versioned number (log ++ [a]) := by
  refine List.pairwise_append.mpr ⟨h, List.pairwise_singleton _ _, fun b hb c hc => ?_⟩
  exact List.mem_singleton.mp hc ▸ ha b hb

/-- The number identifies a snapshot. -/
theorem Versioned.eq_of_number_eq (h : Versioned number log) (ha : a ∈ log) (hb : b ∈ log)
    (heq : number a = number b) : a = b := by
  have : Std.Symm fun a b : α => number a = number b → a = b :=
    ⟨fun _ _ hab heq => (hab heq.symm).symm⟩
  have hpairwise : log.Pairwise fun a b => number a = number b → a = b := h.imp fun hab => hab.2
  exact hpairwise.forall_of_forall (fun _ _ _ => rfl) ha hb heq

theorem Versioned.ordered (h : Versioned number log) : (log.map number).Pairwise (· ≤ ·) :=
  List.pairwise_map.mpr (h.imp fun hab => hab.1)

/-- **Nothing is missed** by following. -/
theorem Versioned.follow (h : Versioned number (a :: log)) :
    log.foldl (follow number) a = (a :: log).getLast (List.cons_ne_nil _ _) := by
  induction log generalizing a with
  | nil => rfl
  | cons b log ih =>
    obtain ⟨hhead, htail⟩ := List.pairwise_cons.mp h
    have hupTo := hhead b (List.mem_cons_self ..)
    -- What is followed is always the snapshot that has just been sent.
    have hfollow : Zetta.follow number a b = b := by
      rw [Zetta.follow]
      split
      next hle => exact hupTo.2 (le_antisymm hupTo.1 hle)
      next => rfl
    rw [List.foldl_cons, hfollow, ih htail, List.getLast_cons_cons]

end Zetta
