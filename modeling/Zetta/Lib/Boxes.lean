import Mathlib.Algebra.Order.Field.Basic
import Mathlib.Tactic.FieldSimp
import Mathlib.Tactic.Linarith
import Mathlib.Tactic.Positivity
import Mathlib.Tactic.Ring

/-!
# Boxes that are cut in two

A box has an interval on each axis. It is cut across one axis at a share of its length there, and
the two parts are cut in turn, so that where a part of a part lies follows from the shares alone.

* `Interval` and `Box`: over any field, and any type of axes with decidable equality.
* `Box.place`: a box with coordinates in `[0, 1]` carried into another box. Placing commutes with
  cutting (`place_firstPart`, `place_secondPart`), so that a cut box needs to be understood in
  the unit box only. `Box.coordinates` is the way back.
* `Box.turn`: exchanges axes and mirrors some of them, as a rotation does. Turning a part is a
  part of the turned box, the other one where the axis is mirrored.
* `Box.Proper`: no interval is empty, which cutting at a share strictly between `0` and `1` keeps.
-/

namespace Zetta.Lib

open Function

/-! ### Intervals -/

@[ext] structure Interval (K : Type*) where
  lo : K
  hi : K
  deriving DecidableEq

namespace Interval

variable {K : Type*} [Field K]

def length (i : Interval K) : K := i.hi - i.lo

/-- The point at a share of the way. -/
def point (i : Interval K) (share : K) : K := i.lo + i.length * share

def firstPart (i : Interval K) (share : K) : Interval K := ⟨i.lo, i.point share⟩

def secondPart (i : Interval K) (share : K) : Interval K := ⟨i.point share, i.hi⟩

/-- An interval of shares of another one. -/
def place (i j : Interval K) : Interval K := ⟨i.point j.lo, i.point j.hi⟩

/-- An interval in shares of another one. -/
def coordinates (i j : Interval K) : Interval K :=
  ⟨(j.lo - i.lo) / i.length, (j.hi - i.lo) / i.length⟩

/-- The interval seen from the other end of `[0, 1]`. -/
def mirror (i : Interval K) : Interval K := ⟨1 - i.hi, 1 - i.lo⟩

def unit : Interval K := ⟨0, 1⟩

@[simp] theorem unit_lo : (unit : Interval K).lo = 0 := rfl

@[simp] theorem unit_hi : (unit : Interval K).hi = 1 := rfl

@[simp] theorem length_unit : (unit : Interval K).length = 1 := sub_zero 1

variable (i : Interval K)

@[simp] theorem lo_add_length : i.lo + i.length = i.hi := add_sub_cancel ..

variable (share : K)

@[simp] theorem firstPart_lo : (i.firstPart share).lo = i.lo := rfl

@[simp] theorem firstPart_hi :
    (i.firstPart share).hi = i.point share := rfl

@[simp] theorem secondPart_lo :
    (i.secondPart share).lo = i.point share := rfl

@[simp] theorem secondPart_hi : (i.secondPart share).hi = i.hi := rfl

@[simp] theorem length_firstPart : (i.firstPart share).length = i.length * share := by
  simp only [length, firstPart, point]
  ring

@[simp] theorem length_secondPart : (i.secondPart share).length = i.length * (1 - share) := by
  simp only [length, secondPart, point]
  ring

@[simp] theorem length_place (i j : Interval K) : (i.place j).length = i.length * j.length := by
  simp only [length, place, point]
  ring

@[simp] theorem place_unit : i.place unit = i := by
  ext <;> simp [place, point, length]

theorem place_firstPart (i j : Interval K) (share : K) :
    i.place (j.firstPart share) = (i.place j).firstPart share := by
  ext
  · rfl
  · simp only [place, firstPart, point, length]
    ring

theorem place_secondPart (i j : Interval K) (share : K) :
    i.place (j.secondPart share) = (i.place j).secondPart share := by
  ext
  · simp only [place, secondPart, point, length]
    ring
  · rfl

theorem coordinates_place {i : Interval K} (h : i.length ≠ 0) (j : Interval K) :
    i.coordinates (i.place j) = j := by
  have hback : ∀ share, (i.point share - i.lo) / i.length = share := by
    intro share
    rw [point, add_sub_cancel_left, mul_div_cancel_left₀ _ h]
  ext
  · exact hback j.lo
  · exact hback j.hi

@[simp] theorem mirror_unit : (unit : Interval K).mirror = unit := by
  ext <;> simp [mirror]

@[simp] theorem length_mirror : i.mirror.length = i.length := by
  simp only [length, mirror]
  ring

/-- The first part is the second one from the other end. -/
theorem mirror_firstPart : (i.firstPart share).mirror = i.mirror.secondPart (1 - share) := by
  ext
  · simp only [mirror, firstPart, secondPart, point, length]
    ring
  · rfl

theorem mirror_secondPart : (i.secondPart share).mirror = i.mirror.firstPart (1 - share) := by
  ext
  · rfl
  · simp only [mirror, firstPart, secondPart, point, length]
    ring

section Order

variable [LinearOrder K] [IsStrictOrderedRing K] {i : Interval K} {share : K}

theorem lo_lt_point (h : 0 < i.length) (hpos : 0 < share) : i.lo < i.point share :=
  lt_add_of_pos_right _ (mul_pos h hpos)

theorem point_lt_hi (h : 0 < i.length) (hlt : share < 1) : i.point share < i.hi := by
  have hlen := mul_lt_of_lt_one_right h hlt
  rw [point]
  linarith [i.lo_add_length]

end Order

end Interval

/-! ### Boxes -/

abbrev Box (A K : Type*) := A → Interval K

namespace Box

variable {A K : Type*} [Field K]

/-- A box of shares of another one. -/
def place (b c : Box A K) : Box A K := fun axis => (b axis).place (c axis)

/-- A box in shares of another one. -/
def coordinates (b c : Box A K) : Box A K := fun axis => (b axis).coordinates (c axis)

def unit : Box A K := fun _ => Interval.unit

/-- The box with its axes exchanged, some of them mirrored. -/
def turn (σ : A → A) (mirrored : A → Bool) (b : Box A K) : Box A K := fun axis =>
  if mirrored axis then (b (σ axis)).mirror else b (σ axis)

variable (b : Box A K)

@[simp] theorem place_unit : b.place unit = b := by
  funext axis
  exact Interval.place_unit _

@[simp] theorem turn_unit (σ : A → A) (mirrored : A → Bool) :
    (unit : Box A K).turn σ mirrored = unit := by
  funext axis
  cases h : mirrored axis <;> simp [turn, unit, h]

variable [DecidableEq A]

/-- The part of a box up to a share of its length on an axis. -/
def firstPart (b : Box A K) (axis : A) (share : K) : Box A K :=
  update b axis ((b axis).firstPart share)

/-- The part of a box from a share of its length on an axis. -/
def secondPart (b : Box A K) (axis : A) (share : K) : Box A K :=
  update b axis ((b axis).secondPart share)

variable (axis : A) (share : K)

@[simp] theorem firstPart_same :
    b.firstPart axis share axis = (b axis).firstPart share := update_self ..

@[simp] theorem secondPart_same :
    b.secondPart axis share axis = (b axis).secondPart share := update_self ..

theorem firstPart_of_ne {axis other : A} (h : other ≠ axis) (b : Box A K) (share : K) :
    b.firstPart axis share other = b other := update_of_ne h ..

theorem secondPart_of_ne {axis other : A} (h : other ≠ axis) (b : Box A K) (share : K) :
    b.secondPart axis share other = b other := update_of_ne h ..

theorem place_firstPart (b c : Box A K) (axis : A) (share : K) :
    b.place (c.firstPart axis share) = (b.place c).firstPart axis share := by
  funext other
  by_cases h : other = axis
  · subst h
    simp [place, Interval.place_firstPart]
  · simp [place, firstPart_of_ne h]

theorem place_secondPart (b c : Box A K) (axis : A) (share : K) :
    b.place (c.secondPart axis share) = (b.place c).secondPart axis share := by
  funext other
  by_cases h : other = axis
  · subst h
    simp [place, Interval.place_secondPart]
  · simp [place, secondPart_of_ne h]

@[simp] theorem lo_firstPart (other : A) : (b.firstPart axis share other).lo = (b other).lo := by
  by_cases h : other = axis
  · subst h
    simp
  · rw [firstPart_of_ne h]

@[simp] theorem hi_secondPart (other : A) : (b.secondPart axis share other).hi = (b other).hi := by
  by_cases h : other = axis
  · subst h
    simp
  · rw [secondPart_of_ne h]

section Turn

variable {σ : A → A} (hσ : Function.Involutive σ) {mirrored : A → Bool}
include hσ

variable {axis : A}

/-- Across an axis that is not mirrored, the first part turns into the first part. -/
theorem turn_firstPart (h : mirrored (σ axis) = false) (b : Box A K) (share : K) :
    (b.firstPart axis share).turn σ mirrored = (b.turn σ mirrored).firstPart (σ axis) share := by
  funext other
  by_cases hother : other = σ axis
  · subst hother
    simp [turn, h, hσ axis]
  · have hne : σ other ≠ axis := fun heq => hother (by rw [← heq, hσ other])
    rw [firstPart_of_ne hother, turn, turn, firstPart_of_ne hne]

theorem turn_secondPart (h : mirrored (σ axis) = false) (b : Box A K) (share : K) :
    (b.secondPart axis share).turn σ mirrored = (b.turn σ mirrored).secondPart (σ axis) share := by
  funext other
  by_cases hother : other = σ axis
  · subst hother
    simp [turn, h, hσ axis]
  · have hne : σ other ≠ axis := fun heq => hother (by rw [← heq, hσ other])
    rw [secondPart_of_ne hother, turn, turn, secondPart_of_ne hne]

/-- Across an axis that is mirrored, the parts change places. -/
theorem turn_firstPart_mirrored (h : mirrored (σ axis) = true) (b : Box A K) (share : K) :
    (b.firstPart axis share).turn σ mirrored =
      (b.turn σ mirrored).secondPart (σ axis) (1 - share) := by
  funext other
  by_cases hother : other = σ axis
  · subst hother
    simp [turn, h, hσ axis, Interval.mirror_firstPart]
  · have hne : σ other ≠ axis := fun heq => hother (by rw [← heq, hσ other])
    rw [secondPart_of_ne hother, turn, turn, firstPart_of_ne hne]

theorem turn_secondPart_mirrored (h : mirrored (σ axis) = true) (b : Box A K) (share : K) :
    (b.secondPart axis share).turn σ mirrored =
      (b.turn σ mirrored).firstPart (σ axis) (1 - share) := by
  funext other
  by_cases hother : other = σ axis
  · subst hother
    simp [turn, h, hσ axis, Interval.mirror_secondPart]
  · have hne : σ other ≠ axis := fun heq => hother (by rw [← heq, hσ other])
    rw [firstPart_of_ne hother, turn, turn, secondPart_of_ne hne]

end Turn

section Order

variable [LinearOrder K] [IsStrictOrderedRing K]

/-- No interval of the box is empty. -/
def Proper (b : Box A K) : Prop := ∀ axis, 0 < (b axis).length

omit [DecidableEq A] in
theorem proper_unit : (unit : Box A K).Proper := by
  intro axis
  simp [unit]

variable {b : Box A K} {share : K}

theorem Proper.firstPart (h : b.Proper) (axis : A) (hpos : 0 < share) :
    (b.firstPart axis share).Proper := by
  intro other
  by_cases hother : other = axis
  · subst hother
    rw [firstPart_same, Interval.length_firstPart]
    exact mul_pos (h other) hpos
  · rw [firstPart_of_ne hother]
    exact h other

theorem Proper.secondPart (h : b.Proper) (axis : A) (hlt : share < 1) :
    (b.secondPart axis share).Proper := by
  intro other
  by_cases hother : other = axis
  · subst hother
    rw [secondPart_same, Interval.length_secondPart]
    exact mul_pos (h other) (sub_pos.mpr hlt)
  · rw [secondPart_of_ne hother]
    exact h other

omit [DecidableEq A] [IsStrictOrderedRing K] in
theorem Proper.coordinates_place (h : b.Proper) (c : Box A K) :
    b.coordinates (b.place c) = c := by
  funext axis
  exact Interval.coordinates_place (h axis).ne' (c axis)

/-- No interval of the box is turned round. -/
def Ordered (b : Box A K) : Prop := ∀ axis, 0 ≤ (b axis).length

omit [DecidableEq A] [IsStrictOrderedRing K] in
theorem Proper.ordered (h : b.Proper) : b.Ordered := fun axis => (h axis).le

theorem Ordered.firstPart (h : b.Ordered) (axis : A) (hnonneg : 0 ≤ share) :
    (b.firstPart axis share).Ordered := by
  intro other
  by_cases hother : other = axis
  · subst hother
    rw [firstPart_same, Interval.length_firstPart]
    exact mul_nonneg (h other) hnonneg
  · rw [firstPart_of_ne hother]
    exact h other

theorem Ordered.secondPart (h : b.Ordered) (axis : A) (hle : share ≤ 1) :
    (b.secondPart axis share).Ordered := by
  intro other
  by_cases hother : other = axis
  · subst hother
    rw [secondPart_same, Interval.length_secondPart]
    exact mul_nonneg (h other) (sub_nonneg.mpr hle)
  · rw [secondPart_of_ne hother]
    exact h other

theorem Ordered.firstPart_hi_le (h : b.Ordered) (axis : A) (hle : share ≤ 1) (other : A) :
    (b.firstPart axis share other).hi ≤ (b other).hi := by
  by_cases hother : other = axis
  · subst hother
    have hlen := mul_le_of_le_one_right (h other) hle
    rw [firstPart_same, Interval.firstPart_hi, Interval.point]
    linarith [(b other).lo_add_length]
  · rw [firstPart_of_ne hother]

theorem Ordered.le_secondPart_lo (h : b.Ordered) (axis : A) (hnonneg : 0 ≤ share) (other : A) :
    (b other).lo ≤ (b.secondPart axis share other).lo := by
  by_cases hother : other = axis
  · subst hother
    rw [secondPart_same]
    exact le_add_of_nonneg_right (mul_nonneg (h other) hnonneg)
  · rw [secondPart_of_ne hother]

end Order

end Box

end Zetta.Lib
