import Zetta.Vt100.Eviction

/-!
# What the emulator's diffs promise

The emulator itself is a parameter; what the session relies on is that its diffs do what they
are for. `Lawful em` says so: applied to a terminal that shows the same as `b` and is between
sequences (`ground`), `stateDiff a b` makes it show what `a` shows; `stateFormatted a` does so
on any terminal of the same size; and an operating system command is not shown at all.

What a terminal shows is a parameter too (`view`): everything visible, and nothing of the
parser's own state.
-/

namespace Zetta.Vt100

universe u v

/-- `ESC ] body BEL`. -/
def osc (body : List UInt8) : List UInt8 := [0x1b, 0x5d] ++ body ++ [0x07]

/-- **The diffs of an emulator do what they are for.** -/
structure Lawful {Screen : Type u} (em : Emulator Screen) (View : Type v) where
  /-- What a terminal shows. -/
  view : Screen → View
  /-- The terminal is between sequences. -/
  ground : Screen → Prop
  /-- A size is visible. -/
  size_eq : ∀ {a b}, view a = view b → em.size a = em.size b
  /-- `state_diff` turns what `b` shows into what `a` shows. -/
  diff : ∀ {a b c}, em.size a = em.size b → ground c → view c = view b →
    ground (em.run c (em.stateDiff a b)) ∧ view (em.run c (em.stateDiff a b)) = view a
  /-- `state_formatted` draws a screen on any terminal of its size. -/
  formatted : ∀ {a c}, em.size c = em.size a → ground c →
    ground (em.run c (em.stateFormatted a)) ∧ view (em.run c (em.stateFormatted a)) = view a
  /-- An operating system command is not shown. -/
  osc_eq : ∀ {c body}, ground c → (∀ b ∈ body, 0x20 ≤ b) →
    ground (em.run c (osc body)) ∧ view (em.run c (osc body)) = view c
  /-- A resize sets the size and leaves no sequence open. -/
  setSize_eq : ∀ {c} (rows cols : ℕ), ground c →
    ground (em.setSize c rows cols) ∧ em.size (em.setSize c rows cols) = (rows, cols)

end Zetta.Vt100
