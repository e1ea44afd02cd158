import Mathlib

/-!
# Logical lines

A text on a screen of fixed width is a sequence of glyphs and ends of lines (`Token`). Two texts
spell the same logical lines if they differ in blanks at the ends of lines and in empty lines at
the end only: if they are the same once these are dropped (`trim`).

* `Padded`: the second text is the first with blanks at the ends of some lines. What stands in
  front of a place in the text is at the same place in its logical line (`Padded.place_eq`), and
  both spell the same (`Padded.trim_eq`).
* `trim_append_of_blank`: what is blank at the end does not count.
-/

namespace Zetta.LogicalLines

/-- A glyph, or the end of a logical line. -/
inductive Token (G : Type*) where
  | glyph (g : G)
  | newline
  deriving DecidableEq

variable {G : Type*} {blank : G}

/-! ### Blanks at the ends of lines -/

variable (blank) in
/-- The second text is the first with blanks at the ends of lines. -/
inductive Padded : List (Token G) → List (Token G) → Prop
  | nil : Padded [] []
  | cons (t : Token G) {ts us : List (Token G)} : Padded ts us → Padded (t :: ts) (t :: us)
  | blanks (k : ℕ) {ts us : List (Token G)} : Padded ts us →
      Padded (.newline :: ts) (List.replicate k (.glyph blank) ++ .newline :: us)

namespace Padded

theorem refl (ts : List (Token G)) : Padded blank ts ts := by
  induction ts with
  | nil => exact .nil
  | cons t ts ih => exact .cons t ih

theorem append {ts us ts' us' : List (Token G)} (h : Padded blank ts us)
    (h' : Padded blank ts' us') : Padded blank (ts ++ ts') (us ++ us') := by
  induction h with
  | nil => exact h'
  | cons t _ ih => exact .cons t ih
  | blanks k _ ih =>
    rw [List.append_assoc]
    exact .blanks k ih

/-- A line with blanks behind it. -/
theorem line (ts : List (Token G)) (k : ℕ) :
    Padded blank (ts ++ [.newline]) (ts ++ List.replicate k (.glyph blank) ++ [.newline]) := by
  rw [List.append_assoc]
  exact (refl ts).append (.blanks k .nil)

end Padded

/-! ### Places in the text -/

/-- The place behind one more token: the logical line, and the number of glyphs of it. -/
def advance (place : ℕ × ℕ) : Token G → ℕ × ℕ
  | .glyph _ => (place.1, place.2 + 1)
  | .newline => (place.1 + 1, 0)

/-- The place behind a text. -/
def place (ts : List (Token G)) : ℕ × ℕ := ts.foldl advance (0, 0)

theorem place_append (ts us : List (Token G)) : place (ts ++ us) = us.foldl advance (place ts) :=
  List.foldl_append

private theorem foldl_advance_blanks (k : ℕ) (p : ℕ × ℕ) :
    (List.replicate k (.glyph blank : Token G)).foldl advance p = (p.1, p.2 + k) := by
  induction k generalizing p with
  | zero => rfl
  | succ k ih =>
    rw [List.replicate_succ, List.foldl_cons, ih, advance, Nat.add_assoc, Nat.add_comm 1]

/-- Blanks at the ends of lines do not move what comes behind them. -/
theorem Padded.place_eq {ts us : List (Token G)} (h : Padded blank ts us) (vs : List (Token G)) :
    place (ts ++ vs) = place (us ++ vs) := by
  have hfold : ∀ p, ts.foldl advance p = us.foldl advance p := by
    induction h with
    | nil => exact fun _ => rfl
    | cons t _ ih => exact fun p => ih (advance p t)
    | blanks k _ ih =>
      intro p
      rw [List.foldl_append, foldl_advance_blanks, List.foldl_cons, List.foldl_cons, ih]
      rfl
  rw [place_append, place_append, place, place, hfold]

/-! ### What a text spells -/

variable [DecidableEq G]

variable (blank) in
/-- One token in front of a text that is trimmed. -/
def trimStep (t : Token G) (rest : List (Token G)) : List (Token G) :=
  match t with
  | .newline => if rest = [] then [] else .newline :: rest
  | .glyph g =>
    if g = blank ∧ (rest = [] ∨ rest.head? = some .newline) then rest else .glyph g :: rest

variable (blank) in
/-- A text without blanks at the ends of its lines and without empty lines at its end. -/
def trim (ts : List (Token G)) : List (Token G) := ts.foldr (trimStep blank) []

theorem trim_cons (t : Token G) (ts : List (Token G)) :
    trim blank (t :: ts) = trimStep blank t (trim blank ts) :=
  rfl

theorem trim_append (ts us : List (Token G)) :
    trim blank (ts ++ us) = ts.foldr (trimStep blank) (trim blank us) :=
  List.foldr_append

variable (blank) in
/-- Nothing but blanks and ends of lines. -/
def Blank (ts : List (Token G)) : Prop := ∀ t ∈ ts, t = .newline ∨ t = .glyph blank

theorem trim_of_blank {ts : List (Token G)} (h : Blank blank ts) : trim blank ts = [] := by
  induction ts with
  | nil => rfl
  | cons t ts ih =>
    rw [trim_cons, ih fun u hu => h u (List.mem_cons_of_mem t hu)]
    rcases h t List.mem_cons_self with rfl | rfl
    · rfl
    · exact if_pos ⟨rfl, .inl rfl⟩

theorem trim_append_of_blank (ts : List (Token G)) {us : List (Token G)} (h : Blank blank us) :
    trim blank (ts ++ us) = trim blank ts := by
  rw [trim_append, trim_of_blank h]
  rfl

private theorem trim_blanks (k : ℕ) (us : List (Token G)) :
    trim blank (List.replicate k (.glyph blank) ++ .newline :: us) =
      trim blank (.newline :: us) := by
  induction k with
  | zero => rfl
  | succ k ih =>
    rw [List.replicate_succ, List.cons_append, trim_cons, ih]
    refine if_pos ⟨rfl, ?_⟩
    rw [trim_cons, trimStep]
    by_cases hnil : trim blank us = []
    · exact .inl (if_pos hnil)
    · exact .inr (by rw [if_neg hnil]; rfl)

/-- Both spell the same logical lines. -/
theorem Padded.trim_eq {ts us : List (Token G)} (h : Padded blank ts us) :
    trim blank ts = trim blank us := by
  induction h with
  | nil => rfl
  | cons t _ ih => rw [trim_cons, trim_cons, ih]
  | blanks k _ ih => rw [trim_blanks, trim_cons, trim_cons, ih]

end Zetta.LogicalLines
