import Mathlib
import Zetta.Vt100.Lawful

/-!
# A one-line emulator

`lineEmulator` is a concrete emulator of a screen with a single row: printable ASCII, `CR`,
`LF` (which scrolls the row away), `ESC c`, cursor home, erase to the end of the screen, and
every other control sequence or operating system command skipped. On such input it does what
the real emulator does to a screen of one row, and it is lawful (`lineLawful`), so that what
is proved of lawful emulators is about something.
-/

namespace Zetta.Vt100

open List

/-- Where the parser is in an escape sequence; a control sequence remembers whether it has had
a parameter. -/
inductive LineParse where
  | ground | escape | csi (parameter : Bool) | osc
  deriving DecidableEq

/-- A byte that is drawn. -/
def Printable (b : UInt8) : Prop := 0x20 ≤ b ∧ b ≤ 0x7e

instance : DecidablePred Printable := fun b =>
  inferInstanceAs (Decidable (0x20 ≤ b ∧ b ≤ 0x7e))

/-- A screen with a single row. -/
structure LineScreen where
  rows : ℕ
  cols : ℕ
  /-- What is on the row. -/
  line : List UInt8
  /-- Where the cursor is. -/
  col : ℕ
  parse : LineParse
  col_le : col ≤ line.length
  length_le : line.length ≤ cols
  printable : ∀ b ∈ line, Printable b
  deriving DecidableEq

namespace LineScreen

/-- A blank row. -/
def new (rows cols : ℕ) : LineScreen :=
  ⟨rows, cols, [], 0, .ground, le_rfl, Nat.zero_le _, by simp⟩

/-- The same screen with the parser elsewhere. -/
def setParse (s : LineScreen) (parse : LineParse) : LineScreen := { s with parse := parse }

/-- The same screen with the cursor at the start. -/
def home (s : LineScreen) : LineScreen :=
  { s with col := 0, parse := .ground, col_le := Nat.zero_le _ }

/-- The row from the cursor on is erased. -/
def erase (s : LineScreen) : LineScreen where
  rows := s.rows
  cols := s.cols
  line := s.line.take s.col
  col := s.col
  parse := .ground
  col_le := by rw [length_take, min_eq_left s.col_le]
  length_le := by
    have := s.col_le
    have := s.length_le
    rw [length_take]
    omega
  printable b hb := s.printable b (mem_of_mem_take hb)

/-- A character is drawn at the cursor. -/
def put (s : LineScreen) (b : UInt8) (hb : Printable b) (hcol : s.col < s.cols) :
    LineScreen where
  rows := s.rows
  cols := s.cols
  line := s.line.take s.col ++ b :: s.line.drop (s.col + 1)
  col := s.col + 1
  parse := s.parse
  col_le := by
    simp only [length_append, length_take, length_cons, length_drop]
    have := s.col_le
    omega
  length_le := by
    simp only [length_append, length_take, length_cons, length_drop]
    have := s.col_le
    have := s.length_le
    omega
  printable c hc := by
    rcases mem_append.mp hc with hc | hc
    · exact s.printable c (mem_of_mem_take hc)
    · rcases mem_cons.mp hc with rfl | hc
      · exact hb
      · exact s.printable c (mem_of_mem_drop hc)

/-- The row scrolls off the top. -/
def scrolled (s : LineScreen) : List GridOp :=
  if h : s.line.length < 2 ^ 32 then [.remember ⟨s.line, false, h⟩] else []

/-- One byte of output. -/
def advance (s : LineScreen) (b : UInt8) : LineScreen × List GridOp :=
  match s.parse with
  | .ground =>
    if b = 0x1b then (s.setParse .escape, [])
    else if b = 0x0d then (s.home, [])
    else if b = 0x0a then (new s.rows s.cols, s.scrolled)
    else if h : Printable b ∧ s.col < s.cols then (s.put b h.1 h.2, [])
    else (s, [])
  | .escape =>
    if b = 0x5b then (s.setParse (.csi false), [])
    else if b = 0x5d then (s.setParse .osc, [])
    else if b = 0x63 then (new s.rows s.cols, [.ris])
    else (s.setParse .ground, [])
  | .csi parameter =>
    if b < 0x40 then (s.setParse (.csi true), [])
    else if b = 0x48 ∧ parameter = false then (s.home, [])
    else if b = 0x4a ∧ parameter = false then (s.erase, [])
    else (s.setParse .ground, [])
  | .osc => if b = 0x07 then (s.setParse .ground, []) else (s, [])

/-- The screen at another size; the row is cut off if it no longer fits. -/
def setSize (s : LineScreen) (rows cols : ℕ) : LineScreen where
  rows := rows
  cols := cols
  line := s.line.take cols
  col := min s.col cols
  parse := s.parse
  col_le := by
    have := s.col_le
    rw [length_take]
    omega
  length_le := length_take_le _ _
  printable b hb := s.printable b (mem_of_mem_take hb)

/-- Home, erase, the row, and the row again up to the cursor. -/
def stateFormatted (s : LineScreen) : List UInt8 :=
  [0x1b, 0x5b, 0x48, 0x1b, 0x5b, 0x4a] ++ s.line ++ [0x0d] ++ s.line.take s.col

/-- Nothing if nothing changed, what was appended if that is all, else the whole screen. -/
def stateDiff (s previous : LineScreen) : List UInt8 :=
  if s.line = previous.line ∧ s.col = previous.col then []
  else if previous.line <+: s.line ∧ previous.col = previous.line.length ∧
      s.col = s.line.length then s.line.drop previous.line.length
  else s.stateFormatted

end LineScreen

/-- **The one-line emulator.** -/
def lineEmulator : Emulator LineScreen where
  new := LineScreen.new
  advance := LineScreen.advance
  setSizeReflow s rows cols := (s.setSize rows cols, [])
  setSize := LineScreen.setSize
  size s := (s.rows, s.cols)
  stateDiff := LineScreen.stateDiff
  stateFormatted := LineScreen.stateFormatted

/-! ### The diffs are lawful -/

namespace LineScreen

/-- What a one-line screen shows: its size, the row and the cursor. -/
def view (s : LineScreen) : (ℕ × ℕ) × List UInt8 × ℕ := ((s.rows, s.cols), s.line, s.col)

variable {s : LineScreen}

/-- Drawing a run of characters overwrites the row from the cursor on. -/
theorem run_printable (hs : s.parse = .ground) {text : List UInt8} (htext : ∀ b ∈ text, Printable b)
    (hfit : s.col + text.length ≤ s.cols) :
    (lineEmulator.run s text).parse = .ground ∧
      (lineEmulator.run s text).view = ((s.rows, s.cols),
        s.line.take s.col ++ text ++ s.line.drop (s.col + text.length), s.col + text.length) := by
  induction text generalizing s with
  | nil => simpa [Emulator.run, view] using hs
  | cons b text ih =>
    have hb : Printable b := htext b mem_cons_self
    rw [length_cons] at hfit
    have hcol : s.col < s.cols := by omega
    have hput : (lineEmulator.advance s b).1 = s.put b hb hcol := by
      have h1 : b ≠ 0x1b := by rintro rfl; exact absurd hb (by decide)
      have h2 : b ≠ 0x0d := by rintro rfl; exact absurd hb (by decide)
      have h3 : b ≠ 0x0a := by rintro rfl; exact absurd hb (by decide)
      show (s.advance b).1 = _
      rw [advance, hs]
      simp only [h1, h2, h3, if_false, hb, hcol, and_self, dif_pos]
    have hrest := ih (s := s.put b hb hcol) hs (fun b hb => htext b (mem_cons_of_mem _ hb))
      (by show s.col + 1 + text.length ≤ s.cols; omega)
    have hstep : lineEmulator.run s (b :: text) = lineEmulator.run (s.put b hb hcol) text := by
      rw [← hput]; rfl
    rw [hstep]
    refine ⟨hrest.1, hrest.2.trans ?_⟩
    have hlen : (s.line.take s.col).length = s.col := length_take_of_le s.col_le
    have htake : (s.put b hb hcol).line.take (s.col + 1) = s.line.take s.col ++ [b] := by
      show (s.line.take s.col ++ b :: s.line.drop (s.col + 1)).take (s.col + 1) = _
      rw [take_append, hlen, take_of_length_le (by omega)]
      simp
    have hdrop : (s.put b hb hcol).line.drop (s.col + 1 + text.length) =
        s.line.drop (s.col + (text.length + 1)) := by
      show (s.line.take s.col ++ b :: s.line.drop (s.col + 1)).drop (s.col + 1 + text.length) = _
      rw [drop_append, hlen, drop_of_length_le (by omega)]
      have hsub : s.col + 1 + text.length - s.col = text.length + 1 := by omega
      rw [hsub, drop_succ_cons, drop_drop, nil_append]
      congr 1
      omega
    show ((s.rows, s.cols), _ ++ text ++ _, s.col + 1 + text.length) = _
    rw [length_cons, ← hdrop]
    show ((s.rows, s.cols), (s.put b hb hcol).line.take (s.col + 1) ++ text ++ _, _) = _
    rw [htake]
    simp only [append_assoc, singleton_append]
    congr 2
    omega

/-- Home and erase leave a blank row. -/
theorem run_clear (hs : s.parse = .ground) :
    (lineEmulator.run s [0x1b, 0x5b, 0x48, 0x1b, 0x5b, 0x4a]).parse = .ground ∧
      (lineEmulator.run s [0x1b, 0x5b, 0x48, 0x1b, 0x5b, 0x4a]).view =
        ((s.rows, s.cols), [], 0) := by
  simp [Emulator.run, lineEmulator, advance, hs, setParse, home, erase, view]

/-- The whole screen is drawn on any screen of its size. -/
theorem run_stateFormatted {a c : LineScreen} (hsize : (c.rows, c.cols) = (a.rows, a.cols))
    (hc : c.parse = .ground) :
    (lineEmulator.run c a.stateFormatted).parse = .ground ∧
      (lineEmulator.run c a.stateFormatted).view = a.view := by
  obtain ⟨hrows, hcols⟩ := Prod.mk.inj hsize
  rw [stateFormatted, Emulator.run_append, Emulator.run_append, Emulator.run_append]
  obtain ⟨h1, hv1⟩ := run_clear hc
  generalize lineEmulator.run c [0x1b, 0x5b, 0x48, 0x1b, 0x5b, 0x4a] = c₁ at h1 hv1
  simp only [view, Prod.mk.injEq] at hv1
  obtain ⟨⟨hr1, hc1⟩, hl1, hcol1⟩ := hv1
  have hlen := a.length_le
  have hle := a.col_le
  obtain ⟨h2, hv2⟩ := run_printable h1 a.printable (by omega)
  generalize lineEmulator.run c₁ a.line = c₂ at h2 hv2
  simp only [view, Prod.mk.injEq, hl1, hcol1, take_nil, drop_nil, nil_append,
    append_nil] at hv2
  obtain ⟨⟨hr2, hc2⟩, hl2, -⟩ := hv2
  have h3 : lineEmulator.run c₂ [0x0d] = c₂.home := by
    simp [Emulator.run, lineEmulator, advance, h2]
  rw [h3]
  have htake : (a.line.take a.col).length = a.col := length_take_of_le hle
  have hprint : ∀ b ∈ a.line.take a.col, Printable b :=
    fun b hb => a.printable b (mem_of_mem_take hb)
  obtain ⟨h4, hv4⟩ := run_printable (s := c₂.home) rfl hprint (by show 0 + _ ≤ c₂.cols; omega)
  refine ⟨h4, hv4.trans ?_⟩
  simp [view, home, hl2, hr2, hr1, hc2, hc1, hrows, hcols, min_eq_left hle]

/-- A diff makes a screen that shows `b` show `a`. -/
theorem run_stateDiff {a b c : LineScreen} (hsize : (a.rows, a.cols) = (b.rows, b.cols))
    (hc : c.parse = .ground) (hview : c.view = b.view) :
    (lineEmulator.run c (a.stateDiff b)).parse = .ground ∧
      (lineEmulator.run c (a.stateDiff b)).view = a.view := by
  simp only [view, Prod.mk.injEq] at hview
  obtain ⟨⟨hr, hk⟩, hl, hcol⟩ := hview
  obtain ⟨hrows, hcols⟩ := Prod.mk.inj hsize
  rw [stateDiff]
  split_ifs with hsame happend
  · refine ⟨hc, ?_⟩
    show c.view = a.view
    simp only [view, hr, hk, hl, hcol, hrows, hcols, hsame.1, hsame.2]
  · obtain ⟨⟨text, htext⟩, hb, ha⟩ := happend
    have hdrop : a.line.drop b.line.length = text := by rw [← htext, drop_left]
    have hfit := a.length_le
    rw [← htext, length_append] at hfit
    have hprint : ∀ x ∈ text, Printable x :=
      fun x hx => a.printable x (htext ▸ mem_append_right _ hx)
    obtain ⟨h1, hv1⟩ := run_printable hc hprint (by omega)
    rw [hdrop]
    refine ⟨h1, hv1.trans ?_⟩
    rw [hcol, hb, hl, take_length, drop_of_length_le (by omega), append_nil, htext]
    rw [← htext, length_append] at ha
    simp only [view, hr, hk, hrows, hcols, ha]
  · exact run_stateFormatted (by simp [hr, hk, hrows, hcols]) hc

/-- The bytes of a command are skipped. -/
theorem run_osc_body (hs : s.parse = .osc) {body : List UInt8} (hbody : ∀ b ∈ body, 0x20 ≤ b) :
    lineEmulator.run s body = s := by
  induction body with
  | nil => rfl
  | cons b body ih =>
    have hb : b ≠ 0x07 := by
      rintro rfl
      exact absurd (hbody 0x07 mem_cons_self) (by decide)
    have hstep : (lineEmulator.advance s b).1 = s := by
      show (s.advance b).1 = s
      rw [advance, hs]
      simp only [hb, if_false]
    rw [show b :: body = [b] ++ body from rfl, Emulator.run_append]
    show lineEmulator.run (lineEmulator.advance s b).1 body = s
    rw [hstep]
    exact ih fun b hb => hbody b (mem_cons_of_mem _ hb)

theorem run_osc (hs : s.parse = .ground) {body : List UInt8} (hbody : ∀ b ∈ body, 0x20 ≤ b) :
    (lineEmulator.run s (osc body)).parse = .ground ∧
      (lineEmulator.run s (osc body)).view = s.view := by
  have hopen : lineEmulator.run s [0x1b, 0x5d] = s.setParse .osc := by
    simp [Emulator.run, lineEmulator, advance, hs, setParse]
  rw [osc, Emulator.run_append, Emulator.run_append, hopen, run_osc_body rfl hbody]
  exact ⟨rfl, rfl⟩

end LineScreen

/-- **The one-line emulator is lawful.** -/
def lineLawful : Lawful lineEmulator ((ℕ × ℕ) × List UInt8 × ℕ) where
  view := LineScreen.view
  ground s := s.parse = .ground
  size_eq h := (Prod.mk.inj h).1
  diff := LineScreen.run_stateDiff
  formatted := LineScreen.run_stateFormatted
  osc_eq h hbody := LineScreen.run_osc h hbody
  setSize_eq _ _ h := ⟨h, rfl⟩

end Zetta.Vt100
