import Mathlib
import Zetta.Vt100.Lawful
import Zetta.Zosh.Server.Accounts

/-!
# Frames applied to the terminal they were built for

A frame is a resize, if the sizes differ, and bytes for the terminal: title, clear marker and
scrollback marker as operating system commands, then the screen diff. For a lawful emulator
**a frame does what it is for** (`frameOf_applyTo`): applied to a terminal that shows what the
base shows, it makes it show what the server's terminal shows.

The title is the only part whose bytes the program chooses; the scanner keeps control bytes
out of it (`TitleScanner.Clean`), so that the command it is sent in ends where it should.
-/

namespace Zetta.Zosh.Server

open Vt100

universe u v

/-- No control byte. -/
def NoControl (bytes : List UInt8) : Prop := ∀ b ∈ bytes, 0x20 ≤ b

instance (bytes : List UInt8) : Decidable (NoControl bytes) :=
  inferInstanceAs (Decidable (∀ b ∈ bytes, 0x20 ≤ b))

theorem NoControl.append {xs ys : List UInt8} (hx : NoControl xs) (hy : NoControl ys) :
    NoControl (xs ++ ys) := fun b hb =>
  (List.mem_append.mp hb).elim (hx b) (hy b)

/-! ### Titles -/

namespace TitleScanner

/-- The title, and what is read of the next one, hold no control byte. -/
structure Clean (t : TitleScanner) : Prop where
  pending : NoControl t.pending
  title : ∀ title, t.title = some title → NoControl title

theorem clean_new : new.Clean := ⟨by simp [new, NoControl], by simp [new]⟩

private theorem noControl_encodeLatin1 {byte : UInt8} (h : ¬ byte < 0x20) :
    NoControl (encodeLatin1 byte) := by
  intro b hb
  rw [encodeLatin1] at hb
  split_ifs at hb with hlt
  · rw [List.mem_singleton.mp hb]
    exact UInt8.not_lt.mp h
  · have hor : ∀ x y : UInt8, x ≤ x ||| y := fun x y => by
      rw [UInt8.le_iff_toNat_le, UInt8.toNat_or]
      exact Nat.left_le_or
    rcases List.mem_cons.mp hb with rfl | hb
    · exact UInt8.le_trans (show (0x20 : UInt8) ≤ 0xc0 by decide) (hor 0xc0 _)
    · rw [List.mem_singleton.mp hb]
      exact UInt8.le_trans (show (0x20 : UInt8) ≤ 0x80 by decide) (hor 0x80 _)

variable {t : TitleScanner}

theorem Clean.finish (h : t.Clean) : t.finish.Clean := by
  refine ⟨by simp [TitleScanner.finish, NoControl], fun title htitle => ?_⟩
  simp only [TitleScanner.finish] at htitle
  split_ifs at htitle
  · exact Option.some.inj htitle ▸ h.pending
  · exact h.title title htitle

theorem Clean.stepText (h : t.Clean) (byte : UInt8) : (t.stepText byte).Clean := by
  rw [TitleScanner.stepText]
  split_ifs with h1 h2 h3 h4 h5
  · exact h.finish
  · exact ⟨h.pending, h.title⟩
  · exact ⟨h.pending, h.title⟩
  · exact ⟨h.pending, h.title⟩
  · exact ⟨h.pending.append (noControl_encodeLatin1 fun hlt => h5 (.inl hlt)), h.title⟩
  · exact h

theorem Clean.step (h : t.Clean) (byte : UInt8) : (t.step byte).Clean := by
  rw [TitleScanner.step]
  split
  · split_ifs
    · exact ⟨h.pending, h.title⟩
    · exact h
  · split_ifs
    · exact ⟨by simp [NoControl], h.title⟩
    · exact ⟨h.pending, h.title⟩
  · split_ifs <;> exact ⟨h.pending, h.title⟩
  · exact h.stepText byte
  · exact h.stepText byte
  · split_ifs
    · exact h.finish
    · exact h
    · exact Clean.stepText (t := { t with state := .text }) ⟨h.pending, h.title⟩ byte

theorem Clean.feed (h : t.Clean) (bytes : List UInt8) : (t.feed bytes).Clean := by
  induction bytes generalizing t with
  | nil => exact h
  | cons byte bytes ih => exact ih (h.step byte)

end TitleScanner

/-! ### The parts of a frame are commands -/

/-- What a frame does to a terminal: the size first, then the bytes. -/
def TerminalFrame.applyTo {Screen : Type u} (em : Emulator Screen) (frame : TerminalFrame)
    (c : Screen) : Screen :=
  em.run ((frame.resize.map fun size => em.setSize c size.1 size.2).getD c) frame.hostBytes

private theorem noControl_decimal (n : ℕ) : NoControl (Decimal.decimal n) := fun _ hb =>
  UInt8.le_trans (show (0x20 : UInt8) ≤ 0x30 by decide) (Decimal.isDigit_of_mem_decimal hb).1

private theorem noControl_encode [Base64] (bytes : List UInt8) : NoControl (Base64.encode bytes) :=
  fun _ hb => UInt8.le_trans (show (0x20 : UInt8) ≤ 0x2b by decide) (Base64.mem_encode hb).1

theorem titleEscape_eq_osc (title : List UInt8) :
    titleEscape title = osc ([0x30, 0x3b] ++ title) := by
  simp [titleEscape, osc]

/-- `777;zosh-clear-scrollback;`. -/
def clearPrefixBody : List UInt8 := CLEAR_SCROLLBACK_MARKER_PREFIX.drop 2

/-- `777;zosh-scrollback;`. -/
def scrollbackPrefixBody : List UInt8 := SCROLLBACK_MARKER_PREFIX.drop 2

theorem scrollbackClearMarker_eq_osc (generation : ℕ) :
    scrollbackClearMarker generation = osc (clearPrefixBody ++ Decimal.decimal generation) := by
  simp [scrollbackClearMarker, osc, clearPrefixBody, CLEAR_SCROLLBACK_MARKER_PREFIX]

theorem scrollbackMarker_eq_osc [Base64] (rows : List PendingRow) (total : ℕ) :
    scrollbackMarker rows total = osc (scrollbackPrefixBody ++
      Decimal.decimal (markerFirst rows total) ++ [0x3b] ++
        Base64.encode (markerPayload rows)) := by
  simp [scrollbackMarker, osc, scrollbackPrefixBody, SCROLLBACK_MARKER_PREFIX]

namespace TerminalState

variable {Screen : Type u} {View : Type v} {em : Emulator Screen} (law : Lawful em View)

include law in
/-- A terminal shows the same after bytes that are no bytes or one command. -/
private theorem run_part {c : Screen} {bytes : List UInt8}
    (h : bytes = [] ∨ ∃ body, bytes = osc body ∧ NoControl body) (hc : law.ground c) :
    law.ground (em.run c bytes) ∧ law.view (em.run c bytes) = law.view c := by
  rcases h with rfl | ⟨body, rfl, hbody⟩
  · exact ⟨hc, rfl⟩
  · exact law.osc_eq hc hbody

variable (s : TerminalState Screen) (b : Base Screen)

private theorem titlePart_cases (h : s.titleScanner.Clean) :
    s.titlePart b = [] ∨ ∃ body, s.titlePart b = osc body ∧ NoControl body := by
  rw [titlePart]
  cases htitle : s.titleScanner.title with
  | none => exact .inl rfl
  | some title =>
    by_cases hne : some title ≠ b.title
    · refine .inr ⟨_, by simpa only [if_pos hne] using titleEscape_eq_osc title, ?_⟩
      exact NoControl.append (by decide +kernel) (h.title title htitle)
    · exact .inl (if_neg hne)

private theorem clearPart_cases :
    s.clearPart b = [] ∨ ∃ body, s.clearPart b = osc body ∧ NoControl body := by
  rw [clearPart]
  split_ifs
  · exact .inr ⟨_, scrollbackClearMarker_eq_osc _,
      NoControl.append (by decide +kernel) (noControl_decimal _)⟩
  · exact .inl rfl

private theorem scrollbackPart_cases [Base64] :
    s.scrollbackPart b = [] ∨ ∃ body, s.scrollbackPart b = osc body ∧ NoControl body := by
  rw [scrollbackPart]
  split_ifs
  · refine .inr ⟨_, scrollbackMarker_eq_osc _ _, ?_⟩
    exact ((NoControl.append (by decide +kernel) (noControl_decimal _)).append (by decide +kernel)).append
      (noControl_encode _)
  · exact .inl rfl

/-- **A frame does what it is for.** -/
theorem frameOf_applyTo [Base64] {s : TerminalState Screen} (htitle : s.titleScanner.Clean)
    {b : Base Screen} {c : Screen} (hc : law.ground c) (hview : law.view c = law.view b.screen) :
    law.ground ((s.frameOf em b).applyTo em c) ∧
      law.view ((s.frameOf em b).applyTo em c) = law.view s.parser.screen := by
  -- The terminal once it has the size: only its size is known if it has been resized.
  have hsized : ∃ c', ((s.frameOf em b).resize.map fun size => em.setSize c size.1 size.2).getD c =
      c' ∧ law.ground c' ∧ em.size c' = em.size s.parser.screen ∧
      (em.size s.parser.screen = em.size b.screen → law.view c' = law.view b.screen) := by
    by_cases hsize : em.size s.parser.screen = em.size b.screen
    · refine ⟨c, by simp [frameOf, hsize], hc, ?_, fun _ => hview⟩
      rw [hsize]
      exact law.size_eq hview
    · obtain ⟨hground, hset⟩ :=
        law.setSize_eq (em.size s.parser.screen).1 (em.size s.parser.screen).2 hc
      exact ⟨_, by simp [frameOf, hsize], hground, hset, fun h => absurd h hsize⟩
  obtain ⟨c', hget, hground, hsize, hshows⟩ := hsized
  rw [TerminalFrame.applyTo, hget]
  show law.ground (em.run c' (s.titlePart b ++ s.clearPart b ++ s.scrollbackPart b ++
    s.screenDiff em b)) ∧ law.view (em.run c' (s.titlePart b ++ s.clearPart b ++
      s.scrollbackPart b ++ s.screenDiff em b)) = _
  rw [em.run_append, em.run_append, em.run_append]
  obtain ⟨hg1, hv1⟩ := run_part law (s.titlePart_cases b htitle) hground
  obtain ⟨hg2, hv2⟩ := run_part law (s.clearPart_cases b) hg1
  obtain ⟨hg3, hv3⟩ := run_part law (s.scrollbackPart_cases b) hg2
  rw [screenDiff]
  split_ifs with hsame
  · exact law.diff hsame hg3 (hv3.trans (hv2.trans (hv1.trans (hshows hsame))))
  · refine law.formatted ?_ hg3
    rw [law.size_eq hv3, law.size_eq hv2, law.size_eq hv1, hsize]

end TerminalState

end Zetta.Zosh.Server
