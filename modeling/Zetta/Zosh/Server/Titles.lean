import Zetta.Zosh.Server.Scanners

/-!
# The title a program sets

`Shows stream title` reads a stream of output as plain bytes, escapes and operating system commands,
the last title of which is `title`: a command `0` or `2` whose text is without control bytes and no
longer than `MAX_TITLE_BYTES`. `TitleScanner` finds this title in every stream that keeps clear of
what it misreads (`Misreads`): a second escape behind an escape, an escape inside a number or a
command that is skipped, one inside a title that does not end it, a byte of a title that is not
ASCII, and a number beyond the accumulator.

* `title_iff`: the title, for every stream that keeps clear.
* `title_misread`: one stream for each way a title is missed, changed or made up.
-/

namespace Zetta.Zosh.Server

open List

namespace TitleScanner

open Decimal (IsDigit digitValue)

/-! ### Streams of output -/

/-- The number of a command; a missing one counts as zero. -/
def number (digits : List UInt8) : ℕ := digits.foldl (fun v b => v * 10 + digitValue b) 0

def IsNumber (digits : List UInt8) : Prop := ∀ byte ∈ digits, IsDigit byte

/-- The command sets the title. -/
def SetsTitle (digits : List UInt8) : Prop := number digits = 0 ∨ number digits = 2

/-- `ESC ]`, a number and `;` -/
def opening (digits : List UInt8) : List UInt8 := [0x1b, 0x5d] ++ digits ++ [0x3b]

/-- The text of a title. -/
def IsText (text : List UInt8) : Prop :=
  text.length ≤ MAX_TITLE_BYTES ∧ ∀ byte ∈ text, 0x20 ≤ byte

/-- The text of another command. -/
def IsBody (body : List UInt8) : Prop :=
  ∀ byte ∈ body, byte ≠ 0x07 ∧ byte ≠ 0x1b ∧ byte ≠ 0x18 ∧ byte ≠ 0x1a

/-- `BEL` or `ESC \` -/
def IsEnd (finish : List UInt8) : Prop := finish = [0x07] ∨ finish = [0x1b, 0x5c]

/-- A byte that no title holds, or one too many. -/
def Abandons (text : List UInt8) (byte : UInt8) : Prop :=
  byte ≠ 0x07 ∧ byte ≠ 0x1b ∧ (byte < 0x20 ∨ text.length = MAX_TITLE_BYTES)

/-- A stream that does not end inside a sequence, and the last title in it. -/
inductive Shows : List UInt8 → Option (List UInt8) → Prop
  | nil : Shows [] none
  | byte {stream : List UInt8} {title : Option (List UInt8)} {byte : UInt8}
      (h : Shows stream title) (hbyte : byte ≠ 0x1b) : Shows (stream ++ [byte]) title
  | escape {stream : List UInt8} {title : Option (List UInt8)} {byte : UInt8}
      (h : Shows stream title) (hbyte : byte ≠ 0x1b ∧ byte ≠ 0x5d) :
      Shows (stream ++ [0x1b, byte]) title
  | title {stream digits text finish : List UInt8} {title : Option (List UInt8)}
      (h : Shows stream title) (hdigits : IsNumber digits) (hsets : SetsTitle digits)
      (htext : IsText text) (hfinish : IsEnd finish) :
      Shows (stream ++ (opening digits ++ text ++ finish)) (some text)
  | other {stream digits body finish : List UInt8} {title : Option (List UInt8)}
      (h : Shows stream title) (hdigits : IsNumber digits) (hsets : ¬ SetsTitle digits)
      (hbody : IsBody body) (hfinish : IsEnd finish) :
      Shows (stream ++ (opening digits ++ body ++ finish)) title
  | malformed {stream digits : List UInt8} {title : Option (List UInt8)} {byte : UInt8}
      (h : Shows stream title) (hdigits : IsNumber digits)
      (hbyte : ¬ IsDigit byte ∧ byte ≠ 0x3b ∧ byte ≠ 0x1b) :
      Shows (stream ++ ([0x1b, 0x5d] ++ digits ++ [byte])) title
  | abandoned {stream digits text : List UInt8} {title : Option (List UInt8)} {byte : UInt8}
      (h : Shows stream title) (hdigits : IsNumber digits) (hsets : SetsTitle digits)
      (htext : IsText text) (hbyte : Abandons text byte) :
      Shows (stream ++ (opening digits ++ text ++ [byte])) title
  | cancelled {stream digits body : List UInt8} {title : Option (List UInt8)} {byte : UInt8}
      (h : Shows stream title) (hdigits : IsNumber digits) (hsets : ¬ SetsTitle digits)
      (hbody : IsBody body) (hbyte : byte = 0x18 ∨ byte = 0x1a) :
      Shows (stream ++ (opening digits ++ body ++ [byte])) title

/-- The beginning of a sequence at the end of a stream. -/
inductive Unended : List UInt8 → Prop
  | nil : Unended []
  | escape : Unended [0x1b]
  | number {digits : List UInt8} (hdigits : IsNumber digits) : Unended ([0x1b, 0x5d] ++ digits)
  | title {digits text : List UInt8} (hdigits : IsNumber digits) (hsets : SetsTitle digits)
      (htext : IsText text) : Unended (opening digits ++ text)
  | terminator {digits text : List UInt8} (hdigits : IsNumber digits) (hsets : SetsTitle digits)
      (htext : IsText text) : Unended (opening digits ++ text ++ [0x1b])
  | other {digits body : List UInt8} (hdigits : IsNumber digits) (hsets : ¬ SetsTitle digits)
      (hbody : IsBody body) : Unended (opening digits ++ body)

/-! ### What the scanner misreads -/

/-- The accumulator wraps around at this digit. -/
def Wraps (t : TitleScanner) (byte : UInt8) : Prop :=
  IsDigit byte ∧ 65536 ≤ min (t.command.toNat * 10) 65535 + digitValue byte

/-- The byte is not taken for what it is. -/
def Misreads (t : TitleScanner) (byte : UInt8) : Prop :=
  match t.state with
  | .ground => False
  | .escape => byte = 0x1b
  | .command => byte = 0x1b ∨ t.Wraps byte
  | .text => 0x80 ≤ byte ∧ t.pending.length < MAX_TITLE_BYTES
  | .skip => byte = 0x1b
  | .terminator => byte ≠ 0x5c

/-- No byte is misread. -/
def KeepsClear (t : TitleScanner) : List UInt8 → Prop
  | [] => True
  | byte :: bytes => ¬ t.Misreads byte ∧ KeepsClear (t.step byte) bytes

instance (t : TitleScanner) (byte : UInt8) : Decidable (t.Wraps byte) :=
  inferInstanceAs (Decidable (_ ∧ _))

instance decidableMisreads (t : TitleScanner) (byte : UInt8) : Decidable (t.Misreads byte) :=
  match t with
  | ⟨.ground, _, _, _⟩ => inferInstanceAs (Decidable False)
  | ⟨.escape, _, _, _⟩ => inferInstanceAs (Decidable (byte = 0x1b))
  | ⟨.command, command, pending, title⟩ =>
    inferInstanceAs (Decidable (byte = 0x1b ∨ Wraps ⟨.command, command, pending, title⟩ byte))
  | ⟨.text, _, pending, _⟩ =>
    inferInstanceAs (Decidable (0x80 ≤ byte ∧ pending.length < MAX_TITLE_BYTES))
  | ⟨.skip, _, _, _⟩ => inferInstanceAs (Decidable (byte = 0x1b))
  | ⟨.terminator, _, _, _⟩ => inferInstanceAs (Decidable (byte ≠ 0x5c))

instance decidableKeepsClear :
    (t : TitleScanner) → (bytes : List UInt8) → Decidable (t.KeepsClear bytes)
  | _, [] => inferInstanceAs (Decidable True)
  | t, byte :: bytes =>
    have := decidableKeepsClear (t.step byte) bytes
    inferInstanceAs (Decidable (¬ t.Misreads byte ∧ KeepsClear (t.step byte) bytes))

theorem keepsClear_append {t : TitleScanner} {xs ys : List UInt8} :
    t.KeepsClear (xs ++ ys) ↔ t.KeepsClear xs ∧ (t.feed xs).KeepsClear ys := by
  induction xs generalizing t with
  | nil => exact (true_and _).symm.to_iff
  | cons x xs ih =>
    rw [cons_append, KeepsClear, KeepsClear, ih, and_assoc]
    rfl

/-! ### The number -/

/-- What is left of a number in the accumulator. -/
def Counts (t : TitleScanner) (digits : List UInt8) : Prop :=
  t.command.toNat = min (number digits) 65535

theorem number_append (digits : List UInt8) (byte : UInt8) :
    number (digits ++ [byte]) = number digits * 10 + digitValue byte := by
  rw [number, number, foldl_append]
  rfl

theorem toNat_pushDigit {t : TitleScanner} {byte : UInt8} (hdigit : IsDigit byte)
    (hwraps : ¬ t.Wraps byte) :
    (pushDigit t.command byte).toNat = min (t.command.toNat * 10) 65535 + digitValue byte := by
  have hlt : min (t.command.toNat * 10) 65535 + digitValue byte < 65536 := by
    by_contra hle
    exact hwraps ⟨hdigit, Nat.le_of_not_lt hle⟩
  have hdigit' : (byte - 0x30).toUInt16.toNat = digitValue byte := by
    rw [UInt8.toNat_toUInt16, UInt8.toNat_sub_of_le _ _ hdigit.1]
    rfl
  rw [pushDigit, UInt16.toNat_add, hdigit', UInt16.toNat_ofNat']
  omega

variable {digits : List UInt8}

theorem Counts.push {t : TitleScanner} {byte : UInt8} (h : t.Counts digits) (hdigit : IsDigit byte)
    (hwraps : ¬ t.Wraps byte) :
    Counts { t with command := pushDigit t.command byte } (digits ++ [byte]) := by
  have hlt : ¬ 65536 ≤ min (t.command.toNat * 10) 65535 + digitValue byte := fun hle =>
    hwraps ⟨hdigit, hle⟩
  rw [Counts] at h
  rw [Counts, toNat_pushDigit hdigit hwraps, number_append]
  omega

theorem Counts.setsTitle_iff {t : TitleScanner} (h : t.Counts digits) :
    (t.command = 0 ∨ t.command = 2) ↔ SetsTitle digits := by
  rw [Counts] at h
  rw [SetsTitle, ← UInt16.toNat_inj, ← UInt16.toNat_inj, h]
  change (min (number digits) 65535 = 0 ∨ min (number digits) 65535 = 2) ↔ _
  omega

/-! ### One byte -/

/-- What has been read of a sequence that has not ended. -/
def Reads (t : TitleScanner) (tail : List UInt8) : Prop :=
  match t.state with
  | .ground => tail = []
  | .escape => tail = [0x1b]
  | .command => t.pending = [] ∧ ∃ digits, IsNumber digits ∧ t.Counts digits ∧
      tail = [0x1b, 0x5d] ++ digits
  | .text => ∃ digits, IsNumber digits ∧ SetsTitle digits ∧ IsText t.pending ∧
      tail = opening digits ++ t.pending
  | .skip => ∃ digits body, IsNumber digits ∧ ¬ SetsTitle digits ∧ IsBody body ∧
      tail = opening digits ++ body
  | .terminator => ∃ digits, IsNumber digits ∧ SetsTitle digits ∧ IsText t.pending ∧
      tail = opening digits ++ t.pending ++ [0x1b]

variable {tail : List UInt8}

theorem Reads.unended {t : TitleScanner} (h : t.Reads tail) : Unended tail := by
  rw [Reads] at h
  cases hstate : t.state with
  | ground => rw [hstate] at h; subst h; exact .nil
  | escape => rw [hstate] at h; subst h; exact .escape
  | command =>
    rw [hstate] at h
    obtain ⟨-, digits, hdigits, -, rfl⟩ := h
    exact .number hdigits
  | text =>
    rw [hstate] at h
    obtain ⟨digits, hdigits, hsets, htext, rfl⟩ := h
    exact .title hdigits hsets htext
  | skip =>
    rw [hstate] at h
    obtain ⟨digits, body, hdigits, hsets, hbody, rfl⟩ := h
    exact .other hdigits hsets hbody
  | terminator =>
    rw [hstate] at h
    obtain ⟨digits, hdigits, hsets, htext, rfl⟩ := h
    exact .terminator hdigits hsets htext

/-- What a byte makes of a stream: it ends a sequence, or it is read with what is not ended. -/
def Follows (t : TitleScanner) (stream : List UInt8) : Prop :=
  ∃ ended tail, stream = ended ++ tail ∧ Shows ended t.title ∧ t.Reads tail

variable {t : TitleScanner} {stream : List UInt8} {byte : UInt8}

theorem follows_ended (h : Shows stream t.title) (hground : t.state = .ground) :
    t.Follows stream :=
  ⟨stream, [], (append_nil _).symm, h, by rw [Reads, hground]⟩

theorem step_ground (h : Shows stream t.title) (hstate : t.state = .ground) :
    (t.step byte).Follows (stream ++ [byte]) := by
  rw [step, hstate]
  dsimp only
  split_ifs with hescape
  · exact ⟨stream, [0x1b], by rw [hescape], h, rfl⟩
  · exact follows_ended (h.byte hescape) hstate

theorem step_escape (h : Shows stream t.title) (hstate : t.state = .escape)
    (hclear : ¬ t.Misreads byte) : (t.step byte).Follows (stream ++ [0x1b] ++ [byte]) := by
  have hbyte : byte ≠ 0x1b := by
    rw [Misreads, hstate] at hclear
    exact hclear
  rw [step, hstate, append_assoc]
  dsimp only
  split_ifs with hopen
  · refine ⟨stream, [0x1b, 0x5d], by rw [hopen]; rfl, h, rfl, [], ?_, rfl, rfl⟩
    exact fun b hb => nomatch hb
  · exact follows_ended (h.escape ⟨hbyte, hopen⟩) rfl

theorem step_command (h : Shows stream t.title) (hstate : t.state = .command)
    (hpending : t.pending = []) (hdigits : IsNumber digits) (hcounts : t.Counts digits)
    (hclear : ¬ t.Misreads byte) :
    (t.step byte).Follows (stream ++ ([0x1b, 0x5d] ++ digits) ++ [byte]) := by
  rw [Misreads, hstate] at hclear
  obtain ⟨hbyte, hwraps⟩ := not_or.mp hclear
  rw [step, hstate, append_assoc, append_assoc]
  dsimp only
  split_ifs with hdigit hsemicolon htitle
  · refine ⟨stream, _, rfl, h, hpending, digits ++ [byte], fun b hb => ?_,
      hcounts.push hdigit hwraps, rfl⟩
    rcases mem_append.mp hb with hold | hnew
    · exact hdigits b hold
    · rw [mem_singleton.mp hnew]
      exact hdigit
  · refine ⟨stream, _, rfl, h, digits, hdigits, hcounts.setsTitle_iff.mp htitle, ?_, ?_⟩
    · dsimp only
      rw [hpending]
      exact ⟨Nat.zero_le _, nofun⟩
    · rw [hsemicolon, opening, hpending]
      simp
  · refine ⟨stream, _, rfl, h, digits, [], hdigits, fun hsets => ?_, nofun, ?_⟩
    · exact htitle (hcounts.setsTitle_iff.mpr hsets)
    · rw [hsemicolon, opening]
      simp
  · have hended := h.malformed hdigits ⟨hdigit, hsemicolon, hbyte⟩
    exact follows_ended (by simpa using hended) rfl

theorem step_text (h : Shows stream t.title) (hstate : t.state = .text) (hdigits : IsNumber digits)
    (hsets : SetsTitle digits) (htext : IsText t.pending) (hclear : ¬ t.Misreads byte) :
    (t.step byte).Follows (stream ++ (opening digits ++ t.pending) ++ [byte]) := by
  have hascii : ¬ (0x80 ≤ byte ∧ t.pending.length < MAX_TITLE_BYTES) := by
    rw [Misreads, hstate] at hclear
    exact hclear
  rw [step, hstate]
  dsimp only
  rw [stepText, append_assoc]
  by_cases hbel : byte = 0x07
  · rw [if_pos hbel, hbel, finish, if_pos (.inl hstate)]
    exact follows_ended (h.title hdigits hsets htext (.inl rfl)) rfl
  rw [if_neg hbel]
  by_cases hescape : byte = 0x1b
  · rw [if_pos hescape, hescape]
    exact ⟨stream, _, rfl, h, digits, hdigits, hsets, htext, rfl⟩
  rw [if_neg hescape]
  have habandon (hbyte : byte < 0x20 ∨ t.pending.length = MAX_TITLE_BYTES) :
      Shows (stream ++ (opening digits ++ t.pending ++ [byte])) t.title :=
    h.abandoned hdigits hsets htext ⟨hbel, hescape, hbyte⟩
  by_cases hcancel : byte = 0x18 ∨ byte = 0x1a
  · rw [if_pos hcancel]
    refine follows_ended (habandon (.inl ?_)) rfl
    rcases hcancel with rfl | rfl
    · decide
    · decide
  rw [if_neg hcancel, if_pos hstate]
  by_cases hgive : byte < 0x20 ∨ MAX_TITLE_BYTES ≤ t.pending.length
  · rw [if_pos hgive]
    exact follows_ended (habandon (hgive.imp_right fun hle => le_antisymm htext.1 hle)) rfl
  · rw [if_neg hgive]
    obtain ⟨hprintable, hroom⟩ := not_or.mp hgive
    have hlt : byte < 0x80 := by
      by_contra hle
      exact hascii ⟨UInt8.not_lt.mp hle, Nat.lt_of_not_le hroom⟩
    have hsame : encodeLatin1 byte = [byte] := if_pos hlt
    rw [hsame]
    refine ⟨stream, _, rfl, h, ?_⟩
    rw [Reads]
    dsimp only
    rw [hstate]
    refine ⟨digits, hdigits, hsets, ⟨?_, fun b hb => ?_⟩, append_assoc _ _ _⟩
    · rw [length_append, length_singleton]
      omega
    · rcases mem_append.mp hb with hold | hnew
      · exact htext.2 b hold
      · rw [mem_singleton.mp hnew]
        exact UInt8.not_lt.mp hprintable

variable {body : List UInt8}

theorem step_skip (h : Shows stream t.title) (hstate : t.state = .skip) (hdigits : IsNumber digits)
    (hsets : ¬ SetsTitle digits) (hbody : IsBody body) (hclear : ¬ t.Misreads byte) :
    (t.step byte).Follows (stream ++ (opening digits ++ body) ++ [byte]) := by
  have hescape : byte ≠ 0x1b := by
    rw [Misreads, hstate] at hclear
    exact hclear
  have hnone : t.finish.title = t.title := by
    rw [finish, hstate]
    rfl
  rw [step, hstate]
  dsimp only
  rw [stepText, hstate, append_assoc]
  by_cases hbel : byte = 0x07
  · rw [if_pos hbel, hbel]
    refine follows_ended ?_ rfl
    rw [hnone]
    exact h.other hdigits hsets hbody (.inl rfl)
  rw [if_neg hbel, if_neg hescape]
  by_cases hcancel : byte = 0x18 ∨ byte = 0x1a
  · rw [if_pos hcancel]
    exact follows_ended (h.cancelled hdigits hsets hbody hcancel) rfl
  · rw [if_neg hcancel, if_neg (by decide)]
    refine ⟨stream, _, rfl, h, ?_⟩
    rw [Reads, hstate]
    refine ⟨digits, body ++ [byte], hdigits, hsets, fun b hb => ?_, append_assoc _ _ _⟩
    rcases mem_append.mp hb with hold | hnew
    · exact hbody b hold
    · rw [mem_singleton.mp hnew]
      rw [not_or] at hcancel
      exact ⟨hbel, hescape, hcancel.1, hcancel.2⟩

theorem step_terminator (h : Shows stream t.title) (hstate : t.state = .terminator)
    (hdigits : IsNumber digits) (hsets : SetsTitle digits) (htext : IsText t.pending)
    (hclear : ¬ t.Misreads byte) :
    (t.step byte).Follows (stream ++ (opening digits ++ t.pending ++ [0x1b]) ++ [byte]) := by
  have hend : byte = 0x5c := by
    rw [Misreads, hstate] at hclear
    exact Classical.not_not.mp hclear
  rw [step, hstate, hend]
  dsimp only
  rw [if_pos rfl, finish, if_pos (.inr hstate), append_assoc, append_assoc]
  exact follows_ended (h.title hdigits hsets htext (.inr rfl)) rfl

/-- A byte that is not misread. -/
theorem Follows.step (h : t.Follows stream) (hclear : ¬ t.Misreads byte) :
    (t.step byte).Follows (stream ++ [byte]) := by
  obtain ⟨ended, tail, rfl, hshows, hreads⟩ := h
  rw [Reads] at hreads
  cases hstate : t.state with
  | ground =>
    rw [hstate] at hreads
    rw [hreads, append_nil]
    exact step_ground hshows hstate
  | escape =>
    rw [hstate] at hreads
    rw [hreads]
    exact step_escape hshows hstate hclear
  | command =>
    rw [hstate] at hreads
    obtain ⟨hpending, digits, hdigits, hcounts, rfl⟩ := hreads
    exact step_command hshows hstate hpending hdigits hcounts hclear
  | text =>
    rw [hstate] at hreads
    obtain ⟨digits, hdigits, hsets, htext, rfl⟩ := hreads
    exact step_text hshows hstate hdigits hsets htext hclear
  | skip =>
    rw [hstate] at hreads
    obtain ⟨digits, body, hdigits, hsets, hbody, rfl⟩ := hreads
    exact step_skip hshows hstate hdigits hsets hbody hclear
  | terminator =>
    rw [hstate] at hreads
    obtain ⟨digits, hdigits, hsets, htext, rfl⟩ := hreads
    exact step_terminator hshows hstate hdigits hsets htext hclear

theorem Follows.feed (h : t.Follows stream) {bytes : List UInt8} (hclear : t.KeepsClear bytes) :
    (t.feed bytes).Follows (stream ++ bytes) := by
  induction bytes generalizing t stream with
  | nil =>
    rw [append_nil]
    exact h
  | cons byte bytes ih =>
    have hrest := ih (h.step hclear.1) hclear.2
    rw [append_assoc] at hrest
    exact hrest

/-! ### One sequence -/

theorem feed_digits (hstate : t.state = .command) (before : List UInt8) (hcounts : t.Counts before)
    (hdigits : IsNumber digits) (hclear : t.KeepsClear digits) :
    ∃ command, t.feed digits = { t with command } ∧
      Counts { t with command } (before ++ digits) := by
  induction digits generalizing t before with
  | nil => exact ⟨t.command, rfl, by rwa [append_nil]⟩
  | cons byte digits ih =>
    have hdigit := hdigits byte mem_cons_self
    have hwraps : ¬ t.Wraps byte := fun hwraps => by
      refine hclear.1 ?_
      rw [Misreads, hstate]
      exact .inr hwraps
    have hstep : t.step byte = { t with command := pushDigit t.command byte } := by
      rw [step, hstate]
      exact if_pos hdigit
    obtain ⟨command, hfeed, hcount⟩ := ih (t := { t with command := pushDigit t.command byte })
      hstate (before ++ [byte]) (hcounts.push hdigit hwraps)
      (fun b hb => hdigits b (.tail _ hb)) (hstep ▸ hclear.2)
    refine ⟨command, ?_, by rwa [append_assoc] at hcount⟩
    rw [feed, foldl_cons, hstep]
    exact hfeed

/-- The number of a command has been read. -/
theorem feed_number (hstate : t.state = .ground) (hdigits : IsNumber digits)
    (hclear : t.KeepsClear ([0x1b, 0x5d] ++ digits)) :
    ∃ command, t.feed ([0x1b, 0x5d] ++ digits) = ⟨.command, command, [], t.title⟩ ∧
      Counts ⟨.command, command, [], t.title⟩ digits := by
  have hopen : t.feed [0x1b, 0x5d] = ⟨.command, 0, [], t.title⟩ := by
    have hescape : t.step 0x1b = { t with state := .escape } := by
      rw [step, hstate]
      rfl
    rw [feed, foldl_cons, hescape]
    rfl
  have hrest := (keepsClear_append.mp hclear).2
  rw [hopen] at hrest
  obtain ⟨command, hfeed, hcount⟩ := feed_digits (t := ⟨.command, 0, [], t.title⟩)
    rfl [] rfl hdigits hrest
  exact ⟨command, by rw [feed_append, hopen, hfeed], hcount⟩

/-- The text of a command begins. -/
theorem feed_opening (hstate : t.state = .ground) (hdigits : IsNumber digits)
    (hclear : t.KeepsClear (opening digits)) :
    ∃ command, (SetsTitle digits → t.feed (opening digits) = ⟨.text, command, [], t.title⟩) ∧
      (¬ SetsTitle digits → t.feed (opening digits) = ⟨.skip, command, [], t.title⟩) := by
  obtain ⟨command, hfeed, hcount⟩ := feed_number hstate hdigits (keepsClear_append.mp hclear).1
  have hstep : t.feed (opening digits) =
      ⟨if command = 0 ∨ command = 2 then .text else .skip, command, [], t.title⟩ := by
    rw [opening, feed_append, hfeed]
    rfl
  refine ⟨command, fun hsets => ?_, fun hsets => ?_⟩
  · rw [hstep, if_pos (hcount.setsTitle_iff.mpr hsets)]
  · rw [hstep, if_neg fun hnumber => hsets (hcount.setsTitle_iff.mp hnumber)]

variable {text : List UInt8}

theorem feed_text (hstate : t.state = .text) (htext : IsText (t.pending ++ text))
    (hclear : t.KeepsClear text) :
    t.feed text = { t with pending := t.pending ++ text } := by
  induction text generalizing t with
  | nil => rw [append_nil]; rfl
  | cons byte text ih =>
    have hprintable := htext.2 byte (mem_append_right _ mem_cons_self)
    have hroom : t.pending.length < MAX_TITLE_BYTES := by
      have hlength := htext.1
      rw [length_append, length_cons] at hlength
      omega
    have hascii : byte < 0x80 := by
      by_contra hle
      refine hclear.1 ?_
      rw [Misreads, hstate]
      exact ⟨UInt8.not_lt.mp hle, hroom⟩
    have hcontrol {control : UInt8} (hlt : control < 0x20) : byte ≠ control := fun heq =>
      UInt8.not_lt.mpr hprintable (heq ▸ hlt)
    have hstep : t.step byte = { t with pending := t.pending ++ [byte] } := by
      have hgive : ¬ (byte < 0x20 ∨ MAX_TITLE_BYTES ≤ t.pending.length) :=
        not_or.mpr ⟨UInt8.not_lt.mpr hprintable, Nat.not_le.mpr hroom⟩
      have hcancel : ¬ (byte = 0x18 ∨ byte = 0x1a) :=
        not_or.mpr ⟨hcontrol (by decide), hcontrol (by decide)⟩
      rw [step, hstate]
      dsimp only
      rw [stepText, if_neg (hcontrol (by decide)), if_neg (hcontrol (by decide)), if_neg hcancel,
        if_pos hstate, if_neg hgive, encodeLatin1, if_pos hascii, hstate]
    have hrest := ih (t := { t with pending := t.pending ++ [byte] }) hstate
      (by rwa [append_assoc, singleton_append]) (hstep ▸ hclear.2)
    rw [feed, foldl_cons, hstep]
    rw [append_assoc, singleton_append] at hrest
    exact hrest

theorem feed_body (hstate : t.state = .skip) (hbody : IsBody body) :
    t.feed body = t := by
  induction body with
  | nil => rfl
  | cons byte body ih =>
    obtain ⟨hbel, hescape, hcan, hsub⟩ := hbody byte mem_cons_self
    have hstep : t.step byte = t := by
      rw [step, hstate]
      dsimp only
      rw [stepText, hstate, if_neg hbel, if_neg hescape, if_neg (not_or.mpr ⟨hcan, hsub⟩)]
      rfl
    rw [feed, foldl_cons, hstep]
    exact ih fun b hb => hbody b (.tail _ hb)

/-- A title has been read up to its end. -/
theorem feed_title (hstate : t.state = .ground) (hdigits : IsNumber digits)
    (hsets : SetsTitle digits) (htext : IsText text)
    (hclear : t.KeepsClear (opening digits ++ text)) :
    ∃ command, t.feed (opening digits ++ text) = ⟨.text, command, text, t.title⟩ := by
  obtain ⟨hopen, hrest⟩ := keepsClear_append.mp hclear
  obtain ⟨command, hopening, -⟩ := feed_opening hstate hdigits hopen
  rw [hopening hsets] at hrest
  refine ⟨command, ?_⟩
  rw [feed_append, hopening hsets]
  exact feed_text (t := ⟨.text, command, [], t.title⟩) rfl htext hrest

/-- A command that is skipped has been read up to its end. -/
theorem feed_other (hstate : t.state = .ground) (hdigits : IsNumber digits)
    (hsets : ¬ SetsTitle digits) (hbody : IsBody body)
    (hclear : t.KeepsClear (opening digits ++ body)) :
    ∃ command, t.feed (opening digits ++ body) = ⟨.skip, command, [], t.title⟩ := by
  obtain ⟨command, -, hopening⟩ := feed_opening hstate hdigits (keepsClear_append.mp hclear).1
  exact ⟨command, by rw [feed_append, hopening hsets, feed_body rfl hbody]⟩

/-- The scanner is between two sequences, with this title. -/
def Rests (t : TitleScanner) (title : Option (List UInt8)) : Prop :=
  t.state = .ground ∧ t.title = title

variable {title : Option (List UInt8)}

theorem rests_byte (h : t.Rests title) (hbyte : byte ≠ 0x1b) :
    (t.feed [byte]).Rests title := by
  have hstep : t.step byte = t := by
    rw [step, h.1]
    exact if_neg hbyte
  rw [feed, foldl_cons, hstep]
  exact h

theorem rests_escape (h : t.Rests title) (hbyte : byte ≠ 0x5d) :
    (t.feed [0x1b, byte]).Rests title := by
  have hescape : t.step 0x1b = { t with state := .escape } := by
    rw [step, h.1]
    rfl
  have hstep : step { t with state := .escape } byte = { t with state := .ground } := if_neg hbyte
  rw [feed, foldl_cons, hescape, foldl_cons, hstep]
  exact ⟨rfl, h.2⟩

theorem rests_title (h : t.Rests title) {finish : List UInt8} (hdigits : IsNumber digits)
    (hsets : SetsTitle digits) (htext : IsText text) (hfinish : IsEnd finish)
    (hclear : t.KeepsClear (opening digits ++ text ++ finish)) :
    (t.feed (opening digits ++ text ++ finish)).Rests (some text) := by
  obtain ⟨command, hfeed⟩ := feed_title h.1 hdigits hsets htext (keepsClear_append.mp hclear).1
  rw [feed_append, hfeed]
  rcases hfinish with rfl | rfl
  · exact ⟨rfl, rfl⟩
  · exact ⟨rfl, rfl⟩

/-- A title that is given up. -/
theorem rests_abandoned (h : t.Rests title) (hdigits : IsNumber digits) (hsets : SetsTitle digits)
    (htext : IsText text) (hbyte : Abandons text byte)
    (hclear : t.KeepsClear (opening digits ++ text ++ [byte])) :
    (t.feed (opening digits ++ text ++ [byte])).Rests title := by
  obtain ⟨command, hfeed⟩ := feed_title h.1 hdigits hsets htext (keepsClear_append.mp hclear).1
  rw [feed_append, hfeed]
  have hgive : byte < 0x20 ∨ MAX_TITLE_BYTES ≤ text.length := hbyte.2.2.imp_right Eq.ge
  have hstep : step ⟨.text, command, text, t.title⟩ byte = ⟨.ground, command, text, t.title⟩ := by
    rw [step]
    dsimp only
    rw [stepText, if_neg hbyte.1, if_neg hbyte.2.1, if_pos hgive]
    exact ite_self _
  rw [feed, foldl_cons, hstep]
  exact ⟨rfl, h.2⟩

theorem rests_other (h : t.Rests title) (hdigits : IsNumber digits) (hsets : ¬ SetsTitle digits)
    (hbody : IsBody body) (hbyte : byte = 0x07 ∨ byte = 0x18 ∨ byte = 0x1a)
    (hclear : t.KeepsClear (opening digits ++ body ++ [byte])) :
    (t.feed (opening digits ++ body ++ [byte])).Rests title := by
  obtain ⟨command, hfeed⟩ := feed_other h.1 hdigits hsets hbody (keepsClear_append.mp hclear).1
  rw [feed_append, hfeed]
  rcases hbyte with rfl | rfl | rfl
  · exact ⟨rfl, h.2⟩
  · exact ⟨rfl, h.2⟩
  · exact ⟨rfl, h.2⟩

/-- An escape in a command that is skipped is misread. -/
theorem not_keepsClear_other (h : t.state = .ground) {rest : List UInt8} (hdigits : IsNumber digits)
    (hsets : ¬ SetsTitle digits) (hbody : IsBody body) :
    ¬ t.KeepsClear (opening digits ++ body ++ 0x1b :: rest) := by
  intro hclear
  obtain ⟨hbegun, hend⟩ := keepsClear_append.mp hclear
  obtain ⟨command, hfeed⟩ := feed_other h hdigits hsets hbody hbegun
  rw [hfeed] at hend
  exact hend.1 rfl

theorem Shows.rests (h : Shows stream title) (hclear : KeepsClear .new stream) :
    (feed .new stream).Rests title := by
  induction h with
  | nil => exact ⟨rfl, rfl⟩
  | byte _ hbyte ih =>
    obtain ⟨hbefore, -⟩ := keepsClear_append.mp hclear
    rw [feed_append]
    exact rests_byte (ih hbefore) hbyte
  | escape _ hbyte ih =>
    obtain ⟨hbefore, -⟩ := keepsClear_append.mp hclear
    rw [feed_append]
    exact rests_escape (ih hbefore) hbyte.2
  | title _ hdigits hsets htext hfinish ih =>
    obtain ⟨hbefore, hlast⟩ := keepsClear_append.mp hclear
    rw [feed_append]
    exact rests_title (ih hbefore) hdigits hsets htext hfinish hlast
  | other _ hdigits hsets hbody hfinish ih =>
    obtain ⟨hbefore, hlast⟩ := keepsClear_append.mp hclear
    rw [feed_append]
    rcases hfinish with rfl | rfl
    · exact rests_other (ih hbefore) hdigits hsets hbody (.inl rfl) hlast
    · exact absurd hlast (not_keepsClear_other (ih hbefore).1 hdigits hsets hbody)
  | @malformed stream digits title byte _ hdigits hbyte ih =>
    obtain ⟨hbefore, hlast⟩ := keepsClear_append.mp hclear
    have hrests := ih hbefore
    obtain ⟨command, hfeed, -⟩ := feed_number hrests.1 hdigits (keepsClear_append.mp hlast).1
    have hstep : step ⟨.command, command, [], (feed .new stream).title⟩ byte =
        ⟨.ground, command, [], (feed .new stream).title⟩ := by
      rw [step]
      exact (if_neg hbyte.1).trans (if_neg hbyte.2.1)
    rw [feed_append, feed_append, hfeed, feed, foldl_cons, hstep]
    exact ⟨rfl, hrests.2⟩
  | abandoned _ hdigits hsets htext hbyte ih =>
    obtain ⟨hbefore, hlast⟩ := keepsClear_append.mp hclear
    rw [feed_append]
    exact rests_abandoned (ih hbefore) hdigits hsets htext hbyte hlast
  | cancelled _ hdigits hsets hbody hbyte ih =>
    obtain ⟨hbefore, hlast⟩ := keepsClear_append.mp hclear
    rw [feed_append]
    exact rests_other (ih hbefore) hdigits hsets hbody (.inr hbyte) hlast

/-- A sequence that has not ended changes no title. -/
theorem title_unended (h : Unended tail) (hstate : t.state = .ground) (hclear : t.KeepsClear tail) :
    (t.feed tail).title = t.title := by
  cases h with
  | nil => rfl
  | escape =>
    have hescape : t.step 0x1b = { t with state := .escape } := by
      rw [step, hstate]
      rfl
    rw [feed, foldl_cons, hescape]
    rfl
  | number hdigits =>
    obtain ⟨command, hfeed, -⟩ := feed_number hstate hdigits hclear
    rw [hfeed]
  | title hdigits hsets htext =>
    obtain ⟨command, hfeed⟩ := feed_title hstate hdigits hsets htext hclear
    rw [hfeed]
  | terminator hdigits hsets htext =>
    obtain ⟨command, hfeed⟩ := feed_title hstate hdigits hsets htext (keepsClear_append.mp hclear).1
    rw [feed_append, hfeed]
    rfl
  | other hdigits hsets hbody =>
    obtain ⟨command, hfeed⟩ := feed_other hstate hdigits hsets hbody hclear
    rw [hfeed]

/-! ### The title -/

/-- A stream of output, in chunks. -/
def feedAll (t : TitleScanner) (chunks : List (List UInt8)) : TitleScanner := chunks.foldl feed t

theorem feedAll_eq (t : TitleScanner) (chunks : List (List UInt8)) :
    t.feedAll chunks = t.feed chunks.flatten := by
  induction chunks generalizing t with
  | nil => rfl
  | cons chunk chunks ih =>
    rw [flatten_cons, feed_append, ← ih]
    rfl

/-- However a stream is cut into chunks, its title is that of the last command in it that sets one,
as long as no byte of it is misread. -/
theorem title_iff (chunks : List (List UInt8)) (hclear : KeepsClear .new chunks.flatten)
    (title : Option (List UInt8)) :
    (feedAll .new chunks).title = title ↔
      ∃ stream tail, chunks.flatten = stream ++ tail ∧ Shows stream title ∧ Unended tail := by
  rw [feedAll_eq]
  constructor
  · rintro rfl
    have hnew : Follows .new [] := follows_ended .nil rfl
    obtain ⟨stream, tail, heq, hshows, hreads⟩ := hnew.feed hclear
    exact ⟨stream, tail, heq, hshows, hreads.unended⟩
  · rintro ⟨stream, tail, heq, hshows, htail⟩
    rw [heq, keepsClear_append] at hclear
    obtain ⟨hstate, htitle⟩ := hshows.rests hclear.1
    rw [heq, feed_append, title_unended htail hstate hclear.2, htitle]

/-- A title in two chunks, ended by `ESC \`, and text behind it. -/
theorem title_in_chunks :
    ∃ stream tail, [[0x1b, 0x5d, 0x32, 0x3b, 0x68], [0x69, 0x1b, 0x5c, 0x78]].flatten =
      stream ++ tail ∧ Shows stream (some [0x68, 0x69]) ∧ Unended tail :=
  (title_iff [[0x1b, 0x5d, 0x32, 0x3b, 0x68], [0x69, 0x1b, 0x5c, 0x78]] (by decide)
    (some [0x68, 0x69])).mp (by decide)

/-- A title with a tab, which is given up; one with an `é`; a command `8`, ended by `ESC \`, that
takes the title away; and a command `65538` that sets it. -/
theorem title_misread :
    (feedAll .new [[0x1b, 0x5d, 0x32, 0x3b, 0x61, 0x09, 0x62, 0x07]]).title = none ∧
      (feedAll .new [[0x1b, 0x5d, 0x32, 0x3b, 0xc3, 0xa9, 0x07]]).title =
        some [0xc3, 0x83, 0xc2, 0xa9] ∧
      (feedAll .new [[0x1b, 0x5d, 0x32, 0x3b, 0x61, 0x07],
        [0x1b, 0x5d, 0x38, 0x3b, 0x3b, 0x1b, 0x5c]]).title = some [] ∧
      (feedAll .new [[0x1b, 0x5d, 0x36, 0x35, 0x35, 0x33, 0x38, 0x3b, 0x61, 0x07]]).title =
        some [0x61] := by
  decide

end TitleScanner

end Zetta.Zosh.Server
