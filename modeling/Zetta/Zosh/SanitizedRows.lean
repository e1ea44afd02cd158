import Zetta.Zosh.Scrollback

/-!
# The rows a client writes

A row of the history comes from the server, which may send anything, and is written to the user's
terminal. `Harmless` is the language of what may be written: text without control characters, and
the sequences of colours, cursor forward and erase characters, whole and with plain parameters.

* `utf8Chars_encode`: a character is read back from its UTF-8 encoding.
* `sanitizeRow_spec`: what is left of any row is harmless, and a row stays as it is if and only if
  it is.
-/

namespace Zetta.Zosh

open List

/-! ### Characters -/

variable {byte : UInt8}

theorem toNat_ofNat_toNat (h : byte < 0x80) :
    (Char.ofNat byte.toNat).toNat = byte.toNat := by
  have hlt : byte.toNat < 0x80 := h
  have hvalid : byte.toNat.isValidChar := .inl (by omega)
  rw [Char.ofNat, dif_pos hvalid]
  rfl

theorem utf8Chars_ascii (h : byte < 0x80) (bytes : List UInt8) :
    utf8Chars none (byte :: bytes) = Char.ofNat byte.toNat :: utf8Chars none bytes := by
  rw [utf8Chars]
  exact if_pos h

variable {n : ℕ} {p : Utf8Partial}

theorem utf8Chars_start (h : utf8Start byte = some p) (hbyte : byte = UInt8.ofNat n)
    (hn : 0x80 ≤ n ∧ n < 0x100) (bytes : List UInt8) :
    utf8Chars none (byte :: bytes) = utf8Chars (some p) bytes := by
  have hge : ¬ byte < 0x80 := by
    rw [UInt8.lt_iff_toNat_lt, hbyte, UInt8.toNat_ofNat']
    change ¬ n % 2 ^ 8 < 0x80
    omega
  rw [utf8Chars, ← h]
  exact if_neg hge

/-- A byte that continues a character. -/
theorem utf8Chars_some (hn : n < 0x40) (hlow : p.low.toNat ≤ n + 0x80)
    (hhigh : n + 0x80 ≤ p.high.toNat) (bytes : List UInt8) :
    utf8Chars (some p) (UInt8.ofNat (n + 0x80) :: bytes) =
      if p.remaining = 1 then Char.ofNat (p.bits * 64 + n) :: utf8Chars none bytes
      else utf8Chars (some ⟨p.bits * 64 + n, p.remaining - 1, 0x80, 0xbf⟩) bytes := by
  have htoNat : (UInt8.ofNat (n + 0x80)).toNat = n + 0x80 := by
    rw [UInt8.toNat_ofNat']
    omega
  have hrange : p.low ≤ UInt8.ofNat (n + 0x80) ∧ UInt8.ofNat (n + 0x80) ≤ p.high := by
    rw [UInt8.le_iff_toNat_le, UInt8.le_iff_toNat_le, htoNat]
    exact ⟨hlow, hhigh⟩
  rw [utf8Chars]
  dsimp only
  rw [if_pos hrange, htoNat, Nat.add_sub_cancel]

variable {bits : ℕ} {low high : UInt8}

theorem utf8Chars_continue {remaining : ℕ} (hn : n < 0x40)
    (hrange : low.toNat ≤ n + 0x80 ∧ n + 0x80 ≤ high.toNat) (bytes : List UInt8) :
    utf8Chars (some ⟨bits, remaining + 2, low, high⟩) (UInt8.ofNat (n + 0x80) :: bytes) =
      utf8Chars (some ⟨bits * 64 + n, remaining + 1, 0x80, 0xbf⟩) bytes :=
  (utf8Chars_some hn hrange.1 hrange.2 bytes).trans (if_neg (by simp))

theorem utf8Chars_last (hn : n < 0x40) (hrange : low.toNat ≤ n + 0x80 ∧ n + 0x80 ≤ high.toNat)
    (bytes : List UInt8) :
    utf8Chars (some ⟨bits, 1, low, high⟩) (UInt8.ofNat (n + 0x80) :: bytes) =
      Char.ofNat (bits * 64 + n) :: utf8Chars none bytes :=
  (utf8Chars_some hn hrange.1 hrange.2 bytes).trans (if_pos rfl)

theorem utf8Start_two : ∀ n < 32, 2 ≤ n →
    utf8Start (UInt8.ofNat (n + 0xc0)) = some ⟨n, 1, 0x80, 0xbf⟩ := by
  decide

theorem utf8Start_three : ∀ n < 16,
    utf8Start (UInt8.ofNat (n + 0xe0)) =
      some ⟨n, 2, if n = 0 then 0xa0 else 0x80, if n = 13 then 0x9f else 0xbf⟩ := by
  decide

theorem utf8Start_four : ∀ n < 5,
    utf8Start (UInt8.ofNat (n + 0xf0)) =
      some ⟨n, 3, if n = 0 then 0x90 else 0x80, if n = 4 then 0x8f else 0xbf⟩ := by
  decide

/-- A character is read back from its encoding. -/
theorem utf8Chars_encode (c : Char) (bytes : List UInt8) :
    utf8Chars none (String.utf8EncodeChar c ++ bytes) = c :: utf8Chars none bytes := by
  have hc : Char.ofNat c.val.toNat = c := Char.ofNat_toNat c
  have hvalid : c.val.toNat < 0xd800 ∨ 0xdfff < c.val.toNat ∧ c.val.toNat < 0x110000 := c.valid
  rw [String.utf8EncodeChar]
  generalize c.val.toNat = v at hc hvalid ⊢
  by_cases h1 : v ≤ 0x7f
  · have hbyte : (UInt8.ofNat v).toNat = v := by
      rw [UInt8.toNat_ofNat']
      omega
    rw [if_pos h1, singleton_append, utf8Chars_ascii, hbyte, hc]
    rw [UInt8.lt_iff_toNat_lt, hbyte]
    exact Nat.lt_succ_of_le h1
  rw [if_neg h1]
  have hmiddle (n : ℕ) (hn : n < 0x40) :
      (0x80 : UInt8).toNat ≤ n + 0x80 ∧ n + 0x80 ≤ (0xbf : UInt8).toNat := by
    change 0x80 ≤ n + 0x80 ∧ n + 0x80 ≤ 0xbf
    omega
  have hlast : v % 64 < 0x40 := by omega
  by_cases h2 : v ≤ 0x7ff
  · have hlead : v / 64 % 32 = v / 64 := by omega
    have hbits : v / 64 * 64 + v % 64 = v := by omega
    rw [if_pos h2, cons_append, singleton_append, hlead,
      utf8Chars_start (utf8Start_two (v / 64) (by omega) (by omega)) rfl (by omega),
      utf8Chars_last hlast (hmiddle _ hlast), hbits, hc]
  rw [if_neg h2]
  by_cases h3 : v ≤ 0xffff
  · have hlead : v / 4096 % 16 = v / 4096 := by omega
    have hsecond : v / 64 % 64 < 0x40 := by omega
    -- not overlong, and no surrogate
    have hrange : (if v / 4096 = 0 then 0xa0 else 0x80 : UInt8).toNat ≤ v / 64 % 64 + 0x80 ∧
        v / 64 % 64 + 0x80 ≤ (if v / 4096 = 13 then 0x9f else 0xbf : UInt8).toNat := by
      constructor
      · split_ifs
        · change 0xa0 ≤ _
          omega
        · exact (hmiddle _ hsecond).1
      · split_ifs
        · change _ ≤ 0x9f
          omega
        · exact (hmiddle _ hsecond).2
    have hbits : (v / 4096 * 64 + v / 64 % 64) * 64 + v % 64 = v := by omega
    rw [if_pos h3, cons_append, cons_append, singleton_append, hlead,
      utf8Chars_start (utf8Start_three (v / 4096) (by omega)) rfl (by omega),
      utf8Chars_continue hsecond hrange, utf8Chars_last hlast (hmiddle _ hlast), hbits, hc]
  · have hlead : v / 262144 % 8 = v / 262144 := by omega
    have hsecond : v / 4096 % 64 < 0x40 := by omega
    have hthird : v / 64 % 64 < 0x40 := by omega
    have hrange : (if v / 262144 = 0 then 0x90 else 0x80 : UInt8).toNat ≤ v / 4096 % 64 + 0x80 ∧
        v / 4096 % 64 + 0x80 ≤ (if v / 262144 = 4 then 0x8f else 0xbf : UInt8).toNat := by
      constructor
      · split_ifs
        · change 0x90 ≤ _
          omega
        · exact (hmiddle _ hsecond).1
      · split_ifs
        · change _ ≤ 0x8f
          omega
        · exact (hmiddle _ hsecond).2
    have hbits :
        ((v / 262144 * 64 + v / 4096 % 64) * 64 + v / 64 % 64) * 64 + v % 64 = v := by omega
    rw [if_neg h3, cons_append, cons_append, cons_append, singleton_append,
      hlead, utf8Chars_start (utf8Start_four (v / 262144) (by omega)) rfl (by omega),
      utf8Chars_continue hsecond hrange, utf8Chars_continue hthird (hmiddle _ hthird),
      utf8Chars_last hlast (hmiddle _ hlast), hbits, hc]

/-! ### The language -/

/-- A byte of plain parameters: digits, `;` and `:`. -/
def IsParameter (byte : UInt8) : Prop := 0x30 ≤ byte ∧ byte ≤ 0x3b

/-- `m`, `C` or `X`. -/
def IsFinal (byte : UInt8) : Prop := byte = 0x6d ∨ byte = 0x43 ∨ byte = 0x58

/-- What may be written to the user's terminal. -/
inductive Harmless : List UInt8 → Prop
  | nil : Harmless []
  | char {c : Char} {rest : List UInt8} (hc : isControl c = false) (hrest : Harmless rest) :
      Harmless (String.utf8EncodeChar c ++ rest)
  | csi {parameters : List UInt8} {final : UInt8} {rest : List UInt8}
      (hparameters : ∀ byte ∈ parameters, IsParameter byte)
      (hlength : parameters.length ≤ MAX_ROW_CSI) (hfinal : IsFinal final)
      (hrest : Harmless rest) :
      Harmless ([0x1b, 0x5b] ++ parameters ++ final :: rest)

variable {row : List UInt8}

theorem Harmless.append {row' : List UInt8} (h : Harmless row) (h' : Harmless row') :
    Harmless (row ++ row') := by
  induction h with
  | nil => exact h'
  | char hc _ ih =>
    rw [append_assoc]
    exact .char hc ih
  | csi hparameters hlength hfinal _ ih =>
    rw [append_assoc, cons_append]
    exact .csi hparameters hlength hfinal ih

variable {c : Char}

theorem harmless_char (hc : isControl c = false) :
    Harmless (String.utf8EncodeChar c) := by
  simpa using Harmless.char hc .nil

variable {parameters : List UInt8} {final : UInt8}

theorem harmless_csi (hparameters : ∀ byte ∈ parameters, IsParameter byte)
    (hlength : parameters.length ≤ MAX_ROW_CSI) (hfinal : IsFinal final) :
    Harmless ([0x1b, 0x5b] ++ parameters ++ [final]) :=
  .csi hparameters hlength hfinal .nil

/-! ### What is kept of a row -/

/-- What is kept so far is harmless, and the parameters kept are plain, as long as they are few
enough to be written. -/
structure RowState.Clean (s : RowState) : Prop where
  output : Harmless s.output
  csi : s.csi.length ≤ MAX_ROW_CSI → ∀ byte ∈ s.csi, IsParameter byte

namespace RowState.Clean

variable {s : RowState}

/-- Another place in a sequence. -/
theorem keepsParser (h : s.Clean) (parser : RowParser) : Clean { s with parser } :=
  ⟨h.output, h.csi⟩

theorem start_csi (h : s.Clean) : Clean { s with parser := .csi, csi := [] } :=
  ⟨h.output, fun _ => by simp⟩

theorem sanitizeGround (h : s.Clean) (c : Char) : (Zosh.sanitizeGround s c).Clean := by
  rw [Zosh.sanitizeGround]
  split_ifs with _ _ _ _ hcontrol
  · exact h.keepsParser _
  · exact h.start_csi
  · exact h.keepsParser _
  · exact h.keepsParser _
  · exact h.keepsParser _
  · exact ⟨h.output.append (harmless_char (by simpa using hcontrol)), h.csi⟩

theorem sanitizeEscape (h : s.Clean) (c : Char) : (Zosh.sanitizeEscape s c).Clean := by
  rw [Zosh.sanitizeEscape]
  split_ifs
  · exact h.start_csi
  all_goals exact h.keepsParser _

variable {c : Char}

theorem isParameter_of (h : (inRange c 0x30 0x39 || c.toNat = 0x3b || c.toNat = 0x3a) = true) :
    IsParameter (UInt8.ofNat c.toNat) := by
  have hcode : 0x30 ≤ c.toNat ∧ c.toNat ≤ 0x3b := by
    simp only [inRange, Bool.or_eq_true, Bool.and_eq_true, decide_eq_true_eq] at h
    omega
  rw [IsParameter, UInt8.le_iff_toNat_le, UInt8.le_iff_toNat_le, UInt8.toNat_ofNat',
    Nat.mod_eq_of_lt (by omega)]
  exact hcode

theorem isFinal_of (h : (c.toNat = 0x6d || c.toNat = 0x43 || c.toNat = 0x58) = true) :
    IsFinal (UInt8.ofNat c.toNat) := by
  simp only [Bool.or_eq_true, decide_eq_true_eq, or_assoc] at h
  rcases h with hm | hC | hX
  · exact .inl (by rw [hm]; rfl)
  · exact .inr (.inl (by rw [hC]; rfl))
  · exact .inr (.inr (by rw [hX]; rfl))

theorem sanitizeCsi (h : s.Clean) (c : Char) : (Zosh.sanitizeCsi s c).Clean := by
  rw [Zosh.sanitizeCsi]
  split_ifs with hparameter hfinal
  · obtain ⟨hcode, hlt⟩ := Bool.and_eq_true_iff.mp hparameter
    refine ⟨h.output, fun _ byte hmem => ?_⟩
    rcases mem_append.mp hmem with hcsi | hlast
    · exact h.csi (Nat.le_of_lt (by simpa using hlt)) byte hcsi
    · rw [mem_singleton.mp hlast]
      exact isParameter_of hcode
  · obtain ⟨hcode, hle⟩ := Bool.and_eq_true_iff.mp hfinal
    have hlength : s.csi.length ≤ MAX_ROW_CSI := by simpa using hle
    refine ⟨?_, fun _ => by simp⟩
    have hcsi := harmless_csi (h.csi hlength) hlength (isFinal_of hcode)
    simpa only [append_assoc] using h.output.append hcsi
  · -- too long to be written from here on
    exact ⟨h.output, fun hlength => by simp at hlength⟩
  · exact h.keepsParser _
  · exact h.keepsParser _

theorem sanitizeChar (h : s.Clean) (c : Char) : (Zosh.sanitizeChar s c).Clean := by
  rw [Zosh.sanitizeChar]
  by_cases habort : c.toNat = 0x18 ∨ c.toNat = 0x1a
  · rw [if_pos habort]
    exact h.keepsParser _
  rw [if_neg habort]
  cases s.parser with
  | ground => exact h.sanitizeGround c
  | escape => exact h.sanitizeEscape c
  | csi => exact h.sanitizeCsi c
  | escapeIntermediate | osc | string | stringEscape =>
    dsimp only
    split_ifs
    all_goals first | exact h | exact h.keepsParser _

theorem foldl_sanitizeChar (h : s.Clean) (row : List Char) :
    (row.foldl Zosh.sanitizeChar s).Clean := by
  induction row generalizing s with
  | nil => exact h
  | cons c row ih => exact ih (h.sanitizeChar c)

end RowState.Clean

theorem harmless_sanitizeRow (contents : List UInt8) : Harmless (sanitizeRow contents) :=
  (RowState.Clean.foldl_sanitizeChar ⟨.nil, fun _ => by simp⟩ (utf8Chars none contents)).output

/-! ### What stays as it is -/

theorem sanitizeChar_of_not_control (hc : isControl c = false) (csi output : List UInt8) :
    sanitizeChar ⟨.ground, csi, output⟩ c = ⟨.ground, csi, output ++ String.utf8EncodeChar c⟩ := by
  have hcode : 0x20 ≤ c.toNat ∧ ¬ (0x7f ≤ c.toNat ∧ c.toNat < 0xa0) := by
    simpa [isControl] using hc
  rw [sanitizeChar, if_neg (by omega)]
  dsimp only
  rw [sanitizeGround, if_neg (by omega), if_neg (by omega), if_neg (by omega), if_neg (by omega),
    hc]
  rfl

theorem foldl_parameters (hparameters : ∀ byte ∈ parameters, IsParameter byte)
    (bytes csi output : List UInt8) (hlength : csi.length + parameters.length ≤ MAX_ROW_CSI) :
    (utf8Chars none (parameters ++ bytes)).foldl sanitizeChar ⟨.csi, csi, output⟩ =
      (utf8Chars none bytes).foldl sanitizeChar ⟨.csi, csi ++ parameters, output⟩ := by
  induction parameters generalizing csi with
  | nil => rw [nil_append, append_nil]
  | cons byte parameters ih =>
    rw [length_cons] at hlength
    have hbyte := hparameters byte mem_cons_self
    rw [IsParameter, UInt8.le_iff_toNat_le, UInt8.le_iff_toNat_le] at hbyte
    have hcode : 0x30 ≤ byte.toNat ∧ byte.toNat ≤ 0x3b := hbyte
    have hascii : byte < 0x80 := UInt8.lt_iff_toNat_lt.mpr (by change _ < 0x80; omega)
    have htoNat := toNat_ofNat_toNat hascii
    have hstep : sanitizeChar ⟨.csi, csi, output⟩ (Char.ofNat byte.toNat) =
        ⟨.csi, csi ++ [byte], output⟩ := by
      have hallowed : ((inRange (Char.ofNat byte.toNat) 0x30 0x39 || byte.toNat = 0x3b ||
          byte.toNat = 0x3a) && csi.length < MAX_ROW_CSI) = true := by
        simp only [inRange, htoNat, Bool.and_eq_true, Bool.or_eq_true, decide_eq_true_eq]
        omega
      rw [sanitizeChar, htoNat, if_neg (by omega)]
      dsimp only
      rw [sanitizeCsi, htoNat, if_pos hallowed, UInt8.ofNat_toNat]
    rw [cons_append, utf8Chars_ascii hascii, foldl_cons, hstep,
      ih (fun b hb => hparameters b (.tail _ hb)) _ (by
        rw [length_append, length_singleton]
        omega), append_assoc, singleton_append]

theorem foldl_final (hfinal : IsFinal final) {csi : List UInt8} (hlength : csi.length ≤ MAX_ROW_CSI)
    (bytes output : List UInt8) :
    (utf8Chars none (final :: bytes)).foldl sanitizeChar ⟨.csi, csi, output⟩ =
      (utf8Chars none bytes).foldl sanitizeChar
        ⟨.ground, [], output ++ [0x1b, 0x5b] ++ csi ++ [final]⟩ := by
  have hcode : final.toNat = 0x6d ∨ final.toNat = 0x43 ∨ final.toNat = 0x58 := by
    rcases hfinal with rfl | rfl | rfl
    · exact .inl rfl
    · exact .inr (.inl rfl)
    · exact .inr (.inr rfl)
  have hascii : final < 0x80 := UInt8.lt_iff_toNat_lt.mpr (by change _ < 0x80; omega)
  have htoNat := toNat_ofNat_toNat hascii
  have hstep : sanitizeChar ⟨.csi, csi, output⟩ (Char.ofNat final.toNat) =
      ⟨.ground, [], output ++ [0x1b, 0x5b] ++ csi ++ [final]⟩ := by
    have hother : ((inRange (Char.ofNat final.toNat) 0x30 0x39 || final.toNat = 0x3b ||
        final.toNat = 0x3a) && csi.length < MAX_ROW_CSI) = false := by
      simp only [inRange, htoNat, Bool.and_eq_false_iff, Bool.or_eq_false_iff, decide_eq_false_iff_not]
      omega
    have hallowed : ((final.toNat = 0x6d || final.toNat = 0x43 || final.toNat = 0x58) &&
        csi.length ≤ MAX_ROW_CSI) = true := by
      simp only [Bool.and_eq_true, Bool.or_eq_true, decide_eq_true_eq]
      omega
    rw [sanitizeChar, htoNat, if_neg (by omega)]
    dsimp only
    rw [sanitizeCsi, htoNat, hother, if_neg Bool.false_ne_true, if_pos hallowed, UInt8.ofNat_toNat]
  rw [utf8Chars_ascii hascii, foldl_cons, hstep]

theorem foldl_of_harmless (h : Harmless row) (csi output : List UInt8) :
    ((utf8Chars none row).foldl sanitizeChar ⟨.ground, csi, output⟩).output = output ++ row := by
  induction h generalizing csi output with
  | nil => exact (append_nil output).symm
  | char hc _ ih =>
    rw [utf8Chars_encode, foldl_cons, sanitizeChar_of_not_control hc, ih, append_assoc]
  | @csi parameters final rest hparameters hlength hfinal _ ih =>
    have hstart : (utf8Chars none (([0x1b, 0x5b] ++ parameters) ++ final :: rest)).foldl
          sanitizeChar ⟨.ground, csi, output⟩ =
        (utf8Chars none (parameters ++ final :: rest)).foldl sanitizeChar ⟨.csi, [], output⟩ := by
      rw [append_assoc, cons_append, singleton_append,
        utf8Chars_ascii (by decide), utf8Chars_ascii (by decide)]
      rfl
    rw [hstart, foldl_parameters hparameters _ _ _ (by simpa using hlength), nil_append,
      foldl_final hfinal hlength, ih]
    simp only [append_assoc, cons_append, nil_append]

/-- What is left of any row is harmless, and a row stays as it is if and only if it is. -/
theorem sanitizeRow_spec (contents : List UInt8) :
    Harmless (sanitizeRow contents) ∧ sanitizeRow (sanitizeRow contents) = sanitizeRow contents ∧
      (sanitizeRow contents = contents ↔ Harmless contents) := by
  have hsame {row : List UInt8} (h : Harmless row) : sanitizeRow row = row :=
    foldl_of_harmless h [] []
  refine ⟨harmless_sanitizeRow contents, hsame (harmless_sanitizeRow contents), ?_, hsame⟩
  intro heq
  rw [← heq]
  exact harmless_sanitizeRow contents

end Zetta.Zosh
