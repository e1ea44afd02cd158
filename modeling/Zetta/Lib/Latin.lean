import Zetta.Lib.Text

/-!
# UTF-8 bytes read one by one

A reader that takes every byte of an encoded text for a character of its own, as Latin-1 does, gets
the text back exactly where it is ASCII: `latin_utf8_eq_iff`. Where it also drops what it takes for
white space around, it gets back no more: `ascii_of_latin_utf8`.
-/

namespace Zetta.Latin

open List
open String (utf8EncodeChar)

/-- The encoding of a text. -/
def utf8 (text : List Char) : List UInt8 := text.flatMap utf8EncodeChar

/-- Each byte as the character of that number. -/
def latin (bytes : List UInt8) : List Char := bytes.map fun b => Char.ofNat b.toNat

def IsAsciiText (text : List Char) : Prop := ∀ c ∈ text, c.toNat < 0x80

theorem toNat_ofNat_byte (b : UInt8) : (Char.ofNat b.toNat).toNat = b.toNat := by
  have hb : b.toNat < 256 := b.toNat_lt
  exact (Char.toNat_ofNat _).trans (if_pos (Or.inl (by omega)))

variable {c : Char}

theorem utf8Size_eq_one_iff : c.utf8Size = 1 ↔ c.toNat < 0x80 := by
  rw [Char.utf8Size_eq_one_iff, UInt32.le_iff_toNat_le]
  exact Nat.lt_succ_iff.symm

theorem utf8EncodeChar_of_ascii (h : c.toNat < 0x80) :
    utf8EncodeChar c = [UInt8.ofNat c.toNat] := by
  have hbyte : (UInt8.ofNat c.toNat).toNat = c.toNat :=
    (UInt8.toNat_ofNat').trans (Nat.mod_eq_of_lt (by omega))
  have hsmall : UInt8.ofNat c.toNat < 0x80 := UInt8.lt_iff_toNat_lt.mpr (hbyte.trans_lt h)
  have hencode := utf8EncodeChar_of_lt hsmall
  rwa [hbyte, Char.ofNat_toNat] at hencode

theorem le_toNat_ofNat {n m : ℕ} (h : m ≤ n) (h' : n < 256) : m ≤ (UInt8.ofNat n).toNat := by
  rwa [UInt8.toNat_ofNat', Nat.mod_eq_of_lt h']

/-- The bytes of a longer encoding are a lead byte and continuations. -/
theorem utf8EncodeChar_of_not_ascii (h : ¬c.toNat < 0x80) :
    ∃ b rest, utf8EncodeChar c = b :: rest ∧ 0xc0 ≤ b.toNat ∧ ∀ x ∈ rest, 0x80 ≤ x.toNat := by
  have hlarge : ¬c.val.toNat ≤ 0x7f := fun hle => h (Nat.lt_succ_of_le hle)
  rw [String.utf8EncodeChar]
  generalize c.val.toNat = v at hlarge ⊢
  rw [if_neg hlarge]
  split_ifs with htwo hthree
  · refine ⟨_, _, rfl, le_toNat_ofNat (by omega) (by omega), fun x hx => ?_⟩
    rw [mem_singleton.mp hx]
    exact le_toNat_ofNat (by omega) (by omega)
  · refine ⟨_, _, rfl, le_toNat_ofNat (by omega) (by omega), fun x hx => ?_⟩
    simp only [mem_cons, not_mem_nil, or_false] at hx
    obtain rfl | rfl := hx
    · exact le_toNat_ofNat (by omega) (by omega)
    · exact le_toNat_ofNat (by omega) (by omega)
  · refine ⟨_, _, rfl, le_toNat_ofNat (by omega) (by omega), fun x hx => ?_⟩
    simp only [mem_cons, not_mem_nil, or_false] at hx
    obtain rfl | rfl | rfl := hx
    · exact le_toNat_ofNat (by omega) (by omega)
    · exact le_toNat_ofNat (by omega) (by omega)
    · exact le_toNat_ofNat (by omega) (by omega)

variable {text : List Char}

/-- An ASCII byte of an encoding is a character of the text. -/
theorem mem_of_mem_utf8 {b : UInt8} (h : b ∈ utf8 text) (hb : b.toNat < 0x80) :
    Char.ofNat b.toNat ∈ text := by
  obtain ⟨c, hc, hmem⟩ := mem_flatMap.mp h
  by_cases hascii : c.toNat < 0x80
  · rw [utf8EncodeChar_of_ascii hascii, mem_singleton] at hmem
    have hbyte : (UInt8.ofNat c.toNat).toNat = c.toNat :=
      (UInt8.toNat_ofNat').trans (Nat.mod_eq_of_lt (by omega))
    rwa [hmem, hbyte, Char.ofNat_toNat]
  · obtain ⟨lead, rest, hencode, hlead, hrest⟩ := utf8EncodeChar_of_not_ascii hascii
    rw [hencode, mem_cons] at hmem
    obtain rfl | hmem := hmem
    · omega
    · have := hrest b hmem
      omega

theorem length_utf8 (text : List Char) :
    (utf8 text).length = (text.map Char.utf8Size).sum := by
  induction text with
  | nil => rfl
  | cons c text ih =>
    rw [utf8, flatMap_cons, length_append, String.length_utf8EncodeChar, map_cons,
      sum_cons, ← ih, utf8]

theorem latin_utf8_of_ascii (h : IsAsciiText text) : latin (utf8 text) = text := by
  induction text with
  | nil => rfl
  | cons c text ih =>
    have hc : c.toNat < 0x80 := h c (mem_cons_self ..)
    have hbyte : (UInt8.ofNat c.toNat).toNat = c.toNat :=
      (UInt8.toNat_ofNat').trans (Nat.mod_eq_of_lt (by omega))
    rw [utf8, flatMap_cons, utf8EncodeChar_of_ascii hc, latin, map_append, map_cons,
      hbyte, Char.ofNat_toNat]
    exact congrArg (c :: ·) (ih fun c' hc' => h c' (mem_cons_of_mem _ hc'))

/-- A text has a byte for each character only where it is ASCII. -/
theorem ascii_of_length_utf8 (h : (utf8 text).length = text.length) :
    IsAsciiText text := by
  rw [length_utf8] at h
  intro c hc
  by_contra hnot
  have hone : ∀ c ∈ text, 1 ≤ c.utf8Size := fun c _ => c.utf8Size_pos
  have hmore : 1 < c.utf8Size :=
    lt_of_le_of_ne c.utf8Size_pos fun heq => hnot (utf8Size_eq_one_iff.mp heq.symm)
  have hlt : (text.map fun _ => 1).sum < (text.map Char.utf8Size).sum :=
    sum_lt_sum _ _ hone ⟨c, hc, hmore⟩
  simp only [map_const', sum_replicate, smul_eq_mul, mul_one] at hlt
  omega

theorem latin_utf8_eq_iff : latin (utf8 text) = text ↔ IsAsciiText text := by
  refine ⟨fun h => ascii_of_length_utf8 ?_, latin_utf8_of_ascii⟩
  have hlength := congrArg List.length h
  rwa [latin, length_map] at hlength

/-! ### With white space dropped around -/

/-- The characters that a lead byte stands for are themselves encoded with the lead byte `0xc3`. -/
theorem lead_of_lead : ∀ n < 64,
    utf8EncodeChar (Char.ofNat (0xc0 + n)) = [0xc3, UInt8.ofNat (0x80 + n)] := by
  decide

/-- White space, as far as it matters among the first 256 characters: none of those that a lead byte
stands for, and not the continuation of `Ã`. -/
structure IsBlank (blank : Char → Bool) : Prop where
  of_lead : ∀ c : Char, 0xc0 ≤ c.toNat → c.toNat < 0x100 → blank c = false
  of_continuation : blank (Char.ofNat 0x83) = false

section Blank

variable (blank : Char → Bool)

/-- How many characters are not white space. -/
def inked (text : List Char) : ℕ := text.countP fun c => !blank c

theorem inked_append (a b : List Char) : inked blank (a ++ b) = inked blank a + inked blank b :=
  countP_append

variable {blank} {text : List Char}

theorem inked_of_blank (h : ∀ c ∈ text, blank c = true) :
    inked blank text = 0 :=
  countP_eq_zero.mpr fun c hc => by rw [h c hc]; decide

theorem inked_cons_of_not {c : Char} (h : blank c = false) :
    inked blank (c :: text) = inked blank text + 1 :=
  countP_cons_of_pos (by rw [h]; rfl)

theorem inked_eq_sum (text : List Char) :
    inked blank text = (text.map fun c => inked blank [c]).sum := by
  induction text with
  | nil => rfl
  | cons c text ih =>
    rw [← singleton_append, inked_append, singleton_append, map_cons, sum_cons,
      ih]

theorem inked_latin_utf8 (text : List Char) :
    inked blank (latin (utf8 text)) =
      (text.map fun c => inked blank (latin (utf8EncodeChar c))).sum := by
  induction text with
  | nil => rfl
  | cons c text ih =>
    rw [utf8, flatMap_cons, latin, map_append, inked_append, map_cons,
      sum_cons, ← ih]
    rfl

variable (h : IsBlank blank)
include h

/-- The lead byte of a character that is not ASCII reads as one that is not white space. -/
theorem exists_lead {c : Char} (hc : ¬c.toNat < 0x80) :
    ∃ lead rest, latin (utf8EncodeChar c) = lead :: rest ∧ 0xc0 ≤ lead.toNat ∧
      lead.toNat < 0x100 ∧ blank lead = false := by
  obtain ⟨b, rest, hencode, hlead, -⟩ := utf8EncodeChar_of_not_ascii hc
  have hle : 0xc0 ≤ (Char.ofNat b.toNat).toNat := (toNat_ofNat_byte b).symm ▸ hlead
  have hlt : (Char.ofNat b.toNat).toNat < 0x100 := (toNat_ofNat_byte b).symm ▸ b.toNat_lt
  exact ⟨Char.ofNat b.toNat, latin rest, by rw [hencode]; rfl, hle, hlt, h.of_lead _ hle hlt⟩

theorem inked_singleton_le (c : Char) :
    inked blank [c] ≤ inked blank (latin (utf8EncodeChar c)) := by
  by_cases hc : c.toNat < 0x80
  · have hself : latin (utf8 [c]) = [c] :=
      latin_utf8_of_ascii fun c' hc' => mem_singleton.mp hc' ▸ hc
    rw [utf8, flatMap_singleton] at hself
    rw [hself]
  · obtain ⟨lead, rest, hencode, -, -, hblank⟩ := exists_lead h hc
    have hone : inked blank [c] ≤ 1 := countP_le_length
    rw [hencode, inked_cons_of_not hblank]
    omega

/-- `Ã` reads as two characters, none of them white space. -/
theorem inked_tilde :
    inked blank [Char.ofNat 0xc3] < inked blank (latin (utf8EncodeChar (Char.ofNat 0xc3))) := by
  have hencode : latin (utf8EncodeChar (Char.ofNat 0xc3)) = [Char.ofNat 0xc3, Char.ofNat 0x83] := by
    decide
  have hlead : blank (Char.ofNat 0xc3) = false := h.of_lead _ (by decide) (by decide)
  rw [hencode, inked_cons_of_not hlead, inked_cons_of_not hlead,
    inked_cons_of_not h.of_continuation]
  exact Nat.lt_succ_self _

/-- A text that reads as itself between white space is ASCII. -/
theorem ascii_of_latin_utf8 {before after : List Char} (hbefore : ∀ c ∈ before, blank c = true)
    (hafter : ∀ c ∈ after, blank c = true) (heq : latin (utf8 text) = before ++ text ++ after) :
    IsAsciiText text := by
  have hink : inked blank (latin (utf8 text)) = inked blank text := by
    rw [heq, inked_append, inked_append, inked_of_blank hbefore, inked_of_blank hafter, zero_add,
      add_zero]
  have hmem {c lead : Char} {rest : List Char} (hc : c ∈ text)
      (hencode : latin (utf8EncodeChar c) = lead :: rest) (hblank : blank lead = false) :
      lead ∈ text := by
    have hread : lead ∈ latin (utf8 text) := by
      rw [latin, utf8, map_flatMap]
      refine mem_flatMap.mpr ⟨c, hc, ?_⟩
      rw [latin] at hencode
      rw [hencode]
      exact mem_cons_self ..
    rw [heq, mem_append, mem_append] at hread
    obtain (hmem | hmem) | hmem := hread
    · rw [hbefore lead hmem] at hblank
      exact absurd hblank (by decide)
    · exact hmem
    · rw [hafter lead hmem] at hblank
      exact absurd hblank (by decide)
  intro c hc
  by_contra hnot
  obtain ⟨lead, rest, hencode, hle, hlt, hblank⟩ := exists_lead h hnot
  have hlead := hmem hc hencode hblank
  -- Where any lead byte reads as a character of the text, so does the one of that character.
  have htilde : Char.ofNat 0xc3 ∈ text := by
    have hsecond := lead_of_lead (lead.toNat - 0xc0) (by omega)
    rw [Nat.add_sub_cancel' hle, Char.ofNat_toNat] at hsecond
    exact hmem hlead (congrArg latin hsecond) (h.of_lead _ (by decide) (by decide))
  have hmore : inked blank text < inked blank (latin (utf8 text)) := by
    rw [inked_eq_sum, inked_latin_utf8]
    exact sum_lt_sum _ _ (fun c _ => inked_singleton_le h c) ⟨_, htilde, inked_tilde h⟩
  omega

end Blank

end Zetta.Latin
