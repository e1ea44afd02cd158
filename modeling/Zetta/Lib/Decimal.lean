import Mathlib

/-!
# Decimal numbers as bytes

`decimal n` is the usual decimal spelling of a number in ASCII. `parseFrom bound value` reads
digits after a value already read and gives up on any other byte and on a value that reaches
`bound` (the checked arithmetic of a machine integer of that range). The **round trip** is
`parseFrom_decimal`: what `decimal` writes is read back, if it is below the bound.
-/

namespace Zetta.Decimal

/-- The byte is an ASCII digit. -/
def IsDigit (byte : UInt8) : Prop := 0x30 ≤ byte ∧ byte ≤ 0x39

instance : DecidablePred IsDigit := fun byte =>
  inferInstanceAs (Decidable (0x30 ≤ byte ∧ byte ≤ 0x39))

/-- The number a digit stands for. -/
def digitValue (byte : UInt8) : ℕ := byte.toNat - 0x30

/-- The decimal spelling of a number. -/
def decimal (n : ℕ) : List UInt8 := (Nat.toDigits 10 n).map fun c => UInt8.ofNat c.toNat

/-- The value of the digits after a value read so far, `none` if some byte is no digit or the
value does not stay below `bound`. -/
def parseFrom (bound value : ℕ) : List UInt8 → Option ℕ
  | [] => some value
  | byte :: bytes =>
    if IsDigit byte ∧ value * 10 + digitValue byte < bound then
      parseFrom bound (value * 10 + digitValue byte) bytes
    else none

/-! ### The digits written -/

private theorem char_of_isDigit {c : Char} (h : c.isDigit) :
    IsDigit (UInt8.ofNat c.toNat) ∧ digitValue (UInt8.ofNat c.toNat) = c.toNat - '0'.toNat := by
  rw [Char.isDigit_iff_toNat] at h
  have h0 : ('0' : Char).toNat = 48 := rfl
  have h9 : ('9' : Char).toNat = 57 := rfl
  have hlt : c.toNat < 256 := by omega
  have hval : (UInt8.ofNat c.toNat).toNat = c.toNat := by
    rw [UInt8.toNat_ofNat']
    exact Nat.mod_eq_of_lt hlt
  refine ⟨⟨?_, ?_⟩, by rw [digitValue, hval]; rfl⟩
  · rw [UInt8.le_iff_toNat_le, hval]
    exact h.1
  · rw [UInt8.le_iff_toNat_le, hval]
    exact h.2

variable {n : ℕ} {byte : UInt8}

/-- Only digits are written. -/
theorem isDigit_of_mem_decimal (h : byte ∈ decimal n) :
    IsDigit byte := by
  obtain ⟨c, hc, rfl⟩ := List.mem_map.mp h
  exact (char_of_isDigit (Nat.isDigit_of_mem_toDigits (by decide) (by decide) hc)).1

theorem decimal_ne_nil (n : ℕ) : decimal n ≠ [] := by
  simp [decimal, Nat.toDigits_ne_nil]

/-- A number below `10 ^ k` has at most `k` digits. -/
theorem length_decimal_le {k : ℕ} (hk : 0 < k) (h : n < 10 ^ k) :
    (decimal n).length ≤ k := by
  rw [decimal, List.length_map]
  exact (Nat.length_toDigits_le_iff (by decide) hk).mpr h

/-! ### Reading them back -/

/-- Reading digits never lowers the value. -/
theorem le_foldl_digits (value : ℕ) (bytes : List UInt8) :
    value ≤ bytes.foldl (fun v b => v * 10 + digitValue b) value := by
  induction bytes generalizing value with
  | nil => exact le_refl _
  | cons b bytes ih => exact le_trans (by omega) (ih (value * 10 + digitValue b))

variable {bound value : ℕ} {bytes : List UInt8}

/-- Digits whose value is below the bound are read to the end. -/
theorem parseFrom_eq_some (hdigits : ∀ b ∈ bytes, IsDigit b)
    (hlt : bytes.foldl (fun v b => v * 10 + digitValue b) value < bound) :
    parseFrom bound value bytes =
      some (bytes.foldl (fun v b => v * 10 + digitValue b) value) := by
  induction bytes generalizing value with
  | nil => rfl
  | cons b bytes ih =>
    have hb := hdigits b List.mem_cons_self
    have hle := le_foldl_digits (value * 10 + digitValue b) bytes
    rw [parseFrom, if_pos ⟨hb, lt_of_le_of_lt hle hlt⟩, List.foldl_cons]
    exact ih (fun b hb => hdigits b (List.mem_cons_of_mem _ hb)) hlt

/-- Nothing else is read. -/
theorem parseFrom_eq_some_iff (hvalue : value < bound) :
    parseFrom bound value bytes = some n ↔
      (∀ b ∈ bytes, IsDigit b) ∧ bytes.foldl (fun v b => v * 10 + digitValue b) value = n ∧
        n < bound := by
  induction bytes generalizing value with
  | nil =>
    constructor
    · intro h
      cases h
      exact ⟨nofun, rfl, hvalue⟩
    · rintro ⟨-, rfl, -⟩
      rfl
  | cons b bytes ih =>
    rw [parseFrom, List.foldl_cons, List.forall_mem_cons]
    by_cases hb : IsDigit b ∧ value * 10 + digitValue b < bound
    · rw [if_pos hb, ih hb.2, and_iff_right hb.1]
    · rw [if_neg hb]
      refine iff_of_false nofun ?_
      rintro ⟨⟨hdigit, -⟩, rfl, hlt⟩
      exact hb ⟨hdigit, lt_of_le_of_lt (le_foldl_digits _ bytes) hlt⟩

private theorem foldl_decimal_aux {cs : List Char} (h : ∀ c ∈ cs, c.isDigit) (value : ℕ) :
    (cs.map fun c => UInt8.ofNat c.toNat).foldl (fun v b => v * 10 + digitValue b) value =
      Nat.ofDigitChars 10 cs value := by
  induction cs generalizing value with
  | nil => rfl
  | cons c cs ih =>
    rw [List.map_cons, List.foldl_cons, ih fun c hc => h c (List.mem_cons_of_mem _ hc),
      Nat.ofDigitChars_cons, (char_of_isDigit (h c List.mem_cons_self)).2, Nat.mul_comm]

/-- The digits written have the value they were written for. -/
theorem foldl_decimal (n : ℕ) :
    (decimal n).foldl (fun v b => v * 10 + digitValue b) 0 = n := by
  rw [decimal, foldl_decimal_aux fun c hc =>
    Nat.isDigit_of_mem_toDigits (by decide) (by decide) hc, Nat.ofDigitChars_ten_toDigits]

/-- **Round trip**: a number below the bound is read back as it was written. -/
theorem parseFrom_decimal (h : n < bound) :
    parseFrom bound 0 (decimal n) = some n := by
  rw [parseFrom_eq_some (fun _ => isDigit_of_mem_decimal) (by rwa [foldl_decimal]), foldl_decimal]

/-- Where a number ends, if a byte follows that is no digit. -/
theorem decimal_append_inj {m : ℕ} {rest rest' : List UInt8} (hbyte : ¬ IsDigit byte)
    (h : decimal m ++ byte :: rest = decimal n ++ byte :: rest') :
    m = n ∧ rest = rest' := by
  have hdigits (k : ℕ) (tail : List UInt8) :
      (decimal k ++ byte :: tail).takeWhile (fun b => decide (IsDigit b)) = decimal k := by
    rw [List.takeWhile_append_of_pos fun b hb => by simpa using isDigit_of_mem_decimal hb,
      List.takeWhile_cons_of_neg (by simpa using hbyte), List.append_nil]
  have hdecimal : decimal m = decimal n := by
    rw [← hdigits m rest, h, hdigits]
  have hrest := (List.append_right_inj (decimal n)).mp (hdecimal ▸ h)
  have hm : parseFrom (m + n + 1) 0 (decimal m) = some m := parseFrom_decimal (by omega)
  have hn : parseFrom (m + n + 1) 0 (decimal n) = some n := parseFrom_decimal (by omega)
  rw [hdecimal, hn] at hm
  exact ⟨(Option.some.inj hm).symm, (List.cons.inj hrest).2⟩

/-- A number as a program reads it from a text: digits, with a plus sign in front or not. -/
def parseUnsigned (bound : ℕ) (text : List UInt8) : Option ℕ :=
  let digits := if text.head? = some 0x2b then text.tail else text
  if digits = [] then none else parseFrom bound 0 digits

theorem parseUnsigned_decimal (h : n < bound) :
    parseUnsigned bound (decimal n) = some n := by
  have hsign : (decimal n).head? ≠ some 0x2b := by
    intro hhead
    exact absurd (isDigit_of_mem_decimal (List.mem_of_mem_head? hhead)).1 (by decide)
  rw [parseUnsigned, if_neg hsign]
  simp only [if_neg (decimal_ne_nil n), parseFrom_decimal h]

end Zetta.Decimal
