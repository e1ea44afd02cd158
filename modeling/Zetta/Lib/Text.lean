import Mathlib

/-!
# Texts as bytes

`ascii` spells short constant texts, `textBytes` is the encoding of a text and `parseText` reads
one; ASCII bytes are always a text (`isValidUTF8_of_isAscii`).
-/

namespace Zetta

/-- ASCII characters as bytes. -/
def ascii (chars : List Char) : List UInt8 := chars.map fun c => UInt8.ofNat c.toNat

/-- The bytes of a text. -/
def textBytes (text : String) : List UInt8 := text.toByteArray.data.toList

/-- A text, if the bytes are one. -/
def parseText (bytes : List UInt8) : Option String :=
  if h : bytes.toByteArray.IsValidUTF8 then some (String.fromUTF8 bytes.toByteArray h) else none

theorem parseText_textBytes (text : String) : parseText (textBytes text) = some text := by
  have hbytes : (textBytes text).toByteArray = text.toByteArray :=
    ByteArray.ext (by rw [List.data_toByteArray, textBytes, Array.toArray_toList])
  have hvalid : (textBytes text).toByteArray.IsValidUTF8 := hbytes ▸ text.isValidUTF8
  rw [parseText, dif_pos hvalid]
  exact congrArg some (String.toByteArray_inj.mp hbytes)

def IsAscii (bytes : List UInt8) : Prop := ∀ b ∈ bytes, b < 0x80

/-- An ASCII character is its own encoding. -/
theorem utf8EncodeChar_of_lt {b : UInt8} (h : b < 0x80) :
    String.utf8EncodeChar (Char.ofNat b.toNat) = [b] := by
  have hascii : b.toNat < 128 := UInt8.lt_iff_toNat_lt.mp h
  have hval : (Char.ofNat b.toNat).val.toNat = b.toNat :=
    (Char.toNat_ofNat b.toNat).trans (if_pos (Or.inl (by omega)))
  have hsmall : (Char.ofNat b.toNat).val ≤ 127 := by
    rw [UInt32.le_iff_toNat_le, hval]
    exact Nat.le_of_lt_succ hascii
  have hbyte : (Char.ofNat b.toNat).val.toUInt8.toNat = b.toNat := by
    rw [UInt32.toNat_toUInt8, hval]
    exact Nat.mod_eq_of_lt b.toNat_lt
  rw [String.utf8EncodeChar_eq_singleton (Char.utf8Size_eq_one_iff.mpr hsmall),
    UInt8.toNat_inj.mp hbyte]

theorem isValidUTF8_of_isAscii {bytes : List UInt8} (h : IsAscii bytes) :
    bytes.toByteArray.IsValidUTF8 := by
  induction bytes with
  | nil => exact ByteArray.isValidUTF8_empty
  | cons b bytes ih =>
    have hfirst := Char.isValidUTF8_toByteArray_utf8EncodeChar (c := Char.ofNat b.toNat)
    rw [utf8EncodeChar_of_lt (h b (List.mem_cons_self ..))] at hfirst
    have hall := hfirst.append (ih fun b' hb' => h b' (List.mem_cons_of_mem _ hb'))
    rwa [← List.toByteArray_append] at hall

end Zetta
