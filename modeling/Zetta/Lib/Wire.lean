import Mathlib

/-!
# The protobuf wire format

A message is a sequence of fields, each a tag (field number and wire type) followed by a
number in base 128 or by a length and that many bytes.

* **Writing**: `varint`, `Field.encode`, `encodeFields`.
* **Reading** is a loop that reads a tag and leaves the rest of the field to a step of the
  reader's own (`decodeFields`), with `readVarint`, `readBytes` and `skipField` to build the
  step from.
* **Round trip** (`decodeFields_encodeFields`): a step that reads each field of a message as
  some function of the field reads the whole message as a fold of that function. A reader that
  wants all fields at once uses `readFields`, and reads the fields that were written
  (`readFields_encodeFields`). A field that the step refuses is the end of it
  (`decodeFields_error`).

Numbers are below `2 ^ 64`, field numbers below `2 ^ 61`.
-/

namespace Zetta.Wire

open List

universe u

/-- A field value: a number, or bytes. -/
inductive Payload where
  | varint (n : ℕ)
  | bytes (bs : List UInt8)

/-- A field: its number and its value. -/
abbrev Field : Type := ℕ × Payload

def WIRE_VARINT : ℕ := 0
def WIRE_FIXED64 : ℕ := 1
def WIRE_BYTES : ℕ := 2
def WIRE_FIXED32 : ℕ := 5

/-! ### Writing -/

/-- At most `digits` digits in base 128, the lowest first, all but the last marked. -/
def varintUpTo : (digits n : ℕ) → List UInt8
  | 0, _ => []
  | digits + 1, n =>
    if n < 128 then [UInt8.ofNat n] else UInt8.ofNat (n % 128 + 128) :: varintUpTo digits (n / 128)

/-- A 64-bit number in base 128. -/
def varint (n : ℕ) : List UInt8 := varintUpTo 10 n

namespace Payload

/-- The wire type of a value. -/
def wireType : Payload → ℕ
  | varint _ => WIRE_VARINT
  | bytes _ => WIRE_BYTES

/-- A value as it is written behind its tag. -/
def encode : Payload → List UInt8
  | varint n => Wire.varint n
  | bytes bs => Wire.varint bs.length ++ bs

/-- A value that fits. -/
def Valid : Payload → Prop
  | varint n => n < 2 ^ 64
  | bytes bs => bs.length < 2 ^ 64

end Payload

namespace Field

/-- A field as it is written. -/
def encode (f : Field) : List UInt8 := varint (f.1 * 8 + f.2.wireType) ++ f.2.encode

/-- A field that fits. -/
def Valid (f : Field) : Prop := f.1 < 2 ^ 61 ∧ f.2.Valid

end Field

/-- A message as it is written. -/
def encodeFields (fs : List Field) : List UInt8 := fs.flatMap Field.encode

/-! ### Reading -/

/-- Reads the digits of a number from the one at `index` on. They occupy different bits of the
number, so that putting one in is adding it. -/
def readVarintFrom (index value : ℕ) : List UInt8 → Except String (ℕ × List UInt8)
  | [] => .error "truncated or oversized protobuf varint"
  | b :: rest =>
    if 10 ≤ index then .error "truncated or oversized protobuf varint"
    else if index = 9 ∧ 1 < b.toNat % 128 then .error "protobuf varint overflows u64"
    else if b.toNat < 128 then .ok (value + b.toNat % 128 * 128 ^ index, rest)
    else readVarintFrom (index + 1) (value + b.toNat % 128 * 128 ^ index) rest

/-- Reads a number. -/
def readVarint (bytes : List UInt8) : Except String (ℕ × List UInt8) := readVarintFrom 0 0 bytes

/-- Reads a tag: field number and wire type. -/
def readTag (bytes : List UInt8) : Except String ((ℕ × ℕ) × List UInt8) :=
  (readVarint bytes).map fun x => ((x.1 / 8, x.1 % 8), x.2)

/-- Reads a length and that many bytes. -/
def readBytes (bytes : List UInt8) : Except String (List UInt8 × List UInt8) :=
  (readVarint bytes).bind fun x =>
    if x.1 ≤ x.2.length then .ok (x.2.take x.1, x.2.drop x.1)
    else .error "truncated protobuf bytes field"

/-- Skips a number of bytes. -/
def advance (bytes : List UInt8) (count : ℕ) : Except String (List UInt8) :=
  if count ≤ bytes.length then .ok (bytes.drop count)
  else .error "truncated protobuf fixed-width field"

/-- Skips a value. -/
def skipField (bytes : List UInt8) (wire : ℕ) : Except String (List UInt8) :=
  if wire = WIRE_VARINT then (readVarint bytes).map Prod.snd
  else if wire = WIRE_FIXED64 then advance bytes 8
  else if wire = WIRE_BYTES then (readBytes bytes).map Prod.snd
  else if wire = WIRE_FIXED32 then advance bytes 4
  else .error s!"unsupported protobuf wire type {wire}"

section Decode

variable {β : Type u}

/-- Reads tags until no byte is left; `step` reads the value behind a tag. Every tag takes a
byte, so that as much fuel as there are bytes is enough. -/
def foldFields (step : β → ℕ × ℕ → List UInt8 → Except String (β × List UInt8)) :
    ℕ → List UInt8 → β → Except String β
  | _, [], b => .ok b
  | 0, _ :: _, b => .ok b
  | fuel + 1, byte :: bytes, b =>
    (readTag (byte :: bytes)).bind fun x =>
      (step b x.1 x.2).bind fun y => foldFields step fuel y.2 y.1

/-- Reads a message. -/
def decodeFields (step : β → ℕ × ℕ → List UInt8 → Except String (β × List UInt8))
    (bytes : List UInt8) (b : β) : Except String β :=
  foldFields step bytes.length bytes b

end Decode

/-! ### What is written is read -/

theorem varint_ne_nil (n : ℕ) : varint n ≠ [] := by
  rw [varint, varintUpTo]
  split <;> simp

variable {n : ℕ}

private theorem toNat_byte (h : n < 256) : (UInt8.ofNat n).toNat = n := by
  rw [UInt8.toNat_ofNat', Nat.mod_eq_of_lt h]

/-- By induction on the digits that may still follow. -/
private theorem readVarintFrom_varintUpTo (rest : List UInt8) {left index value : ℕ}
    (hindex : index + left = 9) (hn : n * 128 ^ index < 2 ^ 64) :
    readVarintFrom index value (varintUpTo (left + 1) n ++ rest) =
      .ok (value + n * 128 ^ index, rest) := by
  induction left generalizing index value n with
  | zero =>
    obtain rfl : index = 9 := by omega
    have hlt : n < 2 := by
      by_contra hge
      have hle : 2 * 128 ^ 9 ≤ n * 128 ^ 9 := Nat.mul_le_mul_right _ (by omega)
      exact absurd (Nat.lt_of_le_of_lt hle hn) (by decide)
    simp only [varintUpTo, show n < 128 by omega, if_true, singleton_append, readVarintFrom,
      toNat_byte (show n < 256 by omega), Nat.mod_eq_of_lt (show n < 128 by omega)]
    rw [if_neg (by omega), if_neg (by omega)]
  | succ left ih =>
    rw [varintUpTo]
    split
    · simp only [singleton_append, readVarintFrom, toNat_byte (show n < 256 by omega)]
      rw [if_neg (by omega), if_neg (by omega), if_pos (by omega), Nat.mod_eq_of_lt (by omega)]
    · have hdigits : n % 128 * 128 ^ index + n / 128 * 128 ^ (index + 1) = n * 128 ^ index := by
        rw [Nat.pow_succ, Nat.mul_comm (128 ^ index) 128, ← Nat.mul_assoc, ← Nat.add_mul]
        congr 1
        omega
      have hlt : n / 128 * 128 ^ (index + 1) < 2 ^ 64 := by omega
      simp only [cons_append, readVarintFrom,
        toNat_byte (show n % 128 + 128 < 256 by omega)]
      rw [if_neg (by omega), if_neg (by omega), if_neg (by omega), Nat.add_mod_right, Nat.mod_mod,
        ih (by omega) hlt, Nat.add_assoc, hdigits]

@[simp] theorem readVarint_varint (hn : n < 2 ^ 64) (rest : List UInt8) :
    readVarint (varint n ++ rest) = .ok (n, rest) := by
  have := @readVarintFrom_varintUpTo n rest 9 0 0 rfl (by omega)
  simpa [readVarint, varint] using this

theorem readTag_varint {field wire : ℕ} (hfield : field < 2 ^ 61) (hwire : wire < 8)
    (rest : List UInt8) :
    readTag (varint (field * 8 + wire) ++ rest) = .ok ((field, wire), rest) := by
  rw [readTag, readVarint_varint (by omega)]
  simp only [Except.map, Except.ok.injEq, Prod.mk.injEq, and_true]
  omega

@[simp] theorem readBytes_varint {bs : List UInt8} (hbs : bs.length < 2 ^ 64)
    (rest : List UInt8) : readBytes (varint bs.length ++ (bs ++ rest)) = .ok (bs, rest) := by
  rw [readBytes, readVarint_varint hbs]
  simp [Except.bind]

theorem Payload.wireType_lt (p : Payload) : p.wireType < 8 := by
  cases p
  · exact (by decide : WIRE_VARINT < 8)
  · exact (by decide : WIRE_BYTES < 8)

/-- A value that is written is skipped. -/
theorem skipField_encode {p : Payload} (hp : p.Valid) (rest : List UInt8) :
    skipField (p.encode ++ rest) p.wireType = .ok rest := by
  cases p with
  | varint n =>
    simp [skipField, Payload.wireType, WIRE_VARINT, Payload.encode, Payload.Valid] at hp ⊢
    rw [readVarint_varint hp]
    rfl
  | bytes bs =>
    simp only [skipField, Payload.wireType, WIRE_BYTES, WIRE_VARINT, WIRE_FIXED64, Payload.encode,
      append_assoc]
    rw [readBytes_varint hp]
    rfl

section Decode

variable {β : Type u} {step : β → ℕ × ℕ → List UInt8 → Except String (β × List UInt8)}
  {next : β → Field → β}

/-- The step reads a field as `next` does. -/
def Reads (step : β → ℕ × ℕ → List UInt8 → Except String (β × List UInt8))
    (next : β → Field → β) (f : Field) : Prop :=
  ∀ b rest, step b (f.1, f.2.wireType) (f.2.encode ++ rest) = .ok (next b f, rest)

/-- One round of the loop reads one field. -/
private theorem foldFields_encode {f : Field} (hvalid : f.1 < 2 ^ 61) (fuel : ℕ)
    (rest : List UInt8) (b : β) :
    foldFields step (fuel + 1) (f.encode ++ rest) b =
      (step b (f.1, f.2.wireType) (f.2.encode ++ rest)).bind
        fun y => foldFields step fuel y.2 y.1 := by
  obtain ⟨byte, bytes, hbytes⟩ :=
    exists_cons_of_ne_nil (varint_ne_nil (f.1 * 8 + f.2.wireType))
  have hne : f.encode ++ rest = byte :: (bytes ++ f.2.encode ++ rest) := by
    simp [Field.encode, hbytes]
  rw [hne, foldFields, ← hne, Field.encode, append_assoc,
    readTag_varint hvalid f.2.wireType_lt]
  rfl

theorem Field.length_encode_pos (f : Field) : 0 < f.encode.length := by
  rw [Field.encode, length_append]
  exact Nat.add_pos_left (length_pos_iff.mpr (varint_ne_nil _)) _

variable {fs : List Field}

private theorem foldFields_encodeFields (hvalid : ∀ f ∈ fs, f.1 < 2 ^ 61)
    (hreads : ∀ f ∈ fs, Reads step next f) {fuel : ℕ} (hfuel : (encodeFields fs).length ≤ fuel)
    (b : β) : foldFields step fuel (encodeFields fs) b = .ok (fs.foldl next b) := by
  induction fs generalizing fuel b with
  | nil => simp [encodeFields, foldFields]
  | cons f fs ih =>
    rw [encodeFields, flatMap_cons, ← encodeFields] at hfuel ⊢
    have hpos := f.length_encode_pos
    rw [length_append] at hfuel
    obtain ⟨fuel, rfl⟩ : ∃ n, fuel = n + 1 := ⟨fuel - 1, by omega⟩
    rw [foldFields_encode (hvalid f (by simp)), hreads f (by simp)]
    exact ih (fun g hg => hvalid g (by simp [hg])) (fun g hg => hreads g (by simp [hg]))
      (by omega) _

/-- A message of one field. -/
theorem decodeFields_singleton {f : Field} {b b' : β} (hvalid : f.1 < 2 ^ 61)
    (hstep : ∀ rest, step b (f.1, f.2.wireType) (f.2.encode ++ rest) = .ok (b', rest)) :
    decodeFields step (encodeFields [f]) b = .ok b' := by
  have hpos := f.length_encode_pos
  rw [decodeFields, show encodeFields [f] = f.encode ++ [] by simp [encodeFields]]
  obtain ⟨fuel, hfuel⟩ : ∃ n, (f.encode ++ []).length = n + 1 :=
    ⟨f.encode.length - 1, by rw [append_nil]; omega⟩
  rw [hfuel, foldFields_encode hvalid, hstep]
  cases fuel <;> rfl

/-- **Round trip**: a message is read as a fold over its fields. -/
theorem decodeFields_encodeFields (next : β → Field → β) (hvalid : ∀ f ∈ fs, f.1 < 2 ^ 61)
    (hreads : ∀ f ∈ fs, Reads step next f) (b : β) :
    decodeFields step (encodeFields fs) b = .ok (fs.foldl next b) :=
  foldFields_encodeFields hvalid hreads (Nat.le_refl _) b

/-- The step cannot read a field. -/
def Fails (step : β → ℕ × ℕ → List UInt8 → Except String (β × List UInt8)) (f : Field) : Prop :=
  ∀ b rest, ∃ e, step b (f.1, f.2.wireType) (f.2.encode ++ rest) = .error e

private theorem foldFields_error (hvalid : ∀ f ∈ fs, f.1 < 2 ^ 61)
    (hreads : ∀ f ∈ fs, Reads step next f ∨ Fails step f) (hfails : ∃ f ∈ fs, Fails step f)
    {fuel : ℕ} (hfuel : (encodeFields fs).length ≤ fuel) (b : β) :
    ∃ e, foldFields step fuel (encodeFields fs) b = .error e := by
  induction fs generalizing fuel b with
  | nil =>
    obtain ⟨f, hf, -⟩ := hfails
    exact absurd hf not_mem_nil
  | cons f fs ih =>
    rw [encodeFields, flatMap_cons, ← encodeFields] at hfuel ⊢
    have hpos := f.length_encode_pos
    rw [length_append] at hfuel
    obtain ⟨fuel, rfl⟩ : ∃ n, fuel = n + 1 := ⟨fuel - 1, by omega⟩
    rw [foldFields_encode (hvalid f (by simp))]
    by_cases hf : Fails step f
    · obtain ⟨e, he⟩ := hf b (encodeFields fs)
      exact ⟨e, by rw [he]; rfl⟩
    · -- the field is read, and one of those behind it cannot be
      rw [(hreads f (by simp)).resolve_right hf]
      obtain ⟨g, hg, hgfails⟩ := hfails
      have hrest : g ∈ fs := by
        rcases mem_cons.mp hg with rfl | hg
        · exact absurd hgfails hf
        · exact hg
      exact ih (fun g hg => hvalid g (by simp [hg])) (fun g hg => hreads g (by simp [hg]))
        ⟨g, hrest, hgfails⟩ (by omega) _

/-- A message with a field that cannot be read is refused. -/
theorem decodeFields_error (next : β → Field → β) (hvalid : ∀ f ∈ fs, f.1 < 2 ^ 61)
    (hreads : ∀ f ∈ fs, Reads step next f ∨ Fails step f) (hfails : ∃ f ∈ fs, Fails step f) (b : β) :
    ∃ e, decodeFields step (encodeFields fs) b = .error e :=
  foldFields_error hvalid hreads hfails (Nat.le_refl _) b

end Decode

/-! ### What is read is shorter -/

theorem map_eq_ok_iff {ε α β : Type*} {x : Except ε α} {f : α → β} {b : β} :
    x.map f = .ok b ↔ ∃ a, x = .ok a ∧ f a = b := by
  cases x <;> simp [Except.map]

theorem bind_eq_ok_iff {ε α β : Type*} {x : Except ε α} {f : α → Except ε β} {b : β} :
    x.bind f = .ok b ↔ ∃ a, x = .ok a ∧ f a = .ok b := by
  cases x <;> simp [Except.bind]

variable {bytes rest : List UInt8}

private theorem length_readVarintFrom_lt {index value : ℕ}
    (h : readVarintFrom index value bytes = .ok (n, rest)) : rest.length < bytes.length := by
  induction bytes generalizing index value with
  | nil => cases h
  | cons byte bytes ih =>
    rw [readVarintFrom] at h
    split_ifs at h
    · cases h
      exact Nat.lt_succ_self _
    · exact Nat.lt_succ_of_lt (ih h)

theorem length_readVarint_lt (h : readVarint bytes = .ok (n, rest)) : rest.length < bytes.length :=
  length_readVarintFrom_lt h

theorem length_readTag_lt {tag : ℕ × ℕ} (h : readTag bytes = .ok (tag, rest)) :
    rest.length < bytes.length := by
  obtain ⟨⟨n, left⟩, hread, heq⟩ := map_eq_ok_iff.mp h
  cases heq
  exact length_readVarint_lt hread

theorem length_readBytes_le {bs : List UInt8} (h : readBytes bytes = .ok (bs, rest)) :
    rest.length ≤ bytes.length := by
  obtain ⟨⟨n, left⟩, hread, heq⟩ := bind_eq_ok_iff.mp h
  have hlt := length_readVarint_lt hread
  split_ifs at heq
  cases heq
  rw [length_drop]
  dsimp only
  omega

private theorem length_advance_le {count : ℕ} (h : advance bytes count = .ok rest) :
    rest.length ≤ bytes.length := by
  rw [advance] at h
  split_ifs at h
  cases h
  rw [length_drop]
  exact Nat.sub_le _ _

theorem length_skipField_le {wire : ℕ} (h : skipField bytes wire = .ok rest) :
    rest.length ≤ bytes.length := by
  rw [skipField] at h
  split_ifs at h
  · obtain ⟨⟨n, left⟩, hread, rfl⟩ := map_eq_ok_iff.mp h
    exact (length_readVarint_lt hread).le
  · exact length_advance_le h
  · obtain ⟨⟨bs, left⟩, hread, rfl⟩ := map_eq_ok_iff.mp h
    exact length_readBytes_le hread
  · exact length_advance_le h

/-! ### Messages read as fields -/

/-- Adds the field behind a tag to those before it; a fixed-width value is passed over. -/
def fieldStep (fs : List Field) (tag : ℕ × ℕ) (rest : List UInt8) :
    Except String (List Field × List UInt8) :=
  if tag.2 = WIRE_VARINT then
    (readVarint rest).map fun x => (fs ++ [(tag.1, .varint x.1)], x.2)
  else if tag.2 = WIRE_BYTES then
    (readBytes rest).map fun x => (fs ++ [(tag.1, .bytes x.1)], x.2)
  else (skipField rest tag.2).map (fs, ·)

/-- Reads a message as its fields. -/
def readFields (bytes : List UInt8) : Except String (List Field) :=
  decodeFields fieldStep bytes []

private theorem reads_fieldStep {f : Field} (h : f.Valid) :
    Reads fieldStep (fun fs f => fs ++ [f]) f := by
  intro fs rest
  obtain ⟨n, v | bs⟩ := f
  · simp only [fieldStep, Payload.wireType, Payload.encode, if_true]
    rw [readVarint_varint h.2]
    rfl
  · have hwire : ¬ WIRE_BYTES = WIRE_VARINT := by decide
    simp only [fieldStep, Payload.wireType, Payload.encode, if_neg hwire, if_true,
      append_assoc]
    rw [readBytes_varint h.2]
    rfl

variable {fs : List Field}

/-- **Round trip** of the fields of a message. -/
theorem readFields_encodeFields (h : ∀ f ∈ fs, f.Valid) :
    readFields (encodeFields fs) = .ok fs := by
  have hfold : ∀ gs : List Field, fs.foldl (fun gs f => gs ++ [f]) gs = gs ++ fs := by
    induction fs with
    | nil => simp
    | cons f fs ih =>
      intro gs
      rw [foldl_cons, ih fun g hg => h g (mem_cons_of_mem f hg), append_assoc,
        singleton_append]
  rw [readFields, decodeFields_encodeFields _ (fun f hf => (h f hf).1)
    (fun f hf => reads_fieldStep (h f hf)), hfold, nil_append]

/-! ### Lengths -/

theorem length_varint_pos (n : ℕ) : 0 < (varint n).length :=
  length_pos_iff.mpr (varint_ne_nil n)

/-- A value is shorter than its field. -/
theorem Field.length_lt_encode (n : ℕ) (bs : List UInt8) :
    bs.length + 2 ≤ (Field.encode (n, .bytes bs)).length := by
  have h₁ := length_varint_pos (n * 8 + (Payload.bytes bs).wireType)
  have h₂ := length_varint_pos bs.length
  simp only [Field.encode, Payload.encode, length_append]
  omega

/-- A field is no longer than its message. -/
theorem length_encode_le_of_mem {f : Field} (h : f ∈ fs) :
    f.encode.length ≤ (encodeFields fs).length := by
  obtain ⟨as, bs, rfl⟩ := append_of_mem h
  simp only [encodeFields, flatMap_append, flatMap_cons, length_append]
  omega

/-- A message that fits has byte fields that fit. -/
theorem valid_of_length (hlen : (encodeFields fs).length < 2 ^ 64) (hnum : ∀ f ∈ fs, f.1 < 2 ^ 61)
    (hval : ∀ n v, (n, Payload.varint v) ∈ fs → v < 2 ^ 64) :
    ∀ f ∈ fs, f.Valid := by
  rintro ⟨n, v | bs⟩ hf
  · exact ⟨hnum _ hf, hval n v hf⟩
  · refine ⟨hnum _ hf, ?_⟩
    have hle := length_encode_le_of_mem hf
    have hlt := Field.length_lt_encode n bs
    exact (show bs.length < 2 ^ 64 by omega)

end Zetta.Wire
