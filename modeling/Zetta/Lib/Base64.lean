import Mathlib

/-!
# Base64 without padding

The encoder and the decoder are a package's: `Base64` says what is relied on of them, the **round
trip**, the length, and that only symbols of the alphabet are written, so that no control byte is.
`Standard` are such an encoder and decoder, of the standard alphabet without `=` padding: every
three bytes become four symbols, and one or two bytes left over become two or three. Its `decode`
refuses what no encoder writes: a symbol outside the alphabet, a single symbol left over, and bits
left over that are not zero.
-/

namespace Zetta

/-- An encoder of byte strings in printable symbols, and its decoder. -/
class Base64 where
  encode : List UInt8 → List UInt8
  decode : List UInt8 → Option (List UInt8)
  decode_encode (bytes : List UInt8) : decode (encode bytes) = some bytes
  /-- Three bytes take four symbols. -/
  three_mul_length_encode_le (bytes : List UInt8) :
    3 * (encode bytes).length ≤ 4 * bytes.length + 2
  /-- The symbols are printable ASCII, none of them a semicolon. -/
  mem_encode {bytes : List UInt8} {s : UInt8} (h : s ∈ encode bytes) :
    0x2b ≤ s ∧ s ≤ 0x7a ∧ s ≠ 0x3b

namespace Base64

/-- No byte takes more than two symbols. -/
theorem length_encode_le [Base64] (bytes : List UInt8) :
    (encode bytes).length ≤ 2 * bytes.length := by
  have hlength := three_mul_length_encode_le bytes
  omega

/-! ### The standard alphabet -/

namespace Standard

/-- The symbol of a six-bit value. -/
def symbol (n : ℕ) : UInt8 :=
  UInt8.ofNat <|
    if n < 26 then 0x41 + n
    else if n < 52 then 0x61 + (n - 26)
    else if n < 62 then 0x30 + (n - 52)
    else if n = 62 then 0x2b
    else 0x2f

/-- The value of a symbol. -/
def value (s : UInt8) : Option ℕ :=
  if 0x41 ≤ s ∧ s ≤ 0x5a then some (s.toNat - 0x41)
  else if 0x61 ≤ s ∧ s ≤ 0x7a then some (s.toNat - 0x61 + 26)
  else if 0x30 ≤ s ∧ s ≤ 0x39 then some (s.toNat - 0x30 + 52)
  else if s = 0x2b then some 62
  else if s = 0x2f then some 63
  else none

/-- The symbols of a byte string. -/
def encode : List UInt8 → List UInt8
  | [] => []
  | [a] => [symbol (a.toNat / 4), symbol (a.toNat % 4 * 16)]
  | [a, b] =>
    [symbol (a.toNat / 4), symbol (a.toNat % 4 * 16 + b.toNat / 16),
      symbol (b.toNat % 16 * 4)]
  | a :: b :: c :: rest =>
    symbol (a.toNat / 4) :: symbol (a.toNat % 4 * 16 + b.toNat / 16) ::
      symbol (b.toNat % 16 * 4 + c.toNat / 64) :: symbol (c.toNat % 64) :: encode rest

/-- The byte string that some six-bit values spell. -/
def ofValues : List ℕ → Option (List UInt8)
  | [] => some []
  | [_] => none
  | [p, q] => if q % 16 = 0 then some [UInt8.ofNat (p * 4 + q / 16)] else none
  | [p, q, r] =>
    if r % 4 = 0 then
      some [UInt8.ofNat (p * 4 + q / 16), UInt8.ofNat (q % 16 * 16 + r / 4)]
    else none
  | p :: q :: r :: s :: rest =>
    (ofValues rest).map fun bytes =>
      UInt8.ofNat (p * 4 + q / 16) :: UInt8.ofNat (q % 16 * 16 + r / 4) ::
        UInt8.ofNat (r % 4 * 64 + s) :: bytes

/-- The byte string that some symbols spell. -/
def decode (symbols : List UInt8) : Option (List UInt8) :=
  (symbols.mapM value).bind ofValues

theorem value_symbol {n : ℕ} (h : n < 64) : value (symbol n) = some n := by
  interval_cases n <;> decide

/-- The symbols are printable ASCII, none of them a semicolon. -/
theorem symbol_range {n : ℕ} (h : n < 64) :
    0x2b ≤ symbol n ∧ symbol n ≤ 0x7a ∧ symbol n ≠ 0x3b := by
  interval_cases n <;> decide

variable (bytes : List UInt8)

/-- What is written is the symbols of some six-bit values. -/
theorem exists_encode_eq_map :
    ∃ ns : List ℕ, encode bytes = ns.map symbol ∧ (∀ n ∈ ns, n < 64) ∧
      ofValues ns = some bytes := by
  induction bytes using encode.induct with
  | case1 => exact ⟨[], rfl, by simp, rfl⟩
  | case2 a =>
    have ha := a.toNat_lt
    refine ⟨[a.toNat / 4, a.toNat % 4 * 16], rfl, ?_, ?_⟩
    · simp only [List.mem_cons, List.not_mem_nil, or_false, forall_eq_or_imp, forall_eq]
      omega
    · have hq : a.toNat % 4 * 16 % 16 = 0 := by omega
      have hv : a.toNat / 4 * 4 + a.toNat % 4 * 16 / 16 = a.toNat := by omega
      rw [ofValues, if_pos hq, hv, UInt8.ofNat_toNat]
  | case3 a b =>
    have ha := a.toNat_lt
    have hb := b.toNat_lt
    refine ⟨[a.toNat / 4, a.toNat % 4 * 16 + b.toNat / 16, b.toNat % 16 * 4], rfl, ?_, ?_⟩
    · simp only [List.mem_cons, List.not_mem_nil, or_false, forall_eq_or_imp, forall_eq]
      omega
    · have hr : b.toNat % 16 * 4 % 4 = 0 := by omega
      have hv : a.toNat / 4 * 4 + (a.toNat % 4 * 16 + b.toNat / 16) / 16 = a.toNat := by omega
      have hw : (a.toNat % 4 * 16 + b.toNat / 16) % 16 * 16 + b.toNat % 16 * 4 / 4 =
          b.toNat := by omega
      rw [ofValues, if_pos hr, hv, hw, UInt8.ofNat_toNat, UInt8.ofNat_toNat]
  | case4 a b c rest ih =>
    obtain ⟨ns, henc, hlt, hval⟩ := ih
    have ha := a.toNat_lt
    have hb := b.toNat_lt
    have hc := c.toNat_lt
    refine ⟨a.toNat / 4 :: (a.toNat % 4 * 16 + b.toNat / 16) ::
      (b.toNat % 16 * 4 + c.toNat / 64) :: c.toNat % 64 :: ns, by rw [encode, henc]; rfl, ?_, ?_⟩
    · simp only [List.mem_cons, forall_eq_or_imp]
      exact ⟨by omega, by omega, by omega, by omega, hlt⟩
    · have hv : a.toNat / 4 * 4 + (a.toNat % 4 * 16 + b.toNat / 16) / 16 = a.toNat := by omega
      have hw : (a.toNat % 4 * 16 + b.toNat / 16) % 16 * 16 +
          (b.toNat % 16 * 4 + c.toNat / 64) / 4 = b.toNat := by omega
      have hz : (b.toNat % 16 * 4 + c.toNat / 64) % 4 * 64 + c.toNat % 64 = c.toNat := by omega
      rw [ofValues, hval, hv, hw, hz]
      simp only [Option.map_some, UInt8.ofNat_toNat]

/-- **Round trip**: what is written is read back. -/
theorem decode_encode : decode (encode bytes) = some bytes := by
  obtain ⟨ns, henc, hlt, hval⟩ := exists_encode_eq_map bytes
  have hmap : (ns.map symbol).mapM value = some ns := by
    clear henc hval
    induction ns with
    | nil => rfl
    | cons n ns ih =>
      have hn := value_symbol (hlt n List.mem_cons_self)
      have hns := ih fun m hm => hlt m (List.mem_cons_of_mem _ hm)
      simp [List.mapM_cons, hn, hns]
  rw [decode, henc, hmap, Option.bind_some, hval]

/-- Three bytes take four symbols. -/
theorem three_mul_length_encode_le : 3 * (encode bytes).length ≤ 4 * bytes.length + 2 := by
  induction bytes using encode.induct with
  | case1 => exact Nat.zero_le _
  | case2 a => simp [encode]
  | case3 a b => simp [encode]
  | case4 a b c rest ih =>
    simp only [encode, List.length_cons]
    omega

theorem mem_encode {bytes : List UInt8} {s : UInt8} (h : s ∈ encode bytes) :
    0x2b ≤ s ∧ s ≤ 0x7a ∧ s ≠ 0x3b := by
  obtain ⟨ns, henc, hlt, -⟩ := exists_encode_eq_map bytes
  rw [henc] at h
  obtain ⟨n, hn, rfl⟩ := List.mem_map.mp h
  exact symbol_range (hlt n hn)

scoped instance : Base64 where
  encode := encode
  decode := decode
  decode_encode := decode_encode
  three_mul_length_encode_le := three_mul_length_encode_le
  mem_encode := mem_encode

end Standard

end Base64

end Zetta
