import Zetta.Lib.Latin

/-!
# The prelude of a relayed pane

Before the input of a pane, the window writes to the pane's relay the secret of the session, if it
has one, and its own client id, a line each. The relay reads the two lines byte by byte and takes
each byte for a character.

* `scan_append`, `readLine_chunks`: the way the bytes arrive does not matter.
* `stopsAtNewline_readSecretFrom`, `stopsAtNewline_readViewerFrom`: a reader takes nothing that
  follows the first newline.
* `reads_iff`: which preludes are read back.
* `bounded_iff`: when no more than the bound is ever held.
-/

namespace Zetta.Zmux.Prelude

open List Latin

abbrev Text := List Char

def MAX_SECRET_BYTES : ℕ := 4096

/-- The bytes that a text takes. -/
def len (text : Text) : ℕ := (text.map Char.utf8Size).sum

/-! ### The relay -/

/-- What a read of standard input comes to. -/
inductive Arrival where
  | bytes (chunk : List UInt8)
  | failure

inductive ReadError where
  | failed
  | notSupplied
  | tooLong
  | viewerNotSupplied

/-- The loop of `read_secret_from` after the bytes of one arrival, with those that it has not
taken. -/
inductive Scan where
  | more (secret : Text)
  | line (secret : Text) (rest : List UInt8)
  | tooLong (rest : List UInt8)

def scan (secret : Text) : List UInt8 → Scan
  | [] => .more secret
  | byte :: rest =>
    if byte = 0x0a then .line secret rest
    else if byte = 0x0d then scan secret rest
    else if len secret < MAX_SECRET_BYTES then scan (secret ++ [Char.ofNat byte.toNat]) rest
    else .tooLong rest

/-- The loop of `read_secret_from`. The end of the input is a read of no bytes. -/
def readLine (secret : Text) : List Arrival → Except ReadError Text × List Arrival
  | [] => (.error .notSupplied, [])
  | .failure :: arrivals => (.error .failed, arrivals)
  | .bytes chunk :: arrivals =>
    match scan secret chunk with
    | .more secret => readLine secret arrivals
    | .line secret rest => (.ok secret, .bytes rest :: arrivals)
    | .tooLong rest => (.error .tooLong, .bytes rest :: arrivals)

def readSecretFrom (arrivals : List Arrival) : Except ReadError Text × List Arrival :=
  readLine [] arrivals

/-- The characters with the property `White_Space`. -/
def isWhitespace (c : Char) : Bool :=
  let n := c.toNat
  (0x09 ≤ n && n ≤ 0x0d) || n == 0x20 || n == 0x85 || n == 0xa0 || n == 0x1680 ||
    (0x2000 ≤ n && n ≤ 0x200a) || n == 0x2028 || n == 0x2029 || n == 0x202f || n == 0x205f ||
    n == 0x3000

def trim (text : Text) : Text :=
  ((text.dropWhile isWhitespace).reverse.dropWhile isWhitespace).reverse

def readViewerFrom (arrivals : List Arrival) : Except ReadError Text × List Arrival :=
  match readSecretFrom arrivals with
  | (.error error, left) => (.error error, left)
  | (.ok line, left) =>
    if trim line = [] then (.error .viewerNotSupplied, left) else (.ok (trim line), left)

structure RelayOptions where
  secretFromStdin : Bool
  viewerFromStdin : Bool

/-- What the relay reads before it attaches the pane. -/
def readPrelude (options : RelayOptions) (arrivals : List Arrival) :
    Except ReadError (Option Text × Option Text) × List Arrival :=
  let secret : Except ReadError (Option Text) × List Arrival :=
    if options.secretFromStdin then
      let (secret, left) := readSecretFrom arrivals
      (secret.map some, left)
    else (.ok none, arrivals)
  match secret with
  | (.error error, left) => (.error error, left)
  | (.ok secret, left) =>
    if options.viewerFromStdin then
      match readViewerFrom left with
      | (.error error, left) => (.error error, left)
      | (.ok viewer, left) => (.ok (secret, some viewer), left)
    else (.ok (secret, none), left)

/-! ### The window -/

/-- The options at the end of the command line of the relay. -/
def relayCommand (secret : Option Text) : List String :=
  (if secret.isSome then ["--secret-stdin"] else []) ++ ["--viewer-stdin"]

/-- How the relay's program reads them. -/
def parseOptions (arguments : List String) : RelayOptions where
  secretFromStdin := arguments.any fun a => a == "--secret-stdin" || a == "-S"
  viewerFromStdin := arguments.any fun a => a == "--viewer-stdin" || a == "-w"

/-- A text as `writeln!` writes it, with what comes between to break the line. -/
def writeln (carriageReturn : Bool) (text : Text) : List UInt8 :=
  utf8 text ++ ((if carriageReturn then [0x0d] else []) ++ [0x0a])

def bootstrapOne (carriageReturns : Bool × Bool) (secret : Option Text) (viewer : Text) :
    List UInt8 :=
  (secret.elim [] (writeln carriageReturns.1)) ++ writeln carriageReturns.2 viewer

/-! ### What is expected of the two -/

/-- A text without a line break. -/
def IsLine (text : Text) : Prop := '\n' ∉ text ∧ '\r' ∉ text

/-- A client id. -/
structure IsViewer (viewer : Text) : Prop where
  nonempty : viewer ≠ []
  trimmed : trim viewer = viewer
  line : IsLine viewer

/-- The relay reads the prelude back and leaves the input, however the bytes arrive. -/
def Reads (secret : Option Text) (viewer : Text) : Prop :=
  ∀ (carriageReturns : Bool × Bool) (input : List UInt8) (chunks : List (List UInt8)),
    chunks.flatten = bootstrapOne carriageReturns secret viewer ++ input →
      ∃ left : List (List UInt8), left.flatten = input ∧
        readPrelude (parseOptions (relayCommand secret)) (chunks.map .bytes) =
          (.ok (secret, some viewer), left.map .bytes)

/-- The bytes of what arrives. -/
def bytesOf : List Arrival → List UInt8
  | [] => []
  | .bytes chunk :: arrivals => chunk ++ bytesOf arrivals
  | .failure :: arrivals => bytesOf arrivals

/-- A reader takes no byte that follows a newline, and ends at one where it succeeds. -/
def StopsAtNewline (arrivals : List Arrival) (read : Except ReadError Text × List Arrival) : Prop :=
  ∃ taken, bytesOf arrivals = taken ++ bytesOf read.2 ∧ 0x0a ∉ taken.dropLast ∧
    ∀ text, read.1 = .ok text → taken.getLast? = some 0x0a

/-- However much of the bytes has been read, what is held is within the bound. -/
def Bounded (bytes : List UInt8) : Prop :=
  ∀ taken, taken <+: bytes → ∀ secret, scan [] taken = .more secret → len secret ≤ MAX_SECRET_BYTES

/-- How much of the bound a byte uses up. -/
def byteLen (byte : UInt8) : ℕ :=
  if byte = 0x0d then 0 else if byte < 0x80 then 1 else 2

def heldLen (bytes : List UInt8) : ℕ := (bytes.map byteLen).sum

/-- A byte of two takes the line from one below the bound to one beyond it. -/
def Crosses (bytes : List UInt8) : Prop :=
  ∃ line byte, line ++ [byte] <+: bytes ∧ 0x0a ∉ line ∧ heldLen line + 1 = MAX_SECRET_BYTES ∧
    0x80 ≤ byte

/-! ### One line -/

/-- The bytes of a line that are characters. -/
def kept (bytes : List UInt8) : List UInt8 := bytes.filter fun byte => byte ≠ 0x0d

theorem kept_append (a b : List UInt8) : kept (a ++ b) = kept a ++ kept b := filter_append ..

variable {bytes : List UInt8} {byte : UInt8}

theorem kept_cons_of_ne (h : byte ≠ 0x0d) :
    kept (byte :: bytes) = byte :: kept bytes := filter_cons_of_pos (decide_eq_true h)

theorem kept_cons_of_eq (h : byte = 0x0d) :
    kept (byte :: bytes) = kept bytes := filter_cons_of_neg (by simpa using h)

theorem latin_append (a b : List UInt8) : latin (a ++ b) = latin a ++ latin b := map_append

theorem len_append (a b : Text) : len (a ++ b) = len a + len b := by
  rw [len, map_append, sum_append, len, len]

theorem utf8Size_byte (byte : UInt8) :
    (Char.ofNat byte.toNat).utf8Size = if byte < 0x80 then 1 else 2 := by
  have hnum : (Char.ofNat byte.toNat).val.toNat = byte.toNat := toNat_ofNat_byte byte
  have hlt : byte.toNat < 256 := byte.toNat_lt
  have hval (n : ℕ) (hn : n < UInt32.size) :
      (Char.ofNat byte.toNat).val ≤ UInt32.ofNatLT n hn ↔ byte.toNat ≤ n := by
    rw [UInt32.le_iff_toNat_le, UInt32.toNat_ofNatLT, hnum]
  have hascii : byte < 0x80 ↔ byte.toNat ≤ 127 := UInt8.lt_iff_toNat_lt.trans Nat.lt_succ_iff
  rw [Char.utf8Size]
  simp only [hval, hascii]
  split_ifs <;> first | rfl | omega

theorem len_latin_kept (bytes : List UInt8) : len (latin (kept bytes)) = heldLen bytes := by
  induction bytes with
  | nil => rfl
  | cons byte bytes ih =>
    rw [heldLen, map_cons, sum_cons, ← heldLen, ← ih, byteLen, ← singleton_append,
      kept_append, latin_append, len_append]
    by_cases hcr : byte = 0x0d
    · rw [if_pos hcr, hcr]
      rfl
    · rw [if_neg hcr, ← utf8Size_byte]
      rw [kept_cons_of_ne hcr]
      rfl

theorem scan_append (a b : List UInt8) : ∀ secret : Text,
    scan secret (a ++ b) =
      match scan secret a with
      | .more secret => scan secret b
      | .line secret rest => .line secret (rest ++ b)
      | .tooLong rest => .tooLong (rest ++ b) := by
  induction a with
  | nil => exact fun _ => rfl
  | cons byte a ih =>
    intro secret
    rw [cons_append, scan, scan]
    by_cases hnewline : byte = 0x0a
    · rw [if_pos hnewline, if_pos hnewline]
    rw [if_neg hnewline, if_neg hnewline]
    by_cases hcr : byte = 0x0d
    · rw [if_pos hcr, if_pos hcr, ih]
    rw [if_neg hcr, if_neg hcr]
    by_cases hlt : len secret < MAX_SECRET_BYTES
    · rw [if_pos hlt, if_pos hlt, ih]
    · rw [if_neg hlt, if_neg hlt]

/-- What the loop holds is what it took, without carriage returns. -/
theorem scan_more : ∀ {secret text : Text}, scan secret bytes = .more text →
    0x0a ∉ bytes ∧ text = secret ++ latin (kept bytes) := by
  induction bytes with
  | nil =>
    intro secret text h
    rw [scan, Scan.more.injEq] at h
    exact ⟨not_mem_nil, by rw [← h]; exact (append_nil _).symm⟩
  | cons byte bytes ih =>
    intro secret text h
    rw [scan] at h
    split_ifs at h with hnewline hcr hlt
    · obtain ⟨hrest, rfl⟩ := ih h
      refine ⟨not_mem_cons_of_ne_of_not_mem (Ne.symm hnewline) hrest, ?_⟩
      rw [kept_cons_of_eq hcr]
    · obtain ⟨hrest, rfl⟩ := ih h
      refine ⟨not_mem_cons_of_ne_of_not_mem (Ne.symm hnewline) hrest, ?_⟩
      rw [kept_cons_of_ne hcr, append_assoc]
      rfl

variable {rest : List UInt8}

theorem scan_line : ∀ {secret text : Text},
    scan secret bytes = .line text rest →
      ∃ line, bytes = line ++ 0x0a :: rest ∧ scan secret line = .more text := by
  induction bytes with
  | nil => exact fun h => Scan.noConfusion h
  | cons byte bytes ih =>
    intro secret text h
    rw [scan] at h
    split_ifs at h with hnewline hcr hlt
    · obtain ⟨rfl, rfl⟩ := Scan.line.injEq .. ▸ h
      exact ⟨[], by rw [hnewline, nil_append], rfl⟩
    · obtain ⟨line, rfl, hline⟩ := ih h
      exact ⟨byte :: line, rfl, by rw [scan, if_neg hnewline, if_pos hcr, hline]⟩
    · obtain ⟨line, rfl, hline⟩ := ih h
      exact ⟨byte :: line, rfl, by rw [scan, if_neg hnewline, if_neg hcr, if_pos hlt, hline]⟩

theorem scan_tooLong : ∀ {secret : Text},
    scan secret bytes = .tooLong rest → ∃ taken, bytes = taken ++ rest ∧ 0x0a ∉ taken := by
  induction bytes with
  | nil => exact fun h => Scan.noConfusion h
  | cons byte bytes ih =>
    intro secret h
    rw [scan] at h
    split_ifs at h with hnewline hcr hlt
    · obtain ⟨taken, rfl, htaken⟩ := ih h
      exact ⟨byte :: taken, rfl, not_mem_cons_of_ne_of_not_mem (Ne.symm hnewline) htaken⟩
    · obtain ⟨taken, rfl, htaken⟩ := ih h
      exact ⟨byte :: taken, rfl, not_mem_cons_of_ne_of_not_mem (Ne.symm hnewline) htaken⟩
    · rw [Scan.tooLong.injEq] at h
      exact ⟨[byte], by rw [h]; rfl, by simpa using Ne.symm hnewline⟩

/-- A line within the bound is taken. -/
theorem scan_of_le {line : List UInt8} : ∀ {secret : Text}, 0x0a ∉ line →
    len secret + heldLen line ≤ MAX_SECRET_BYTES →
    scan secret line = .more (secret ++ latin (kept line)) := by
  induction line with
  | nil => exact fun _ _ => congrArg Scan.more (append_nil _).symm
  | cons byte line ih =>
    intro secret hline hle
    obtain ⟨hnewline, hrest⟩ := ne_and_not_mem_of_not_mem_cons hline
    rw [heldLen, map_cons, sum_cons, ← heldLen, byteLen] at hle
    rw [scan, if_neg (Ne.symm hnewline)]
    by_cases hcr : byte = 0x0d
    · rw [if_pos hcr, zero_add] at hle
      rw [if_pos hcr, ih hrest hle, kept_cons_of_eq hcr]
    · rw [if_neg hcr, ← utf8Size_byte] at hle
      have hpos : 0 < (Char.ofNat byte.toNat).utf8Size := Char.utf8Size_pos _
      have hlen : len (secret ++ [Char.ofNat byte.toNat]) =
          len secret + (Char.ofNat byte.toNat).utf8Size := len_append ..
      rw [if_neg hcr, if_pos (by omega), ih hrest (by omega),
        kept_cons_of_ne hcr, append_assoc]
      rfl

/-! ### What the readers take -/

variable {arrivals left : List Arrival} {text : Text}

/-- A line that is read ends at the first newline. -/
theorem readLine_ok : ∀ {secret : Text},
    readLine secret arrivals = (.ok text, left) →
      ∃ line, bytesOf arrivals = line ++ 0x0a :: bytesOf left ∧
        scan secret line = .more text := by
  induction arrivals with
  | nil =>
    intro secret h
    exact absurd (congrArg Prod.fst h) (by simp [readLine])
  | cons arrival arrivals ih =>
    intro secret h
    cases arrival with
    | failure => exact absurd (congrArg Prod.fst h) (by simp [readLine])
    | bytes chunk =>
      rw [readLine] at h
      cases hscan : scan secret chunk with
      | more held =>
        rw [hscan] at h
        obtain ⟨line, hbytes, hline⟩ := ih h
        refine ⟨chunk ++ line, by rw [bytesOf, hbytes, append_assoc], ?_⟩
        rw [scan_append, hscan]
        exact hline
      | line held rest =>
        rw [hscan] at h
        obtain ⟨htext, rfl⟩ := Prod.mk.injEq .. ▸ h
        obtain ⟨line, rfl, hline⟩ := scan_line hscan
        refine ⟨line, by rw [bytesOf, bytesOf, append_assoc, cons_append], ?_⟩
        rw [hline, Except.ok.inj htext]
      | tooLong rest =>
        rw [hscan] at h
        exact nomatch congrArg Prod.fst h

/-- A reader that fails has not come to a newline. -/
theorem readLine_error {error : ReadError} : ∀ {secret : Text},
    readLine secret arrivals = (.error error, left) →
      ∃ taken, bytesOf arrivals = taken ++ bytesOf left ∧ 0x0a ∉ taken := by
  induction arrivals with
  | nil =>
    intro secret h
    rw [readLine, Prod.mk.injEq] at h
    exact ⟨[], by rw [← h.2]; rfl, not_mem_nil⟩
  | cons arrival arrivals ih =>
    intro secret h
    cases arrival with
    | failure =>
      rw [readLine, Prod.mk.injEq] at h
      exact ⟨[], by rw [← h.2]; rfl, not_mem_nil⟩
    | bytes chunk =>
      rw [readLine] at h
      cases hscan : scan secret chunk with
      | more held =>
        rw [hscan] at h
        obtain ⟨taken, hbytes, htaken⟩ := ih h
        refine ⟨chunk ++ taken, by rw [bytesOf, hbytes, append_assoc], ?_⟩
        rw [mem_append]
        exact not_or.mpr ⟨(scan_more hscan).1, htaken⟩
      | line held rest =>
        rw [hscan] at h
        exact nomatch congrArg Prod.fst h
      | tooLong rest =>
        rw [hscan, Prod.mk.injEq] at h
        obtain ⟨taken, rfl, htaken⟩ := scan_tooLong hscan
        exact ⟨taken, by rw [← h.2, bytesOf, bytesOf, append_assoc], htaken⟩

theorem stopsAtNewline_readSecretFrom (arrivals : List Arrival) :
    StopsAtNewline arrivals (readSecretFrom arrivals) := by
  cases hread : readSecretFrom arrivals with
  | mk result left =>
    cases result with
    | error error =>
      obtain ⟨taken, hbytes, htaken⟩ := readLine_error hread
      refine ⟨taken, hbytes, fun h => htaken (mem_of_mem_dropLast h), fun text h => ?_⟩
      exact absurd h (by simp)
    | ok text =>
      obtain ⟨line, hbytes, hline⟩ := readLine_ok hread
      refine ⟨line ++ [0x0a], by rw [hbytes, append_assoc]; rfl, ?_, ?_⟩
      · rw [dropLast_concat]
        exact (scan_more hline).1
      · exact fun _ _ => getLast?_concat

theorem stopsAtNewline_readViewerFrom (arrivals : List Arrival) :
    StopsAtNewline arrivals (readViewerFrom arrivals) := by
  obtain ⟨taken, hbytes, hnewline, hlast⟩ := stopsAtNewline_readSecretFrom arrivals
  have hleft : (readViewerFrom arrivals).2 = (readSecretFrom arrivals).2 := by
    rw [readViewerFrom]
    split
    · rename_i hread
      rw [hread]
    · rename_i hread
      rw [hread]
      split_ifs <;> rfl
  refine ⟨taken, by rw [hleft, hbytes], hnewline, fun text htext => ?_⟩
  rw [readViewerFrom] at htext
  split at htext
  · exact absurd htext (by simp)
  · rename_i line left hread
    exact hlast line (by rw [hread])

variable {chunks : List (List UInt8)}

/-- The way the bytes arrive does not matter. -/
theorem readLine_chunks :
    ∀ {secret : Text}, scan secret chunks.flatten = .line text rest →
      ∃ left : List (List UInt8), left.flatten = rest ∧
        readLine secret (chunks.map .bytes) = (.ok text, left.map .bytes) := by
  induction chunks with
  | nil => exact fun h => Scan.noConfusion h
  | cons chunk chunks ih =>
    intro secret h
    rw [flatten_cons, scan_append] at h
    rw [map_cons, readLine]
    cases hscan : scan secret chunk with
    | more held =>
      rw [hscan] at h
      exact ih h
    | line held left =>
      rw [hscan] at h
      obtain ⟨rfl, rfl⟩ := Scan.line.injEq .. ▸ h
      exact ⟨left :: chunks, rfl, rfl⟩
    | tooLong left =>
      rw [hscan] at h
      exact Scan.noConfusion h

/-! ### The bound -/

theorem scan_nil_more (h : scan [] bytes = .more text) :
    0x0a ∉ bytes ∧ text = latin (kept bytes) ∧ len text = heldLen bytes := by
  obtain ⟨hnewline, rfl⟩ := scan_more h
  exact ⟨hnewline, rfl, len_latin_kept bytes⟩

/-- Beyond the bound is only what a byte of two crosses it with. -/
theorem len_le_of_not_crosses (hbytes : ¬Crosses bytes) :
    ∀ {taken : List UInt8}, taken <+: bytes → ∀ {text : Text}, scan [] taken = .more text →
      len text ≤ MAX_SECRET_BYTES := by
  intro taken
  induction taken using List.reverseRecOn with
  | nil =>
    intro _ text h
    rw [← Scan.more.inj h]
    exact Nat.zero_le _
  | append_singleton taken byte ih =>
    intro hpre text h
    rw [scan_append] at h
    cases hscan : scan [] taken with
    | line held rest =>
      rw [hscan] at h
      exact Scan.noConfusion h
    | tooLong rest =>
      rw [hscan] at h
      exact Scan.noConfusion h
    | more held =>
      rw [hscan] at h
      have hle := ih ((prefix_append taken [byte]).trans hpre) hscan
      obtain ⟨hnewline, -, hheld⟩ := scan_nil_more hscan
      change scan held [byte] = .more text at h
      rw [scan] at h
      split_ifs at h with hbyte hcr hlt
      · rw [← Scan.more.inj h]
        exact hle
      · rw [← Scan.more.inj h, len_append]
        change len held + (Char.ofNat byte.toNat).utf8Size ≤ MAX_SECRET_BYTES
        have hsize := utf8Size_byte byte
        split_ifs at hsize with hascii
        · omega
        · have hne : heldLen taken + 1 ≠ MAX_SECRET_BYTES := fun heq =>
            hbytes ⟨taken, byte, hpre, hnewline, heq, UInt8.not_lt.mp hascii⟩
          omega

/-- No more than the bound is held, ever, exactly where no byte crosses it. -/
theorem bounded_iff (bytes : List UInt8) : Bounded bytes ↔ ¬Crosses bytes := by
  constructor
  · rintro hbounded ⟨line, byte, hpre, hnewline, hline, hbyte⟩
    have hne : byte ≠ 0x0a := by
      rintro rfl
      exact absurd hbyte (by decide)
    have hcr : byte ≠ 0x0d := by
      rintro rfl
      exact absurd hbyte (by decide)
    have hzero : len [] + heldLen line ≤ MAX_SECRET_BYTES := by
      change 0 + heldLen line ≤ MAX_SECRET_BYTES
      omega
    have hscan := scan_of_le hnewline hzero
    have hlen : len (latin (kept line)) + 1 = MAX_SECRET_BYTES := by rw [len_latin_kept, hline]
    have hheld : scan [] (line ++ [byte]) =
        .more (latin (kept line) ++ [Char.ofNat byte.toNat]) := by
      rw [scan_append, hscan]
      change scan (latin (kept line)) [byte] = _
      rw [scan, if_neg hne, if_neg hcr, if_pos (by omega)]
      rfl
    have hle := hbounded _ hpre _ hheld
    have hsize : (Char.ofNat byte.toNat).utf8Size = 2 := by
      rw [utf8Size_byte, if_neg (UInt8.not_lt.mpr hbyte)]
    rw [len_append] at hle
    change len (latin (kept line)) + (Char.ofNat byte.toNat).utf8Size ≤ _ at hle
    omega
  · exact fun hbytes taken hpre text h => len_le_of_not_crosses hbytes hpre h

/-! ### Preludes -/

theorem isBlank_isWhitespace : IsBlank isWhitespace where
  of_lead c hle hlt := by
    rw [isWhitespace]
    simp only [Bool.or_eq_false_iff, Bool.and_eq_false_iff, decide_eq_false_iff_not,
      beq_eq_false_iff_ne]
    omega
  of_continuation := by decide

/-- Trimming drops white space around what it keeps. -/
theorem exists_eq_trim (text : Text) : ∃ before after, (∀ c ∈ before, isWhitespace c = true) ∧
    (∀ c ∈ after, isWhitespace c = true) ∧ text = before ++ trim text ++ after := by
  have hblank {l : Text} {c : Char} (hc : c ∈ l.takeWhile isWhitespace) : isWhitespace c = true :=
    mem_takeWhile_imp hc
  refine ⟨text.takeWhile isWhitespace,
    ((text.dropWhile isWhitespace).reverse.takeWhile isWhitespace).reverse, fun c => hblank,
    fun c hc => hblank (mem_reverse.mp hc), ?_⟩
  rw [trim, append_assoc, ← reverse_append, takeWhile_append_dropWhile,
    reverse_reverse, takeWhile_append_dropWhile]

theorem IsLine.utf8 (h : IsLine text) :
    0x0a ∉ Latin.utf8 text ∧ 0x0d ∉ Latin.utf8 text :=
  ⟨fun hmem => h.1 (mem_of_mem_utf8 hmem (by decide)),
    fun hmem => h.2 (mem_of_mem_utf8 hmem (by decide))⟩

theorem kept_of_not_mem (h : 0x0d ∉ bytes) : kept bytes = bytes :=
  filter_eq_self.mpr fun _ hbyte => decide_eq_true fun heq => h (heq ▸ hbyte)

/-- The line that the window writes, up to its newline. -/
theorem writeln_eq (cr : Bool) (h : IsLine text) :
    ∃ line, writeln cr text = line ++ [0x0a] ∧ 0x0a ∉ line ∧ kept line = utf8 text := by
  refine ⟨utf8 text ++ if cr then [0x0d] else [], by rw [writeln, append_assoc], ?_, ?_⟩
  · rw [mem_append]
    exact not_or.mpr ⟨h.utf8.1, by cases cr <;> decide⟩
  · rw [kept_append, kept_of_not_mem h.utf8.2]
    cases cr <;> exact append_nil _

variable {cr : Bool} {input : List UInt8}

/-- An ASCII line within the bound is read back. -/
theorem readSecretFrom_writeln (h : IsLine text) (hascii : IsAsciiText text)
    (hlen : len text ≤ MAX_SECRET_BYTES) (hchunks : chunks.flatten = writeln cr text ++ input) :
    ∃ left : List (List UInt8), left.flatten = input ∧
      readSecretFrom (chunks.map .bytes) = (.ok text, left.map .bytes) := by
  obtain ⟨line, hwrite, hnewline, hkept⟩ := writeln_eq cr h
  have hlatin : latin (kept line) = text := by rw [hkept, latin_utf8_of_ascii hascii]
  have hheld : len [] + heldLen line ≤ MAX_SECRET_BYTES := by
    rw [← len_latin_kept, hlatin]
    exact (Nat.zero_add _).le.trans hlen
  refine readLine_chunks ?_
  rw [hchunks, hwrite, append_assoc, scan_append, scan_of_le hnewline hheld, hlatin]
  rfl

/-- A line ends at one place. -/
theorem line_inj {a b c d : List UInt8} (ha : 0x0a ∉ a) (hc : 0x0a ∉ c)
    (h : a ++ 0x0a :: b = c ++ 0x0a :: d) : a = c ∧ b = d := by
  obtain ⟨rest, rfl, hrest⟩ | ⟨rest, rfl, hrest⟩ := append_eq_append_iff.mp h
  · obtain ⟨rfl, heq⟩ | ⟨rest', rfl, -⟩ := cons_eq_append_iff.mp hrest
    · exact ⟨(append_nil a).symm, (List.cons.inj heq).2.symm⟩
    · exact absurd (mem_append_right a (mem_cons_self ..)) hc
  · obtain ⟨rfl, heq⟩ | ⟨rest', rfl, -⟩ := cons_eq_append_iff.mp hrest
    · exact ⟨append_nil c, (List.cons.inj heq).2⟩
    · exact absurd (mem_append_right c (mem_cons_self ..)) ha

/-- What the reader makes of a line that the window wrote, where it takes it. -/
theorem readSecretFrom_inv {read : Text} (h : IsLine text)
    (harrivals : bytesOf arrivals = writeln cr text ++ input)
    (hread : readSecretFrom arrivals = (.ok read, left)) :
    read = latin (utf8 text) ∧ bytesOf left = input ∧
      ∃ line, scan [] line = .more read ∧ kept line = utf8 text := by
  obtain ⟨line, hbytes, hline⟩ := readLine_ok hread
  obtain ⟨line', hwrite, hnewline, hkept⟩ := writeln_eq cr h
  rw [harrivals, hwrite, append_assoc, singleton_append] at hbytes
  obtain ⟨hnot, hheld, -⟩ := scan_nil_more hline
  obtain ⟨rfl, hrest⟩ := line_inj hnewline hnot hbytes
  exact ⟨by rw [hheld, hkept], hrest.symm, line', hline, hkept⟩

theorem parseOptions_relayCommand (secret : Option Text) :
    parseOptions (relayCommand secret) = ⟨secret.isSome, true⟩ := by
  cases secret <;> rfl

variable {viewer : Text}

theorem readViewerFrom_eq :
    readViewerFrom arrivals = (.ok viewer, left) ↔
      ∃ line, readSecretFrom arrivals = (.ok line, left) ∧ trim line = viewer ∧ viewer ≠ [] := by
  rw [readViewerFrom]
  split
  · rename_i error left' hread
    rw [hread]
    simp
  · rename_i line left' hread
    rw [hread]
    split_ifs with hempty
    · constructor
      · exact fun h => nomatch congrArg Prod.fst h
      · rintro ⟨line', hline, htrim, hne⟩
        rw [← Except.ok.inj (congrArg Prod.fst hline), hempty] at htrim
        exact absurd htrim.symm hne
    · constructor
      · intro h
        obtain ⟨htrim, rfl⟩ := Prod.mk.inj h
        exact ⟨line, rfl, Except.ok.inj htrim, Except.ok.inj htrim ▸ hempty⟩
      · rintro ⟨line', hline, rfl, -⟩
        obtain ⟨hok, rfl⟩ := Prod.mk.inj hline
        rw [Except.ok.inj hok]

/-- The prelude without a secret is the viewer's line. -/
theorem readPrelude_none :
    readPrelude ⟨false, true⟩ arrivals = (.ok (none, some viewer), left) ↔
      readViewerFrom arrivals = (.ok viewer, left) := by
  rw [readPrelude]
  rcases hread : readViewerFrom arrivals with ⟨_ | read, left'⟩ <;> simp [hread]

theorem readPrelude_some {secret : Text} :
    readPrelude ⟨true, true⟩ arrivals = (.ok (some secret, some viewer), left) ↔
      ∃ next, readSecretFrom arrivals = (.ok secret, next) ∧
        readViewerFrom next = (.ok viewer, left) := by
  rw [readPrelude]
  rcases hsecret : readSecretFrom arrivals with ⟨_ | read, next⟩
  · simp [Except.map]
  simp only [Except.map, if_true]
  rcases hviewer : readViewerFrom next with ⟨_ | read', left'⟩
  · refine iff_of_false (by simp) ?_
    rintro ⟨next', hnext, hread⟩
    rw [← (Prod.mk.inj hnext).2, hviewer] at hread
    exact nomatch congrArg Prod.fst hread
  · constructor
    · intro h
      obtain ⟨hread, rfl⟩ := Prod.mk.inj h
      obtain ⟨hread, hviewer'⟩ := Prod.mk.inj (Except.ok.inj hread)
      refine ⟨next, by rw [Option.some.inj hread], ?_⟩
      rw [hviewer, Option.some.inj hviewer']
    · rintro ⟨next', hnext, hread⟩
      obtain ⟨hsecret', rfl⟩ := Prod.mk.inj hnext
      rw [hviewer] at hread
      obtain ⟨hviewer', rfl⟩ := Prod.mk.inj hread
      rw [Except.ok.inj hsecret', Except.ok.inj hviewer']

/-! ### What is read back -/

/-- The bytes of arrivals that are all well. -/
theorem bytesOf_map (chunks : List (List UInt8)) : bytesOf (chunks.map .bytes) = chunks.flatten := by
  induction chunks with
  | nil => rfl
  | cons chunk chunks ih => rw [map_cons, bytesOf, ih, flatten_cons]

/-- A secret that is read back is ASCII. -/
theorem ascii_of_readSecretFrom (h : IsLine text)
    (harrivals : bytesOf arrivals = writeln cr text ++ input)
    (hread : readSecretFrom arrivals = (.ok text, left)) : IsAsciiText text :=
  latin_utf8_eq_iff.mp (readSecretFrom_inv h harrivals hread).1.symm

theorem heldLen_ascii (h : kept bytes = utf8 text) (hascii : IsAsciiText text) :
    ¬Crosses bytes := by
  rintro ⟨line, byte, hpre, -, -, hbyte⟩
  have hne : byte ≠ 0x0d := by
    rintro rfl
    exact absurd hbyte (by decide)
  have hmem : byte ∈ kept bytes :=
    mem_filter.mpr ⟨hpre.subset (by simp), decide_eq_true hne⟩
  rw [h] at hmem
  obtain ⟨c, hc, hencode⟩ := mem_flatMap.mp hmem
  rw [utf8EncodeChar_of_ascii (hascii c hc), mem_singleton] at hencode
  have hlt := hascii c hc
  have hle := UInt8.le_iff_toNat_le.mp hbyte
  rw [hencode, UInt8.toNat_ofNat', Nat.mod_eq_of_lt (by omega)] at hle
  change 128 ≤ c.toNat at hle
  omega

/-- A client id that is read back is ASCII and within the bound of a secret. -/
theorem ascii_of_readViewerFrom (input : List UInt8) (h : IsViewer viewer)
    (harrivals : bytesOf arrivals = writeln cr viewer ++ input)
    (hread : readViewerFrom arrivals = (.ok viewer, left)) :
    IsAsciiText viewer ∧ len viewer ≤ MAX_SECRET_BYTES := by
  obtain ⟨read, hline, htrim, -⟩ := readViewerFrom_eq.mp hread
  obtain ⟨hlatin, -, line, hscan, hkept⟩ := readSecretFrom_inv h.line harrivals hline
  obtain ⟨before, after, hbefore, hafter, heq⟩ := exists_eq_trim read
  rw [htrim] at heq
  have hascii : IsAsciiText viewer :=
    ascii_of_latin_utf8 isBlank_isWhitespace hbefore hafter (hlatin ▸ heq)
  refine ⟨hascii, ?_⟩
  rw [latin_utf8_of_ascii hascii] at hlatin
  have hle := len_le_of_not_crosses (heldLen_ascii hkept hascii) prefix_rfl hscan
  rwa [hlatin] at hle

/-- **What is read back**: ASCII secrets, with ASCII client ids within the bound of a secret. -/
theorem reads_iff {secret : Option Text}
    (hsecret : ∀ text ∈ secret, IsLine text ∧ len text ≤ MAX_SECRET_BYTES)
    (hviewer : IsViewer viewer) :
    Reads secret viewer ↔ (∀ text ∈ secret, IsAsciiText text) ∧ IsAsciiText viewer ∧
      len viewer ≤ MAX_SECRET_BYTES := by
  constructor
  · intro h
    obtain ⟨left, -, hread⟩ := h (false, false) [] [bootstrapOne (false, false) secret viewer]
      (by rw [flatten_singleton, append_nil])
    have harrivals : bytesOf ([bootstrapOne (false, false) secret viewer].map .bytes) =
        bootstrapOne (false, false) secret viewer := by rw [bytesOf_map, flatten_singleton]
    rw [parseOptions_relayCommand] at hread
    generalize [bootstrapOne (false, false) secret viewer].map Arrival.bytes = arrivals
      at hread harrivals
    cases secret with
    | none =>
      obtain ⟨hascii, hle⟩ := ascii_of_readViewerFrom [] hviewer
        (by rw [harrivals, append_nil]; rfl) (readPrelude_none.mp hread)
      exact ⟨fun _ h => absurd h (Option.not_mem_none _), hascii, hle⟩
    | some text =>
      obtain ⟨next, htext, hnext⟩ := readPrelude_some.mp hread
      obtain ⟨hline, -⟩ := hsecret text rfl
      have hrest := (readSecretFrom_inv hline harrivals htext).2.1
      obtain ⟨hascii, hle⟩ := ascii_of_readViewerFrom [] hviewer
        (by rw [hrest, append_nil]) hnext
      refine ⟨fun other hother => ?_, hascii, hle⟩
      rw [← Option.some.inj hother]
      exact ascii_of_readSecretFrom hline harrivals htext
  · rintro ⟨hsecrets, hascii, hle⟩ crs input chunks hchunks
    rw [parseOptions_relayCommand]
    have hread {chunks : List (List UInt8)}
        (hchunks : chunks.flatten = writeln crs.2 viewer ++ input) :
        ∃ left : List (List UInt8), left.flatten = input ∧
          readViewerFrom (chunks.map .bytes) = (.ok viewer, left.map .bytes) := by
      obtain ⟨left, hleft, hread⟩ := readSecretFrom_writeln hviewer.line hascii hle hchunks
      exact ⟨left, hleft, readViewerFrom_eq.mpr
        ⟨viewer, hread, hviewer.trimmed, hviewer.nonempty⟩⟩
    cases secret with
    | none =>
      obtain ⟨left, hleft, hviewer⟩ := hread hchunks
      exact ⟨left, hleft, readPrelude_none.mpr hviewer⟩
    | some text =>
      obtain ⟨hline, hlen⟩ := hsecret text rfl
      rw [bootstrapOne, Option.elim_some, append_assoc] at hchunks
      obtain ⟨next, hnext, htext⟩ :=
        readSecretFrom_writeln hline (hsecrets text rfl) hlen hchunks
      obtain ⟨left, hleft, hviewer⟩ := hread hnext
      exact ⟨left, hleft, readPrelude_some.mpr ⟨_, htext, hviewer⟩⟩

/-- **The prelude**: which are read back, what the readers take of any arrivals, and when they hold
no more than the bound. -/
theorem prelude_read_iff (secret : Option Text) (viewer : Text)
    (hsecret : ∀ text ∈ secret, IsLine text ∧ len text ≤ MAX_SECRET_BYTES)
    (hviewer : IsViewer viewer) (arrivals : List Arrival) (bytes : List UInt8) :
    (Reads secret viewer ↔ (∀ text ∈ secret, IsAsciiText text) ∧ IsAsciiText viewer ∧
      len viewer ≤ MAX_SECRET_BYTES) ∧
    StopsAtNewline arrivals (readSecretFrom arrivals) ∧
    StopsAtNewline arrivals (readViewerFrom arrivals) ∧
    (Bounded bytes ↔ ¬Crosses bytes) :=
  ⟨reads_iff hsecret hviewer, stopsAtNewline_readSecretFrom arrivals,
    stopsAtNewline_readViewerFrom arrivals, bounded_iff bytes⟩

theorem isViewer_id : IsViewer ['9', 'f'] := ⟨by decide, by decide, by decide, by decide⟩

/-- A passphrase is read back; of a line in two pieces the reader takes what is before its newline. -/
theorem prelude_read_passphrase :
    let arrivals : List Arrival := [.bytes [0x39], .bytes [0x66, 0x0a, 0x42]]
    Reads (some ['p', 'a', 's', 's']) ['9', 'f'] ∧
      StopsAtNewline arrivals (.ok ['9', 'f'], [.bytes [0x42]]) := by
  intro arrivals
  obtain ⟨hreads, -, hviewer, -⟩ := prelude_read_iff (some ['p', 'a', 's', 's']) ['9', 'f']
    (fun _ h => Option.some.inj h ▸ ⟨⟨by decide, by decide⟩, by decide⟩) isViewer_id arrivals []
  exact ⟨hreads.mpr ⟨by simp [IsAsciiText], by simp [IsAsciiText], by decide⟩, hviewer⟩

/-- The relay reads `é` as `Ã©`. -/
theorem accented_secret_misread :
    ¬∀ (secret : Option Text) (viewer : Text),
      (∀ text ∈ secret, IsLine text ∧ len text ≤ MAX_SECRET_BYTES) → IsViewer viewer →
        Reads secret viewer := by
  intro h
  obtain ⟨left, -, hread⟩ := h (some ['é']) ['9', 'f']
    (fun _ h => Option.some.inj h ▸ ⟨⟨by decide, by decide⟩, by decide⟩)
    isViewer_id (false, false) []
    [bootstrapOne (false, false) (some ['é']) ['9', 'f']] rfl
  have hresult : _ = some (some ['é'], some ['9', 'f']) :=
    congrArg (fun read => read.1.toOption) hread
  exact absurd hresult (by decide)

end Zetta.Zmux.Prelude
