import Zetta.Lib.ControlFunctions
import Zetta.Zosh.Server.Scanners

/-!
# The clears that are counted

`ScrollbackClearDetector` runs beside the emulator and counts the control sequences `CSI 3 J` of the
output. It is compared with a parser of control functions that reads the whole stream: a command
string ends with `BEL`, `ESC \`, `CAN` or `SUB`, and an escape inside it ends nothing else.

* `clears_eq`: however the output is cut into chunks, the clears are those of the parser, in every
  stream that keeps clear of what the detector misreads (`Misreads`): a control or another character
  inside an escape, a C1 control inside a control sequence, and a control that ends a command string
  though it is `ST` or stands behind an escape.
* `uncounted`: a clear behind a command string that an escape ends on a terminal.
-/

namespace Zetta.Zosh.Server

namespace ScrollbackClearDetector

open ControlFunctions

/-! ### What is counted -/

/-- A clear: the first parameter is a `3`, perhaps after zeros, and no more bytes than are kept. -/
def isClear (sequence : ControlSequence) : Bool :=
  sequence.final = 0x4a && sequence.bytes.length ≤ PARAMETERS_LEN &&
    (sequence.bytes.takeWhile (· != 0x3b)).dropWhile (· = 0x30) = [0x33]

/-- The clears of a text. -/
def clears (text : List UInt8) : ℕ :=
  (Parser.sequences false .ground (decode false text)).countP isClear

/-! ### What is misread -/

/-- The detector does not do with this code what the parser does. -/
def Misreads (p : Parser) : Code → Prop
  | .control byte =>
    match p with
    | .escape => (byte < 0x20 ∧ byte ≠ 0x1b ∧ ¬ Parser.Cancels byte) ∨ byte = 0x7f ∨
        byte = 0x90 ∨ byte = 0x98 ∨ byte = 0x9e ∨ byte = 0x9f
    | .csi _ => 0x80 ≤ byte
    | .string _ => byte = 0x9c
    | .stringEscape osc => Parser.Ends osc byte
    | _ => False
  | .character =>
    match p with
    | .escape => True
    | .csi _ => True
    | .stringEscape _ => True
    | _ => False

/-- No code is misread. -/
def KeepsClear (p : Parser) : List Code → Prop
  | [] => True
  | code :: codes => ¬ Misreads p code ∧ KeepsClear (p.step false code).1 codes

/-! ### One code -/

/-- One decoded code; what is no control is passed over. -/
def stepCode (d : ScrollbackClearDetector) : Code → ScrollbackClearDetector × Bool
  | .control byte => d.step byte
  | .character => (d, false)

/-- The detector is where the parser is. -/
def Follows (d : ScrollbackClearDetector) : Parser → Prop
  | .ground => d.state = .ground
  | .intermediate => d.state = .ground
  | .escape => d.state = .escape
  | .csi bytes => d.state = .csi ∧ d.parameters = bytes.take PARAMETERS_LEN ∧
      d.overflowed = decide (PARAMETERS_LEN < bytes.length)
  | .string osc => d.state = if osc then .osc else .string
  | .stringEscape osc => d.state = if osc then .oscEnd else .stringEnd

variable {d : ScrollbackClearDetector} {p : Parser} {byte : UInt8}

theorem follows_csi_nil : d.startCsi.Follows (.csi []) := ⟨rfl, rfl, rfl⟩

theorem follows_ground (hstate : d.state = .ground) (byte : UInt8) :
    (d.step byte).1.Follows ((Parser.interrupt byte).getD .ground) ∧ (d.step byte).2 = false := by
  rw [step, hstate]
  dsimp only
  rw [Parser.interrupt, Parser.introduce]
  split_ifs
  all_goals first
    | exact ⟨hstate, rfl⟩
    | exact ⟨rfl, rfl⟩
    | exact ⟨follows_csi_nil, rfl⟩
    | (exfalso; grind [Parser.Cancels])

theorem follows_intermediate (hstate : d.state = .ground) :
    (d.step byte).1.Follows
        ((Parser.interrupt byte).getD
          (if byte < 0x30 ∨ byte = 0x7f then .intermediate else .ground)) ∧
      (d.step byte).2 = false := by
  obtain ⟨hfollows, hnone⟩ := follows_ground hstate byte
  refine ⟨?_, hnone⟩
  cases hinterrupt : Parser.interrupt byte with
  | some p =>
    rw [hinterrupt] at hfollows
    exact hfollows
  | none =>
    rw [hinterrupt] at hfollows
    rw [Option.getD_none]
    split_ifs
    · exact hfollows
    · exact hfollows

theorem follows_escape (hstate : d.state = .escape)
    (hclear : ¬ Misreads .escape (.control byte)) :
    (d.step byte).1.Follows (Parser.stepEscape byte) ∧ (d.step byte).2 = false := by
  rw [Misreads] at hclear
  rw [step, hstate]
  dsimp only at hclear ⊢
  rw [Parser.stepEscape, Parser.interrupt, Parser.introduce]
  split_ifs
  all_goals first
    | exact ⟨hstate, rfl⟩
    | exact ⟨rfl, rfl⟩
    | exact ⟨follows_csi_nil, rfl⟩
    | (exfalso; grind [Parser.Cancels])

variable {bytes : List UInt8}

/-- A byte that is kept as long as there is room. -/
theorem follows_parameter (h : d.Follows (.csi bytes)) (hbyte : 0x20 ≤ byte ∧ byte ≤ 0x3f) :
    (d.stepCsi byte).1.Follows (.csi (bytes ++ [byte])) := by
  obtain ⟨hstate, hparameters, hoverflowed⟩ := h
  have hescape : byte ≠ 0x1b := by grind
  have hcancel : ¬ (byte = 0x18 ∨ byte = 0x1a) := by grind
  rw [stepCsi, if_neg hescape, if_neg hcancel, if_pos hbyte]
  by_cases hroom : bytes.length < PARAMETERS_LEN
  · have hkept : bytes.take PARAMETERS_LEN = bytes := List.take_of_length_le hroom.le
    have hlength : (bytes ++ [byte]).length ≤ PARAMETERS_LEN := by simpa using hroom
    rw [hparameters, hkept, if_pos hroom]
    refine ⟨hstate, (List.take_of_length_le hlength).symm, ?_⟩
    rw [hoverflowed, decide_eq_false (Nat.not_lt.mpr hroom.le),
      decide_eq_false (Nat.not_lt.mpr hlength)]
  · have hfull : PARAMETERS_LEN ≤ bytes.length := Nat.le_of_not_lt hroom
    have hover : PARAMETERS_LEN < (bytes ++ [byte]).length := by simpa using Nat.lt_succ_of_le hfull
    rw [if_neg (by rw [hparameters, List.length_take]; omega)]
    refine ⟨hstate, ?_, (decide_eq_true hover).symm⟩
    rw [List.take_append_of_le_length hfull]
    exact hparameters

/-- The digits that spell three. -/
theorem parse_eq_three_iff (digits : List UInt8) :
    Decimal.parseFrom (2 ^ 64) 0 digits = some 3 ↔ digits.dropWhile (· = 0x30) = [0x33] := by
  induction digits with
  | nil => exact iff_of_false (fun h => by cases h) fun h => by cases h
  | cons digit digits ih =>
    by_cases hzero : digit = 0x30
    · rw [hzero, List.dropWhile_cons_of_pos (by rfl), ← ih]
      rfl
    rw [List.dropWhile_cons_of_neg (by simpa using hzero), List.cons.injEq,
      Decimal.parseFrom_eq_some_iff (by decide), List.forall_mem_cons, List.foldl_cons]
    constructor
    · rintro ⟨⟨hdigit, -⟩, hvalue, -⟩
      have hpos : 0x30 < digit.toNat ∧ digit.toNat ≤ 0x39 := by
        have := mt UInt8.toNat.inj hzero
        have := UInt8.le_iff_toNat_le.mp hdigit.1
        exact ⟨by simp at *; omega, UInt8.le_iff_toNat_le.mp hdigit.2⟩
      cases digits with
      | nil =>
        rw [List.foldl_nil, Decimal.digitValue] at hvalue
        exact ⟨UInt8.toNat.inj (by simp; omega), rfl⟩
      | cons digit' digits =>
        -- A second digit makes ten of the first.
        have hle := Decimal.le_foldl_digits
          ((0 * 10 + Decimal.digitValue digit) * 10 + Decimal.digitValue digit') digits
        rw [List.foldl_cons] at hvalue
        rw [hvalue, Decimal.digitValue] at hle
        omega
    · rintro ⟨rfl, rfl⟩
      exact ⟨⟨by decide, by simp⟩, rfl, by decide⟩

theorem firstParameterIsThree_eq (parameters : List UInt8) : firstParameterIsThree parameters =
    decide ((parameters.takeWhile (· != 0x3b)).dropWhile (· = 0x30) = [0x33]) := by
  rw [firstParameterIsThree]
  generalize parameters.takeWhile (· != 0x3b) = first
  rw [Bool.eq_iff_iff, Bool.and_eq_true, beq_iff_eq, parse_eq_three_iff, decide_eq_true_iff]
  refine and_iff_right_of_imp ?_
  rintro hthree
  cases first with
  | nil => cases hthree
  | cons => rfl

/-- The final byte of a control sequence. -/
theorem stepCsi_final (h : d.Follows (.csi bytes)) (hbyte : 0x40 ≤ byte ∧ byte ≤ 0x7e) :
    (d.stepCsi byte).1.Follows .ground ∧ (d.stepCsi byte).2 = isClear ⟨bytes, byte⟩ := by
  obtain ⟨-, hparameters, hoverflowed⟩ := h
  have hescape : byte ≠ 0x1b := by grind
  have hcancel : ¬ (byte = 0x18 ∨ byte = 0x1a) := by grind
  have hlow : ¬ (0x20 ≤ byte ∧ byte ≤ 0x3f) := by grind
  rw [stepCsi, if_neg hescape, if_neg hcancel, if_neg hlow, if_pos hbyte]
  refine ⟨rfl, ?_⟩
  dsimp only
  rw [hparameters, hoverflowed, isClear]
  by_cases hlength : bytes.length ≤ PARAMETERS_LEN
  · rw [List.take_of_length_le hlength, decide_eq_true hlength,
      decide_eq_false (Nat.not_lt.mpr hlength), Bool.and_true, firstParameterIsThree_eq]
    rfl
  · rw [decide_eq_false hlength, decide_eq_true (Nat.lt_of_not_le hlength), Bool.and_false]
    rfl

theorem follows_csi (h : d.Follows (.csi bytes)) (hclear : ¬ Misreads (.csi bytes) (.control byte)) :
    (d.step byte).1.Follows ((Parser.csi bytes).step false (.control byte)).1 ∧
      (d.step byte).2 = ((Parser.csi bytes).step false (.control byte)).2.any isClear := by
  have hseven : ¬ 0x80 ≤ byte := hclear
  rw [step, h.1, Parser.step, Parser.interrupt]
  dsimp only
  by_cases hescape : byte = 0x1b
  · rw [stepCsi, if_pos hescape, if_pos hescape]
    exact ⟨rfl, rfl⟩
  rw [if_neg hescape]
  by_cases hcancel : byte = 0x18 ∨ byte = 0x1a
  · rw [stepCsi, if_neg hescape, if_pos hcancel, if_pos (show Parser.Cancels byte from hcancel)]
    exact ⟨rfl, rfl⟩
  rw [if_neg (show ¬ Parser.Cancels byte from hcancel), if_neg hseven]
  dsimp only
  by_cases hcontrol : byte < 0x20 ∨ byte = 0x7f
  · have hlow : ¬ (0x20 ≤ byte ∧ byte ≤ 0x3f) := by grind
    have hhigh : ¬ (0x40 ≤ byte ∧ byte ≤ 0x7e) := by grind
    rw [stepCsi, if_neg hescape, if_neg hcancel, if_neg hlow, if_neg hhigh, if_pos hcontrol]
    exact ⟨h, rfl⟩
  rw [if_neg hcontrol]
  by_cases hlow : byte ≤ 0x3f
  · have hbyte : 0x20 ≤ byte ∧ byte ≤ 0x3f := by grind
    rw [if_pos hlow]
    refine ⟨follows_parameter h hbyte, ?_⟩
    rw [stepCsi, if_neg hescape, if_neg hcancel, if_pos hbyte]
    split_ifs
    · rfl
    · rfl
  · rw [if_neg hlow]
    exact stepCsi_final h (by grind)

theorem follows_string {osc : Bool} (h : d.Follows (.string osc))
    (hclear : ¬ Misreads (.string osc) (.control byte)) :
    (d.step byte).1.Follows ((Parser.string osc).step false (.control byte)).1 ∧
      (d.step byte).2 = false := by
  have hst : byte ≠ 0x9c := hclear
  rw [Parser.step]
  dsimp only
  cases osc with
  | true =>
    have hends : Parser.Ends true byte ↔ byte = 0x07 ∨ byte = 0x18 ∨ byte = 0x1a := by
      simp [Parser.Ends, Parser.Cancels, hst]
    have hstate : d.state = .osc := h
    rw [step, hstate]
    dsimp only
    by_cases hend : byte = 0x07 ∨ byte = 0x18 ∨ byte = 0x1a
    · rw [if_pos hend, if_pos (hends.mpr hend)]
      exact ⟨rfl, rfl⟩
    rw [if_neg hend, if_neg fun hended => hend (hends.mp hended)]
    split_ifs
    · exact ⟨rfl, rfl⟩
    · exact ⟨hstate, rfl⟩
  | false =>
    have hends : Parser.Ends false byte ↔ byte = 0x18 ∨ byte = 0x1a := by
      simp [Parser.Ends, Parser.Cancels, hst]
    have hstate : d.state = .string := h
    rw [step, hstate]
    dsimp only
    by_cases hend : byte = 0x18 ∨ byte = 0x1a
    · rw [if_pos hend, if_pos (hends.mpr hend)]
      exact ⟨rfl, rfl⟩
    rw [if_neg hend, if_neg fun hended => hend (hends.mp hended)]
    split_ifs
    · exact ⟨rfl, rfl⟩
    · exact ⟨hstate, rfl⟩

theorem follows_stringEscape {osc : Bool} (h : d.Follows (.stringEscape osc))
    (hclear : ¬ Misreads (.stringEscape osc) (.control byte)) :
    (d.step byte).1.Follows ((Parser.stringEscape osc).step false (.control byte)).1 ∧
      (d.step byte).2 = false := by
  have hends : ¬ Parser.Ends osc byte := hclear
  rw [Parser.step]
  dsimp only
  rw [if_neg Bool.false_ne_true, if_neg hends]
  cases osc with
  | true =>
    have hstate : d.state = .oscEnd := h
    rw [step, hstate]
    dsimp only
    split_ifs
    · exact ⟨rfl, rfl⟩
    · exact ⟨hstate, rfl⟩
    · exact ⟨rfl, rfl⟩
  | false =>
    have hstate : d.state = .stringEnd := h
    rw [step, hstate]
    dsimp only
    split_ifs
    · exact ⟨rfl, rfl⟩
    · exact ⟨hstate, rfl⟩
    · exact ⟨rfl, rfl⟩

/-- A code that is not misread. -/
theorem follows_step {code : Code} (h : d.Follows p) (hclear : ¬ Misreads p code) :
    (d.stepCode code).1.Follows (p.step false code).1 ∧
      (d.stepCode code).2 = (p.step false code).2.any isClear := by
  cases code with
  | control byte =>
    cases p with
    | ground => exact follows_ground h byte
    | escape => exact follows_escape h hclear
    | intermediate => exact follows_intermediate h
    | csi bytes => exact follows_csi h hclear
    | string osc => exact follows_string h hclear
    | stringEscape osc => exact follows_stringEscape h hclear
  | character =>
    cases p with
    | ground => exact ⟨h, rfl⟩
    | escape => exact absurd trivial hclear
    | intermediate => exact ⟨h, rfl⟩
    | csi bytes => exact absurd trivial hclear
    | string osc => exact ⟨h, rfl⟩
    | stringEscape osc => exact absurd trivial hclear

/-! ### A stream -/

/-- The clears among some codes. -/
def feedCodes (d : ScrollbackClearDetector) : List Code → ℕ
  | [] => 0
  | code :: codes => (d.stepCode code).2.toNat + feedCodes (d.stepCode code).1 codes

theorem feedCodes_eq (h : d.Follows p) {codes : List Code} (hclear : KeepsClear p codes) :
    d.feedCodes codes = (Parser.sequences false p codes).countP isClear := by
  induction codes generalizing d p with
  | nil => rfl
  | cons code codes ih =>
    obtain ⟨hfollows, hcount⟩ := follows_step h hclear.1
    have hfirst (sequence : Option ControlSequence) :
        (sequence.any isClear).toNat = sequence.toList.countP isClear := by
      cases sequence with
      | none => rfl
      | some sequence =>
        rw [Option.any_some, Option.toList_some, List.countP_singleton]
        cases isClear sequence
        · rfl
        · rfl
    rw [feedCodes, Parser.sequences, List.countP_append, hcount, hfirst, ih hfollows hclear.2]

/-- The detector between two bytes, with no regard to the decoding. -/
def core (d : ScrollbackClearDetector) : ScrollbackClearDetector := { d with c1Utf8Prefix := false }

theorem c1Utf8Prefix_step (d : ScrollbackClearDetector) (byte : UInt8) :
    (d.step byte).1.c1Utf8Prefix = d.c1Utf8Prefix := by
  rw [step]
  cases d.state with
  | csi =>
    dsimp only
    rw [stepCsi]
    split_ifs
    all_goals rfl
  | ground | escape | osc | oscEnd | string | stringEnd =>
    dsimp only
    split_ifs
    all_goals rfl

theorem core_step (d : ScrollbackClearDetector) (byte : UInt8) :
    (d.core.step byte).1.core = (d.core.step byte).1 := by
  have hprefix : (d.core.step byte).1.c1Utf8Prefix = false := c1Utf8Prefix_step d.core byte
  rw [core, ← hprefix]

theorem feed_cons (d : ScrollbackClearDetector) (byte : UInt8) (bytes : List UInt8) :
    (d.feed (byte :: bytes)).2 =
      (d.feedByte byte).2.toNat + ((d.feedByte byte).1.feed bytes).2 :=
  rfl

/-- The bytes of a chunk are read as the codes they spell. -/
theorem feed_snd (d : ScrollbackClearDetector) (bytes : List UInt8) :
    (d.feed bytes).2 = d.core.feedCodes (decode d.c1Utf8Prefix bytes) := by
  induction bytes generalizing d with
  | nil => rfl
  | cons byte bytes ih =>
    have hstep : (d.core.step byte).2.toNat + ((d.core.step byte).1.feed bytes).2 =
        d.core.feedCodes (.control byte :: decode false bytes) := by
      rw [ih, core_step, c1Utf8Prefix_step]
      rfl
    -- a byte `C2` that begins no control is a piece of another character
    have hpiece (codes : List Code) :
        d.core.feedCodes ((if d.c1Utf8Prefix then [.character] else []) ++ codes) =
          d.core.feedCodes codes := by
      split_ifs
      · exact Nat.zero_add _
      · rfl
    rw [feed_cons, feedByte, decode]
    by_cases hcontrol : d.c1Utf8Prefix = true ∧ 0x80 ≤ byte ∧ byte ≤ 0x9f
    · rw [if_pos hcontrol, if_pos hcontrol]
      exact hstep
    rw [if_neg hcontrol, if_neg hcontrol, hpiece]
    by_cases hprefix : byte = 0xc2
    · rw [if_pos hprefix, if_pos hprefix, ih]
      exact Nat.zero_add _
    rw [if_neg hprefix, if_neg hprefix]
    by_cases hhigh : 0x80 ≤ byte
    · rw [if_pos hhigh, if_pos hhigh, ih]
      rfl
    · rw [if_neg hhigh, if_neg hhigh]
      exact hstep

/-- A stream of output, in chunks. -/
def feedAll (d : ScrollbackClearDetector) : List (List UInt8) → ScrollbackClearDetector × ℕ
  | [] => (d, 0)
  | chunk :: chunks =>
    let (d', count) := d.feed chunk
    let (d'', rest) := d'.feedAll chunks
    (d'', count + rest)

theorem feedAll_eq (d : ScrollbackClearDetector) (chunks : List (List UInt8)) :
    d.feedAll chunks = d.feed chunks.flatten := by
  induction chunks generalizing d with
  | nil => rfl
  | cons chunk chunks ih =>
    rw [List.flatten_cons, feed_append, ← ih]
    rfl

/-- However the output is cut into chunks, the clears are those of the parser, as long as no code
of it is misread. -/
theorem clears_eq (chunks : List (List UInt8))
    (hclear : KeepsClear .ground (decode false chunks.flatten)) :
    (feedAll .new chunks).2 = clears chunks.flatten := by
  rw [feedAll_eq, feed_snd]
  exact feedCodes_eq (d := new.core) (p := .ground) rfl hclear

instance decidableMisreads : (p : Parser) → (code : Code) → Decidable (Misreads p code)
  | .ground, .control _ | .intermediate, .control _ => inferInstanceAs (Decidable False)
  | .escape, .control _ => inferInstanceAs (Decidable (_ ∨ _))
  | .csi _, .control byte => inferInstanceAs (Decidable (0x80 ≤ byte))
  | .string _, .control byte => inferInstanceAs (Decidable (byte = 0x9c))
  | .stringEscape osc, .control byte => inferInstanceAs (Decidable (Parser.Ends osc byte))
  | .escape, .character | .csi _, .character | .stringEscape _, .character =>
    inferInstanceAs (Decidable True)
  | .ground, .character | .intermediate, .character | .string _, .character =>
    inferInstanceAs (Decidable False)

instance decidableKeepsClear : (p : Parser) → (codes : List Code) → Decidable (KeepsClear p codes)
  | _, [] => inferInstanceAs (Decidable True)
  | p, code :: codes =>
    have := decidableKeepsClear (p.step false code).1 codes
    inferInstanceAs (Decidable (¬ Misreads p code ∧ KeepsClear (p.step false code).1 codes))

/-- `ESC [ 3 J` in two chunks, behind a title. -/
theorem clears_in_chunks :
    (feedAll .new [[0x1b, 0x5d, 0x30, 0x3b, 0x61, 0x07, 0x1b, 0x5b], [0x33, 0x4a]]).2 =
      clears [0x1b, 0x5d, 0x30, 0x3b, 0x61, 0x07, 0x1b, 0x5b, 0x33, 0x4a] :=
  clears_eq [[0x1b, 0x5d, 0x30, 0x3b, 0x61, 0x07, 0x1b, 0x5b], [0x33, 0x4a]] (by decide)

/-- `ESC ] a`, which a terminal gives up at the next escape, and `ESC [ 3 J`. -/
theorem uncounted :
    Parser.sequences true .ground (decode false [0x1b, 0x5d, 0x61, 0x1b, 0x5b, 0x33, 0x4a]) =
        [⟨[0x33], 0x4a⟩] ∧
      (feedAll .new [[0x1b, 0x5d, 0x61, 0x1b, 0x5b, 0x33, 0x4a]]).2 = 0 := by
  decide

end ScrollbackClearDetector

end Zetta.Zosh.Server
