import Zetta.Zosh.Server.UserStreamRoundTrip

/-!
# Two readers of one diff

`decodeEvents` and `announcements` read the same bytes, the one strict about numbers and lengths
and refusing the diff at the first malformed field, the other lenient and stopping there.

* What the strict readers of numbers, byte strings and fields accept, the lenient ones read as
  the same (`readVarintLenient_eq`, `skipFieldLenient_eq`).
* `strictEnds` and `lenientEnds` are what is left after each record. For steps that read of a
  field what skipping it reads, the first is a prefix of the second (`strictEnds_agree`), and
  both come to the end of a message that is accepted (`ends_of_accepted`).
* A diff of the client announces the newest of each setting in it (`announcements_encodeEvents`).
-/

namespace Zetta.Zosh.Server

open List Wire MoshRs

/-! ### What the strict reader accepts -/

variable {bytes rest : List UInt8} {n : ℕ}

/-- The digits read so far do not overflow, so that none of their bits is dropped. -/
private theorem readVarintLenientFrom_eq {index value : ℕ} (hindex : index ≤ 10)
    (hvalue : value < 128 ^ index) (h : readVarintFrom index value bytes = .ok (n, rest)) :
    readVarintLenientFrom index value bytes = some (n, rest) := by
  induction bytes generalizing index value with
  | nil => cases h
  | cons byte bytes ih =>
    rw [readVarintFrom] at h
    split_ifs at h with hlong hover hlast
    all_goals
      have hdigit : byte.toNat % 128 < 128 := Nat.mod_lt _ (by decide)
      have hnext : value + byte.toNat % 128 * 128 ^ index < 128 ^ (index + 1) := by
        have hle : byte.toNat % 128 * 128 ^ index ≤ 127 * 128 ^ index :=
          Nat.mul_le_mul_right _ (by omega)
        rw [Nat.pow_succ]
        omega
      have hfits : value + byte.toNat % 128 * 128 ^ index < 2 ^ 64 := by
        by_cases hnine : index = 9
        · -- the tenth digit has one bit
          subst hnine
          have hbit : byte.toNat % 128 ≤ 1 := by omega
          have hle : byte.toNat % 128 * 128 ^ 9 ≤ 1 * 128 ^ 9 := Nat.mul_le_mul_right _ hbit
          norm_num at hvalue hle ⊢
          omega
        · have hpow : 128 ^ (index + 1) ≤ 128 ^ 9 := Nat.pow_le_pow_right (by decide) (by omega)
          norm_num at hpow ⊢
          omega
      rw [readVarintLenientFrom, if_neg hlong]
      dsimp only
      rw [Nat.mod_eq_of_lt hfits]
    · rw [if_pos hlast]
      cases h
      rfl
    · rw [if_neg hlast]
      exact ih (by omega) hnext h

theorem readVarintLenient_eq (h : readVarint bytes = .ok (n, rest)) :
    readVarintLenient bytes = some (n, rest) :=
  readVarintLenientFrom_eq (Nat.zero_le _) Nat.one_pos h

theorem readTagLenient_eq {tag : ℕ × ℕ} (h : readTag bytes = .ok (tag, rest)) :
    readTagLenient bytes = some (tag, rest) := by
  obtain ⟨⟨n, left⟩, hread, heq⟩ := map_eq_ok_iff.mp h
  cases heq
  rw [readTagLenient, readVarintLenient_eq hread]
  rfl

theorem readBytesLenient_eq {bs : List UInt8} (h : readBytes bytes = .ok (bs, rest)) :
    readBytesLenient bytes = some (bs, rest) := by
  obtain ⟨⟨n, left⟩, hread, heq⟩ := bind_eq_ok_iff.mp h
  split_ifs at heq with hlength
  cases heq
  rw [readBytesLenient, readVarintLenient_eq hread, Option.bind_some, if_pos hlength]

private theorem advanceLenient_eq {count : ℕ} (h : advance bytes count = .ok rest) :
    advanceLenient bytes count = some rest := by
  rw [advance] at h
  split_ifs at h with hlength
  cases h
  exact if_pos hlength

theorem skipFieldLenient_eq {wire : ℕ} (h : skipField bytes wire = .ok rest) :
    skipFieldLenient bytes wire = some rest := by
  rw [skipField] at h
  rw [skipFieldLenient]
  split_ifs at h ⊢
  · obtain ⟨⟨n, left⟩, hread, rfl⟩ := map_eq_ok_iff.mp h
    rw [readVarintLenient_eq hread]
    rfl
  · exact advanceLenient_eq h
  · obtain ⟨⟨bs, left⟩, hread, rfl⟩ := map_eq_ok_iff.mp h
    rw [readBytesLenient_eq hread]
    rfl
  · exact advanceLenient_eq h

/-! ### Where records end -/

section Ends

variable {β γ : Type}

/-- What is left after each record that a strict step reads. -/
def strictEnds (step : β → ℕ × ℕ → List UInt8 → Except String (β × List UInt8)) :
    ℕ → List UInt8 → β → List (List UInt8)
  | 0, _, _ => []
  | fuel + 1, bytes, b =>
    match readTag bytes with
    | .error _ => []
    | .ok (tag, rest) =>
      match step b tag rest with
      | .error _ => []
      | .ok (b, rest) => rest :: strictEnds step fuel rest b

/-- What is left after each record that a lenient step reads. -/
def lenientEnds (step : γ → ℕ × ℕ → List UInt8 → γ × Option (List UInt8)) :
    ℕ → List UInt8 → γ → List (List UInt8)
  | 0, _, _ => []
  | fuel + 1, bytes, c =>
    match readTagLenient bytes with
    | none => []
    | some (tag, rest) =>
      match step c tag rest with
      | (_, none) => []
      | (c, some rest) => rest :: lenientEnds step fuel rest c

/-- What is left where the reading stops. -/
def leftOver (bytes : List UInt8) (ends : List (List UInt8)) : List UInt8 :=
  ends.getLast?.getD bytes

/-- The step reads of a field what skipping it reads. -/
def Skips (step : β → ℕ × ℕ → List UInt8 → Except String (β × List UInt8)) : Prop :=
  ∀ {b b' tag rest rest'}, step b tag rest = .ok (b', rest') → skipField rest tag.2 = .ok rest'

/-- Of a field that can be skipped, the step reads what skipping it reads. -/
def SkipsLenient (step : γ → ℕ × ℕ → List UInt8 → γ × Option (List UInt8)) : Prop :=
  ∀ {tag rest rest'} c, skipField rest tag.2 = .ok rest' → (step c tag rest).2 = some rest'

variable {step : β → ℕ × ℕ → List UInt8 → Except String (β × List UInt8)}
  {lenient : γ → ℕ × ℕ → List UInt8 → γ × Option (List UInt8)}

/-- The two readers never disagree on where a record ends: as far as the strict one gets, the
lenient one reads the same records. -/
theorem strictEnds_agree (hstep : Skips step) (hlenient : SkipsLenient lenient) (fuel : ℕ)
    (bytes : List UInt8) (b : β) (c : γ) :
    strictEnds step fuel bytes b <+: lenientEnds lenient fuel bytes c := by
  induction fuel generalizing bytes b c with
  | zero => exact List.nil_prefix
  | succ fuel ih =>
    rw [strictEnds, lenientEnds]
    cases htag : readTag bytes with
    | error e => exact List.nil_prefix
    | ok x =>
      obtain ⟨tag, rest⟩ := x
      rw [readTagLenient_eq htag]
      dsimp only
      cases hread : step b tag rest with
      | error e => exact List.nil_prefix
      | ok y =>
        obtain ⟨b', rest'⟩ := y
        have hsame := hlenient c (hstep hread)
        rcases hlater : lenient c tag rest with ⟨c', left⟩
        rw [hlater] at hsame
        obtain rfl : left = some rest' := hsame
        exact cons_prefix_cons.mpr ⟨rfl, ih rest' b' c'⟩

/-- Of a message that is accepted, the lenient reader reads the same records, to the end. -/
theorem ends_of_accepted (hstep : Skips step) (hlenient : SkipsLenient lenient) {fuel : ℕ}
    {bytes : List UInt8} {b b' : β} (hfuel : bytes.length ≤ fuel)
    (h : foldFields step fuel bytes b = .ok b') (c : γ) :
    lenientEnds lenient fuel bytes c = strictEnds step fuel bytes b ∧
      leftOver bytes (strictEnds step fuel bytes b) = [] := by
  induction fuel generalizing bytes b c with
  | zero => exact ⟨rfl, length_eq_zero_iff.mp (Nat.le_zero.mp hfuel)⟩
  | succ fuel ih =>
    cases bytes with
    | nil => exact ⟨rfl, rfl⟩
    | cons byte bytes =>
      rw [foldFields] at h
      obtain ⟨⟨tag, rest⟩, htag, h⟩ := bind_eq_ok_iff.mp h
      obtain ⟨⟨b₁, rest'⟩, hread, h⟩ := bind_eq_ok_iff.mp h
      have hskip := hstep hread
      have hshorter := length_readTag_lt htag
      have hle := length_skipField_le hskip
      have hsame := hlenient c hskip
      rw [strictEnds, lenientEnds, htag, readTagLenient_eq htag]
      dsimp only at hread hsame ⊢
      rw [hread]
      rcases hlater : lenient c tag rest with ⟨c', left⟩
      rw [hlater] at hsame
      obtain rfl : left = some rest' := hsame
      obtain ⟨hends, hleft⟩ := ih (b := b₁) (by simp only [length_cons] at *; omega) h c'
      refine ⟨congrArg (rest' :: ·) hends, ?_⟩
      rw [leftOver] at hleft ⊢
      rw [getLast?_cons, Option.getD_some]
      exact hleft

/-- A walk reads the fields that were written. -/
theorem walk_encodeFields (next : γ → Field → γ) {fs : List Field}
    (hvalid : ∀ f ∈ fs, f.1 < 2 ^ 61)
    (hreads : ∀ f ∈ fs, ∀ c rest,
      lenient c (f.1, f.2.wireType) (f.2.encode ++ rest) = (next c f, some rest))
    {fuel : ℕ} (hfuel : (encodeFields fs).length ≤ fuel) (c : γ) :
    walk lenient fuel (encodeFields fs) c = fs.foldl next c := by
  induction fs generalizing fuel c with
  | nil => cases fuel <;> rfl
  | cons f fs ih =>
    rw [encodeFields, flatMap_cons, ← encodeFields] at hfuel ⊢
    have hpos := f.length_encode_pos
    rw [length_append] at hfuel
    obtain ⟨fuel, rfl⟩ : ∃ n, fuel = n + 1 := ⟨fuel - 1, by omega⟩
    have htag : readTagLenient (f.encode ++ encodeFields fs) =
        some ((f.1, f.2.wireType), f.2.encode ++ encodeFields fs) := by
      rw [Field.encode, append_assoc]
      exact readTagLenient_eq (readTag_varint (hvalid f (by simp)) f.2.wireType_lt _)
    rw [walk, htag]
    dsimp only
    rw [hreads f (by simp)]
    exact ih (fun g hg => hvalid g (by simp [hg])) (fun g hg => hreads g (by simp [hg]))
      (by omega) _

/-- Two walks that read alike and keep accumulators of the same meaning. -/
theorem walk_map (lenient : γ → ℕ × ℕ → List UInt8 → γ × Option (List UInt8))
    (lenient' : β → ℕ × ℕ → List UInt8 → β × Option (List UInt8)) (g : γ → β)
    (h : ∀ c tag rest, lenient' (g c) tag rest =
      (g (lenient c tag rest).1, (lenient c tag rest).2)) (fuel : ℕ) (bytes : List UInt8) (c : γ) :
    walk lenient' fuel bytes (g c) = g (walk lenient fuel bytes c) := by
  induction fuel generalizing bytes c with
  | zero => rfl
  | succ fuel ih =>
    rw [walk, walk]
    cases readTagLenient bytes with
    | none => rfl
    | some x =>
      obtain ⟨tag, rest⟩ := x
      dsimp only
      rw [h]
      obtain ⟨c', _ | rest'⟩ := lenient c tag rest
      · rfl
      · exact ih rest' c'

end Ends

/-! ### The readers of a diff -/

/-- One field of an instruction, read for the settings. -/
def settingField (found : Announcements) (tag : ℕ × ℕ) (rest : List UInt8) :
    Announcements × Option (List UInt8) :=
  if tag = (KEEP_ALIVE_FIELD, WIRE_VARINT) then
    ({ found with keepAliveMs := (readSetting rest).1 }, (readSetting rest).2)
  else if tag = (SCROLLBACK_FIELD, WIRE_VARINT) then
    ({ found with scrollbackKib := (readSetting rest).1 }, (readSetting rest).2)
  else if tag = (CLIPBOARD_FIELD, WIRE_VARINT) then
    ({ found with clipboardVersion := (readSetting rest).1 }, (readSetting rest).2)
  else (found, skipFieldLenient rest tag.2)

theorem instructionAnnouncements_eq (bytes : List UInt8) :
    instructionAnnouncements bytes = walk settingField bytes.length bytes {} :=
  rfl

/-- Of each setting the one announced last. -/
def Announcements.newest (found announced : Announcements) : Announcements :=
  ⟨announced.keepAliveMs <|> found.keepAliveMs, announced.scrollbackKib <|> found.scrollbackKib,
    announced.clipboardVersion <|> found.clipboardVersion⟩

/-- One field of a diff, read for the settings. -/
def announcedField (found : Announcements) (tag : ℕ × ℕ) (rest : List UInt8) :
    Announcements × Option (List UInt8) :=
  if tag = (INSTRUCTION_FIELD, WIRE_BYTES) then
    match readBytesLenient rest with
    | none => (found, none)
    | some (instruction, rest) => (found.newest (instructionAnnouncements instruction), some rest)
  else (found, skipFieldLenient rest tag.2)

variable (diff : List UInt8)

theorem announcements_eq : announcements diff = walk announcedField diff.length diff {} :=
  rfl

/-- One field of a diff, read for its instructions. -/
def collectField (found : List (List UInt8)) (tag : ℕ × ℕ) (rest : List UInt8) :
    List (List UInt8) × Option (List UInt8) :=
  if tag = (INSTRUCTION_FIELD, WIRE_BYTES) then
    match readBytesLenient rest with
    | none => (found, none)
    | some (instruction, rest) => (found ++ [instruction], some rest)
  else (found, skipFieldLenient rest tag.2)

/-- The instructions that `announcements` reads. -/
def instructionsRead (diff : List UInt8) : List (List UInt8) :=
  walk collectField diff.length diff []

/-- The settings that a list of instructions announces, of each the newest. -/
def announcedBy (instructions : List (List UInt8)) : Announcements :=
  instructions.foldl
    (fun found instruction => found.newest (instructionAnnouncements instruction)) {}

/-- The settings of a diff are those of its instructions. -/
theorem announcements_eq_announcedBy :
    announcements diff = announcedBy (instructionsRead diff) := by
  refine walk_map collectField announcedField announcedBy (fun found tag rest => ?_) diff.length
    diff []
  rw [announcedField, collectField]
  split_ifs
  · cases readBytesLenient rest with
    | none => rfl
    | some x => simp [announcedBy, foldl_append]
  · rfl

variable {rest' : List UInt8}

private theorem skipField_of_readBytes {bs : List UInt8} (h : readBytes rest = .ok (bs, rest')) :
    skipField rest WIRE_BYTES = .ok rest' := by
  rw [skipField, if_neg (by decide), if_neg (by decide), if_pos rfl, h]
  rfl

private theorem skips_skipped {β : Type} {b b' : β} {wire : ℕ}
    (h : skipped b wire rest = .ok (b', rest')) : skipField rest wire = .ok rest' := by
  obtain ⟨left, hskip, heq⟩ := map_eq_ok_iff.mp h
  cases heq
  exact hskip

private theorem skips_nested {β : Type}
    {step : β → ℕ × ℕ → List UInt8 → Except String (β × List UInt8)} {b b' : β}
    (h : nested step b rest = .ok (b', rest')) :
    skipField rest WIRE_BYTES = .ok rest' := by
  obtain ⟨⟨bs, left⟩, hread, h⟩ := bind_eq_ok_iff.mp h
  obtain ⟨b₁, -, heq⟩ := bind_eq_ok_iff.mp h
  cases heq
  exact skipField_of_readBytes hread

/-- An instruction is read field by field. -/
theorem skips_instructionField : Skips instructionField := by
  intro d d' tag rest rest' h
  rw [instructionField] at h
  split_ifs at h with hkeys hsize hresponse hagent
  · obtain ⟨⟨keys, left⟩, hread, heq⟩ := map_eq_ok_iff.mp h
    cases heq
    rw [hkeys]
    exact skips_nested hread
  · obtain ⟨⟨size, left⟩, hread, heq⟩ := map_eq_ok_iff.mp h
    cases heq
    rw [hsize]
    exact skips_nested hread
  · obtain ⟨⟨bs, left⟩, hread, heq⟩ := map_eq_ok_iff.mp h
    cases heq
    rw [hresponse]
    exact skipField_of_readBytes hread
  · obtain ⟨⟨bs, left⟩, hread, h⟩ := bind_eq_ok_iff.mp h
    obtain ⟨agent, -, heq⟩ := bind_eq_ok_iff.mp h
    cases heq
    rw [hagent]
    exact skipField_of_readBytes hread
  · exact skips_skipped h

/-- A diff is read field by field. -/
theorem skips_messageField : Skips messageField := by
  intro events events' tag rest rest' h
  rw [messageField] at h
  split_ifs at h with htag
  · obtain ⟨⟨bs, left⟩, hread, h⟩ := bind_eq_ok_iff.mp h
    obtain ⟨d, -, h⟩ := bind_eq_ok_iff.mp h
    obtain ⟨more, -, heq⟩ := bind_eq_ok_iff.mp h
    cases heq
    rw [htag]
    exact skipField_of_readBytes hread
  · exact skips_skipped h

private theorem readVarint_of_skipField (h : skipField rest WIRE_VARINT = .ok rest') :
    ∃ n, readVarint rest = .ok (n, rest') := by
  rw [skipField, if_pos rfl] at h
  obtain ⟨⟨n, left⟩, hread, rfl⟩ := map_eq_ok_iff.mp h
  exact ⟨n, hread⟩

private theorem readBytes_of_skipField (h : skipField rest WIRE_BYTES = .ok rest') :
    ∃ bs, readBytes rest = .ok (bs, rest') := by
  rw [skipField, if_neg (by decide), if_neg (by decide), if_pos rfl] at h
  obtain ⟨⟨bs, left⟩, hread, rfl⟩ := map_eq_ok_iff.mp h
  exact ⟨bs, hread⟩

private theorem readSetting_eq (h : readVarint rest = .ok (n, rest')) :
    readSetting rest = (if n < 2 ^ 32 then some n else none, some rest') := by
  rw [readSetting, readVarintLenient_eq h]

theorem skipsLenient_settingField : SkipsLenient settingField := by
  intro tag rest rest' found h
  have hsetting (htag : tag.2 = WIRE_VARINT) : (readSetting rest).2 = some rest' := by
    rw [htag] at h
    obtain ⟨n, hread⟩ := readVarint_of_skipField h
    rw [readSetting_eq hread]
  rw [settingField]
  split_ifs with hkeepAlive hscrollback hclipboard
  · exact hsetting (congrArg Prod.snd hkeepAlive)
  · exact hsetting (congrArg Prod.snd hscrollback)
  · exact hsetting (congrArg Prod.snd hclipboard)
  · exact skipFieldLenient_eq h

theorem skipsLenient_announcedField : SkipsLenient announcedField := by
  intro tag rest rest' found h
  rw [announcedField]
  split_ifs with htag
  · rw [htag] at h
    obtain ⟨bs, hread⟩ := readBytes_of_skipField h
    rw [readBytesLenient_eq hread]
  · exact skipFieldLenient_eq h

/-- The instructions of a diff that is accepted are accepted. -/
private theorem collect_accepted {fuel : ℕ} {diff : List UInt8} {events events' : List UserEvent}
    (hfuel : diff.length ≤ fuel) (h : foldFields messageField fuel diff events = .ok events')
    {found : List (List UInt8)} (hfound : ∀ i ∈ found, ∃ d, decodeInstruction i = .ok d) :
    ∀ i ∈ walk collectField fuel diff found, ∃ d, decodeInstruction i = .ok d := by
  induction fuel generalizing diff events found with
  | zero => exact hfound
  | succ fuel ih =>
    cases diff with
    | nil => exact hfound
    | cons byte diff =>
      rw [foldFields] at h
      obtain ⟨⟨tag, rest⟩, htag, h⟩ := bind_eq_ok_iff.mp h
      obtain ⟨⟨events₁, rest'⟩, hread, h⟩ := bind_eq_ok_iff.mp h
      have hskip := skips_messageField hread
      have hshorter := length_readTag_lt htag
      have hle := length_skipField_le hskip
      have hrest : rest'.length ≤ fuel := by
        simp only [length_cons] at *
        omega
      rw [walk, readTagLenient_eq htag]
      dsimp only at hread hskip ⊢
      rw [collectField]
      rw [messageField] at hread
      split_ifs at hread ⊢ with hinstruction
      · obtain ⟨⟨bs, left⟩, hbytes, hread⟩ := bind_eq_ok_iff.mp hread
        obtain ⟨d, hd, hread⟩ := bind_eq_ok_iff.mp hread
        obtain ⟨more, -, heq⟩ := bind_eq_ok_iff.mp hread
        cases heq
        rw [readBytesLenient_eq hbytes]
        refine ih hrest h fun i hi => ?_
        rcases mem_append.mp hi with hi | hi
        · exact hfound i hi
        · rw [mem_singleton.mp hi]
          exact ⟨d, hd⟩
      · rw [skipFieldLenient_eq hskip]
        exact ih hrest h hfound

/-! ### What a diff of the client announces -/

/-- The setting an event announces. -/
def setting : MoshRs.UserEvent → Announcements
  | .keepAlive intervalMs => { keepAliveMs := some intervalMs.toNat }
  | .scrollbackRequest budgetKib => { scrollbackKib := some budgetKib.toNat }
  | .clipboardVersion version => { clipboardVersion := some version.toNat }
  | _ => {}

/-- Of each setting, the value that is announced last among the events. -/
def announced (events : List MoshRs.UserEvent) : Announcements where
  keepAliveMs := (events.filterMap fun e => (setting e).keepAliveMs).getLast?
  scrollbackKib := (events.filterMap fun e => (setting e).scrollbackKib).getLast?
  clipboardVersion := (events.filterMap fun e => (setting e).clipboardVersion).getLast?

theorem announced_append (events more : List MoshRs.UserEvent) :
    announced (events ++ more) = (announced events).newest (announced more) := by
  have hor (x y : Option ℕ) : (x <|> y) = x.or y := by cases x <;> rfl
  simp only [announced, Announcements.newest, filterMap_append, getLast?_append, hor]

theorem announced_flatMap (cs : List Carried) (found : List MoshRs.UserEvent) :
    announced (found ++ cs.flatMap Carried.events) =
      cs.foldl (fun found c => found.newest (announced c.events)) (announced found) := by
  induction cs generalizing found with
  | nil => rw [flatMap_nil, append_nil, foldl_nil]
  | cons c cs ih =>
    rw [flatMap_cons, ← append_assoc, ih, announced_append, foldl_cons]

/-- The settings of an instruction with one field more. -/
private def settingNext (found : Announcements) : Field → Announcements
  | (field, .varint n) =>
    let value := if n < 2 ^ 32 then some n else none
    if field = KEEP_ALIVE_FIELD then { found with keepAliveMs := value }
    else if field = SCROLLBACK_FIELD then { found with scrollbackKib := value }
    else if field = CLIPBOARD_FIELD then { found with clipboardVersion := value }
    else found
  | _ => found

private theorem settingField_encode {f : Field} (hvalid : f.2.Valid) (found : Announcements)
    (rest : List UInt8) :
    settingField found (f.1, f.2.wireType) (f.2.encode ++ rest) =
      (settingNext found f, some rest) := by
  obtain ⟨field, n | bs⟩ := f
  · have hread := readSetting_eq (readVarint_varint hvalid rest)
    have hskip := skipFieldLenient_eq (skipField_encode hvalid rest)
    simp only [settingField, settingNext, Payload.wireType, Payload.encode, Prod.mk.injEq,
      and_true] at hread hskip ⊢
    rw [hread, hskip]
    split_ifs <;> rfl
  · have hwire : WIRE_BYTES ≠ WIRE_VARINT := by decide
    have hskip := skipFieldLenient_eq (skipField_encode hvalid rest)
    simp only [settingField, settingNext, Payload.wireType, Prod.mk.injEq, hwire, and_false,
      if_false] at hskip ⊢
    rw [hskip]
    exact ⟨trivial, rfl⟩

/-- An instruction announces the setting it carries. -/
private theorem instructionAnnouncements_carried (c : Carried)
    (hlen : (encodeFields c.instruction.fields).length < 2 ^ 64) :
    instructionAnnouncements (encodeFields c.instruction.fields) = announced c.events := by
  have hone {f : Field} (hf : c.instruction.fields = [f]) (hfield : f.1 < 2 ^ 61)
      (hvalid : f.2.Valid) (hnext : settingNext {} f = announced c.events) :
      instructionAnnouncements (encodeFields c.instruction.fields) = announced c.events := by
    rw [instructionAnnouncements_eq, hf, walk_encodeFields settingNext
      (by simpa using hfield) (by simpa using settingField_encode hvalid) (Nat.le_refl _),
      foldl_cons, foldl_nil, hnext]
  have hbytes (field : ℕ) {bs : List UInt8} (hf : c.instruction.fields = [(field, .bytes bs)])
      (hfield : field < 2 ^ 61) (hnone : announced c.events = {}) :
      instructionAnnouncements (encodeFields c.instruction.fields) = announced c.events := by
    refine hone hf hfield ?_ hnone.symm
    have hlt := Field.length_lt_encode field bs
    have hle := length_encode_le_of_mem (hf ▸ mem_singleton_self ((field, .bytes bs) : Field))
    show bs.length < 2 ^ 64
    omega
  have hnumber (field : ℕ) {n : UInt32} (hf : c.instruction.fields = [(field, uint32 n)])
      (hfield : field < 2 ^ 61)
      (hnext : settingNext {} (field, .varint n.toNat) = announced c.events) :
      instructionAnnouncements (encodeFields c.instruction.fields) = announced c.events :=
    hone hf hfield (n.toNat_lt.trans (by decide)) hnext
  cases c with
  | keys ks hne =>
    refine hbytes 2 rfl (by decide) ?_
    simp [announced, Carried.events, setting]
  | event e hother =>
    cases e with
    | byte b => exact absurd rfl (hother b)
    | resize width height => exact hbytes 3 rfl (by decide) rfl
    | terminalResponse bs => exact hbytes 21 rfl (by decide) rfl
    | agentHello version => exact hbytes 23 rfl (by decide) rfl
    | agentResponse c r frame closed => exact hbytes 23 rfl (by decide) rfl
    | keepAlive n =>
      refine hnumber 20 rfl (by decide) ?_
      rw [settingNext, if_pos n.toNat_lt]
      rfl
    | scrollbackRequest n =>
      refine hnumber 22 rfl (by decide) ?_
      rw [settingNext, if_pos n.toNat_lt]
      rfl
    | clipboardVersion n =>
      refine hnumber 24 rfl (by decide) ?_
      rw [settingNext, if_pos n.toNat_lt]
      rfl

/-- The settings of a diff with one instruction more. -/
private def announcedNext (found : Announcements) : Field → Announcements
  | (_, .bytes bs) => found.newest (instructionAnnouncements bs)
  | _ => found

/-- **What is announced** by a diff of the client is the newest value of each setting in it. -/
theorem announcements_encodeEvents {events : List MoshRs.UserEvent}
    (hlen : (encodeEvents events).length < 2 ^ 64) :
    announcements (encodeEvents events) = announced events := by
  obtain ⟨cs, hcs, hevents⟩ := instructions_carried events
  rw [encodeEvents, hcs] at hlen ⊢
  have hclen := length_instruction_lt hlen
  have hfold := announced_flatMap cs []
  rw [nil_append, hevents] at hfold
  rw [hfold, announcements_eq, encodeMessage, walk_encodeFields announcedNext (by simp)
    (fun f hf found rest => ?_) (Nat.le_refl _), map_map, foldl_map]
  · refine foldl_ext _ _ _ fun found c hc => ?_
    exact congrArg found.newest (instructionAnnouncements_carried c (hclen c hc))
  · obtain ⟨i, hi, rfl⟩ := mem_map.mp hf
    obtain ⟨c, hc, rfl⟩ := mem_map.mp hi
    have hread := readBytesLenient_eq (readBytes_varint (hclen c hc) rest)
    rw [← append_assoc] at hread
    show announcedField found (INSTRUCTION_FIELD, WIRE_BYTES)
      ((varint _ ++ encodeFields _) ++ rest) = _
    rw [announcedField, if_pos rfl, hread]
    rfl

/-! ### The two readers together -/

/-- Where the records of a diff end for `decodeEvents`. -/
def recordEnds (diff : List UInt8) : List (List UInt8) :=
  strictEnds messageField diff.length diff []

/-- Where the records of a diff end for `announcements`. -/
def announcedEnds (diff : List UInt8) : List (List UInt8) :=
  lenientEnds announcedField diff.length diff {}

/-- Where the records of an instruction end for `decodeInstruction`. -/
def instructionEnds (instruction : List UInt8) : List (List UInt8) :=
  strictEnds instructionField instruction.length instruction {}

/-- Where the records of an instruction end for `instructionAnnouncements`. -/
def settingEnds (instruction : List UInt8) : List (List UInt8) :=
  lenientEnds settingField instruction.length instruction {}

/-- The two readers of an accepted diff read the same records, and read it completely. -/
theorem ends_of_decodeEvents {diff : List UInt8} {events : List UserEvent}
    (h : decodeEvents diff = .ok events) :
    announcedEnds diff = recordEnds diff ∧ leftOver diff (announcedEnds diff) = [] ∧
      ∀ instruction ∈ instructionsRead diff,
        settingEnds instruction = instructionEnds instruction ∧
          leftOver instruction (settingEnds instruction) = [] := by
  obtain ⟨hends, hleft⟩ := ends_of_accepted skips_messageField skipsLenient_announcedField
    (Nat.le_refl _) h {}
  refine ⟨hends, (congrArg (leftOver diff) hends).trans hleft, fun instruction hmem => ?_⟩
  obtain ⟨d, hd⟩ := collect_accepted (Nat.le_refl _) h (by simp) instruction hmem
  obtain ⟨hends, hleft⟩ := ends_of_accepted skips_instructionField skipsLenient_settingField
    (Nat.le_refl _) hd {}
  exact ⟨hends, (congrArg (leftOver instruction) hends).trans hleft⟩

/-- **The encoder and the two readers.** The diff of a log from any of its prefixes announces the
newest of each setting in the suffix, and is decoded into the events that the suffix stands for,
event by event, unless there is an event in it that the server does not take, when it is refused.
Of any bytes the two readers read the same records as far as the strict one gets, and if that
accepts them the other reads them completely. -/
theorem diff_readers :
    (∀ events base : List MoshRs.UserEvent, base <+: events →
      ∃ diff, diffFrom events base = some diff ∧ (diff.length < 2 ^ 64 →
        announcements diff = announced (events.drop base.length) ∧
        ((∀ e ∈ events.drop base.length, Fits e) →
          decodeEvents diff = .ok ((events.drop base.length).flatMap decodedEvent)) ∧
        ((∃ e ∈ events.drop base.length, ¬ Fits e) →
          ∃ error, decodeEvents diff = .error error))) ∧
    ∀ diff : List UInt8,
      recordEnds diff <+: announcedEnds diff ∧
      (∀ instruction, instructionEnds instruction <+: settingEnds instruction) ∧
      announcements diff = announcedBy (instructionsRead diff) ∧
      ∀ events, decodeEvents diff = .ok events →
        announcedEnds diff = recordEnds diff ∧ leftOver diff (announcedEnds diff) = [] ∧
        ∀ instruction ∈ instructionsRead diff,
          settingEnds instruction = instructionEnds instruction ∧
            leftOver instruction (settingEnds instruction) = [] := by
  constructor
  · intro events base hbase
    refine ⟨_, if_pos hbase, fun hlen => ⟨announcements_encodeEvents hlen,
      fun hfits => decodeEvents_encodeEvents hfits hlen, fun hunfit => ?_⟩⟩
    refine decodeEvents_unfit (fun hfits => ?_) hlen
    obtain ⟨e, he, hnot⟩ := hunfit
    exact hnot (hfits e he)
  · intro diff
    refine ⟨strictEnds_agree skips_messageField skipsLenient_announcedField _ _ _ _,
      fun instruction =>
        strictEnds_agree skips_instructionField skipsLenient_settingField _ _ _ _,
      announcements_eq_announcedBy diff, fun events => ends_of_decodeEvents⟩

/-- Two keystrokes with a keep-alive between them and another behind, from the first on. -/
theorem diff_readers_keepAlive :
    ∃ diff, diffFrom [.byte 97, .keepAlive 500, .byte 98, .keepAlive 700] [.byte 97] = some diff ∧
      announcements diff = { keepAliveMs := some 700 } ∧ decodeEvents diff = .ok [.byte 98] := by
  obtain ⟨diff, hdiff, hreaders⟩ := diff_readers.1
    [.byte 97, .keepAlive 500, .byte 98, .keepAlive 700] [.byte 97] (by decide)
  have hlen : diff.length < 2 ^ 64 := by
    cases hdiff
    decide
  obtain ⟨hannounced, hdecoded, -⟩ := hreaders hlen
  exact ⟨diff, hdiff, hannounced, hdecoded (by simp [Fits])⟩

/-- A terminal of 65536 columns: the client encodes the resize, and the server refuses the diff. -/
theorem wide_refused :
    ¬ ∀ events base : List MoshRs.UserEvent, base <+: events →
      ∃ diff, diffFrom events base = some diff ∧
        decodeEvents diff = .ok ((events.drop base.length).flatMap decodedEvent) := by
  intro h
  obtain ⟨diff, hdiff, hdecoded⟩ := h [.resize 65536 24] [] (by decide)
  obtain rfl : encodeEvents [.resize 65536 24] = diff := Option.some.inj hdiff
  have hunfit : ¬ ∀ e ∈ [MoshRs.UserEvent.resize 65536 24], Fits e := by simp [Fits]
  obtain ⟨error, hrefused⟩ := decodeEvents_unfit hunfit (by decide)
  rw [hrefused] at hdecoded
  cases hdecoded

end Zetta.Zosh.Server
