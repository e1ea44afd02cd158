import Zetta.Zclip.Protocol

/-!
# Clipboard messages in terminal output

`Scanner.filter` takes clipboard messages out of terminal output, byte by byte, however the
output is cut into reads. An escape character and an operating system command are held until
they are complete; what turns out to be no message goes on, as it came.

* **Output**: what holds no message goes on as it came (`Scanner.filter_quiet`), and nothing but
  an escape character is held behind a command that has ended (`Scanner.osc_filter_quiet`).
* **Messages**: a command is taken out whole (`Scanner.filter_encode`).
* **Both** (`Scanner.filterAll_interleaved`): messages put between pieces of output, encoded and
  cut into reads in any way, are reported in order, and the output comes out complete.
-/

namespace Zetta.Zclip

open List

/-- The bytes that abort a command. -/
def CAN : UInt8 := 0x18
def SUB : UInt8 := 0x1a

/-- What begins an operating system command: `ESC ]`. -/
def OSC : List UInt8 := [0x1b, 0x5d]

/-- Takes messages out of the output; what is held is not known yet to be one. -/
structure Scanner where
  pending : List UInt8
  osc : Bool

/-- What filtering comes to: the output that goes on, and the messages reported. -/
structure Filtered where
  scanner : Scanner
  output : List UInt8
  frames : List Frame

namespace Scanner

/-- The scanner before any output. -/
def new : Scanner := ⟨[], false⟩

/-- The command held ends with this byte. -/
def terminated (pending : List UInt8) (byte : UInt8) : Bool :=
  byte = BEL || ST.isSuffixOf pending || byte = CAN || byte = SUB

section

variable [Base64]

/-- One byte of output. -/
def step (s : Scanner) (byte : UInt8) : Filtered :=
  if s.pending = [] then
    if byte = ESC then ⟨{ s with pending := [byte] }, [], []⟩ else ⟨s, [byte], []⟩
  else if s.pending.length = 1 ∧ s.osc = false then
    if byte = 0x5d then ⟨{ s with pending := s.pending ++ [byte], osc := true }, [], []⟩
    else if byte = ESC then ⟨{ s with pending := [byte] }, [ESC], []⟩
    else ⟨{ s with pending := [] }, [ESC, byte], []⟩
  else if s.osc = false then ⟨{ s with pending := [] }, s.pending ++ [byte], []⟩
  else
    let pending := s.pending ++ [byte]
    if terminated pending byte || MAX_SEQUENCE < pending.length then
      match Frame.parse pending with
      | some frame => ⟨new, [], [frame]⟩
      | none => ⟨new, pending, []⟩
    else ⟨{ s with pending := pending }, [], []⟩

/-- A read. -/
def filter (s : Scanner) : List UInt8 → Filtered
  | [] => ⟨s, [], []⟩
  | byte :: input =>
    let first := s.step byte
    let rest := first.scanner.filter input
    ⟨rest.scanner, first.output ++ rest.output, first.frames ++ rest.frames⟩

/-- The end of the output: what is held goes on. -/
def finish (s : Scanner) : Filtered := ⟨new, s.pending, []⟩

/-- One read after another. -/
def filterAll (s : Scanner) : List (List UInt8) → Filtered
  | [] => ⟨s, [], []⟩
  | input :: inputs =>
    let first := s.filter input
    let rest := first.scanner.filterAll inputs
    ⟨rest.scanner, first.output ++ rest.output, first.frames ++ rest.frames⟩

theorem filter_append (s : Scanner) (a b : List UInt8) :
    s.filter (a ++ b) = ⟨((s.filter a).scanner.filter b).scanner,
      (s.filter a).output ++ ((s.filter a).scanner.filter b).output,
      (s.filter a).frames ++ ((s.filter a).scanner.filter b).frames⟩ := by
  induction a generalizing s with
  | nil => rfl
  | cons byte a ih => simp [filter, ih]

/-- **Reads do not matter**: only what they come to. -/
theorem filterAll_eq_filter (s : Scanner) (inputs : List (List UInt8)) :
    s.filterAll inputs = s.filter inputs.flatten := by
  induction inputs generalizing s with
  | nil => rfl
  | cons input inputs ih => rw [filterAll, flatten_cons, filter_append, ih]

/-! ### Output without messages -/

/-- Nothing in the output is a message. -/
def Quiet (output : List UInt8) : Prop := ∀ s, s <:+: output → Frame.parse s = none

/-- A command ends somewhere in these bytes. -/
def Ends (bytes : List UInt8) : Prop := BEL ∈ bytes ∨ CAN ∈ bytes ∨ SUB ∈ bytes ∨ ST <:+: bytes

/-- Every command that begins in the output ends in it. -/
def OscsEnd (output : List UInt8) : Prop := ∀ a b, output = a ++ OSC ++ b → Ends b

variable {output : List UInt8}

/-- Output in which no command begins as a message does is quiet. -/
theorem quiet_of_no_start (h : ¬PREFIX <:+: output) : Quiet output := by
  intro s hs
  have hstart : PREFIX.isPrefixOf s = false := by
    rw [Bool.eq_false_iff]
    exact fun hstarts => h ((List.isPrefixOf_iff_prefix.mp hstarts).isInfix.trans hs)
  rw [Frame.parse, stripPrefix, hstart]
  rfl

omit [Base64] in
theorem oscsEnd_of_tails (h : ∀ t ∈ output.tails, OSC <+: t → Ends (t.drop OSC.length)) :
    OscsEnd output := by
  rintro a b rfl
  have := h (OSC ++ b) (mem_tails _ _ |>.mpr (by
    rw [append_assoc]
    exact suffix_append _ _)) (prefix_append _ _)
  rwa [drop_left] at this

instance (bytes : List UInt8) : Decidable (Ends bytes) := inferInstanceAs (Decidable (_ ∨ _))

/-- What a scanner can be holding: nothing, an escape character, or a command without its end. -/
def Holds (s : Scanner) : Prop :=
  (s.osc = false ∧ (s.pending = [] ∨ s.pending = [ESC])) ∨
    (s.osc = true ∧ ∃ b, s.pending = OSC ++ b ∧ ¬Ends b)

omit [Base64] in
theorem holds_new : new.Holds := Or.inl ⟨rfl, Or.inl rfl⟩

variable {b : List UInt8} {byte : UInt8}

omit [Base64] in
theorem not_ends_append (hb : ¬Ends b) (h : terminated (OSC ++ b ++ [byte]) byte = false) :
    ¬Ends (b ++ [byte]) := by
  simp only [terminated, Bool.or_eq_false_iff, decide_eq_false_iff_not] at h
  obtain ⟨⟨⟨hbel, hst⟩, hcan⟩, hsub⟩ := h
  simp only [Ends, not_or] at hb
  obtain ⟨hbel', hcan', hsub', hst'⟩ := hb
  rintro (hmem | hmem | hmem | hinside)
  · rcases mem_append.mp hmem with hmem | hmem
    · exact hbel' hmem
    · exact hbel (mem_singleton.mp hmem).symm
  · rcases mem_append.mp hmem with hmem | hmem
    · exact hcan' hmem
    · exact hcan (mem_singleton.mp hmem).symm
  · rcases mem_append.mp hmem with hmem | hmem
    · exact hsub' hmem
    · exact hsub (mem_singleton.mp hmem).symm
  · rcases infix_concat_iff.mp hinside with hsuffix | hinside
    · have hwhole : ST <:+ OSC ++ b ++ [byte] := by
        rw [append_assoc]
        exact hsuffix.trans (suffix_append _ _)
      rw [List.isSuffixOf_iff_suffix.mpr hwhole] at hst
      exact absurd hst (by decide)
    · exact hst' hinside

variable {s : Scanner}

/-- **What one byte does** where it completes no message: nothing is lost. -/
theorem step_quiet (hs : s.Holds) (hquiet : Frame.parse (s.pending ++ [byte]) = none) :
    (s.step byte).frames = [] ∧ (s.step byte).scanner.Holds ∧
      (s.step byte).output ++ (s.step byte).scanner.pending = s.pending ++ [byte] := by
  obtain ⟨pending, osc⟩ := s
  rcases hs with ⟨rfl, rfl | rfl⟩ | ⟨rfl, b, rfl, hb⟩
  · by_cases hesc : byte = ESC
    · subst hesc
      exact ⟨rfl, Or.inl ⟨rfl, Or.inr rfl⟩, rfl⟩
    · simp only [step, if_true, if_neg hesc]
      exact ⟨trivial, Or.inl ⟨rfl, Or.inl rfl⟩, rfl⟩
  · by_cases hopen : byte = 0x5d
    · subst hopen
      exact ⟨rfl, Or.inr ⟨rfl, [], rfl, by simp [Ends, ST]⟩, rfl⟩
    · by_cases hesc : byte = ESC
      · subst hesc
        exact ⟨rfl, Or.inl ⟨rfl, Or.inr rfl⟩, rfl⟩
      · simp only [step, cons_ne_nil, if_false, length_singleton, and_self, if_true,
          if_neg hopen, if_neg hesc]
        exact ⟨trivial, Or.inl ⟨rfl, Or.inl rfl⟩, rfl⟩
  · have hne : OSC ++ b ≠ [] := by simp [OSC]
    simp only [step, if_neg hne, Bool.true_eq_false, and_false, if_false, hquiet]
    split
    · exact ⟨rfl, holds_new, by simp [new]⟩
    · next hgoes =>
      simp only [Bool.or_eq_true, decide_eq_true_eq, not_or, Bool.not_eq_true] at hgoes
      refine ⟨rfl, Or.inr ⟨rfl, b ++ [byte], by simp, ?_⟩, rfl⟩
      exact not_ends_append hb hgoes.1

/-- **Output without messages** goes on as it came. -/
theorem filter_quiet (hs : s.Holds) (hquiet : Quiet (s.pending ++ output)) :
    (s.filter output).frames = [] ∧ (s.filter output).scanner.Holds ∧
      (s.filter output).output ++ (s.filter output).scanner.pending = s.pending ++ output := by
  induction output generalizing s with
  | nil => exact ⟨rfl, hs, by simp [filter]⟩
  | cons byte output ih =>
    have hsplit : s.pending ++ byte :: output = s.pending ++ [byte] ++ output := by simp
    have hfirst : Frame.parse (s.pending ++ [byte]) = none :=
      hquiet _ (hsplit ▸ (prefix_append _ _).isInfix)
    obtain ⟨hframes, hholds, hbytes⟩ := step_quiet hs hfirst
    -- what is still held after the byte is the end of what was held before it
    have hsuffix : (s.step byte).scanner.pending ++ output <:+ s.pending ++ byte :: output := by
      rw [hsplit, ← hbytes, append_assoc]
      exact suffix_append _ _
    obtain ⟨hframes', hholds', hbytes'⟩ :=
      ih hholds fun t ht => hquiet t (ht.trans hsuffix.isInfix)
    refine ⟨by simp [filter, hframes, hframes'], hholds', ?_⟩
    simp only [filter]
    rw [append_assoc, hbytes', ← append_assoc, hbytes, hsplit]

/-- No command is held behind output whose commands end. -/
theorem osc_filter_quiet (hquiet : Quiet output) (hends : OscsEnd output) :
    (new.filter output).scanner.osc = false := by
  obtain ⟨-, hholds, hbytes⟩ := filter_quiet holds_new hquiet
  rcases hholds with ⟨hosc, -⟩ | ⟨-, b, hpending, hb⟩
  · exact hosc
  · refine absurd (hends (new.filter output).output b ?_) hb
    rw [append_assoc, ← hpending, hbytes]
    rfl

/-! ### Messages -/

/-- Inside a command, a printable byte ends nothing. -/
theorem step_printable (hb : Printable (b ++ [byte]))
    (hlength : (OSC ++ (b ++ [byte])).length ≤ MAX_SEQUENCE) :
    (Scanner.mk (OSC ++ b) true).step byte = ⟨⟨OSC ++ (b ++ [byte]), true⟩, [], []⟩ := by
  obtain ⟨hlow, hhigh⟩ := hb byte (by simp)
  have hbel : byte ≠ BEL := by rintro rfl; exact absurd hlow (by decide)
  have hcan : byte ≠ CAN := by rintro rfl; exact absurd hlow (by decide)
  have hsub : byte ≠ SUB := by rintro rfl; exact absurd hlow (by decide)
  -- the only escape character held is the first byte, and it is not the last but one
  have hst : ¬ST <:+ OSC ++ (b ++ [byte]) := by
    intro hsuffix
    rcases suffix_cons_iff.mp hsuffix with heq | hsuffix
    · exact absurd (List.cons.inj (List.cons.inj heq).2).1 (by decide)
    rcases suffix_cons_iff.mp hsuffix with heq | hsuffix
    · exact absurd (List.cons.inj heq).1 (by decide)
    · exact absurd (hb ESC (hsuffix.subset (by decide))).1 (by decide)
  have hgoes : (terminated (OSC ++ (b ++ [byte])) byte ||
      decide (MAX_SEQUENCE < (OSC ++ (b ++ [byte])).length)) = false := by
    have hsuffix : ST.isSuffixOf (OSC ++ (b ++ [byte])) = false := by
      rw [Bool.eq_false_iff]
      exact fun h => hst (List.isSuffixOf_iff_suffix.mp h)
    rw [decide_eq_false (Nat.not_lt.mpr hlength)]
    simp [terminated, hbel, hcan, hsub, hsuffix]
  have hne : OSC ++ b ≠ [] := by simp [OSC]
  simp only [step, if_neg hne, Bool.true_eq_false, and_false, if_false, append_assoc, hgoes,
    Bool.false_eq_true]

/-- A command in which nothing ends is held. -/
theorem filter_printable {bytes : List UInt8} (hb : Printable (b ++ bytes))
    (hlength : (OSC ++ (b ++ bytes)).length ≤ MAX_SEQUENCE) :
    (Scanner.mk (OSC ++ b) true).filter bytes = ⟨⟨OSC ++ (b ++ bytes), true⟩, [], []⟩ := by
  induction bytes generalizing b with
  | nil => simp [filter]
  | cons byte bytes ih =>
    have hsplit : b ++ byte :: bytes = b ++ [byte] ++ bytes := by simp
    rw [hsplit] at hb hlength ⊢
    have hfirst : Printable (b ++ [byte]) := fun x hx => hb x (mem_append_left _ hx)
    have hstep := step_printable hfirst (by
      simp only [length_append] at hlength ⊢
      omega)
    rw [filter, hstep, ih hb hlength]
    rfl

/-- **A message is taken out**, and an escape character that was held before it goes on. -/
theorem filter_encode {frame : Frame} (hs : s.Holds) (hosc : s.osc = false) (h : frame.message.Fits) :
    s.filter frame.encode = ⟨new, s.pending, [frame]⟩ := by
  obtain ⟨start, hstart⟩ : ∃ start, PREFIX = OSC ++ start := ⟨PREFIX.drop 2, by decide⟩
  have hencode : frame.encode = [ESC] ++ ([0x5d] ++ ((start ++ frame.body) ++ [BEL])) := by
    simp [Frame.encode, hstart, OSC, ESC]
  have hescape : s.filter [ESC] = ⟨⟨[ESC], false⟩, s.pending, []⟩ := by
    obtain ⟨pending, osc⟩ := s
    obtain rfl : osc = false := hosc
    rcases hs with ⟨-, rfl | rfl⟩ | ⟨htrue, -⟩
    · rfl
    · rfl
    · exact absurd htrue Bool.false_ne_true
  have hopen : (Scanner.mk [ESC] false).filter [0x5d] = ⟨⟨OSC, true⟩, [], []⟩ := rfl
  have hprintable : Printable (start ++ frame.body) := by
    refine Printable.append ?_ frame.body_printable
    have hall : PREFIX.drop 2 = start := by rw [hstart]; rfl
    rw [← hall]
    unfold Printable
    decide +kernel
  have hlength : (OSC ++ (start ++ frame.body) ++ [BEL]).length ≤ MAX_SEQUENCE := by
    have := Frame.length_encode_le h
    rwa [Frame.encode, hstart, append_assoc OSC] at this
  have hheld : (Scanner.mk OSC true).filter (start ++ frame.body) =
      ⟨⟨OSC ++ (start ++ frame.body), true⟩, [], []⟩ :=
    filter_printable (b := []) hprintable (by
      rw [length_append] at hlength
      exact (Nat.le_add_right _ _).trans hlength)
  -- the last byte completes the command, which is read back
  have hend : (Scanner.mk (OSC ++ (start ++ frame.body)) true).filter [BEL] =
      ⟨new, [], [frame]⟩ := by
    have hparse : Frame.parse (OSC ++ (start ++ frame.body) ++ [BEL]) = some frame := by
      have := Frame.parse_encode h
      rwa [Frame.encode, hstart, append_assoc OSC] at this
    have hne : OSC ++ (start ++ frame.body) ≠ [] := by simp [OSC]
    simp only [filter, step, if_neg hne, Bool.true_eq_false, and_false, if_false, terminated,
      decide_true, Bool.true_or, if_true, hparse]
    rfl
  rw [hencode, filter_append, hescape, filter_append, hopen, filter_append, hheld, hend]
  simp

/-- One piece of output with a message behind it. -/
theorem filter_piece {frame : Frame} (hquiet : Quiet output) (hends : OscsEnd output)
    (h : frame.message.Fits) :
    new.filter (output ++ frame.encode) = ⟨new, output, [frame]⟩ := by
  obtain ⟨hframes, hholds, hbytes⟩ := filter_quiet holds_new hquiet
  have hosc := osc_filter_quiet hquiet hends
  rw [filter_append, filter_encode hholds hosc h, hframes]
  simp only [hbytes]
  rfl

/-- **Messages survive the terminal stream.** They are put between pieces of output in which
every command ends and nothing is a message, and a last piece follows. However the stream is cut
into reads, exactly these messages are reported, in order, and exactly the output goes on, byte
for byte, with what is held at the end. Each message alone is read back, and none is too long. -/
theorem filterAll_interleaved {pieces : List (List UInt8 × Frame)} {last : List UInt8}
    {reads : List (List UInt8)} (hfits : ∀ p ∈ pieces, p.2.message.Fits)
    (hquiet : ∀ p ∈ pieces, Quiet p.1) (hends : ∀ p ∈ pieces, OscsEnd p.1) (hlast : Quiet last)
    (hreads : reads.flatten = pieces.flatMap (fun p => p.1 ++ p.2.encode) ++ last) :
    (new.filterAll reads).frames = pieces.map Prod.snd ∧
      (new.filterAll reads).output ++ (new.filterAll reads).scanner.finish.output =
        pieces.flatMap Prod.fst ++ last ∧
      ∀ p ∈ pieces, Frame.parse p.2.encode = some p.2 ∧ p.2.encode.length ≤ MAX_SEQUENCE := by
  have hpieces : new.filter (pieces.flatMap fun p => p.1 ++ p.2.encode) =
      ⟨new, pieces.flatMap Prod.fst, pieces.map Prod.snd⟩ := by
    clear hreads
    induction pieces with
    | nil => rfl
    | cons p pieces ih =>
      have hfirst := filter_piece (hquiet p (mem_cons_self ..)) (hends p (mem_cons_self ..))
        (hfits p (mem_cons_self ..))
      have hrest := ih (fun q hq => hfits q (mem_cons_of_mem _ hq))
        (fun q hq => hquiet q (mem_cons_of_mem _ hq))
        (fun q hq => hends q (mem_cons_of_mem _ hq))
      rw [flatMap_cons, filter_append, hfirst]
      simp only [hrest]
      rfl
  obtain ⟨hframes, -, hbytes⟩ := filter_quiet holds_new hlast
  rw [filterAll_eq_filter, hreads, filter_append, hpieces]
  refine ⟨?_, ?_, fun p hp => ⟨Frame.parse_encode (hfits p hp), Frame.length_encode_le (hfits p hp)⟩⟩
  · simp [hframes]
  · rw [finish, append_assoc]
    simp only [hbytes]
    rfl

end

open scoped Base64.Standard in
/-- A title is set before the first message, and a lone escape character stands before the
second; the stream is read byte by byte. -/
theorem filterAll_interleaved_twoMessages :
    let id : RequestId := ⟨List.replicate 16 0xab, rfl⟩
    let title : List UInt8 := OSC ++ ascii ['2', ';', 't'] ++ [BEL]
    let pieces : List (List UInt8 × Frame) :=
      [(title, ⟨id, .data 3 [1, 2]⟩), (ascii ['o', 'k'] ++ [ESC], ⟨id, .error "no"⟩)]
    let stream := pieces.flatMap (fun p => p.1 ++ p.2.encode) ++ [ESC]
    (new.filterAll (stream.map fun byte => [byte])).frames = pieces.map Prod.snd := by
  intro id title pieces stream
  have hreads : (stream.map fun byte => [byte]).flatten = stream := by
    rw [← flatMap_def, flatMap_singleton']
  have hfits : ∀ p ∈ pieces, p.2.message.Fits := by
    simp only [pieces, mem_cons, not_mem_nil, or_false, forall_eq_or_imp, forall_eq]
    exact ⟨by decide, by decide⟩
  have hquiet : ∀ p ∈ pieces, Quiet p.1 := by
    simp only [pieces, mem_cons, not_mem_nil, or_false, forall_eq_or_imp, forall_eq]
    exact ⟨quiet_of_no_start (by decide +kernel), quiet_of_no_start (by decide +kernel)⟩
  have hends : ∀ p ∈ pieces, OscsEnd p.1 := by
    simp only [pieces, mem_cons, not_mem_nil, or_false, forall_eq_or_imp, forall_eq]
    exact ⟨oscsEnd_of_tails (by decide +kernel), oscsEnd_of_tails (by decide +kernel)⟩
  have hlast : Quiet [ESC] := quiet_of_no_start (by decide)
  exact (filterAll_interleaved hfits hquiet hends hlast hreads).1

end Scanner

end Zetta.Zclip
