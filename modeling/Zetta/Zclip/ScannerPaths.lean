import Zetta.Zclip.Scanner

/-!
# The ways to scan a read

Besides `Scanner.filter` there are two ways to scan a read, both faster.

* `Scanner.filterCow` passes a read on as it is if no command begins in it and none can at its end,
  and filters it otherwise.
* `Scanner.observe` reports the messages only: between commands it goes from one escape character to
  the next.

From every state that a scanner can be in, all of them report the same messages and leave the same
state, and all bytes are accounted for (`Scanner.paths_agree`).
-/

namespace Zetta.Zclip

open List

namespace Scanner

/-- `ESC ]` stands somewhere in the bytes. -/
def containsOsc (input : List UInt8) : Bool := input.tails.any OSC.isPrefixOf

/-- The read can be passed on as it is. -/
def passable (s : Scanner) (input : List UInt8) : Bool :=
  s.pending.isEmpty &&
    (!input.contains ESC || (!List.isSuffixOf [ESC] input && !containsOsc input))

variable [Base64]

/-- `filter_cow` -/
def filterCow (s : Scanner) (input : List UInt8) : Filtered :=
  if s.passable input then ⟨s, input, []⟩ else s.filter input

/-- The loop of `observe`. -/
def observeFrom (s : Scanner) : List UInt8 → Scanner × List Frame
  | [] => (s, [])
  | byte :: rest =>
    if s.pending = [] then
      match (byte :: rest).idxOf? ESC with
      | none => (s, [])
      | some escape =>
        observeFrom { s with pending := s.pending ++ [ESC] } ((byte :: rest).drop (escape + 1))
    else if s.osc = false then
      -- an escape character alone is held
      observeFrom
        (if byte = 0x5d then ⟨OSC, true⟩
        else if byte = ESC then { s with pending := [byte] }
        else { s with pending := [] }) rest
    else
      let pending := s.pending ++ [byte]
      if terminated pending byte || MAX_SEQUENCE < pending.length then
        let (last, frames) := observeFrom new rest
        (last, (Frame.parse pending).toList ++ frames)
      else observeFrom { s with pending := pending } rest
  termination_by input => input.length
  decreasing_by
    · simp only [drop_succ_cons, length_drop, length_cons]
      omega
    all_goals exact Nat.lt_succ_self _

def observe (s : Scanner) (input : List UInt8) : Scanner × List Frame :=
  if s.passable input then (s, []) else s.observeFrom input

/-! ### States between reads -/

/-- Nothing is held, or an escape character alone, or something of a command. -/
def Shaped (s : Scanner) : Prop :=
  s.osc = false ∧ (s.pending = [] ∨ s.pending = [ESC]) ∨ s.osc = true ∧ s.pending ≠ []

omit [Base64] in
theorem shaped_new : new.Shaped := .inl ⟨rfl, .inl rfl⟩

variable {s : Scanner}

omit [Base64] in
theorem Shaped.eq_new (hs : s.Shaped) (hpending : s.pending = []) : s = new := by
  obtain ⟨pending, osc⟩ := s
  rcases hs with ⟨hosc, -⟩ | ⟨-, hne⟩
  · exact Scanner.mk.injEq .. ▸ ⟨hpending, hosc⟩
  · exact absurd hpending hne

/-- What comes out of the scanner on one way or the other. -/
inductive Piece where
  | passed (bytes : List UInt8)
  | taken (bytes : List UInt8) (frame : Frame)

namespace Piece

def bytes : Piece → List UInt8
  | passed bytes => bytes
  | taken bytes _ => bytes

def output : Piece → List UInt8
  | passed bytes => bytes
  | taken _ _ => []

def frames : Piece → List Frame
  | passed _ => []
  | taken _ frame => [frame]

/-- What is taken out is a message. -/
def Valid : Piece → Prop
  | passed _ => True
  | taken bytes frame => Frame.parse bytes = some frame

end Piece

/-- The pieces are what has come of the bytes: in order they are all bytes but those that are still
held. -/
structure Accounts (bytes : List UInt8) (f : Filtered) (pieces : List Piece) : Prop where
  valid : ∀ p ∈ pieces, p.Valid
  output : f.output = pieces.flatMap Piece.output
  frames : f.frames = pieces.flatMap Piece.frames
  bytes : pieces.flatMap Piece.bytes ++ f.scanner.pending = bytes

theorem step_accounts (hs : s.Shaped) (byte : UInt8) :
    (s.step byte).scanner.Shaped ∧
      ∃ pieces, Accounts (s.pending ++ [byte]) (s.step byte) pieces := by
  obtain ⟨pending, osc⟩ := s
  rcases hs with ⟨rfl, rfl | rfl⟩ | ⟨rfl, hne⟩
  · by_cases hesc : byte = ESC
    · subst hesc
      refine ⟨.inl ⟨rfl, .inr rfl⟩, [], ?_, rfl, rfl, rfl⟩
      simp
    · simp only [step, if_true, if_neg hesc]
      refine ⟨shaped_new, [.passed [byte]], ?_, rfl, rfl, rfl⟩
      simp [Piece.Valid]
  · by_cases hopen : byte = 0x5d
    · subst hopen
      refine ⟨.inr ⟨rfl, cons_ne_nil _ _⟩, [], ?_, rfl, rfl, rfl⟩
      simp
    · by_cases hesc : byte = ESC
      · subst hesc
        refine ⟨.inl ⟨rfl, .inr rfl⟩, [.passed [ESC]], ?_, rfl, rfl, rfl⟩
        simp [Piece.Valid]
      · simp only [step, cons_ne_nil, if_false, length_singleton, and_self, if_true,
          if_neg hopen, if_neg hesc]
        refine ⟨shaped_new, [.passed [ESC, byte]], ?_, rfl, rfl, rfl⟩
        simp [Piece.Valid]
  · simp only [step, if_neg hne, Bool.true_eq_false, and_false, if_false]
    by_cases hgoes : (terminated (pending ++ [byte]) byte ||
        decide (MAX_SEQUENCE < (pending ++ [byte]).length)) = true
    · rw [if_pos hgoes]
      cases hparse : Frame.parse (pending ++ [byte]) with
      | some frame =>
        refine ⟨shaped_new, [.taken (pending ++ [byte]) frame], ?_, rfl, rfl, ?_⟩
        · simp [Piece.Valid, hparse]
        · simp [Piece.bytes, new]
      | none =>
        refine ⟨shaped_new, [.passed (pending ++ [byte])], ?_, ?_, rfl, ?_⟩
        · simp [Piece.Valid]
        · simp [Piece.output]
        · simp [Piece.bytes, new]
    · rw [if_neg hgoes]
      refine ⟨.inr ⟨rfl, by simp⟩, [], ?_, rfl, rfl, rfl⟩
      simp

/-- Every byte is passed on, part of a message, or held. -/
theorem filter_accounts (hs : s.Shaped) (input : List UInt8) :
    (s.filter input).scanner.Shaped ∧
      ∃ pieces, Accounts (s.pending ++ input) (s.filter input) pieces := by
  induction input generalizing s with
  | nil => exact ⟨hs, [], by simp, rfl, rfl, (append_nil _).symm⟩
  | cons byte input ih =>
    obtain ⟨hshaped, first, hfirst⟩ := step_accounts hs byte
    obtain ⟨hlast, rest, hrest⟩ := ih hshaped
    refine ⟨hlast, first ++ rest, ?_, ?_, ?_, ?_⟩
    · intro p hp
      exact (mem_append.1 hp).elim (hfirst.valid p) (hrest.valid p)
    · rw [filter, flatMap_append, ← hfirst.output, ← hrest.output]
    · rw [filter, flatMap_append, ← hfirst.frames, ← hrest.frames]
    · rw [filter, flatMap_append, append_assoc, hrest.bytes, ← append_assoc,
        hfirst.bytes, append_assoc, singleton_append]

/-! ### The shortcut -/

variable {input : List UInt8}

/-- Without an escape character nothing is held. -/
theorem filter_no_escape (h : ESC ∉ input) :
    new.filter input = ⟨new, input, []⟩ := by
  induction input with
  | nil => rfl
  | cons byte input ih =>
    have hbyte : byte ≠ ESC := fun heq => h (heq ▸ mem_cons_self)
    have hstep : new.step byte = ⟨new, [byte], []⟩ := by
      rw [step]
      simp only [new, if_true, if_neg hbyte]
    rw [filter, hstep, ih fun hmem => h (mem_cons_of_mem _ hmem)]
    rfl

omit [Base64] in
theorem containsOsc_cons {byte : UInt8} (h : containsOsc (byte :: input) = false) :
    OSC.isPrefixOf (byte :: input) = false ∧ containsOsc input = false := by
  rw [containsOsc, tails_cons, any_cons, Bool.or_eq_false_iff] at h
  exact h

/-- Where no command begins and no escape character is last, everything goes on: behind an escape
character that is held, it goes on with the next byte. -/
theorem filter_no_osc (hosc : containsOsc input = false) :
    (List.isSuffixOf [ESC] input = false → new.filter input = ⟨new, input, []⟩) ∧
      (input ≠ [] → List.isSuffixOf [ESC] input = false → OSC.isPrefixOf (ESC :: input) = false →
        (Scanner.mk [ESC] false).filter input = ⟨new, ESC :: input, []⟩) := by
  induction input with
  | nil => exact ⟨fun _ => rfl, fun h => absurd rfl h⟩
  | cons byte input ih =>
    obtain ⟨hstart, hrest⟩ := containsOsc_cons hosc
    obtain ⟨hnew, hheld⟩ := ih hrest
    -- the byte is not the last one if it is an escape character
    have hnext : List.isSuffixOf [ESC] (byte :: input) = false →
        List.isSuffixOf [ESC] input = false ∧ (byte = ESC → input ≠ []) := by
      intro hlast
      constructor
      · rw [Bool.eq_false_iff, ne_eq, List.isSuffixOf_iff_suffix] at hlast ⊢
        exact fun hsuffix => hlast (hsuffix.trans (suffix_cons _ _))
      · rintro rfl rfl
        exact absurd hlast (by decide)
    constructor
    · intro hlast
      obtain ⟨hlast', hne⟩ := hnext hlast
      by_cases hesc : byte = ESC
      · subst hesc
        rw [filter, show new.step ESC = ⟨⟨[ESC], false⟩, [], []⟩ from rfl,
          hheld (hne rfl) hlast' hstart]
        rfl
      · have hstep : new.step byte = ⟨new, [byte], []⟩ := by
          rw [step]
          simp only [new, if_true, if_neg hesc]
        rw [filter, hstep, hnew hlast']
        rfl
    · intro _ hlast hopen
      obtain ⟨hlast', hne⟩ := hnext hlast
      have hbracket : byte ≠ 0x5d := by
        rintro rfl
        exact absurd hopen (by simp [OSC, ESC])
      by_cases hesc : byte = ESC
      · subst hesc
        rw [filter, show (Scanner.mk [ESC] false).step ESC = ⟨⟨[ESC], false⟩, [ESC], []⟩ from rfl,
          hheld (hne rfl) hlast' hstart]
        rfl
      · have hstep : (Scanner.mk [ESC] false).step byte = ⟨new, [ESC, byte], []⟩ := by
          rw [step]
          simp only [cons_ne_nil, if_false, length_singleton, and_self, if_true,
            if_neg hbracket, if_neg hesc]
          rfl
        rw [filter, hstep, hnew hlast']
        rfl

/-- A read that can be passed on as it is holds no message. -/
theorem filter_passable (hs : s.Shaped) (h : s.passable input = true) :
    s.filter input = ⟨s, input, []⟩ := by
  rw [passable, Bool.and_eq_true, List.isEmpty_iff, Bool.or_eq_true, Bool.and_eq_true,
    Bool.not_eq_true', Bool.not_eq_true', Bool.not_eq_true'] at h
  obtain ⟨hpending, hpass⟩ := h
  obtain rfl := hs.eq_new hpending
  rcases hpass with hescape | ⟨hlast, hosc⟩
  · exact filter_no_escape fun hmem => by simp [hmem] at hescape
  · exact (filter_no_osc hosc).1 hlast

theorem filterCow_eq (hs : s.Shaped) (input : List UInt8) :
    s.filterCow input = s.filter input := by
  rw [filterCow]
  split_ifs with hpass
  · exact (filter_passable hs hpass).symm
  · rfl

/-! ### From escape to escape -/

/-- The loop of `observe` comes to the same state and reports the same messages. -/
theorem observeFrom_eq (hs : s.Shaped) (input : List UInt8) :
    s.observeFrom input = ((s.filter input).scanner, (s.filter input).frames) := by
  induction s, input using observeFrom.induct with
  | case1 s => rw [observeFrom, filter]
  | case2 s byte rest hpending hnone =>
    obtain rfl := hs.eq_new hpending
    rw [observeFrom, if_pos hpending, hnone, filter_no_escape (idxOf?_eq_none_iff.1 hnone)]
  | case3 s byte rest hpending escape hsome ih =>
    obtain rfl := hs.eq_new hpending
    have hheld : Shaped { new with pending := new.pending ++ [ESC] } := .inl ⟨rfl, .inr rfl⟩
    obtain ⟨hlt, hat, hbefore⟩ := idxOf?_eq_some_iff.1 hsome
    -- what stands in front of the escape character goes on
    have hsplit : byte :: rest =
        (byte :: rest).take escape ++ ESC :: (byte :: rest).drop (escape + 1) := by
      rw [← hat, getElem_cons_drop, take_append_drop]
    have hskip : new.filter ((byte :: rest).take escape) =
        ⟨new, (byte :: rest).take escape, []⟩ := by
      refine filter_no_escape fun hmem => ?_
      obtain ⟨i, hi, heq⟩ := getElem_of_mem hmem
      rw [length_take] at hi
      rw [getElem_take] at heq
      exact hbefore i (by omega) heq
    have hfilter : new.filter (byte :: rest) =
        ⟨((Scanner.mk [ESC] false).filter ((byte :: rest).drop (escape + 1))).scanner,
          (byte :: rest).take escape ++
            ((Scanner.mk [ESC] false).filter ((byte :: rest).drop (escape + 1))).output,
          ((Scanner.mk [ESC] false).filter ((byte :: rest).drop (escape + 1))).frames⟩ := by
      conv_lhs => rw [hsplit]
      rw [filter_append, hskip]
      rfl
    rw [observeFrom, if_pos hpending, hsome, hfilter]
    exact ih hheld
  | case4 s byte rest hpending hosc ih =>
    have hheld : s = ⟨[ESC], false⟩ := by
      obtain ⟨pending, osc⟩ := s
      rcases hs with ⟨-, hnil | hescape⟩ | ⟨hopen, -⟩
      · exact absurd hnil hpending
      · exact Scanner.mk.injEq .. ▸ ⟨hescape, hosc⟩
      · exact absurd hopen (by rw [hosc]; decide)
    subst hheld
    simp only [dite_eq_ite] at ih
    rw [observeFrom, if_neg hpending, if_pos hosc, filter]
    by_cases hopen : byte = 0x5d
    · subst hopen
      rw [if_pos rfl] at ih ⊢
      rw [ih (.inr ⟨rfl, cons_ne_nil _ _⟩)]
      rfl
    rw [if_neg hopen] at ih ⊢
    by_cases hesc : byte = ESC
    · subst hesc
      rw [if_pos rfl] at ih ⊢
      rw [ih (.inl ⟨rfl, .inr rfl⟩)]
      rfl
    · have hstep : (Scanner.mk [ESC] false).step byte = ⟨new, [ESC, byte], []⟩ := by
        rw [step, if_neg hpending, if_pos ⟨rfl, rfl⟩, if_neg hopen, if_neg hesc]
        rfl
      rw [if_neg hesc] at ih ⊢
      rw [ih (.inl ⟨rfl, .inl rfl⟩), hstep]
      rfl
  | case5 s byte rest hpending hosc pending hdone last frames hlast ih =>
    have hparsed : ∀ frame, Frame.parse pending = some frame →
        s.step byte = ⟨new, [], [frame]⟩ := by
      intro frame hparse
      rw [step, if_neg hpending, if_neg fun h => hosc h.2, if_neg hosc]
      exact (if_pos hdone).trans (by rw [hparse])
    have hforeign : Frame.parse pending = none → s.step byte = ⟨new, pending, []⟩ := by
      intro hparse
      rw [step, if_neg hpending, if_neg fun h => hosc h.2, if_neg hosc]
      exact (if_pos hdone).trans (by rw [hparse])
    rw [hlast] at ih
    obtain ⟨hstate, hframes⟩ := Prod.mk.inj (ih shaped_new)
    rw [observeFrom, if_neg hpending, if_neg hosc]
    simp only [pending] at hdone hparsed hforeign
    rw [if_pos hdone]
    cases hparse : Frame.parse (s.pending ++ [byte]) with
    | some frame => simp [hlast, filter, hparsed frame hparse, hstate, hframes]
    | none => simp [hlast, filter, hforeign hparse, hstate, hframes]
  | case6 s byte rest hpending hosc pending hgoes ih =>
    have hopen : s.osc = true := by simpa using hosc
    have hstep : s.step byte = ⟨{ s with pending := pending }, [], []⟩ := by
      rw [step, if_neg hpending, if_neg fun h => hosc h.2, if_neg hosc]
      exact if_neg hgoes
    have hheld : Shaped { s with pending := pending } := .inr ⟨hopen, by simp [pending]⟩
    rw [observeFrom, if_neg hpending, if_neg hosc, filter, hstep]
    simp only [pending] at hgoes ih hheld ⊢
    rw [if_neg hgoes, ih hheld]
    rfl

theorem observe_eq (hs : s.Shaped) (input : List UInt8) :
    s.observe input = ((s.filter input).scanner, (s.filter input).frames) := by
  rw [observe]
  split_ifs with hpass
  · rw [filter_passable hs hpass]
  · exact observeFrom_eq hs input

/-! ### Any mixture -/

/-- The way a read is scanned. -/
inductive Path where
  | filter
  | filterCow
  | observe

/-- The state and the messages of a read. -/
def scan (s : Scanner) (input : List UInt8) : Path → Scanner × List Frame
  | .filter => ((s.filter input).scanner, (s.filter input).frames)
  | .filterCow => ((s.filterCow input).scanner, (s.filterCow input).frames)
  | .observe => s.observe input

/-- A use of a scanner. -/
inductive Use where
  | scan (path : Path) (input : List UInt8)
  | finish

/-- The state and the messages after several uses. -/
def useAll (s : Scanner) : List Use → Scanner × List Frame
  | [] => (s, [])
  | .scan path input :: uses =>
    let (s, frames) := s.scan input path
    let (last, rest) := s.useAll uses
    (last, frames ++ rest)
  | .finish :: uses => s.finish.scanner.useAll uses

/-- The same reads, filtered. -/
def Use.filtered : Use → Use
  | scan _ input => scan .filter input
  | finish => finish

theorem scan_eq (hs : s.Shaped) (input : List UInt8) (path : Path) :
    s.scan input path = ((s.filter input).scanner, (s.filter input).frames) := by
  cases path with
  | filter => rfl
  | filterCow => rw [scan, filterCow_eq hs]
  | observe => rw [scan, observe_eq hs]

theorem useAll_shaped (hs : s.Shaped) (uses : List Use) :
    (s.useAll uses).1.Shaped ∧ s.useAll (uses.map Use.filtered) = s.useAll uses := by
  induction uses generalizing s with
  | nil => exact ⟨hs, rfl⟩
  | cons use uses ih =>
    cases use with
    | scan path input =>
      obtain ⟨hshaped, heq⟩ := ih (filter_accounts hs input).1
      rw [map_cons, Use.filtered, useAll, useAll, scan_eq hs, scan_eq hs]
      dsimp only
      rw [heq]
      exact ⟨hshaped, rfl⟩
    | finish =>
      obtain ⟨hshaped, heq⟩ := ih shaped_new
      exact ⟨hshaped, heq⟩

/-- **The ways agree** in every state a scanner can be in: `filter` and `filterCow` do the same,
`observe` reports the same messages and leaves the same state, and the bytes of a read and those
that were held are, in order, passed on, taken out as messages, or held. So any mixture of them
comes to what `filter` alone comes to. -/
theorem paths_agree (uses : List Use) :
    new.useAll (uses.map Use.filtered) = new.useAll uses ∧
      ∀ input : List UInt8, let s := (new.useAll uses).1
        s.filterCow input = s.filter input ∧
        s.observe input = ((s.filter input).scanner, (s.filter input).frames) ∧
        ∃ pieces, Accounts (s.pending ++ input) (s.filter input) pieces := by
  obtain ⟨hshaped, heq⟩ := useAll_shaped shaped_new uses
  exact ⟨heq, fun input => ⟨filterCow_eq hshaped input, observe_eq hshaped input,
    (filter_accounts hshaped input).2⟩⟩

/-! ### What is held is bounded -/

theorem step_bounded (hs : s.pending.length ≤ MAX_SEQUENCE) (byte : UInt8) :
    (s.step byte).scanner.pending.length ≤ MAX_SEQUENCE := by
  have hmax : 1 < MAX_SEQUENCE := by decide
  simp only [step]
  split_ifs with hnil hesc hone hosc hesc hfalse hend
  all_goals first
    | exact hs
    | exact Nat.zero_le _
    | exact hmax.le
    | skip
  · rw [length_append, hone.1]
    exact hmax
  · split <;> exact Nat.zero_le _
  · rw [Bool.or_eq_true, not_or, decide_eq_true_eq] at hend
    exact not_lt.mp hend.2

theorem filter_bounded (hs : s.pending.length ≤ MAX_SEQUENCE) (input : List UInt8) :
    (s.filter input).scanner.pending.length ≤ MAX_SEQUENCE := by
  induction input generalizing s with
  | nil => exact hs
  | cons byte input ih => exact ih (step_bounded hs byte)

/-- **However a scanner is used**, and whatever it reads, it never holds more than a message can
have. -/
theorem useAll_bounded (uses : List Use) :
    (new.useAll uses).1.pending.length ≤ MAX_SEQUENCE := by
  suffices hall : ∀ s : Scanner, s.pending.length ≤ MAX_SEQUENCE →
      (s.useAll (uses.map Use.filtered)).1.pending.length ≤ MAX_SEQUENCE by
    rw [← (useAll_shaped shaped_new uses).2]
    exact hall new (Nat.zero_le _)
  induction uses with
  | nil => exact fun _ => id
  | cons use uses ih =>
    intro s hs
    cases use with
    | scan path input => exact ih _ (filter_bounded hs input)
    | finish => exact ih _ (Nat.zero_le _)

end Scanner

end Zetta.Zclip
