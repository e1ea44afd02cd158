import Zetta.Zmux.StreamPair

/-!
# Streams on which nothing fails

As long as no local socket and no link fails, and no connection is refused, nothing is lost on
a stream: what was read is what was done, what the receiver holds, what is under way and what
the sender has in hand (`Pair.Whole.exact`); and credit, data and credit under way back are
the window, exactly, while the sender's side has the stream (`Pair.Whole.credit`). Neither is
the stream reset. The end of one direction does not matter to the other.

`Pair.Whole.step`: every step that does not fail keeps this.
-/

namespace Zetta.Zmux

open List Function

/-! ### What a channel does when nothing fails -/

def Outbound.Fine : Outbound → Prop
  | .sendClose | .resetting => False
  | _ => True

def Writer.Fine : Writer → Prop
  | .sendClose | .removing => False
  | _ => True

def Outbound.count : Outbound → ℕ
  | .finished => 0
  | _ => 1

def Writer.count : Writer → ℕ
  | .finished => 0
  | _ => 1

theorem Frame.size_of_tokens {frame : Frame} (h : frame.tokens = []) :
    frame.size = 0 := by
  rw [Frame.size]
  split_ifs with hkind
  · rw [Frame.tokens, hkind] at h
    exact length_eq_zero_iff.mpr (map_eq_nil_iff.mp h)
  · rfl

namespace Channel

/-- A channel on which nothing has failed. -/
structure Whole (c : Channel) : Prop where
  notClosed : c.closed = false
  outbound : c.outbound.Fine
  writer : c.writer.Fine
  pumps : c.pumps = c.outbound.count + c.writer.count
  mapped : c.mapped ↔ c.pumps ≠ 0
  inbound : c.inbound = false → .eof ∈ c.output ++ c.content
  stopped : ¬ c.writer.Active → .eof ∈ c.output
  read : ¬ c.outbound.Reads → .eof ∈ c.input

/-- The end comes last. -/
def EofLast (l : List Token) : Prop := ∀ a b, l = a ++ .eof :: b → b = []

variable {c c' : Channel} {frames : List Frame} {stream : UInt32}

theorem Ended.eofLast (h : c.Ended) : EofLast c.input := by
  intro a b heq
  have hno : ∀ (bytes : List UInt8) (b : List Token), tokens bytes ≠ a ++ .eof :: b := by
    intro bytes b heq
    have hin : Token.eof ∈ tokens bytes := heq ▸ by simp
    obtain ⟨_, -, h⟩ := mem_map.mp hin
    cases h
  obtain ⟨bytes, hbytes | ⟨hbytes, -⟩⟩ := h
  · exact absurd (hbytes.symm.trans heq) (hno bytes b)
  · by_contra hb
    obtain ⟨b', x, rfl⟩ := eq_nil_or_concat b |>.resolve_left hb
    rw [hbytes, concat_eq_append, ← cons_append, ← append_assoc] at heq
    exact hno bytes b' (append_inj_left' heq rfl)

theorem EofLast.of_start {l l' : List Token} (h : EofLast l') (hstarts : l <+: l') :
    EofLast l := by
  rintro a b rfl
  obtain ⟨rest, rfl⟩ := hstarts
  have := h a (b ++ rest) (by simp)
  exact (append_eq_nil_iff.mp this).1

/-- Behind the end there is nothing. -/
theorem EofLast.nil_of_mem {l l' : List Token} (h : EofLast (l ++ l')) (hmem : .eof ∈ l) :
    l' = [] := by
  obtain ⟨a, b, rfl⟩ := append_of_mem hmem
  have := h a (b ++ l') (by simp)
  exact (append_eq_nil_iff.mp this).2

theorem not_mem_of_reads (h : c.Ended) (hreads : c.outbound.Reads) : Token.eof ∉ c.input := by
  intro hin
  obtain ⟨bytes, hbytes | ⟨-, hdone⟩⟩ := h
  · rw [hbytes] at hin
    obtain ⟨_, -, heq⟩ := mem_map.mp hin
    cases heq
  · exact hdone hreads

/-- What `Moves` does at both ends when nothing fails. -/
structure Keeps (c c' : Channel) (frames : List Frame) : Prop where
  whole : c'.Whole
  mapped : c'.mapped → c.mapped
  sends : ∀ X, c.input = X ++ c.hand → c'.input = X ++ wireTokens frames ++ c'.hand
  credit : c'.available + c'.held + wireSize frames = c.available + c.held
  receives : c'.output ++ c'.content = c.output ++ c.content
  back : c'.unwritten + c'.uncredited + wireCredit frames = c.unwritten + c.uncredited
  noClose : ∀ f ∈ frames, f.kind ≠ .close

theorem readLocal_keeps {result : LocalRead} (h : c.readLocal result = some c')
    (hresult : result ≠ .error) (hwhole : c.Whole) : c.Keeps c' [] := by
  cases result with
  | data bytes =>
    simp only [readLocal, Option.ite_none_right_eq_some, Option.some.injEq] at h
    obtain ⟨⟨hreading, -⟩, rfl⟩ := h
    exact {
      whole := { hwhole with
        outbound := trivial
        pumps := by rw [hwhole.pumps, hreading]; rfl
        read := fun h => absurd trivial h }
      mapped := id
      sends := fun X hX => by
        simp only [hand, hreading, append_nil] at hX
        simp [hand, hX]
      credit := by simp [held, hreading]
      receives := rfl
      back := rfl
      noClose := by simp }
  | eof =>
    simp only [readLocal, Option.ite_none_right_eq_some, Option.some.injEq] at h
    obtain ⟨⟨hreading, -⟩, rfl⟩ := h
    exact {
      whole := { hwhole with
        outbound := trivial
        pumps := by rw [hwhole.pumps, hreading]; rfl
        read := fun _ => by simp }
      mapped := id
      sends := fun X hX => by
        simp only [hand, hreading, append_nil] at hX
        simp [hand, hX]
      credit := by simp [held, hreading]
      receives := rfl
      back := rfl
      noClose := by simp }
  | error => exact absurd rfl hresult

@[simp]
theorem pumpFinished_outbound : c.pumpFinished.outbound = c.outbound := rfl

@[simp]
theorem pumpFinished_writer : c.pumpFinished.writer = c.writer := rfl

/-- A pump that ends leaves the stream on the link as long as the other runs. -/
private theorem pumpFinished_mapped (h : c.Whole) :
    c.pumpFinished.mapped ↔ c.pumpFinished.pumps ≠ 0 := by
  have := h.mapped
  simp only [pumpFinished, Bool.and_eq_true, bne_iff_ne, this]
  omega

/-- What a pump that ends leaves behind. -/
private theorem pumpFinished_whole (h : c.Whole) {o : Outbound} {r : Writer}
    (ho : o.Fine ∧ (¬ o.Reads → .eof ∈ c.input))
    (hr : r.Fine ∧ (¬ r.Active → .eof ∈ c.output))
    (hcontent : Channel.content { c with writer := r } = c.content)
    (hcount : o.count + r.count + 1 = c.outbound.count + c.writer.count) :
    Channel.Whole { c.pumpFinished with outbound := o, writer := r } where
  notClosed := h.notClosed
  outbound := ho.1
  writer := hr.1
  pumps := by
    have := h.pumps
    simp only [pumpFinished]
    omega
  mapped := pumpFinished_mapped h
  inbound := fun hin => by
    have hmem := h.inbound hin
    rwa [← hcontent] at hmem
  stopped := hr.2
  read := ho.2

theorem pumpOutbound_keeps (h : c.pumpOutbound stream true = some (c', frames))
    (hwhole : c.Whole) : c.Keeps c' frames := by
  rw [pumpOutbound] at h
  split at h
  · next rest hrest =>
    split_ifs at h with hclosed havailable
    · exact absurd (hwhole.notClosed.symm.trans hclosed) (by decide)
    cases h
    have hmin : min rest.length c.available ≤ c.available := min_le_right ..
    have hlength : min rest.length c.available ≤ rest.length := min_le_left ..
    exact {
      whole := { hwhole with
        outbound := trivial
        pumps := by rw [hwhole.pumps, hrest]; rfl
        read := fun h => absurd trivial h }
      mapped := id
      sends := fun X hX => by simpa [hand, hrest] using hX
      credit := by
        simp only [held, hrest, length_take, wireSize_nil]
        omega
      receives := rfl
      back := rfl
      noClose := by simp }
  · next now rest hrest =>
    cases h
    simp only [if_true]
    have hnext : ∀ o : Outbound, o = (if rest = [] then .reading else .sending rest) →
        o.Fine ∧ o.count = 1 ∧ o.Reads := by
      rintro o rfl
      split_ifs <;> exact ⟨trivial, rfl, trivial⟩
    obtain ⟨hfine, hone, hreads⟩ := hnext _ rfl
    exact {
      whole := { hwhole with
        outbound := hfine
        pumps := by rw [hwhole.pumps, hrest, hone]; rfl
        read := fun h => absurd hreads h }
      mapped := id
      sends := fun X hX => by
        simp only [hand, hrest] at hX
        rw [hX]
        split_ifs with hnil <;> simp [hand, send, Frame.tokens, tokens_append, hnil]
      credit := by
        have hheld : Channel.held { c with
            outbound := if rest = [] then .reading else .sending rest } = 0 := by
          split_ifs <;> rfl
        rw [hheld]
        simp [held, hrest, send, Frame.size]
      receives := rfl
      back := by simp [send, Frame.given, unwritten, uncredited]
      noClose := by simp [send] }
  · next hrest =>
    cases h
    exact {
      whole := { hwhole with
        outbound := trivial
        pumps := by rw [hwhole.pumps, hrest]; rfl
        read := fun _ => hwhole.read (by rw [hrest]; exact id) }
      mapped := id
      sends := fun X hX => by
        simp only [hand, hrest] at hX
        simp [hX, hand, send, Frame.tokens]
      credit := by simp [held, hrest, send, Frame.size]
      receives := rfl
      back := by simp [send, Frame.given, unwritten, uncredited]
      noClose := by simp [send] }
  · next hrest =>
    have := hwhole.outbound
    rw [hrest] at this
    cases this
  · next hrest =>
    have := hwhole.outbound
    rw [hrest] at this
    cases this
  · next hrest =>
    cases h
    exact {
      whole := pumpFinished_whole hwhole
        ⟨trivial, fun _ => hwhole.read (by rw [hrest]; exact id)⟩
        ⟨hwhole.writer, hwhole.stopped⟩ rfl (by
          rw [hrest, pumpFinished_writer]
          simp only [Outbound.count]
          omega)
      mapped := fun h => (Bool.and_eq_true_iff.mp h).1
      sends := fun X hX => by
        simp only [hand, hrest] at hX
        simpa [hand, pumpFinished] using hX
      credit := by simp [held, hrest, pumpFinished]
      receives := rfl
      back := by simp [pumpFinished, unwritten, uncredited]
      noClose := by simp }
  · cases h
  · cases h

theorem writeLocal_keeps (h : c.writeLocal .ok = some c') (hwhole : c.Whole) :
    c.Keeps c' [] := by
  unfold writeLocal at h
  split at h
  · next bytes hwriter hok =>
    cases h
    have hsame : c.output ++ tokens bytes ++ c.queued = c.output ++ c.content := by
      rw [content, hwriter, append_assoc]
    exact {
      whole := { hwhole with
        writer := trivial
        pumps := by rw [hwhole.pumps, hwriter]; rfl
        inbound := fun hin => by
          have := hwhole.inbound hin
          rwa [← hsame] at this
        stopped := fun h => absurd trivial h }
      mapped := id
      sends := fun X hX => by
        rw [wireTokens_nil, append_nil]
        exact hX
      credit := rfl
      receives := hsame
      back := by
        simp only [unwritten, uncredited, hwriter, wireCredit_nil]
        omega
      noClose := by simp }
  · next hok => cases hok
  · cases h

theorem pumpInbound_keeps (h : c.pumpInbound stream true = some (c', frames)) (hwhole : c.Whole)
    (hlast : EofLast (c.output ++ c.content)) (hcount : c.uncredited < 2 ^ 32) :
    c.Keeps c' frames := by
  have hsame : ∀ X, c.input = X ++ c.hand → c.input = X ++ wireTokens [] ++ c.hand := fun X hX => by
    rwa [wireTokens_nil, append_nil]
  rw [pumpInbound] at h
  split at h
  · next hwriter =>
    split at h
    · next bytes queue hqueue =>
      cases h
      have hreceives : c.output ++ (tokens bytes ++ queue.flatMap Inbound.tokens) =
          c.output ++ c.content := by
        simp only [content, queued, hwriter, hqueue, flatMap_cons, Inbound.tokens]
      exact {
        whole := { hwhole with
          writer := trivial
          pumps := by rw [hwhole.pumps, hwriter]; rfl
          inbound := fun hin => by
            have := hwhole.inbound hin
            rwa [← hreceives] at this
          stopped := fun h => absurd trivial h }
        mapped := id
        sends := hsame
        credit := rfl
        receives := hreceives
        back := by
          simp only [unwritten, uncredited, hwriter, hqueue, map_cons, sum_cons,
            Inbound.size, wireCredit_nil]
          omega
        noClose := by simp }
    · next queue hqueue =>
      cases h
      -- The end is the last that was received, so there is nothing behind it in the queue.
      have hcontent : c.content = .eof :: queue.flatMap Inbound.tokens := by
        simp only [content, queued, hwriter, hqueue, flatMap_cons, Inbound.tokens]
        rfl
      have hnil : queue.flatMap Inbound.tokens = [] := hlast c.output _ (by rw [hcontent])
      have hreceives : c.output ++ [.eof] ++ [] = c.output ++ c.content := by
        rw [hcontent, hnil, append_nil]
      exact {
        whole := { hwhole with
          writer := trivial
          pumps := by rw [hwhole.pumps, hwriter]; rfl
          inbound := fun _ => by simp
          stopped := fun _ => by simp }
        mapped := id
        sends := hsame
        credit := rfl
        receives := hreceives
        back := by
          simp only [unwritten, uncredited, hwriter, hqueue, map_cons, sum_cons,
            Inbound.size, wireCredit_nil]
          omega
        noClose := by simp }
    · next hqueue =>
      split_ifs at h with hin
      have hmem := hwhole.inbound (by simpa using hin)
      cases h
      have hnil : c.content = [] := by
        simp [content, queued, hwriter, hqueue]
      rw [hnil, append_nil] at hmem
      exact {
        whole := { hwhole with
          writer := trivial
          pumps := by rw [hwhole.pumps, hwriter]; rfl
          inbound := fun _ => mem_append_left _ hmem
          stopped := fun _ => hmem }
        mapped := id
        sends := hsame
        credit := rfl
        receives := by rw [hnil]; rfl
        back := by simp [unwritten, uncredited, hwriter]
        noClose := by simp }
  · next count hwriter =>
    cases h
    have hreceives : c.output ++ c.queued = c.output ++ c.content := by rw [content, hwriter]
    exact {
      whole := { hwhole with
        writer := trivial
        pumps := by rw [hwhole.pumps, hwriter]; rfl
        inbound := fun hin => by
          have := hwhole.inbound hin
          rwa [← hreceives] at this
        stopped := fun h => absurd trivial h }
      mapped := id
      sends := fun X hX => by simpa [send, Frame.tokens, hand] using hX
      credit := by simp [send, Frame.size, held]
      receives := hreceives
      back := by
        have hcount : count < 256 ^ 4 := by
          rw [uncredited, hwriter] at hcount
          exact hcount
        have hgiven : wireCredit (send true ⟨stream, .credit, beBytes 4 count⟩) = count := by
          simp only [send, if_true, wireCredit_cons, wireCredit_nil, Frame.given, length_beBytes,
            and_self, ofBeBytes_beBytes_of_lt hcount, Nat.add_zero]
        rw [hgiven]
        simp only [unwritten, uncredited, hwriter]
        omega
      noClose := by simp [send] }
  · next hwriter =>
    have := hwhole.writer
    rw [hwriter] at this
    cases this
  · next hwriter =>
    have := hwhole.writer
    rw [hwriter] at this
    cases this
  · next hwriter =>
    cases h
    have hmem := hwhole.stopped (by rw [hwriter]; exact id)
    have hnil : c.content = [] := by rw [content, hwriter]
    exact {
      whole := pumpFinished_whole hwhole ⟨hwhole.outbound, hwhole.read⟩
        ⟨trivial, fun _ => hmem⟩ hnil.symm
          (by rw [hwriter, pumpFinished_outbound]; simp only [Writer.count])
      mapped := fun h => (Bool.and_eq_true_iff.mp h).1
      sends := hsame
      credit := rfl
      receives := by rw [hnil]; rfl
      back := by simp [pumpFinished, unwritten, uncredited, hwriter]
      noClose := by simp }
  · cases h
  · cases h

theorem Moves.keeps (h : Moves stream true false c c' frames) (hwhole : c.Whole)
    (hlast : EofLast (c.output ++ c.content)) (hcount : c.uncredited < 2 ^ 32) :
    c.Keeps c' frames := by
  generalize hfails : false = fails at h
  cases h with
  | read result h => exact readLocal_keeps h (by simpa using hfails) hwhole
  | write result h =>
    obtain rfl : result = .ok := by simpa using hfails
    exact writeLocal_keeps h hwhole
  | outbound b hb h =>
    obtain rfl : b = true := hb.elim id And.left
    exact pumpOutbound_keeps h hwhole
  | inbound b hb h =>
    obtain rfl : b = true := hb.elim id And.left
    exact pumpInbound_keeps h hwhole hlast hcount
  | hand h =>
    exact {
      whole := { hwhole with }
      mapped := id
      sends := fun X hX => by
        rw [show wireTokens [⟨stream, .open, []⟩] = [] from rfl, append_nil]
        exact hX
      credit := by simp [Frame.size, held]
      receives := rfl
      back := by simp [Frame.given, unwritten, uncredited]
      noClose := by simp }
  | refuse h hdead => cases hfails

/-- What a frame that arrives does when nothing fails. -/
structure Takes (frame : Frame) (c c' : Channel) : Prop where
  whole : c'.Whole
  mapped : c'.mapped = c.mapped
  receives : c'.output ++ c'.content = c.output ++ c.content ++ frame.tokens
  back : c'.unwritten + c'.uncredited = c.unwritten + c.uncredited + frame.size
  credit : c.mapped → c'.available = c.available + frame.given

/-- A channel that does not take what comes has received the end. -/
theorem Whole.eof_of_not_taking (h : c.Whole) (hnot : ¬ c.Taking) :
    .eof ∈ c.output ++ c.content := by
  by_cases hwriter : c.writer.Active
  · by_cases hin : c.inbound
    · -- A stream that is off the link has no pump left.
      have hmapped : ¬ c.mapped := fun hmapped => hnot ⟨hmapped, hin, hwriter⟩
      have hzero : c.pumps = 0 := by
        by_contra hpumps
        exact hmapped (h.mapped.mpr hpumps)
      rw [h.pumps] at hzero
      have hcount : c.writer.count = 0 := by omega
      revert hwriter hcount
      cases c.writer <;> simp [Writer.Active, Writer.count]
    · exact h.inbound (by simpa using hin)
  · exact mem_append_left _ (h.stopped hwriter)

theorem dispatch_takes {frame : Frame} (hwhole : c.Whole) (hkind : frame.kind ≠ .close)
    (hempty : ¬ c.Taking → frame.tokens = [])
    (hroom : c.available + frame.given ≤ WINDOW) : Takes frame c (c.dispatch frame) := by
  have hsame : frame.tokens = [] → (c.mapped → frame.given = 0) → Takes frame c c :=
    fun htokens hgiven => {
      whole := hwhole
      mapped := rfl
      receives := by rw [htokens, append_nil]
      back := by rw [Frame.size_of_tokens htokens, Nat.add_zero]
      credit := fun hmapped => by rw [hgiven hmapped, Nat.add_zero] }
  have hpush : ∀ (message : Inbound) (inbound : Bool), frame.tokens = message.tokens →
      message.size = frame.size → frame.given = 0 →
      (inbound = false → .eof ∈ message.tokens ∨ c.inbound = false) →
      (c.writer.Active → c.Taking) →
      Takes frame c { c with queue := c.queue ++ [message], inbound := inbound } := by
    intro message inbound htokens hsize hgiven heof htaking
    obtain ⟨hactive, hinactive, hunwritten⟩ := content_push c message
    have hcontent : Channel.content { c with queue := c.queue ++ [message], inbound := inbound } =
        c.content ++ message.tokens := by
      by_cases hwriter : c.writer.Active
      · exact hactive hwriter
      · rw [← htokens, hempty fun h => hwriter h.2.2, append_nil]
        exact hinactive hwriter
    exact {
      whole := { hwhole with
        inbound := fun hin => by
          rw [hcontent, ← append_assoc]
          rcases heof hin with h | h
          · exact mem_append_right _ h
          · exact mem_append_left _ (hwhole.inbound h) }
      mapped := rfl
      receives := by rw [hcontent, htokens, append_assoc]
      back := by
        simp only [unwritten, uncredited] at hunwritten ⊢
        omega
      credit := fun _ => by rw [hgiven, Nat.add_zero] }
  have hgiven : frame.kind ≠ .credit → frame.given = 0 := fun h => by
    rw [Frame.given, if_neg fun h' => h h'.1]
  rw [dispatch]
  split
  case isFalse hmapped =>
    exact hsame (hempty fun h => hmapped h.1) fun h => absurd h hmapped
  case isTrue hmapped =>
  cases hframe : frame.kind with
  | «open» => exact hsame (by rw [Frame.tokens, hframe]) fun _ => hgiven (by rw [hframe]; decide)
  | info => exact hsame (by rw [Frame.tokens, hframe]) fun _ => hgiven (by rw [hframe]; decide)
  | close => exact absurd hframe hkind
  | data =>
    have hnone := hgiven (by rw [hframe]; decide)
    by_cases hin : c.inbound
    · simp only [deliver, if_pos hin]
      exact hpush (.data frame.payload) c.inbound (by rw [Frame.tokens, hframe]; rfl)
        (by rw [Frame.size, if_pos hframe]; rfl) hnone .inr fun hw => ⟨hmapped, hin, hw⟩
    · simp only [deliver, if_neg hin]
      exact hsame (hempty fun h => hin h.2.1) fun _ => hnone
  | eof =>
    have hnone := hgiven (by rw [hframe]; decide)
    have htokens : frame.tokens = [.eof] := by rw [Frame.tokens, hframe]
    have hin : c.inbound := by
      by_contra hin
      have := hempty fun h => hin h.2.1
      rw [htokens] at this
      cases this
    simp only [deliver, if_pos hin]
    exact hpush .eof false htokens (by rw [Frame.size, hframe]; rfl) hnone
      (fun _ => .inl (mem_singleton_self _)) fun hw => ⟨hmapped, hin, hw⟩
  | credit =>
    have htokens : frame.tokens = [] := by rw [Frame.tokens, hframe]
    dsimp only
    split
    case isFalse hlength =>
      exact hsame htokens fun _ => by rw [Frame.given, if_neg fun h => hlength h.2]
    case isTrue hlength =>
      have hamount : frame.given = ofBeBytes frame.payload := by
        rw [Frame.given, if_pos ⟨hframe, hlength⟩]
      exact {
        whole := { hwhole with }
        mapped := rfl
        receives := by rw [htokens, append_nil]; rfl
        back := by rw [Frame.size_of_tokens htokens, Nat.add_zero]; rfl
        credit := fun _ => by
          rw [hamount] at hroom ⊢
          exact min_eq_left (hroom.trans (by decide)) }

end Channel

/-! ### The pair -/

namespace Pair

/-- A stream on which nothing has failed. -/
structure Whole (v : Pair) : Prop where
  alive : ∀ p, v.alive p = true
  chan : ∀ p c, v.chan p = some c → c.Whole
  noClose : ∀ p, ∀ frame ∈ v.wire p, frame.kind ≠ .close
  detached : v.detached = []
  awaited : v.chan .far = none → v.Awaited .near
  exact : ∀ p, (v.channel p).input = v.passed p ++ (v.channel p).hand
  credit : ∀ p, (v.channel p).mapped →
    (v.channel p).available + (v.channel p).held + wireSize (v.wire p) +
      ((v.channel p.other).unwritten + (v.channel p.other).uncredited) +
      wireCredit (v.wire p.other) = WINDOW

variable {v w : Pair} {stream : UInt32} {p : Party}

/-- The end comes last in what a channel has received. -/
theorem Flow.eofLast (h : v.Flow p) :
    Channel.EofLast ((v.channel p.other).output ++ (v.channel p.other).content) :=
  h.ended.eofLast.of_start h.delivered

theorem whole_new : Channel.Whole {} where
  notClosed := rfl
  outbound := trivial
  writer := trivial
  pumps := rfl
  mapped := by decide
  inbound := fun h => by cases h
  stopped := fun h => absurd trivial h
  read := fun h => absurd trivial h

theorem whole_opening : Channel.Whole { peer := .opening } := { whole_new with }

theorem Whole.moves (h : v.Whole) (hsound : v.Sound) {c c' : Channel} {frames : List Frame}
    (hc : v.chan p = some c) (hmoves : Channel.Moves stream (v.alive p) false c c' frames) :
    Whole ((v.setChan p c').setWire p (v.wire p ++ frames)) := by
  let w : Pair := (v.setChan p c').setWire p (v.wire p ++ frames)
  have hother : w.chan p.other = v.chan p.other := update_of_ne (Party.other_ne p) ..
  have hself : w.chan p = some c' := update_self ..
  have hchannel : w.channel p.other = v.channel p.other := by rw [channel, channel, hother]
  have hwire : w.wire p = v.wire p ++ frames := update_self ..
  have hback : w.wire p.other = v.wire p.other := update_of_ne (Party.other_ne p) ..
  have hnow : w.channel p = c' := channel_of_some hself
  have hthen : v.channel p = c := channel_of_some hc
  have hflow := hsound.flow p.other
  have hlast : Channel.EofLast (c.output ++ c.content) := by
    have := hflow.eofLast
    rwa [Party.other_other, hthen] at this
  have hcount : c.uncredited < 2 ^ 32 := by
    have hwindow := hflow.window
    rw [Party.other_other, hthen] at hwindow
    have hbound : WINDOW < 2 ^ 32 := by decide
    omega
  rw [h.alive p] at hmoves
  have hkeeps := hmoves.keeps (h.chan p c hc) hlast hcount
  have hcases : ∀ q, q = p ∨ q = p.other := by
    intro q
    cases p <;> cases q <;> simp [Party.other]
  show w.Whole
  constructor
  · exact h.alive
  · intro q d hd
    rcases hcases q with rfl | rfl
    · rw [hself] at hd
      exact Option.some.inj hd ▸ hkeeps.whole
    · exact h.chan _ d (hother ▸ hd)
  · intro q frame hframe
    rcases hcases q with rfl | rfl
    · rw [hwire] at hframe
      rcases mem_append.mp hframe with hframe | hframe
      · exact h.noClose _ frame hframe
      · exact hkeeps.noClose frame hframe
    · rw [hback] at hframe
      exact h.noClose _ frame hframe
  · exact h.detached
  · intro hfar
    cases p with
    | far => cases hself.symm.trans hfar
    | near =>
      have hawaited := h.awaited (hother.symm.trans hfar)
      -- Only its `open` changes who holds the near socket.
      rcases hmoves.peer_cases with ⟨hsame, -⟩ | ⟨-, -, rfl⟩ | ⟨-, hdead, -⟩
      · refine hawaited.imp (fun hpeer d hd => ?_) fun hopen => ?_
        · rw [hself] at hd
          cases hd
          rw [hsame]
          exact hpeer c hc
        · obtain ⟨g, hg, hkind⟩ := hopen
          refine ⟨g, ?_, hkind⟩
          rw [hwire]
          exact mem_append_left _ hg
      · exact .inr ⟨_, by rw [hwire]; exact mem_append_right _ (mem_singleton_self _), rfl⟩
      · cases hdead
  · intro q
    rcases hcases q with rfl | rfl
    · have := hkeeps.sends _ (hthen ▸ h.exact q)
      rw [hnow, this, passed, passed, hchannel, hwire, wireTokens_append]
      simp only [append_assoc]
    · have := h.exact p.other
      rw [passed, Party.other_other, hthen] at this
      rw [passed, Party.other_other, hnow, hchannel, hback, hkeeps.receives]
      exact this
  · intro q hmapped
    rcases hcases q with rfl | rfl
    · rw [hnow] at hmapped
      have hbefore := h.credit q (by rw [hthen]; exact hkeeps.mapped hmapped)
      have hcredit := hkeeps.credit
      rw [hthen] at hbefore
      rw [hnow, hchannel, hwire, hback, wireSize_append]
      omega
    · rw [hchannel] at hmapped
      have hbefore := h.credit p.other hmapped
      have hcredit := hkeeps.back
      rw [Party.other_other, hthen] at hbefore
      rw [Party.other_other, hnow, hchannel, hwire, hback, wireCredit_append]
      omega

theorem Whole.gets (h : v.Whole) (hsound : v.Sound) {frame : Frame} {rest : List Frame}
    (hwire : v.wire p.other = frame :: rest)
    (hkind : p = .far → frame.kind = .open → (v.chan .far).any Channel.mapped) :
    Whole { v.setWire p.other rest with
      chan := update v.chan p ((v.chan p).map (Channel.dispatch frame)) } := by
  let w : Pair := { v.setWire p.other rest with
    chan := update v.chan p ((v.chan p).map (Channel.dispatch frame)) }
  have hother : w.chan p.other = v.chan p.other := update_of_ne (Party.other_ne p) ..
  have hself : w.chan p = (v.chan p).map (Channel.dispatch frame) := update_self ..
  have hchannel : w.channel p.other = v.channel p.other := by rw [channel, channel, hother]
  have hwire' : w.wire p.other = rest := update_self ..
  have hback : w.wire p = v.wire p := update_of_ne (Party.other_ne p).symm ..
  have hin : frame ∈ v.wire p.other := hwire ▸ mem_cons_self ..
  have hcases : ∀ q, q = p ∨ q = p.other := by
    intro q
    cases p <;> cases q <;> simp [Party.other]
  obtain ⟨c₀, hc₀, hholding⟩ := hsound.toOpening.of_wire hin
  -- Nobody was refused, so there is a channel that the frame is for.
  obtain ⟨c, hc⟩ : ∃ c, v.chan p = some c := by
    cases p with
    | near => exact ⟨c₀, hc₀⟩
    | far =>
      by_contra hnone
      have hfar : v.chan .far = none := Option.eq_none_iff_forall_ne_some.mpr fun c hc =>
        hnone ⟨c, hc⟩
      rcases h.awaited hfar with hpeer | ⟨g, hg, hopen⟩
      · exact hpeer c₀ hc₀ hholding
      · rw [show v.wire .near = frame :: rest from hwire] at hg
        rcases mem_cons.mp hg with rfl | hg
        · have := hkind rfl hopen
          rw [hfar] at this
          cases this
        · exact hsound.toOpening.rest_ne_open hwire g hg hopen
  have hthen : v.channel p = c := channel_of_some hc
  have hnow : w.channel p = c.dispatch frame := channel_of_some (by rw [hself, hc]; rfl)
  have hexact := h.exact p.other
  rw [passed, Party.other_other, hthen, hwire, wireTokens_cons] at hexact
  have hempty : ¬ c.Taking → frame.tokens = [] := fun hnot => by
    have hmem := (h.chan p c hc).eof_of_not_taking hnot
    have hstarts : c.output ++ c.content ++ frame.tokens <+: (v.channel p.other).input := by
      rw [hexact]
      exact ⟨wireTokens rest ++ (v.channel p.other).hand, by simp only [append_assoc]⟩
    exact ((hsound.flow p.other).ended.eofLast.of_start hstarts).nil_of_mem hmem
  have hroom : c.available + frame.given ≤ WINDOW := by
    have hwindow := (hsound.flow p).window
    rw [hthen, hwire, wireCredit_cons] at hwindow
    omega
  have htakes := Channel.dispatch_takes (h.chan p c hc) (h.noClose _ frame hin) hempty hroom
  have hgets := Channel.dispatch_gets frame c
  show w.Whole
  constructor
  · exact h.alive
  · intro q d hd
    rcases hcases q with rfl | rfl
    · rw [hself, hc] at hd
      exact Option.some.inj hd ▸ htakes.whole
    · exact h.chan _ d (hother ▸ hd)
  · intro q g hg
    rcases hcases q with rfl | rfl
    · exact h.noClose _ g (hback ▸ hg)
    · refine h.noClose p.other g ?_
      rw [hwire'] at hg
      rw [hwire]
      exact mem_cons_of_mem _ hg
  · exact h.detached
  · intro hfar
    cases p with
    | far =>
      rw [hself, hc] at hfar
      cases hfar
    | near =>
      refine (h.awaited (hother ▸ hfar)).imp (fun hpeer d hd => ?_) fun hopen =>
        hback ▸ hopen
      rw [hself, hc] at hd
      rw [← Option.some.inj hd, hgets.peer]
      exact hpeer c hc
  · intro q
    rcases hcases q with rfl | rfl
    · have := h.exact q
      rw [passed, hthen] at this
      rw [passed, hnow, hchannel, hback, Channel.hand, hgets.input, hgets.outbound]
      exact this
    · rw [passed, Party.other_other, hnow, hchannel, hwire', htakes.receives, hexact]
      simp only [append_assoc]
  · intro q hmapped
    rcases hcases q with rfl | rfl
    · rw [hnow, htakes.mapped] at hmapped
      have hbefore := h.credit q (by rw [hthen]; exact hmapped)
      have hcredit := htakes.credit hmapped
      have hheld : (c.dispatch frame).held = c.held := by
        simp only [Channel.held, hgets.outbound]
      rw [hthen, hwire, wireCredit_cons] at hbefore
      rw [hnow, hchannel, hback, hwire', hheld]
      omega
    · rw [hchannel] at hmapped
      have hbefore := h.credit p.other hmapped
      have hcredit := htakes.back
      rw [Party.other_other, hthen, hwire, wireSize_cons] at hbefore
      rw [Party.other_other, hnow, hchannel, hwire', hback]
      omega

/-- **Nothing is lost** in a step that does not fail. -/
theorem Whole.step (h : v.Whole) (hsound : v.Sound) (hstep : Step stream v false w) :
    w.Whole := by
  have hsound' := hsound.step hstep
  generalize hfails : false = fails at hstep
  cases hstep with
  | breaks p => cases hfails
  | ends p => cases hfails
  | moves hc hmoves =>
    subst hfails
    exact h.moves hsound hc hmoves
  | opens hnone =>
    obtain ⟨hfar, hnear, hback, -⟩ := hsound.absent hnone
    have hfar' : (v.setChan .near { peer := .opening }).chan .far = none := by
      simp [setChan, hfar]
    have hwire : (v.setChan .near { peer := .opening }).wire = fun _ => [] := by
      funext p
      cases p with
      | near => exact hnear
      | far => exact hback
    have hchannel := channel_of_none hfar'
    have hopening := channel_setChan v .near { peer := .opening }
    constructor
    · exact h.alive
    · intro p c hc
      cases p with
      | near =>
        obtain rfl : { peer := .opening } = c := by simpa [setChan] using hc
        exact whole_opening
      | far => cases hfar'.symm.trans hc
    · intro p frame hframe
      rw [hwire] at hframe
      cases hframe
    · exact h.detached
    · intro _
      refine .inl fun c hc => ?_
      obtain rfl : { peer := .opening } = c := by simpa [setChan] using hc
      decide
    · intro p
      cases p <;> simp [Party.other, passed, hwire, hchannel, hopening, Channel.content,
        Channel.queued, Channel.hand]
    · intro p _
      cases p <;> simp [Party.other, hwire, hchannel, hopening, Channel.held, Channel.unwritten,
        Channel.uncredited]
  | gets hwire hkind => exact h.gets hsound hwire hkind
  | @connects frame rest hwire hkind =>
    have hnone := hsound.toOpening.far_none hwire hkind
    have htokens : frame.tokens = [] := by rw [Frame.tokens, hkind]
    have hsize : frame.size = 0 := by rw [Frame.size, hkind]; rfl
    have hgiven : frame.given = 0 := by rw [Frame.given, hkind]; rfl
    let w := (v.setWire .near rest).setChan .far {}
    have hfar : w.channel .far = v.channel .far :=
      (channel_setChan ..).trans (channel_of_none hnone).symm
    have hchan : w.chan .near = v.chan .near := by simp [w, setWire, setChan]
    have hnear : w.channel .near = v.channel .near := by rw [channel, channel, hchan]
    have hrest : w.wire .near = rest := by simp [w, setWire, setChan]
    have hback : w.wire .far = v.wire .far := by simp [w, setWire, setChan]
    have hsame : ∀ p, w.channel p = v.channel p := by
      intro p
      cases p with
      | near => exact hnear
      | far => exact hfar
    have hwires : ∀ p, wireTokens (w.wire p) = wireTokens (v.wire p) ∧
        wireSize (w.wire p) = wireSize (v.wire p) ∧
        wireCredit (w.wire p) = wireCredit (v.wire p) := by
      intro p
      cases p with
      | near => simp [hrest, hwire, htokens, hsize, hgiven]
      | far => rw [hback]; exact ⟨rfl, rfl, rfl⟩
    show w.Whole
    constructor
    · exact h.alive
    · intro p c hc
      cases p with
      | near => exact h.chan .near c (hchan ▸ hc)
      | far =>
        obtain rfl : {} = c := by simpa [w, setChan] using hc
        exact whole_new
    · intro p g hg
      cases p with
      | near =>
        refine h.noClose .near g ?_
        rw [hrest] at hg
        rw [hwire]
        exact mem_cons_of_mem _ hg
      | far => exact h.noClose .far g (hback ▸ hg)
    · exact h.detached
    · intro hc
      simp [w, setChan] at hc
    · intro p
      rw [passed, hsame, hsame, (hwires p).1]
      exact h.exact p
    · intro p hmapped
      rw [hsame, hsame, (hwires p).2.1, (hwires p.other).2.2]
      exact h.credit p (hsame p ▸ hmapped)
  | refuses => cases hfails
  | replies => cases hfails

end Pair

end Zetta.Zmux
