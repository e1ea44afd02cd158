import Zetta.Zmux.MuxBridge

/-!
# What a channel does

A direction of a stream is a pipe from the input of one channel to the output of the other.
Each channel is the sending end of one pipe and the receiving end of one:

* `Channel.Moves.sends`: it sends what it has read, in order, within its credit;
* `Channel.Moves.receives`: what it has received it does in order, or loses, and it gives back
  the credit of what it has written;
* `Channel.dispatch_gets`: what a frame that arrives is at either end.
-/

namespace Zetta.Zmux

open List

/-! ### The pipe -/

def Outbound.Active : Outbound → Prop
  | .reading | .sending _ | .granted .. | .sendEof => True
  | _ => False

/-- Whether the outbound pump will send data again. -/
def Outbound.Reads : Outbound → Prop
  | .reading | .sending _ | .granted .. => True
  | _ => False

def Writer.Active : Writer → Prop
  | .receiving | .writing _ | .crediting _ => True
  | _ => False

def Inbound.tokens : Inbound → List Token
  | .data bytes => Zmux.tokens bytes
  | .eof => [.eof]

def Inbound.size : Inbound → ℕ
  | .data bytes => bytes.length
  | .eof => 0

namespace Frame

def tokens (frame : Frame) : List Token :=
  match frame.kind with
  | .data => Zmux.tokens frame.payload
  | .eof => [.eof]
  | _ => []

def size (frame : Frame) : ℕ := if frame.kind = .data then frame.payload.length else 0

/-- The credit that a frame gives. -/
def given (frame : Frame) : ℕ :=
  if frame.kind = .credit ∧ frame.payload.length = 4 then ofBeBytes frame.payload else 0

end Frame

/-- The tokens under way. -/
def wireTokens (wire : List Frame) : List Token := wire.flatMap Frame.tokens

/-- The data under way. -/
def wireSize (wire : List Frame) : ℕ := (wire.map Frame.size).sum

/-- The credit under way. -/
def wireCredit (wire : List Frame) : ℕ := (wire.map Frame.given).sum

namespace Channel

/-- What the outbound pump has read and not sent. -/
def hand (c : Channel) : List Token :=
  match c.outbound with
  | .sending rest => tokens rest
  | .granted now rest => tokens (now ++ rest)
  | .sendEof => [.eof]
  | _ => []

/-- The credit that the outbound pump has taken and not used. -/
def held (c : Channel) : ℕ :=
  match c.outbound with
  | .granted now _ => now.length
  | _ => 0

def queued (c : Channel) : List Token := c.queue.flatMap Inbound.tokens

/-- What the inbound pump has received, and will write unless it fails. -/
def content (c : Channel) : List Token :=
  match c.writer with
  | .writing bytes => tokens bytes ++ c.queued
  | .receiving | .crediting _ => c.queued
  | _ => []

/-- What was received, and was not written. -/
def unwritten (c : Channel) : ℕ :=
  (match c.writer with
    | .writing bytes => bytes.length
    | _ => 0) + (c.queue.map Inbound.size).sum

/-- What was written, and for which no credit was sent yet. -/
def uncredited (c : Channel) : ℕ :=
  match c.writer with
  | .crediting count => count
  | _ => 0

/-- The channel takes what comes for it. -/
def Taking (c : Channel) : Prop := c.mapped ∧ c.inbound ∧ c.writer.Active

/-- What can happen to a channel besides a frame that it gets, with the frames it sends. The
label says whether something fails. -/
inductive Moves (stream : UInt32) (alive : Bool) :
    Bool → Channel → Channel → List Frame → Prop
  | read {c c' : Channel} (result : LocalRead) (h : c.readLocal result = some c') :
      Moves stream alive (result = .error) c c' []
  | write {c c' : Channel} (result : LocalWrite) (h : c.writeLocal result = some c') :
      Moves stream alive (result ≠ .ok) c c' []
  | outbound {c c' : Channel} {frames : List Frame} (b : Bool)
      (hb : b = alive ∨ b = true ∧ c.peer = .holding)
      (h : c.pumpOutbound stream b = some (c', frames)) : Moves stream alive false c c' frames
  | inbound {c c' : Channel} {frames : List Frame} (b : Bool)
      (hb : b = alive ∨ b = true ∧ c.peer = .holding)
      (h : c.pumpInbound stream b = some (c', frames)) : Moves stream alive false c c' frames
  | hand {c : Channel} (h : c.peer = .opening) :
      Moves stream alive false c { c with peer := .holding } [⟨stream, .open, []⟩]
  | refuse {c : Channel} (h : c.peer = .opening) (hdead : alive = false) :
      Moves stream alive true c { c.remove with peer := .refused } []

end Channel

/-! ### What a channel does at the sending end -/

theorem tokens_append (a b : List UInt8) : tokens (a ++ b) = tokens a ++ tokens b :=
  map_append

@[simp]
theorem wireTokens_nil : wireTokens [] = [] := rfl

variable (f : Frame) (fs : List Frame)

@[simp]
theorem wireTokens_cons :
    wireTokens (f :: fs) = f.tokens ++ wireTokens fs := flatMap_cons

@[simp]
theorem wireTokens_append (fs gs : List Frame) :
    wireTokens (fs ++ gs) = wireTokens fs ++ wireTokens gs := flatMap_append

@[simp]
theorem wireSize_nil : wireSize [] = 0 := rfl

@[simp]
theorem wireSize_cons : wireSize (f :: fs) = f.size + wireSize fs :=
  sum_cons

@[simp]
theorem wireSize_append (fs gs : List Frame) :
    wireSize (fs ++ gs) = wireSize fs + wireSize gs := by
  rw [wireSize, map_append, sum_append]
  rfl

@[simp]
theorem wireCredit_nil : wireCredit [] = 0 := rfl

@[simp]
theorem wireCredit_cons :
    wireCredit (f :: fs) = f.given + wireCredit fs := sum_cons

@[simp]
theorem wireCredit_append (fs gs : List Frame) :
    wireCredit (fs ++ gs) = wireCredit fs + wireCredit gs := by
  rw [wireCredit, map_append, sum_append]
  rfl

/-- An input is bytes, and then the end; after it nothing is read any more. -/
def Channel.Ended (c : Channel) : Prop :=
  ∃ bytes, c.input = tokens bytes ∨ c.input = tokens bytes ++ [.eof] ∧ ¬ c.outbound.Reads

/-- What has left the pump is `X`: with what it has in hand that is its input, or the first part
of it once the pump has stopped. -/
def Channel.Carries (c : Channel) (X : List Token) : Prop :=
  X ++ c.hand <+: c.input ∧ (c.outbound.Active → c.input = X ++ c.hand)

/-- **The sending end**: a channel sends what it reads, in order, and as long as it has the
credit. -/
structure Channel.Sends (c c' : Channel) (frames : List Frame) : Prop where
  input : c.input <+: c'.input
  carries : ∀ X, c.Carries X → c'.Carries (X ++ wireTokens frames)
  ended : c.Ended → c'.Ended
  credit : c'.available + c'.held + wireSize frames ≤ c.available + c.held

/-- **The receiving end**: what a channel has received it does in order or loses, and it gives
back the credit of what it has written. -/
structure Channel.Receives (c c' : Channel) (frames : List Frame) : Prop where
  delivered : c'.output ++ c'.content <+: c.output ++ c.content
  taking : c'.Taking → c.Taking ∧ c'.output ++ c'.content = c.output ++ c.content
  credit : c'.unwritten + c'.uncredited + wireCredit frames ≤ c.unwritten + c.uncredited

namespace Channel

variable {c c' : Channel} {frames : List Frame} {stream : UInt32} {result : LocalRead}

theorem readLocal_sends (h : c.readLocal result = some c') : c.Sends c' [] := by
  cases result with
  | data bytes =>
    simp only [readLocal, Option.ite_none_right_eq_some, Option.some.injEq] at h
    obtain ⟨⟨hreading, -⟩, rfl⟩ := h
    constructor
    · exact prefix_append ..
    · rintro X ⟨-, hexact⟩
      have hinput := hexact (by rw [hreading]; trivial)
      simp only [hand, hreading, append_nil] at hinput
      simp [Carries, hand, hinput]
    · rintro ⟨bytes', hbytes | ⟨-, hdone⟩⟩
      · exact ⟨bytes' ++ bytes, .inl (by rw [hbytes, tokens_append])⟩
      · exact absurd (by rw [hreading]; trivial) hdone
    · simp [held, hreading]
  | eof =>
    simp only [readLocal, Option.ite_none_right_eq_some, Option.some.injEq] at h
    obtain ⟨⟨hreading, -⟩, rfl⟩ := h
    constructor
    · exact prefix_append ..
    · rintro X ⟨-, hexact⟩
      have hinput := hexact (by rw [hreading]; trivial)
      simp only [hand, hreading, append_nil] at hinput
      simp [Carries, hand, hinput]
    · rintro ⟨bytes', hbytes | ⟨-, hdone⟩⟩
      · exact ⟨bytes', .inr ⟨by rw [hbytes], id⟩⟩
      · exact absurd (by rw [hreading]; trivial) hdone
    · simp [held, hreading]
  | error =>
    simp only [readLocal, Option.ite_none_right_eq_some, Option.some.injEq] at h
    obtain ⟨⟨hreading, -⟩, rfl⟩ := h
    constructor
    · exact prefix_rfl
    · rintro X ⟨hstarts, -⟩
      simp only [hand, hreading] at hstarts
      simpa [Carries, hand, Outbound.Active] using hstarts
    · rintro ⟨bytes', hbytes | ⟨-, hdone⟩⟩
      · exact ⟨bytes', .inl hbytes⟩
      · exact absurd (by rw [hreading]; trivial) hdone
    · simp [held, hreading]

/-- A step that leaves the outbound pump alone. -/
theorem Sends.of_eq (hinput : c'.input = c.input) (hout : c'.outbound = c.outbound)
    (havailable : c'.available = c.available) (htokens : wireTokens frames = [])
    (hsize : wireSize frames = 0) : c.Sends c' frames := by
  constructor
  · rw [hinput]
  · intro X h
    simpa only [Carries, hand, hinput, hout, htokens, append_nil] using h
  · simp [Ended, hinput, hout]
  · simp [held, hout, havailable, hsize]

/-- A step after which the outbound pump has nothing in hand and will not go on. -/
theorem Sends.of_stopped (hinput : c'.input = c.input) (hactive : ¬ c'.outbound.Active)
    (hhand : c'.hand = []) (havailable : c'.available = c.available) (hheld : c'.held = 0)
    (htokens : wireTokens frames <+: c.hand) (hsize : wireSize frames ≤ c.held) :
    c.Sends c' frames := by
  constructor
  · rw [hinput]
  · rintro X ⟨hstarts, -⟩
    refine ⟨?_, fun h => absurd h hactive⟩
    rw [hinput, hhand, append_nil]
    exact ((prefix_append_right_inj X).mpr htokens).trans hstarts
  · rintro ⟨bytes, hbytes | ⟨hbytes, -⟩⟩
    · exact ⟨bytes, .inl (hinput.trans hbytes)⟩
    · refine ⟨bytes, .inr ⟨hinput.trans hbytes, fun hreads => hactive ?_⟩⟩
      revert hreads
      cases c'.outbound <;> simp [Outbound.Reads, Outbound.Active]
  · rw [hheld, havailable]
    omega

variable {b : Bool}

theorem pumpOutbound_sends (h : c.pumpOutbound stream b = some (c', frames)) :
    c.Sends c' frames := by
  rw [pumpOutbound] at h
  split at h
  · next rest hrest =>
    split_ifs at h with hclosed havailable
    · cases h
      exact .of_stopped rfl id rfl rfl rfl (List.nil_prefix) (Nat.zero_le _)
    · cases h
      have hmin : min rest.length c.available ≤ rest.length := min_le_left ..
      have hle : min rest.length c.available ≤ c.available := min_le_right ..
      constructor
      · exact prefix_rfl
      · intro X hX
        simpa [Carries, hand, hrest, Outbound.Active] using hX
      · simp [Ended, hrest, Outbound.Reads]
      · simp only [held, hrest, length_take, wireSize_nil]
        omega
  · next now rest hrest =>
    cases h
    cases b with
    | true =>
      simp only [if_true]
      have hsplit : ∀ X : List Token, X ++ tokens (now ++ rest) =
          X ++ wireTokens (send true ⟨stream, .data, now⟩) ++
            Channel.hand { c with
              outbound := if rest = [] then .reading else .sending rest } := by
        intro X
        split_ifs with hnil <;> simp [hand, send, Frame.tokens, tokens_append, hnil]
      constructor
      · exact prefix_rfl
      · rintro X ⟨hstarts, hexact⟩
        simp only [hand, hrest] at hstarts hexact
        rw [hsplit] at hstarts hexact
        exact ⟨hstarts, fun _ => hexact trivial⟩
      · rintro ⟨bytes, hbytes | ⟨-, hdone⟩⟩
        · exact ⟨bytes, .inl hbytes⟩
        · exact absurd (by rw [hrest]; trivial) hdone
      · have hheld : Channel.held { c with
            outbound := if rest = [] then .reading else .sending rest } = 0 := by
          split_ifs <;> rfl
        rw [hheld]
        simp [held, hrest, send, Frame.size]
    | false =>
      exact .of_stopped rfl id rfl rfl rfl (List.nil_prefix) (Nat.zero_le _)
  · next hrest =>
    cases h
    refine .of_stopped rfl id rfl rfl rfl ?_ ?_
    · cases b <;> simp [send, hand, hrest, Frame.tokens]
    · cases b <;> simp [send, Frame.size]
  · next hrest =>
    cases h
    refine .of_stopped rfl id rfl rfl rfl ?_ ?_
    · cases b <;> simp [send, Frame.tokens]
    · cases b <;> simp [send, Frame.size]
  · cases h
    exact .of_stopped rfl id rfl rfl rfl (List.nil_prefix) (Nat.zero_le _)
  · cases h
    exact .of_stopped rfl id rfl rfl rfl (List.nil_prefix) (Nat.zero_le _)
  · cases h
  · cases h

theorem remove_eq : c.remove = { c with
    closed := c.closed || c.mapped
    inbound := c.inbound && !c.mapped
    mapped := false } := by
  rw [remove]
  cases c
  next available closed inbound queue pumps mapped outbound writer peer input output =>
  cases mapped <;> cases closed <;> cases inbound <;> rfl

theorem writeLocal_sends {result : LocalWrite} (h : c.writeLocal result = some c') :
    c.Sends c' [] := by
  unfold writeLocal at h
  split at h
  · cases h
    exact .of_eq rfl rfl rfl rfl rfl
  · cases h
    exact .of_eq rfl rfl rfl rfl rfl
  · cases h

theorem remove_sends : c.Sends c.remove [] := by
  rw [remove_eq]
  exact .of_eq rfl rfl rfl rfl rfl

theorem pumpInbound_sends (h : c.pumpInbound stream b = some (c', frames)) : c.Sends c' frames := by
  rw [pumpInbound] at h
  split at h
  · split at h
    · cases h
      exact .of_eq rfl rfl rfl rfl rfl
    · cases h
      exact .of_eq rfl rfl rfl rfl rfl
    · split_ifs at h
      cases h
      exact .of_eq rfl rfl rfl rfl rfl
  · cases h
    refine .of_eq rfl rfl rfl ?_ ?_ <;> cases b <;> simp [send, Frame.tokens, Frame.size]
  · cases h
    refine .of_eq rfl rfl rfl ?_ ?_ <;> cases b <;> simp [send, Frame.tokens, Frame.size]
  · cases h
    rw [remove_eq]
    exact .of_eq rfl rfl rfl rfl rfl
  · cases h
    exact .of_eq rfl rfl rfl rfl rfl
  · cases h
  · cases h

theorem Moves.sends {alive fails : Bool} (h : Moves stream alive fails c c' frames) :
    c.Sends c' frames := by
  cases h with
  | read result h => exact readLocal_sends h
  | write result h => exact writeLocal_sends h
  | outbound b hb h => exact pumpOutbound_sends h
  | inbound b hb h => exact pumpInbound_sends h
  | hand h => exact .of_eq rfl rfl rfl rfl rfl
  | refuse h hdead =>
    rw [remove_eq]
    exact .of_eq rfl rfl rfl rfl rfl

/-! ### What a channel does at the receiving end -/

/-- A step that leaves the inbound pump alone. -/
theorem Receives.of_eq (houtput : c'.output = c.output) (hwriter : c'.writer = c.writer)
    (hqueue : c'.queue = c.queue) (hinbound : c'.inbound → c.inbound)
    (hmapped : c'.mapped → c.mapped) (hcredit : wireCredit frames = 0) :
    c.Receives c' frames := by
  have hsame : c'.output ++ c'.content = c.output ++ c.content := by
    simp only [content, queued, houtput, hwriter, hqueue]
  constructor
  · rw [hsame]
  · rintro ⟨hm, hi, hw⟩
    exact ⟨⟨hmapped hm, hinbound hi, hwriter ▸ hw⟩, hsame⟩
  · simp [unwritten, uncredited, hwriter, hqueue, hcredit]

/-- A step after which the inbound pump is done. -/
theorem Receives.of_stopped (houtput : c'.output <+: c.output ++ c.content)
    (hactive : ¬ c'.writer.Active) (hcontent : c'.content = [])
    (hunwritten : c'.unwritten + c'.uncredited ≤ c.unwritten + c.uncredited)
    (hcredit : wireCredit frames = 0) : c.Receives c' frames := by
  constructor
  · rwa [hcontent, append_nil]
  · rintro ⟨-, -, hw⟩
    exact absurd hw hactive
  · omega

theorem readLocal_receives (h : c.readLocal result = some c') : c.Receives c' [] := by
  cases result <;>
  · simp only [readLocal, Option.ite_none_right_eq_some, Option.some.injEq] at h
    obtain ⟨-, rfl⟩ := h
    exact .of_eq rfl rfl rfl id id rfl

theorem pumpOutbound_receives (h : c.pumpOutbound stream b = some (c', frames)) :
    c.Receives c' frames := by
  have hsend : ∀ (kind : Kind) (payload : List UInt8), kind ≠ .credit →
      wireCredit (send b ⟨stream, kind, payload⟩) = 0 := by
    intro kind payload hkind
    cases b <;> simp [send, Frame.given, hkind]
  rw [pumpOutbound] at h
  split at h
  · split_ifs at h
    · cases h
      exact .of_eq rfl rfl rfl id id rfl
    · cases h
      exact .of_eq rfl rfl rfl id id rfl
  · cases h
    exact .of_eq rfl rfl rfl id id (hsend _ _ (by decide))
  · cases h
    exact .of_eq rfl rfl rfl id id (hsend _ _ (by decide))
  · cases h
    exact .of_eq rfl rfl rfl id id (hsend _ _ (by decide))
  · cases h
    exact .of_eq rfl rfl rfl (fun h => nomatch h) id rfl
  · cases h
    exact .of_eq rfl rfl rfl id (fun h => (Bool.and_eq_true_iff.mp h).1) rfl
  · cases h
  · cases h

theorem writeLocal_receives {result : LocalWrite} (h : c.writeLocal result = some c') :
    c.Receives c' [] := by
  unfold writeLocal at h
  split at h
  · next _ _ bytes hwriter =>
    cases h
    have hsame : c.output ++ tokens bytes ++ c.queued = c.output ++ c.content := by
      rw [content, hwriter, append_assoc]
    constructor
    · exact hsame ▸ prefix_rfl
    · rintro ⟨hm, hi, -⟩
      exact ⟨⟨hm, hi, by rw [hwriter]; trivial⟩, hsame⟩
    · simp only [unwritten, uncredited, hwriter, wireCredit_nil]
      omega
  · next _ _ bytes count hwriter =>
    cases h
    refine .of_stopped ?_ id rfl ?_ rfl
    · rw [content, hwriter, prefix_append_right_inj]
      refine List.IsPrefix.trans ?_ (prefix_append ..)
      exact (List.take_prefix count bytes).map _
    · simp only [unwritten, uncredited, hwriter]
      omega
  · cases h

theorem remove_receives : c.Receives c.remove [] := by
  rw [remove_eq]
  exact .of_eq rfl rfl rfl (fun h => (Bool.and_eq_true_iff.mp h).1) (fun h => nomatch h) rfl

theorem pumpInbound_receives (h : c.pumpInbound stream b = some (c', frames)) :
    c.Receives c' frames := by
  rw [pumpInbound] at h
  split at h
  · next hwriter =>
    split at h
    · next bytes queue hqueue =>
      cases h
      have hsame : c.output ++ (tokens bytes ++ queue.flatMap Inbound.tokens) =
          c.output ++ c.content := by
        simp only [content, queued, hwriter, hqueue, flatMap_cons, Inbound.tokens]
      constructor
      · exact hsame ▸ prefix_rfl
      · rintro ⟨hm, hi, -⟩
        exact ⟨⟨hm, hi, by rw [hwriter]; trivial⟩, hsame⟩
      · simp only [unwritten, uncredited, hwriter, hqueue, map_cons, sum_cons,
          Inbound.size, wireCredit_nil]
        omega
    · next queue hqueue =>
      cases h
      refine .of_stopped ?_ id rfl ?_ rfl
      · simp only [content, queued, hwriter, hqueue, flatMap_cons, Inbound.tokens,
          prefix_append_right_inj]
        exact prefix_append ..
      · simp only [unwritten, uncredited, hwriter, hqueue, map_cons, sum_cons,
          Inbound.size]
        omega
    · split_ifs at h
      cases h
      refine .of_stopped (prefix_append ..) id rfl ?_ rfl
      simp only [unwritten, uncredited, hwriter]
      omega
  · next count hwriter =>
    cases h
    have hsame : c.output ++ c.queued = c.output ++ c.content := by rw [content, hwriter]
    constructor
    · exact hsame ▸ prefix_rfl
    · rintro ⟨hm, hi, -⟩
      exact ⟨⟨hm, hi, by rw [hwriter]; trivial⟩, hsame⟩
    · have hgiven : wireCredit (send b ⟨stream, .credit, beBytes 4 count⟩) ≤ count := by
        cases b with
        | false => exact Nat.zero_le _
        | true =>
          simp only [send, if_true, wireCredit_cons, wireCredit_nil, Frame.given, length_beBytes,
            and_self, ofBeBytes_beBytes]
          exact Nat.mod_le ..
      simp only [unwritten, uncredited, hwriter]
      omega
  · next hwriter =>
    cases h
    refine .of_stopped (prefix_append ..) id rfl ?_ ?_
    · simp only [unwritten, uncredited, hwriter]
      omega
    · cases b <;> simp [send, Frame.given]
  · next hwriter =>
    cases h
    rw [remove_eq]
    refine .of_stopped (prefix_append ..) id rfl ?_ rfl
    simp only [unwritten, uncredited, hwriter]
    omega
  · next hwriter =>
    cases h
    refine .of_stopped (prefix_append ..) id rfl ?_ rfl
    simp only [pumpFinished, unwritten, uncredited, hwriter]
    omega
  · cases h
  · cases h

theorem Moves.receives {alive fails : Bool} (h : Moves stream alive fails c c' frames) :
    c.Receives c' frames := by
  cases h with
  | read result h => exact readLocal_receives h
  | write result h => exact writeLocal_receives h
  | outbound b hb h => exact pumpOutbound_receives h
  | inbound b hb h => exact pumpInbound_receives h
  | hand h => exact .of_eq rfl rfl rfl id id rfl
  | refuse h hdead =>
    rw [remove_eq]
    exact .of_eq rfl rfl rfl (fun h => (Bool.and_eq_true_iff.mp h).1) (fun h => nomatch h) rfl

/-- **A frame that arrives**: its tokens are what the receiving end holds last, its credit is
the sending end's. -/
structure Gets (frame : Frame) (c c' : Channel) : Prop where
  input : c'.input = c.input
  outbound : c'.outbound = c.outbound
  output : c'.output = c.output
  peer : c'.peer = c.peer
  available : c'.available ≤ c.available + frame.given
  taken : c.Taking → c'.content = c.content ++ frame.tokens
  lost : ¬ c.Taking → c'.content = c.content
  taking : c'.Taking → c.Taking
  size : c'.unwritten + c'.uncredited ≤ c.unwritten + c.uncredited + frame.size

/-- A message for the inbound pump. -/
theorem content_push (c : Channel) (message : Inbound) :
    let c' := { c with queue := c.queue ++ [message] }
    (c.writer.Active → c'.content = c.content ++ message.tokens) ∧
      (¬ c.writer.Active → c'.content = c.content) ∧
      c'.unwritten = c.unwritten + message.size := by
  have hqueued : (c.queue ++ [message]).flatMap Inbound.tokens = c.queued ++ message.tokens := by
    rw [flatMap_append, queued]
    simp
  refine ⟨fun hactive => ?_, fun hactive => ?_, ?_⟩
  · cases hwriter : c.writer <;> rw [hwriter] at hactive <;> try exact absurd hactive id
    all_goals simp only [content, hwriter, queued] at hqueued ⊢
    all_goals simp [hqueued]
  · cases hwriter : c.writer <;> rw [hwriter] at hactive <;> try exact absurd trivial hactive
    all_goals simp only [content, hwriter]
  · simp only [unwritten, map_append, sum_append, map_cons, map_nil,
      sum_cons, sum_nil]
    omega

theorem dispatch_gets (frame : Frame) (c : Channel) : c.Gets frame (c.dispatch frame) := by
  have hsame : (c.Taking → frame.tokens = []) → c.Gets frame c := fun htokens =>
    { input := rfl, outbound := rfl, output := rfl, peer := rfl
      available := Nat.le_add_right ..
      taken := fun h => by rw [htokens h, append_nil]
      lost := fun _ => rfl
      taking := id
      size := Nat.le_add_right .. }
  -- What a message does, whether or not the queue is closed behind it.
  have hpush : ∀ (message : Inbound) (inbound : Bool), c.inbound → c.mapped →
      frame.tokens = message.tokens → message.size ≤ frame.size →
      c.Gets frame { c with queue := c.queue ++ [message], inbound := inbound } := by
    intro message inbound hin hmapped htokens hsize
    obtain ⟨hactive, hinactive, hunwritten⟩ := content_push c message
    exact {
      input := rfl, outbound := rfl, output := rfl, peer := rfl
      available := Nat.le_add_right ..
      taken := fun h => by rw [htokens]; exact hactive h.2.2
      lost := fun h => hinactive fun hw => h ⟨hmapped, hin, hw⟩
      taking := fun h => ⟨hmapped, hin, h.2.2⟩
      size := by
        simp only [unwritten, uncredited] at hunwritten ⊢
        omega }
  rw [dispatch]
  split
  case isFalse hmapped => exact hsame fun h => absurd h.1 hmapped
  case isTrue hmapped =>
  cases hkind : frame.kind with
  | «open» => exact hsame fun _ => by rw [Frame.tokens, hkind]
  | info => exact hsame fun _ => by rw [Frame.tokens, hkind]
  | data =>
    by_cases hin : c.inbound
    · simp only [deliver, if_pos hin]
      refine hpush _ _ hin hmapped (by rw [Frame.tokens, hkind]; rfl) ?_
      rw [Frame.size, if_pos hkind]
      exact Nat.le_refl _
    · simp only [deliver, if_neg hin]
      exact hsame fun h => absurd h.2.1 hin
  | eof =>
    by_cases hin : c.inbound
    · simp only [deliver, if_pos hin]
      exact hpush .eof false hin hmapped (by rw [Frame.tokens, hkind]; rfl) (Nat.zero_le _)
    · simp only [deliver, if_neg hin]
      have hc : { c with inbound := false } = c := by
        cases c
        simp_all
      rw [hc]
      exact hsame fun h => absurd h.2.1 hin
  | close =>
    have htokens : frame.tokens = [] := by rw [Frame.tokens, hkind]
    simp only [remove_eq]
    exact {
      input := rfl, outbound := rfl, output := rfl, peer := rfl
      available := Nat.le_add_right ..
      taken := fun _ => by rw [htokens, append_nil]; rfl
      lost := fun _ => rfl
      taking := fun h => nomatch h.1
      size := Nat.le_add_right .. }
  | credit =>
    have htokens : frame.tokens = [] := by rw [Frame.tokens, hkind]
    dsimp only
    split
    case isFalse => exact hsame fun _ => htokens
    case isTrue hlength =>
      exact {
        input := rfl, outbound := rfl, output := rfl, peer := rfl
        available := by
          rw [Frame.given, if_pos ⟨hkind, hlength⟩]
          exact min_le_left ..
        taken := fun _ => by rw [htokens, append_nil]; rfl
        lost := fun _ => rfl
        taking := id
        size := Nat.le_add_right .. }

end Channel

/-! ### Who holds the other end of the socket -/

namespace Channel

variable {c c' : Channel} {frames : List Frame} {stream : UInt32} {alive fails : Bool}

@[simp]
theorem remove_peer : c.remove.peer = c.peer := by
  rw [remove_eq]

theorem readLocal_peer {result : LocalRead} (h : c.readLocal result = some c') :
    c'.peer = c.peer := by
  cases result <;>
  · simp only [readLocal, Option.ite_none_right_eq_some, Option.some.injEq] at h
    exact h.2 ▸ rfl

theorem writeLocal_peer {result : LocalWrite} (h : c.writeLocal result = some c') :
    c'.peer = c.peer := by
  unfold writeLocal at h
  split at h
  · exact Option.some.inj h ▸ rfl
  · exact Option.some.inj h ▸ rfl
  · cases h

/-- A pump sends frames of its stream, none of which opens one, and none if it cannot. -/
theorem pumpOutbound_frames {b : Bool} (h : c.pumpOutbound stream b = some (c', frames)) :
    c'.peer = c.peer ∧ (∀ f ∈ frames, f.kind ≠ .open) ∧ (b = false → frames = []) := by
  rw [pumpOutbound] at h
  split at h <;> (try split_ifs at h) <;> (try cases h) <;>
    cases b <;> simp [send, pumpFinished, reset]

theorem pumpInbound_frames {b : Bool} (h : c.pumpInbound stream b = some (c', frames)) :
    c'.peer = c.peer ∧ (∀ f ∈ frames, f.kind ≠ .open) ∧ (b = false → frames = []) := by
  rw [pumpInbound] at h
  split at h <;> (try split at h) <;> (try split_ifs at h) <;> (try cases h) <;>
    cases b <;> simp [send, pumpFinished]

/-- What a move does to an `open` under way. -/
theorem Moves.peer_cases (h : Moves stream alive fails c c' frames) :
    (c'.peer = c.peer ∧ (∀ f ∈ frames, f.kind ≠ .open) ∧
      (c.peer ≠ .holding → alive = false → frames = [])) ∨
    (c.peer = .opening ∧ c'.peer = .holding ∧ frames = [⟨stream, .open, []⟩]) ∨
    (c.peer = .opening ∧ alive = false ∧ c'.peer = .refused ∧ frames = []) := by
  cases h with
  | read result h => exact .inl ⟨readLocal_peer h, by simp, fun _ _ => rfl⟩
  | write result h => exact .inl ⟨writeLocal_peer h, by simp, fun _ _ => rfl⟩
  | outbound b hb h =>
    obtain ⟨hpeer, hopen, hdead⟩ := pumpOutbound_frames h
    refine .inl ⟨hpeer, hopen, fun hholding halive => hdead ?_⟩
    exact (hb.resolve_right fun hb => hholding hb.2).trans halive
  | inbound b hb h =>
    obtain ⟨hpeer, hopen, hdead⟩ := pumpInbound_frames h
    refine .inl ⟨hpeer, hopen, fun hholding halive => hdead ?_⟩
    exact (hb.resolve_right fun hb => hholding hb.2).trans halive
  | hand h => exact .inr (.inl ⟨h, rfl, rfl⟩)
  | refuse h hdead => exact .inr (.inr ⟨h, hdead, rfl, rfl⟩)

/-- What a channel sends belongs to its stream, and is no longer than its credit. -/
theorem Moves.sent_of_stream (h : Moves stream alive fails c c' frames) (hheld : c.held ≤ WINDOW) :
    ∀ f ∈ frames, f.stream = stream ∧ f.kind ≠ .info ∧ f.payload.length ≤ WINDOW := by
  cases h with
  | read result h => simp
  | write result h => simp
  | outbound b hb h =>
    have hgranted : ∀ now rest, c.outbound = .granted now rest → now.length ≤ WINDOW := by
      intro now rest hout
      rwa [held, hout] at hheld
    rw [pumpOutbound] at h
    split at h
    case h_2 now rest hout =>
      obtain ⟨-, rfl⟩ := Prod.mk.inj (Option.some.inj h)
      cases b <;> simp [send, hgranted now rest hout]
    all_goals
      (try split_ifs at h) <;> (try cases h) <;> cases b <;> simp [send]
  | inbound b hb h =>
    rw [pumpInbound] at h
    split at h <;> (try split at h) <;> (try split_ifs at h) <;> (try cases h) <;>
      cases b <;> simp [send, WINDOW]
  | hand h => simp
  | refuse h hdead => simp

/-- A channel whose socket nobody holds does nothing while the link is open. -/
theorem Moves.of_opening (h : Moves stream true fails { peer := .opening } c' frames) :
    c'.peer = .holding := by
  cases h with
  | read result h => cases result <;> simp [readLocal] at h
  | write result h => cases h
  | outbound b hb h => cases h
  | inbound b hb h => cases h
  | hand h => rfl
  | refuse h hdead => cases hdead

end Channel

end Zetta.Zmux
