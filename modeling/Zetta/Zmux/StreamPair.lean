import Zetta.Zmux.Channel

/-!
# One stream and its two channels

What concerns one stream: its channels on both sides, its frames under way, and whether each
side's link is open (`Pair`). `Pair.Step` says what a step of the bridge can do to it.

`Pair.Flow` says of one direction that nothing in it is out of order and that its credit is
kept: what the receiver has done and still holds are the first tokens of the input; as long as
the receiver takes what comes, so are the tokens under way behind them; and credit, data and
credit under way back are together no more than the window. `Pair.Sound.step`: every step
keeps this, for both directions.
-/

namespace Zetta.Zmux

open List Function

/-! ### Both channels -/

/-- What concerns one stream. -/
@[ext]
structure Pair where
  alive : Party → Bool
  chan : Party → Option Channel
  /-- The frames of the stream under way from a side. -/
  wire : Party → List Frame
  /-- The frames of the stream that threads of the far side will send. -/
  detached : List Frame

namespace Pair

/-- The channel on a side, as it is before there is one. -/
def channel (v : Pair) (p : Party) : Channel := (v.chan p).getD {}

def setChan (v : Pair) (p : Party) (c : Channel) : Pair :=
  { v with chan := update v.chan p (some c) }

def setWire (v : Pair) (p : Party) (wire : List Frame) : Pair :=
  { v with wire := update v.wire p wire }

/-- The far side still waits for the stream to be opened. -/
def Awaited (v : Pair) (p : Party) : Prop :=
  (∀ c ∈ v.chan p, c.peer ≠ .holding) ∨ ∃ frame ∈ v.wire p, frame.kind = .open

/-- The receiver of a direction takes what comes. -/
def Taking (v : Pair) (p : Party) : Prop :=
  match v.chan p.other with
  | some d => d.Taking
  | none => v.Awaited p

/-- What has left the outbound pump of a side and was not lost. -/
def passed (v : Pair) (p : Party) : List Token :=
  (v.channel p.other).output ++ (v.channel p.other).content ++ wireTokens (v.wire p)

/-- **One direction**, from a side to the other. -/
structure Flow (v : Pair) (p : Party) : Prop where
  ended : (v.channel p).Ended
  delivered : (v.channel p.other).output ++ (v.channel p.other).content <+: (v.channel p).input
  carries : v.Taking p → (v.channel p).Carries (v.passed p)
  window : (v.channel p).available + (v.channel p).held + wireSize (v.wire p) +
    ((v.channel p.other).unwritten + (v.channel p.other).uncredited) +
    wireCredit (v.wire p.other) ≤ WINDOW

/-- How far the opening of the stream is. -/
structure Opening (v : Pair) : Prop where
  absent : v.chan .near = none →
    v.chan .far = none ∧ v.wire .near = [] ∧ v.wire .far = [] ∧ v.detached = []
  opening : ∀ c, v.chan .near = some c → c.peer ≠ .holding →
    v.chan .far = none ∧ v.wire .near = [] ∧ v.wire .far = [] ∧ v.detached = [] ∧
      (v.alive .near → c = { peer := .opening })
  connecting : ∀ c, v.chan .near = some c → c.peer = .holding → v.chan .far = none →
    (∃ frame rest, v.wire .near = frame :: rest ∧ frame.kind = .open ∧
      ∀ g ∈ rest, g.kind ≠ .open) ∨ ∀ g ∈ v.wire .near, g.kind ≠ .open
  connected : (v.chan .far).isSome → ∀ g ∈ v.wire .near, g.kind ≠ .open
  held : ∀ d, v.chan .far = some d → d.peer = .holding
  back : ∀ g ∈ v.wire .far, g.kind ≠ .open
  replies : ∀ g ∈ v.detached, g.kind = .close

/-- What the steps of the bridge keep of a stream. -/
structure Sound (v : Pair) : Prop extends Opening v where
  flow : ∀ p, v.Flow p

/-- What a step of the bridge can do to a stream, and whether something fails. -/
inductive Step (stream : UInt32) : Pair → Bool → Pair → Prop
  | breaks {v : Pair} (p : Party) :
      Step stream v true { v with alive := update v.alive p false }
  | ends {v : Pair} (p : Party) :
      Step stream v true { v with
        alive := update v.alive p false
        chan := update v.chan p ((v.chan p).map Channel.remove) }
  | moves {v : Pair} {p : Party} {fails : Bool} {c c' : Channel} {frames : List Frame}
      (hc : v.chan p = some c)
      (h : Channel.Moves stream (v.alive p) fails c c' frames) :
      Step stream v fails ((v.setChan p c').setWire p (v.wire p ++ frames))
  | opens {v : Pair} (h : v.chan .near = none) :
      Step stream v false (v.setChan .near { peer := .opening })
  | gets {v : Pair} {p : Party} {frame : Frame} {rest : List Frame}
      (h : v.wire p.other = frame :: rest) (hkind : p = .far → frame.kind = .open →
        (v.chan .far).any Channel.mapped) :
      Step stream v false { v.setWire p.other rest with
        chan := update v.chan p ((v.chan p).map (Channel.dispatch frame)) }
  | connects {v : Pair} {frame : Frame} {rest : List Frame} (h : v.wire .near = frame :: rest)
      (hkind : frame.kind = .open) :
      Step stream v false ((v.setWire .near rest).setChan .far {})
  | refuses {v : Pair} {frame : Frame} {rest : List Frame} (h : v.wire .near = frame :: rest)
      (hkind : frame.kind = .open) :
      Step stream v true { v.setWire .near rest with
        detached := v.detached ++ [⟨stream, .close, []⟩] }
  | replies {v : Pair} {before after : List Frame} {frame : Frame}
      (h : v.detached = before ++ frame :: after) (frames : List Frame)
      (hframes : frames = [] ∨ frames = [frame]) :
      Step stream v true { v.setWire .far (v.wire .far ++ frames) with detached := before ++ after }

/-! ### One direction through a step -/

section Flow

variable {v w : Pair} {p : Party} {frames : List Frame}

/-- The sending end moves. -/
theorem Flow.sends (h : v.Flow p) (hsends : (v.channel p).Sends (w.channel p) frames)
    (hreceiver : w.channel p.other = v.channel p.other) (hwire : w.wire p = v.wire p ++ frames)
    (hback : wireCredit (w.wire p.other) ≤ wireCredit (v.wire p.other))
    (htaking : w.Taking p → v.Taking p) : w.Flow p := by
  constructor
  · exact hsends.ended h.ended
  · rw [hreceiver]
    exact h.delivered.trans hsends.input
  · intro ht
    have hcarries := hsends.carries _ (h.carries (htaking ht))
    rwa [passed, hreceiver, hwire, wireTokens_append, ← append_assoc]
  · have hwindow := h.window
    have hcredit := hsends.credit
    rw [hreceiver, hwire, wireSize_append]
    omega

/-- The receiving end moves. -/
theorem Flow.receives (h : v.Flow p)
    (hreceives : (v.channel p.other).Receives (w.channel p.other) frames)
    (hsender : w.channel p = v.channel p) (hwire : w.wire p = v.wire p)
    (hback : w.wire p.other = v.wire p.other ++ frames)
    (htaking : w.Taking p → v.Taking p ∧ (w.channel p.other).Taking) : w.Flow p := by
  constructor
  · rw [hsender]
    exact h.ended
  · rw [hsender]
    exact hreceives.delivered.trans h.delivered
  · intro ht
    obtain ⟨hv, hd⟩ := htaking ht
    rw [passed, hsender, hwire, (hreceives.taking hd).2]
    exact h.carries hv
  · have hwindow := h.window
    have hcredit := hreceives.credit
    rw [hsender, hwire, hback, wireCredit_append]
    omega

/-- The receiving end gets a frame. -/
theorem Flow.gets {frame : Frame} {rest : List Frame} (h : v.Flow p)
    (hgets : (v.channel p.other).Gets frame (w.channel p.other))
    (hsender : w.channel p = v.channel p) (hwire : v.wire p = frame :: rest)
    (hwire' : w.wire p = rest) (hback : w.wire p.other = v.wire p.other)
    (htaking : w.Taking p → v.Taking p ∧ (v.channel p.other).Taking)
    (htakes : (v.channel p.other).Taking → v.Taking p) : w.Flow p := by
  have hpassed : (v.channel p.other).Taking → v.passed p = w.passed p := fun hd => by
    rw [passed, passed, hgets.output, hgets.taken hd, hwire, hwire', wireTokens_cons]
    simp only [append_assoc]
  constructor
  · rw [hsender]
    exact h.ended
  · rw [hsender]
    by_cases hd : (v.channel p.other).Taking
    · have hstarts := (h.carries (htakes hd)).1
      rw [hpassed hd, passed, append_assoc] at hstarts
      exact (prefix_append ..).trans hstarts
    · rw [hgets.output, hgets.lost hd]
      exact h.delivered
  · intro ht
    obtain ⟨hv, hd⟩ := htaking ht
    rw [hsender, ← hpassed hd]
    exact h.carries hv
  · have hwindow := h.window
    have hsize := hgets.size
    rw [hwire, wireSize_cons] at hwindow
    rw [hsender, hwire', hback]
    omega

/-- The sending end gets a frame. -/
theorem Flow.credited {frame : Frame} {rest : List Frame} (h : v.Flow p)
    (hgets : (v.channel p).Gets frame (w.channel p))
    (hreceiver : w.channel p.other = v.channel p.other) (hwire : w.wire p = v.wire p)
    (hback : v.wire p.other = frame :: rest) (hback' : w.wire p.other = rest)
    (htaking : w.Taking p → v.Taking p) : w.Flow p := by
  constructor
  · simpa only [Channel.Ended, hgets.input, hgets.outbound] using h.ended
  · rw [hreceiver, hgets.input]
    exact h.delivered
  · intro ht
    have hcarries := h.carries (htaking ht)
    simpa only [Channel.Carries, Channel.hand, passed, hreceiver, hwire, hgets.input,
      hgets.outbound] using hcarries
  · have hwindow := h.window
    have havailable := hgets.available
    have hheld : (w.channel p).held = (v.channel p).held := by
      simp only [Channel.held, hgets.outbound]
    rw [hback, wireCredit_cons] at hwindow
    rw [hreceiver, hwire, hback', hheld]
    omega

/-- Nothing moves that counts. -/
theorem Flow.congr (h : v.Flow p) (hsender : w.channel p = v.channel p)
    (hreceiver : w.channel p.other = v.channel p.other)
    (htokens : w.Taking p → wireTokens (w.wire p) = wireTokens (v.wire p))
    (hsize : wireSize (w.wire p) ≤ wireSize (v.wire p))
    (hback : wireCredit (w.wire p.other) ≤ wireCredit (v.wire p.other))
    (htaking : w.Taking p → v.Taking p) : w.Flow p := by
  constructor
  · rw [hsender]
    exact h.ended
  · rw [hsender, hreceiver]
    exact h.delivered
  · intro ht
    rw [passed, hsender, hreceiver, htokens ht]
    exact h.carries (htaking ht)
  · have hwindow := h.window
    rw [hsender, hreceiver]
    omega

end Flow

variable {v w : Pair} {p : Party}

/-- A receiver that is there or is waited for can take. -/
theorem Taking.channel (h : v.Taking p) : (v.channel p.other).Taking := by
  rw [Taking] at h
  rw [Pair.channel]
  split at h
  · next d hd => rwa [hd]
  · next hnone =>
    rw [hnone]
    exact ⟨rfl, rfl, trivial⟩

/-- The receiver is as before. -/
theorem taking_of_eq (hchan : w.chan p.other = v.chan p.other)
    (hawaited : w.Awaited p → v.Awaited p) (h : w.Taking p) : v.Taking p := by
  rw [Taking, hchan] at h
  rw [Taking]
  split
  · next d hd =>
    rw [hd] at h
    exact h
  · next hnone =>
    rw [hnone] at h
    exact hawaited h

end Pair

/-! ### Every step keeps the stream sound -/

namespace Pair

variable {v w : Pair} {stream : UInt32} {fails : Bool}

@[simp]
theorem channel_setChan (v : Pair) (p : Party) (c : Channel) :
    (v.setChan p c).channel p = c := by simp [channel, setChan]

variable {c : Channel} {frame : Frame} {p : Party}

theorem Opening.notHolding (h : v.Opening) (hc : v.chan .near = some c) (hwire : frame ∈ v.wire p) :
    c.peer = .holding := by
  by_contra hpeer
  obtain ⟨-, hnear, hfar, -⟩ := h.opening c hc hpeer
  cases p with
  | near => rw [hnear] at hwire; cases hwire
  | far => rw [hfar] at hwire; cases hwire

/-- A frame under way: the near side has the stream, and its caller has its end. -/
theorem Opening.of_wire (h : v.Opening) (hwire : frame ∈ v.wire p) :
    ∃ c, v.chan .near = some c ∧ c.peer = .holding := by
  cases hc : v.chan .near with
  | some c => exact ⟨c, rfl, h.notHolding hc hwire⟩
  | none =>
    obtain ⟨-, hnear, hfar, -⟩ := h.absent hc
    cases p with
    | near => rw [hnear] at hwire; cases hwire
    | far => rw [hfar] at hwire; cases hwire

theorem Opening.breaks (h : v.Opening) (p : Party) :
    Opening { v with alive := update v.alive p false } where
  absent := h.absent
  opening := fun c hc hpeer => by
    obtain ⟨hfar, hwire, hback, hdetached, hfresh⟩ := h.opening c hc hpeer
    refine ⟨hfar, hwire, hback, hdetached, fun halive => hfresh ?_⟩
    have halive : update v.alive p false .near = true := halive
    rw [update_apply] at halive
    split_ifs at halive
    exact halive
  connecting := h.connecting
  connected := h.connected
  held := h.held
  back := h.back
  replies := h.replies

theorem Opening.ends (h : v.Opening) (p : Party) :
    Opening { v with
      alive := update v.alive p false
      chan := update v.chan p ((v.chan p).map Channel.remove) } := by
  have hchan : ∀ q, (update v.chan p ((v.chan p).map Channel.remove)) q = none ↔
      v.chan q = none := fun q => by
    rw [update_apply]
    split_ifs with hq
    · rw [hq, Option.map_eq_none_iff]
    · rfl
  have hnear : ∀ c, update v.chan p ((v.chan p).map Channel.remove) .near = some c →
      ∃ c₀, v.chan .near = some c₀ ∧ c.peer = c₀.peer ∧
        (update v.alive p false .near = true → c = c₀ ∧ v.alive .near = true) := by
    intro c hc
    rw [update_apply] at hc
    split_ifs at hc with hq
    · subst hq
      obtain ⟨c₀, hc₀, rfl⟩ := Option.map_eq_some_iff.mp hc
      exact ⟨c₀, hc₀, Channel.remove_peer, by simp⟩
    · exact ⟨c, hc, rfl, fun halive => ⟨rfl, by rwa [update_of_ne hq] at halive⟩⟩
  constructor
  · intro hc
    obtain ⟨hfar, hrest⟩ := h.absent ((hchan _).mp hc)
    exact ⟨(hchan _).mpr hfar, hrest⟩
  · intro c hc hpeer
    obtain ⟨c₀, hc₀, hsame, hfresh⟩ := hnear c hc
    obtain ⟨hfar, hwire, hback, hdetached, hfresh₀⟩ := h.opening c₀ hc₀ (hsame ▸ hpeer)
    refine ⟨(hchan _).mpr hfar, hwire, hback, hdetached, fun halive => ?_⟩
    obtain ⟨rfl, halive₀⟩ := hfresh halive
    exact hfresh₀ halive₀
  · intro c hc hpeer hfar
    obtain ⟨c₀, hc₀, hsame, -⟩ := hnear c hc
    exact h.connecting c₀ hc₀ (hsame ▸ hpeer) ((hchan _).mp hfar)
  · intro hfar
    refine h.connected (Option.isSome_iff_ne_none.mpr fun hnone => ?_)
    exact Option.isSome_iff_ne_none.mp hfar ((hchan _).mpr hnone)
  · intro d hd
    have hd : update v.chan p ((v.chan p).map Channel.remove) .far = some d := hd
    rw [update_apply] at hd
    split_ifs at hd with hq
    · subst hq
      obtain ⟨d₀, hd₀, rfl⟩ := Option.map_eq_some_iff.mp hd
      exact Channel.remove_peer.trans (h.held d₀ hd₀)
    · exact h.held d hd
  · exact h.back
  · exact h.replies

variable {c' : Channel} {frames : List Frame}

theorem Opening.moves_near (h : v.Opening) (hc : v.chan .near = some c)
    (hmoves : Channel.Moves stream (v.alive .near) fails c c' frames) :
    Opening ((v.setChan .near c').setWire .near (v.wire .near ++ frames)) := by
  have hfar : update v.chan .near (some c') .far = v.chan .far :=
    update_of_ne (by decide) ..
  have hback : update v.wire .near (v.wire .near ++ frames) .far = v.wire .far :=
    update_of_ne (by decide) ..
  have hopening := h.opening c hc
  constructor
  · intro hnone
    simp [setWire, setChan] at hnone
  · intro c₀ hc₀ hpeer
    obtain rfl : c' = c₀ := by simpa [setWire, setChan] using hc₀
    rcases hmoves.peer_cases with ⟨hsame, -, hdead⟩ | ⟨-, hholding, -⟩ | ⟨hopen, hdead, -, rfl⟩
    · rw [hsame] at hpeer
      obtain ⟨hf, hw, hb, hd, hfresh⟩ := hopening hpeer
      have halive : v.alive .near = false := by
        by_contra halive
        have halive : v.alive .near = true := by simpa using halive
        obtain rfl := hfresh halive
        rw [halive] at hmoves
        have := hmoves.of_opening
        rw [hsame] at this
        cases this
      refine ⟨hfar.trans hf, ?_, hback.trans hb, hd, fun h => ?_⟩
      · simp [setWire, setChan, hw, hdead hpeer halive]
      · exact absurd (halive.symm.trans h) (by decide)
    · exact absurd hholding hpeer
    · obtain ⟨hf, hw, hb, hd, -⟩ := hopening (by rw [hopen]; decide)
      refine ⟨hfar.trans hf, ?_, hback.trans hb, hd, fun h => ?_⟩
      · simp [setWire, setChan, hw]
      · exact absurd (hdead.symm.trans h) (by decide)
  · intro c₀ hc₀ hpeer hnone
    obtain rfl : c' = c₀ := by simpa [setWire, setChan] using hc₀
    have hwire : ((v.setChan .near c').setWire .near (v.wire .near ++ frames)).wire .near =
        v.wire .near ++ frames := by simp [setWire]
    rw [hwire]
    rcases hmoves.peer_cases with ⟨hsame, hopen, -⟩ | ⟨hopen, -, rfl⟩ | ⟨-, -, hrefused, -⟩
    · rcases h.connecting c hc (hsame ▸ hpeer) (hfar ▸ hnone) with
        ⟨frame, rest, hw, hkind, hrest⟩ | hnot
      · refine .inl ⟨frame, rest ++ frames, by rw [hw]; rfl, hkind, fun g hg => ?_⟩
        rcases mem_append.mp hg with hg | hg
        · exact hrest g hg
        · exact hopen g hg
      · refine .inr fun g hg => ?_
        rcases mem_append.mp hg with hg | hg
        · exact hnot g hg
        · exact hopen g hg
    · obtain ⟨-, hw, -⟩ := hopening (by rw [hopen]; decide)
      exact .inl ⟨_, [], by rw [hw]; rfl, rfl, by simp⟩
    · rw [hrefused] at hpeer
      cases hpeer
  · intro hsome
    have hsome : (v.chan .far).isSome := hfar ▸ hsome
    have hwire : ((v.setChan .near c').setWire .near (v.wire .near ++ frames)).wire .near =
        v.wire .near ++ frames := by simp [setWire]
    have hholding : c.peer = .holding := by
      by_contra hpeer
      rw [(hopening hpeer).1] at hsome
      cases hsome
    rw [hwire]
    intro g hg
    rcases mem_append.mp hg with hg | hg
    · exact h.connected hsome g hg
    · rcases hmoves.peer_cases with ⟨-, hopen, -⟩ | ⟨hopen, -⟩ | ⟨hopen, -⟩
      · exact hopen g hg
      · exact absurd (hopen.symm.trans hholding) (by decide)
      · exact absurd (hopen.symm.trans hholding) (by decide)
  · intro d hd
    exact h.held d (hfar ▸ hd)
  · intro g hg
    exact h.back g (hback ▸ hg)
  · exact h.replies

theorem Opening.moves_far (h : v.Opening) (hc : v.chan .far = some c)
    (hmoves : Channel.Moves stream (v.alive .far) fails c c' frames) :
    Opening ((v.setChan .far c').setWire .far (v.wire .far ++ frames)) := by
  have hnear : update v.chan .far (some c') .near = v.chan .near :=
    update_of_ne (by decide) ..
  have hwire : update v.wire .far (v.wire .far ++ frames) .near = v.wire .near :=
    update_of_ne (by decide) ..
  have hpeer := h.held c hc
  -- The far side holds its socket from the start, so none of its frames opens the stream.
  have hcases : c'.peer = c.peer ∧ ∀ f ∈ frames, f.kind ≠ .open := by
    rcases hmoves.peer_cases with ⟨hsame, hopen, -⟩ | ⟨hopen, -⟩ | ⟨hopen, -⟩
    · exact ⟨hsame, hopen⟩
    · exact absurd (hopen.symm.trans hpeer) (by decide)
    · exact absurd (hopen.symm.trans hpeer) (by decide)
  constructor
  · intro hnone
    have := (h.absent (hnear ▸ hnone)).1
    rw [hc] at this
    cases this
  · intro c₀ hc₀ hpeer₀
    have := (h.opening c₀ (hnear ▸ hc₀) hpeer₀).1
    rw [hc] at this
    cases this
  · intro c₀ _ _ hnone
    simp [setWire, setChan] at hnone
  · intro _ g hg
    exact h.connected (by rw [hc]; rfl) g (hwire ▸ hg)
  · intro d hd
    obtain rfl : c' = d := by simpa [setWire, setChan] using hd
    exact hcases.1.trans hpeer
  · intro g hg
    have hg : g ∈ v.wire .far ++ frames := by simpa [setWire, setChan] using hg
    rcases mem_append.mp hg with hg | hg
    · exact h.back g hg
    · exact hcases.2 g hg
  · exact h.replies

variable {rest : List Frame}

/-- Opening, where the near side's frames under way lose their first and the far side may
get its channel. -/
theorem Opening.popped (h : v.Opening) (hwire : v.wire .near = frame :: rest)
    (hnear : ∀ c, w.chan .near = some c →
      ∃ c₀, v.chan .near = some c₀ ∧ c.peer = c₀.peer)
    (hnone : w.chan .near = none → v.chan .near = none) (hwire' : w.wire .near = rest)
    (hrest : ∀ g ∈ rest, g.kind ≠ .open) (hheld : ∀ d, w.chan .far = some d → d.peer = .holding)
    (hback : ∀ g ∈ w.wire .far, g.kind ≠ .open) (hreplies : ∀ g ∈ w.detached, g.kind = .close) :
    w.Opening := by
  have hin : frame ∈ v.wire .near := hwire ▸ mem_cons_self ..
  constructor
  · intro hc
    obtain ⟨-, hempty, -⟩ := h.absent (hnone hc)
    rw [hempty] at hin
    cases hin
  · intro c hc hpeer
    obtain ⟨c₀, hc₀, hsame⟩ := hnear c hc
    exact absurd (hsame.trans (h.notHolding hc₀ hin)) hpeer
  · intro c _ _ _
    exact .inr (hwire' ▸ hrest)
  · intro _
    exact hwire' ▸ hrest
  · exact hheld
  · exact hback
  · exact hreplies

theorem Opening.rest_ne_open (h : v.Opening) (hwire : v.wire .near = frame :: rest) :
    ∀ g ∈ rest, g.kind ≠ .open := by
  have hin : frame ∈ v.wire .near := hwire ▸ mem_cons_self ..
  obtain ⟨c, hc, hpeer⟩ := h.of_wire hin
  intro g hg
  cases hfar : v.chan .far with
  | some d => exact h.connected (by rw [hfar]; rfl) g (hwire ▸ mem_cons_of_mem _ hg)
  | none =>
    rcases h.connecting c hc hpeer hfar with ⟨frame', rest', hw, -, hrest⟩ | hnot
    · obtain ⟨-, rfl⟩ := List.cons.inj (hwire.symm.trans hw)
      exact hrest g hg
    · exact hnot g (hwire ▸ mem_cons_of_mem _ hg)

/-- An `open` that is under way finds no channel on the far side. -/
theorem Opening.far_none (h : v.Opening) (hwire : v.wire .near = frame :: rest)
    (hkind : frame.kind = .open) : v.chan .far = none := by
  by_contra hsome
  exact h.connected (Option.isSome_iff_ne_none.mpr hsome) frame
    (hwire ▸ mem_cons_self ..) hkind

theorem Opening.step (h : v.Opening) (hstep : Step stream v fails w) : w.Opening := by
  cases hstep with
  | breaks p => exact h.breaks p
  | ends p => exact h.ends p
  | @moves p _ c c' frames hc hmoves =>
    cases p with
    | near => exact h.moves_near hc hmoves
    | far => exact h.moves_far hc hmoves
  | opens hnone =>
    obtain ⟨hfar, hwire, hback, hdetached⟩ := h.absent hnone
    have hfar' : update v.chan .near (some { peer := .opening }) .far = none :=
      (update_of_ne (by decide) ..).trans hfar
    constructor
    · intro hc
      simp [setChan] at hc
    · intro c hc _
      obtain rfl : { peer := .opening } = c := by simpa [setChan] using hc
      exact ⟨hfar', hwire, hback, hdetached, fun _ => rfl⟩
    · intro c hc hpeer
      obtain rfl : { peer := .opening } = c := by simpa [setChan] using hc
      cases hpeer
    · intro hsome
      have hsome : (update v.chan .near (some { peer := .opening }) .far).isSome := hsome
      rw [hfar'] at hsome
      cases hsome
    · intro d hd
      cases hfar'.symm.trans hd
    · exact h.back
    · exact h.replies
  | @gets p frame rest hwire hkind =>
    cases p with
    | near =>
      have hchan : ∀ c, update v.chan .near ((v.chan .near).map
          (Channel.dispatch frame)) .near = some c →
          ∃ c₀, v.chan .near = some c₀ ∧ c.peer = c₀.peer := by
        intro c hc
        rw [update_self] at hc
        obtain ⟨c₀, hc₀, rfl⟩ := Option.map_eq_some_iff.mp hc
        exact ⟨c₀, hc₀, (Channel.dispatch_gets frame c₀).peer⟩
      have hin : frame ∈ v.wire .far := hwire ▸ mem_cons_self ..
      obtain ⟨c₀, hc₀, hpeer₀⟩ := h.of_wire hin
      constructor
      · intro hc
        have hc : update v.chan .near ((v.chan .near).map
          (Channel.dispatch frame)) .near = none := hc
        rw [update_self, hc₀] at hc
        cases hc
      · intro c hc hpeer
        obtain ⟨c₁, hc₁, hsame⟩ := hchan c hc
        exact absurd (hsame.trans (h.notHolding hc₁ hin)) hpeer
      · intro c _ _ hfar
        exact h.connecting c₀ hc₀ hpeer₀ hfar
      · exact h.connected
      · exact h.held
      · intro g hg
        have hg : g ∈ rest := by simpa [setWire, Party.other] using hg
        exact h.back g (hwire ▸ mem_cons_of_mem _ hg)
      · exact h.replies
    | far =>
      refine h.popped hwire (fun c hc => ⟨c, hc, rfl⟩) id (by simp [setWire, Party.other])
        (h.rest_ne_open hwire) ?_ ?_ h.replies
      · intro d hd
        have hd : update v.chan .far ((v.chan .far).map
          (Channel.dispatch frame)) .far = some d := hd
        rw [update_self] at hd
        obtain ⟨d₀, hd₀, rfl⟩ := Option.map_eq_some_iff.mp hd
        exact (Channel.dispatch_gets frame d₀).peer.trans (h.held d₀ hd₀)
      · intro g hg
        exact h.back g (by simpa [setWire, Party.other] using hg)
  | @connects frame rest hwire hkind =>
    refine h.popped hwire (fun c hc => ⟨c, by simpa [setChan, setWire] using hc, rfl⟩) (fun hc => by
      simpa [setChan, setWire] using hc) (by simp [setChan, setWire]) (h.rest_ne_open hwire) ?_ ?_
      h.replies
    · intro d hd
      obtain rfl : {} = d := by simpa [setChan] using hd
      rfl
    · intro g hg
      exact h.back g (by simpa [setWire, setChan] using hg)
  | @refuses frame rest hwire hkind =>
    refine h.popped hwire (fun c hc => ⟨c, hc, rfl⟩) id (by simp [setWire])
      (h.rest_ne_open hwire) h.held ?_ ?_
    · intro g hg
      exact h.back g (by simpa [setWire] using hg)
    · intro g hg
      rcases mem_append.mp hg with hg | hg
      · exact h.replies g hg
      · rw [mem_singleton.mp hg]
  | @replies before after frame hdetached frames hframes =>
    have hin : ∀ g ∈ frames, g ∈ v.detached := by
      intro g hg
      rcases hframes with rfl | rfl
      · cases hg
      · rw [mem_singleton.mp hg, hdetached]
        simp
    have hne : v.detached ≠ [] := by simp [hdetached]
    have hwire : update v.wire .far (v.wire .far ++ frames) .near = v.wire .near :=
      update_of_ne (by decide) ..
    constructor
    · intro hc
      exact absurd (h.absent hc).2.2.2 hne
    · intro c hc hpeer
      exact absurd (h.opening c hc hpeer).2.2.2.1 hne
    · intro c hc hpeer hfar
      have := h.connecting c hc hpeer hfar
      rwa [← hwire] at this
    · intro hfar g hg
      exact h.connected hfar g (hwire ▸ hg)
    · exact h.held
    · intro g hg
      have hg : g ∈ v.wire .far ++ frames := by simpa [setWire] using hg
      rcases mem_append.mp hg with hg | hg
      · exact h.back g hg
      · rw [h.replies g (hin g hg)]
        decide
    · intro g hg
      refine h.replies g ?_
      rw [hdetached]
      rcases mem_append.mp hg with hg | hg
      · exact mem_append_left _ hg
      · exact mem_append_right _ (mem_cons_of_mem _ hg)

/-! ### The credit and the order are kept -/

@[simp]
theorem channel_of_some (h : v.chan p = some c) : v.channel p = c := by
  rw [channel, h]
  rfl

theorem channel_of_none (h : v.chan p = none) : v.channel p = {} := by
  rw [channel, h]
  rfl

theorem Taking.of_some {d : Channel} (h : v.chan p.other = some d) :
    v.Taking p ↔ d.Taking := by rw [Taking, h]

/-- One side is taken off the link. -/
theorem Sound.ends (h : v.Sound) (p : Party) (q : Party) : Flow { v with
    alive := update v.alive p false
    chan := update v.chan p ((v.chan p).map Channel.remove) } q := by
  let w : Pair := { v with
    alive := update v.alive p false
    chan := update v.chan p ((v.chan p).map Channel.remove) }
  have hother : w.chan p.other = v.chan p.other := update_of_ne (Party.other_ne p) ..
  have hself : w.chan p = (v.chan p).map Channel.remove := update_self ..
  have hchannel : w.channel p.other = v.channel p.other := by rw [channel, channel, hother]
  have hmoved : (v.channel p).Sends (w.channel p) [] ∧ (v.channel p).Receives (w.channel p) [] := by
    rw [channel, channel, hself]
    cases v.chan p with
    | none => exact ⟨.of_eq rfl rfl rfl rfl rfl, .of_eq rfl rfl rfl id id rfl⟩
    | some c => exact ⟨Channel.remove_sends, Channel.remove_receives⟩
  have hpeers : ∀ q, (∀ c ∈ w.chan q, c.peer ≠ .holding) → ∀ c ∈ v.chan q, c.peer ≠ .holding := by
    intro q hq c hc
    by_cases hqp : q = p
    · subst hqp
      have := hq c.remove (by rw [hself, hc]; rfl)
      rwa [Channel.remove_peer] at this
    · exact hq c (by rwa [show w.chan q = v.chan q from update_of_ne hqp ..])
  have hawaited : ∀ q, w.Awaited q → v.Awaited q := fun q hq => hq.imp (hpeers q) id
  show w.Flow q
  by_cases hq : q = p
  · subst hq
    exact (h.flow q).sends hmoved.1 hchannel (append_nil _).symm le_rfl
      (taking_of_eq hother (hawaited q))
  · obtain rfl : q = p.other := by
      cases p <;> cases q <;> first | rfl | exact absurd rfl hq
    have hreceives : (v.channel p.other.other).Receives (w.channel p.other.other) [] := by
      rw [Party.other_other]
      exact hmoved.2
    refine (h.flow p.other).receives hreceives hchannel rfl (append_nil _).symm fun ht =>
      ⟨?_, ht.channel⟩
    rw [Taking, Party.other_other] at ht ⊢
    rw [hself] at ht
    cases hc : v.chan p with
    | none =>
      rw [hc] at ht
      exact hawaited _ ht
    | some c =>
      rw [hc] at ht
      have ht : c.remove.Taking := ht
      rw [Channel.remove_eq] at ht
      exact nomatch ht.1

/-- One channel moves. -/
theorem Sound.moves (h : v.Sound) (hc : v.chan p = some c)
    (hmoves : Channel.Moves stream (v.alive p) fails c c' frames) (q : Party) :
    Flow ((v.setChan p c').setWire p (v.wire p ++ frames)) q := by
  let w : Pair := (v.setChan p c').setWire p (v.wire p ++ frames)
  have hother : w.chan p.other = v.chan p.other := update_of_ne (Party.other_ne p) ..
  have hself : w.chan p = some c' := update_self ..
  have hchannel : w.channel p.other = v.channel p.other := by rw [channel, channel, hother]
  have hwire : w.wire p = v.wire p ++ frames := update_self ..
  have hback : w.wire p.other = v.wire p.other := update_of_ne (Party.other_ne p) ..
  have hnow : w.channel p = c' := channel_of_some hself
  have hthen : v.channel p = c := channel_of_some hc
  show w.Flow q
  by_cases hq : q = p
  · subst hq
    refine (h.flow q).sends (by rw [hthen, hnow]; exact hmoves.sends) hchannel hwire
      (le_of_eq (by rw [hback])) (taking_of_eq hother fun hawaited => ?_)
    -- Only the second half of an `open` sends what opens the stream.
    rcases hmoves.peer_cases with ⟨hsame, hopen, -⟩ | ⟨hopening, -⟩ | ⟨hopening, -⟩
    · rcases hawaited with hpeer | ⟨g, hg, hkind⟩
      · refine .inl fun c₀ hc₀ => ?_
        obtain rfl : c = c₀ := Option.some.inj (hc.symm.trans hc₀)
        exact hsame ▸ hpeer c' hself
      · rw [hwire] at hg
        rcases mem_append.mp hg with hg | hg
        · exact .inr ⟨g, hg, hkind⟩
        · exact absurd hkind (hopen g hg)
    all_goals
      refine .inl fun c₀ hc₀ => ?_
      obtain rfl : c = c₀ := Option.some.inj (hc.symm.trans hc₀)
      rw [hopening]
      decide
  · obtain rfl : q = p.other := by
      cases p <;> cases q <;> first | rfl | exact absurd rfl hq
    have hreceives : (v.channel p.other.other).Receives (w.channel p.other.other) frames := by
      rw [Party.other_other, hthen, hnow]
      exact hmoves.receives
    have hforth : w.wire p.other.other = v.wire p.other.other ++ frames := by
      rw [Party.other_other]
      exact hwire
    have hd : v.chan p.other.other = some c := by rw [Party.other_other]; exact hc
    have hd' : w.chan p.other.other = some c' := by rw [Party.other_other]; exact hself
    refine (h.flow p.other).receives hreceives hchannel hback hforth fun ht => ⟨?_, ht.channel⟩
    rw [Taking.of_some hd'] at ht
    exact (Taking.of_some hd).mpr (hmoves.receives.taking ht).1

/-- One channel gets a frame. -/
theorem Sound.gets (h : v.Sound) (hwire : v.wire p.other = frame :: rest)
    (hkind : p = .far → frame.kind = .open → (v.chan .far).any Channel.mapped) (q : Party) :
    Flow { v.setWire p.other rest with
      chan := update v.chan p ((v.chan p).map (Channel.dispatch frame)) } q := by
  let w : Pair := { v.setWire p.other rest with
    chan := update v.chan p ((v.chan p).map (Channel.dispatch frame)) }
  have hother : w.chan p.other = v.chan p.other := update_of_ne (Party.other_ne p) ..
  have hself : w.chan p = (v.chan p).map (Channel.dispatch frame) := update_self ..
  have hchannel : w.channel p.other = v.channel p.other := by rw [channel, channel, hother]
  have hwire' : w.wire p.other = rest := update_self ..
  have hback : w.wire p = v.wire p := update_of_ne (Party.other_ne p).symm ..
  have hin : frame ∈ v.wire p.other := hwire ▸ mem_cons_self ..
  show w.Flow q
  cases hc : v.chan p with
  | none =>
    -- The far side has refused the stream: its frames are lost.
    have hnone : w.chan p = none := by rw [hself, hc]; rfl
    have hsame : w.channel p = v.channel p := by
      rw [channel_of_none hc, channel_of_none hnone]
    have hsize : wireSize rest ≤ wireSize (v.wire p.other) := by
      rw [hwire, wireSize_cons]
      exact Nat.le_add_left ..
    have hcredit : wireCredit rest ≤ wireCredit (v.wire p.other) := by
      rw [hwire, wireCredit_cons]
      exact Nat.le_add_left ..
    obtain ⟨c₀, hc₀, hholding⟩ := h.toOpening.of_wire hin
    obtain rfl : p = .far := by
      cases p with
      | far => rfl
      | near => cases hc₀.symm.trans hc
    have hnot : ¬ w.Taking Party.near := by
      intro ht
      have ht : w.Awaited Party.near := by
        rw [Taking, show Party.near.other = Party.far from rfl, hnone] at ht
        exact ht
      rcases ht with hpeer | ⟨g, hg, hopen⟩
      · exact hpeer c₀ (hother.trans hc₀) hholding
      · rw [show w.wire .near = rest from hwire'] at hg
        exact h.toOpening.rest_ne_open hwire g hg hopen
    cases q with
    | near =>
      exact (h.flow .near).congr hchannel hsame (fun ht => absurd ht hnot) (hwire' ▸ hsize)
        (le_of_eq (congrArg wireCredit hback)) fun ht => absurd ht hnot
    | far =>
      refine (h.flow .far).congr hsame hchannel (fun _ => congrArg wireTokens hback)
        (le_of_eq (congrArg wireSize hback)) (hwire' ▸ hcredit) (taking_of_eq hother fun hw => ?_)
      refine hw.imp (fun _ c₁ hc₁ => ?_) fun hopen => hback ▸ hopen
      cases hc.symm.trans hc₁
  | some c =>
    have hnow : w.channel p = c.dispatch frame := channel_of_some (by rw [hself, hc]; rfl)
    have hthen : v.channel p = c := channel_of_some hc
    have hgets : (v.channel p).Gets frame (w.channel p) := by
      rw [hthen, hnow]
      exact Channel.dispatch_gets frame c
    by_cases hq : q = p
    · subst hq
      refine (h.flow q).credited hgets hchannel hback hwire hwire'
        (taking_of_eq hother fun hw => ?_)
      refine hw.imp (fun hpeer c₁ hc₁ => ?_) fun hopen => hback ▸ hopen
      obtain rfl : c = c₁ := Option.some.inj (hc.symm.trans hc₁)
      rw [← (Channel.dispatch_gets frame c).peer]
      exact hpeer _ (by rw [hself, hc]; rfl)
    · obtain rfl : q = p.other := by
        cases p <;> cases q <;> first | rfl | exact absurd rfl hq
      have hd : v.chan p.other.other = some c := by rw [Party.other_other]; exact hc
      have hd' : w.chan p.other.other = some (c.dispatch frame) := by
        rw [Party.other_other, hself, hc]
        rfl
      refine (h.flow p.other).gets (by rw [Party.other_other]; exact hgets) hchannel hwire hwire'
        (by rw [Party.other_other]; exact hback) (fun ht => ?_) fun ht => ?_
      · rw [Taking.of_some hd'] at ht
        have htaking := (Channel.dispatch_gets frame c).taking ht
        exact ⟨(Taking.of_some hd).mpr htaking, channel_of_some hd ▸ htaking⟩
      · exact (Taking.of_some hd).mpr (channel_of_some hd ▸ ht)

/-- **Soundness**: every step of the bridge keeps the order and the credit of a stream. -/
theorem Sound.step (h : v.Sound) (hstep : Step stream v fails w) : w.Sound := by
  refine { toOpening := h.toOpening.step hstep, flow := fun q => ?_ }
  cases hstep with
  | breaks p =>
    exact (h.flow q).congr rfl rfl (fun _ => rfl) le_rfl le_rfl id
  | ends p => exact h.ends p q
  | moves hc hmoves => exact h.moves hc hmoves q
  | opens hnone =>
    obtain ⟨hfar, hnear, hback, -⟩ := h.absent hnone
    have hfar' : (v.setChan .near { peer := .opening }).chan .far = none :=
      by simp [setChan, hfar]
    have hwire : (v.setChan .near { peer := .opening }).wire = fun _ => [] := by
      funext p
      cases p with
      | near => exact hnear
      | far => exact hback
    have hchannel := channel_of_none hfar'
    have hopening := channel_setChan v .near { peer := .opening }
    cases q <;>
    · constructor
      · exact ⟨[], .inl (by simp only [hchannel, hopening]; rfl)⟩
      · simp [Party.other, hchannel, hopening, Channel.content, Channel.queued]
      · intro _
        simp [Party.other, passed, Channel.Carries, hwire, hchannel, hopening, Channel.content,
          Channel.queued, Channel.hand]
      · simp [Party.other, hwire, hchannel, hopening, Channel.held, Channel.unwritten,
          Channel.uncredited]
  | gets hwire hkind => exact h.gets hwire hkind q
  | @connects frame rest hwire hkind =>
    have hnone := h.toOpening.far_none hwire hkind
    have htokens : frame.tokens = [] := by rw [Frame.tokens, hkind]
    have hsize : frame.size = 0 := by rw [Frame.size, hkind]; rfl
    have hgiven : frame.given = 0 := by rw [Frame.given, hkind]; rfl
    let w := (v.setWire .near rest).setChan .far {}
    have hfar : w.channel .far = v.channel .far :=
      (channel_setChan ..).trans (channel_of_none hnone).symm
    have hchan : w.chan .near = v.chan .near := by
      simp [w, setWire, setChan]
    have hnear : w.channel .near = v.channel .near := by rw [channel, channel, hchan]
    have hrest : w.wire .near = rest := by simp [w, setWire, setChan]
    have hback : w.wire .far = v.wire .far := by
      simp [w, setWire, setChan]
    cases q with
    | near =>
      refine (h.flow .near).congr hnear hfar (fun _ => ?_) ?_ (le_of_eq (congrArg _ hback))
        fun _ => ?_
      · rw [hrest, hwire, wireTokens_cons, htokens, nil_append]
      · rw [hrest, hwire, wireSize_cons, hsize, Nat.zero_add]
      · rw [Taking, show Party.near.other = Party.far from rfl, hnone]
        exact .inr ⟨frame, hwire ▸ mem_cons_self .., hkind⟩
    | far =>
      refine (h.flow .far).congr hfar hnear (fun _ => congrArg _ hback)
        (le_of_eq (congrArg _ hback)) ?_ (taking_of_eq hchan fun hw => ?_)
      · have hcredit : wireCredit (w.wire .near) = wireCredit (v.wire .near) := by
          rw [hrest, hwire, wireCredit_cons, hgiven, Nat.zero_add]
        exact le_of_eq hcredit
      · exact .inl fun c hc => by cases hnone.symm.trans hc
  | @refuses frame rest hwire hkind =>
    have hnone := h.toOpening.far_none hwire hkind
    have hsize : wireSize rest ≤ wireSize (v.wire .near) := by
      rw [hwire, wireSize_cons]
      exact Nat.le_add_left ..
    have hcredit : wireCredit rest ≤ wireCredit (v.wire .near) := by
      rw [hwire, wireCredit_cons]
      exact Nat.le_add_left ..
    let w : Pair := { v.setWire .near rest with
      detached := v.detached ++ [⟨stream, .close, []⟩] }
    have hrest : w.wire .near = rest := by simp [w, setWire]
    have hback : w.wire .far = v.wire .far := by
      simp [w, setWire]
    obtain ⟨c, hc, hpeer⟩ := h.toOpening.of_wire (hwire ▸ mem_cons_self ..)
    have hnot : ¬ w.Taking .near := by
      intro ht
      have ht : w.Awaited .near := by
        rw [Taking, show Party.near.other = Party.far from rfl,
          show w.chan .far = none from hnone] at ht
        exact ht
      rcases ht with hall | ⟨g, hg, hopen⟩
      · exact hall c hc hpeer
      · exact h.toOpening.rest_ne_open hwire g (hrest ▸ hg) hopen
    cases q with
    | near =>
      exact (h.flow .near).congr rfl rfl (fun ht => absurd ht hnot) (hrest ▸ hsize)
        (le_of_eq (congrArg _ hback)) fun ht => absurd ht hnot
    | far =>
      refine (h.flow .far).congr rfl rfl (fun _ => congrArg _ hback)
        (le_of_eq (congrArg _ hback)) (hrest ▸ hcredit) (taking_of_eq rfl fun hw => ?_)
      exact hw.imp id fun hopen => hback ▸ hopen
  | @replies before after frame hdetached frames hframes =>
    -- What a thread of its own sends for a stream is a refusal.
    have hclose : ∀ g ∈ frames, g.kind = .close := by
      intro g hg
      refine h.toOpening.replies g ?_
      rcases hframes with rfl | rfl
      · cases hg
      · rw [mem_singleton.mp hg, hdetached]
        simp
    have hnothing : wireTokens frames = [] ∧ wireSize frames = 0 ∧ wireCredit frames = 0 := by
      rcases hframes with rfl | rfl
      · exact ⟨rfl, rfl, rfl⟩
      · have hkind := hclose frame (mem_singleton_self _)
        simp [wireTokens, wireSize, wireCredit, Frame.tokens, Frame.size, Frame.given, hkind]
    let w : Pair := { v.setWire .far (v.wire .far ++ frames) with detached := before ++ after }
    have hwire : w.wire .far = v.wire .far ++ frames := by simp [w, setWire]
    have hnear : w.wire .near = v.wire .near := by
      simp [w, setWire]
    have htokens : wireTokens (w.wire .far) = wireTokens (v.wire .far) := by
      rw [hwire, wireTokens_append, hnothing.1, append_nil]
    have hsize : wireSize (w.wire .far) = wireSize (v.wire .far) := by
      rw [hwire, wireSize_append, hnothing.2.1, Nat.add_zero]
    have hcredit : wireCredit (w.wire .far) = wireCredit (v.wire .far) := by
      rw [hwire, wireCredit_append, hnothing.2.2, Nat.add_zero]
    cases q with
    | near =>
      exact (h.flow .near).congr rfl rfl (fun _ => congrArg _ hnear) (le_of_eq (congrArg _ hnear))
        (le_of_eq hcredit) (taking_of_eq rfl fun hw => hw.imp id fun hopen => hnear ▸ hopen)
    | far =>
      refine (h.flow .far).congr rfl rfl (fun _ => htokens) (le_of_eq hsize)
        (le_of_eq (congrArg _ hnear)) (taking_of_eq rfl fun hw => ?_)
      refine hw.imp id fun hopen => ?_
      obtain ⟨g, hg, hopen⟩ := hopen
      refine ⟨g, ?_, hopen⟩
      rw [hwire] at hg
      rcases mem_append.mp hg with hg | hg
      · exact hg
      · exact absurd ((hclose g hg).symm.trans hopen) (by decide)

end Pair

end Zetta.Zmux
