import Zetta.Zmux.Lossless

/-!
# The streams of a bridge

A frame that is read from the link is the oldest that was written to it (`Linked`), so a step
of the bridge is, for each stream, a step of its pair or none (`System.Linked.step`). A step
fails for a stream (`System.Fails`) if its local sockets do, if the far side cannot connect it,
or if the link ends. On a step that does not fail for a stream, all frames fit the readers
(`System.Fit.step`).
-/

namespace Zetta.Zmux

open List Function

/-- The frames of a stream; what is asked and answered on the link itself is not among them. -/
def ofStream (stream : UInt32) (frames : List Frame) : List Frame :=
  frames.filter fun frame => frame.stream = stream ∧ frame.kind ≠ .info

namespace System

variable {t t' : System} {stream : UInt32}

/-- The frames under way from a side. -/
def underWay (t : System) (p : Party) : List Frame :=
  (t.side p).sent.drop (t.side p.other).received.length

/-- What concerns one stream. -/
def pair (t : System) (stream : UInt32) : Pair where
  alive := fun p => !(t.side p).closed
  chan := fun p => (t.side p).streams stream
  wire := fun p => ofStream stream (t.underWay p)
  detached := ofStream stream (t.side .far).detached

/-- The link is reliable and ordered, and ids are not used again. -/
structure Linked (t : System) : Prop where
  received : ∀ p, (t.side p.other).received <+: (t.side p).sent
  wire : ∀ p, (t.side p).wire = (t.underWay p).flatMap encodeFrame
  valid : ∀ p, ∀ frame ∈ (t.side p).sent, frame.Valid
  detached : (t.side .near).detached = []
  fresh : ∀ s : UInt32, t.nextStream.toNat ≤ s.toNat → (t.side .near).streams s = none
  link : (t.side .near).streams LINK_STREAM = none
  positive : 0 < t.nextStream.toNat

@[simp]
theorem side_set_self (t : System) (p : Party) (side : Side) : (t.set p side).side p = side :=
  update_self ..

@[simp]
theorem side_set_other (t : System) (p : Party) (side : Side) :
    (t.set p side).side p.other = t.side p.other := update_of_ne (Party.other_ne p) ..

theorem party_cases (p q : Party) : q = p ∨ q = p.other := by
  cases p <;> cases q <;> simp [Party.other]

theorem ofStream_append (frames frames' : List Frame) :
    ofStream stream (frames ++ frames') = ofStream stream frames ++ ofStream stream frames' :=
  filter_append ..

variable {frames : List Frame}

theorem ofStream_eq_self (h : ∀ f ∈ frames, f.stream = stream ∧ f.kind ≠ .info) :
    ofStream stream frames = frames :=
  filter_eq_self.mpr fun f hf => decide_eq_true (h f hf)

theorem ofStream_eq_nil (h : ∀ f ∈ frames, ¬ (f.stream = stream ∧ f.kind ≠ .info)) :
    ofStream stream frames = [] :=
  filter_eq_nil_iff.mpr fun f hf => by simpa using h f hf

/-! ### What a side sends -/

variable {side : Side}

/-- A side that goes on: its new streams, and what it sends. -/
theorem Linked.underWay_send (h : t.Linked) (p : Party)
    (hsent : side.sent = (t.side p).sent ++ frames)
    (hreceived : side.received = (t.side p).received) :
    (t.set p side).underWay p = t.underWay p ++ frames ∧
      (t.set p side).underWay p.other = t.underWay p.other := by
  constructor
  · rw [underWay, side_set_self, side_set_other, hsent, underWay]
    exact drop_append_of_le_length (h.received p).length_le
  · rw [underWay, underWay, side_set_other, Party.other_other, side_set_self, hreceived]

/-- Sending keeps the link. -/
theorem Linked.send (h : t.Linked) (p : Party) (hsent : side.sent = (t.side p).sent ++ frames)
    (hwire : side.wire = (t.side p).wire ++ frames.flatMap encodeFrame)
    (hreceived : side.received = (t.side p).received) (hvalid : ∀ f ∈ frames, f.Valid)
    (hdetached : p = .near → side.detached = [])
    (hfresh : p = .near → ∀ s : UInt32, t.nextStream.toNat ≤ s.toNat → side.streams s = none)
    (hlink : p = .near → side.streams LINK_STREAM = none) : (t.set p side).Linked := by
  obtain ⟨hself, hother⟩ := h.underWay_send p hsent hreceived
  have hnear : (t.set p side).side .near = if p = .near then side else t.side .near := by
    cases p <;> rfl
  constructor
  · intro q
    rcases party_cases p q with rfl | rfl
    · rw [side_set_self, side_set_other, hsent]
      exact (h.received q).trans (prefix_append ..)
    · rw [Party.other_other, side_set_self, side_set_other, hreceived]
      have := h.received p.other
      rwa [Party.other_other] at this
  · intro q
    rcases party_cases p q with rfl | rfl
    · rw [hself, side_set_self, hwire, h.wire q, flatMap_append]
    · rw [hother, side_set_other, h.wire p.other]
  · intro q f hf
    rcases party_cases p q with rfl | rfl
    · rw [side_set_self, hsent] at hf
      rcases mem_append.mp hf with hf | hf
      · exact h.valid _ f hf
      · exact hvalid f hf
    · rw [side_set_other] at hf
      exact h.valid _ f hf
  · rw [hnear]
    split_ifs with hp
    · exact hdetached hp
    · exact h.detached
  · intro s hs
    rw [hnear]
    split_ifs with hp
    · exact hfresh hp s hs
    · exact h.fresh s hs
  · rw [hnear]
    split_ifs with hp
    · exact hlink hp
    · exact h.link
  · exact h.positive

variable {p : Party}

/-- What one stream sees when a side changes. -/
theorem pair_set_eq {alive : Bool} {chan : Option Channel} {wire back detached : List Frame}
    (halive : (!side.closed) = alive) (hchan : side.streams stream = chan)
    (hwire : ofStream stream ((t.set p side).underWay p) = wire)
    (hback : ofStream stream ((t.set p side).underWay p.other) = back)
    (hdetached : ofStream stream ((t.set p side).side .far).detached = detached) :
    (t.set p side).pair stream = {
      alive := update (t.pair stream).alive p alive
      chan := update (t.pair stream).chan p chan
      wire := update (update (t.pair stream).wire p wire) p.other back
      detached := detached } := by
  have hne := Party.other_ne p
  refine Pair.ext (funext fun q => ?_) (funext fun q => ?_) (funext fun q => ?_) hdetached
  · rcases party_cases p q with rfl | rfl
    · simp [pair, ← halive]
    · simp [pair]
  · rcases party_cases p q with rfl | rfl
    · simp [pair, ← hchan]
    · simp [pair]
  · rcases party_cases p q with rfl | rfl
    · simp [pair, ← hwire, update_of_ne hne.symm]
    · simp [pair, ← hback]

/-- What one stream sees of a move of a channel. -/
theorem Linked.pair_move (h : t.Linked) (p : Party) {s : UInt32} {c : Channel}
    (hframes : ∀ f ∈ frames, f.stream = s ∧ f.kind ≠ .info) :
    (t.set p (((t.side p).put s c).write frames)).pair stream =
      if stream = s then
        ((t.pair stream).setChan p c).setWire p ((t.pair stream).wire p ++ frames)
      else t.pair stream := by
  let side := ((t.side p).put s c).write frames
  have hsent : side.sent = (t.side p).sent ++ frames := rfl
  obtain ⟨hself, hother⟩ := h.underWay_send p hsent rfl
  have hdetached : ((t.set p side).side .far).detached = (t.side .far).detached := by
    cases p <;> rfl
  split_ifs with hstream
  · subst hstream
    rw [pair_set_eq rfl (update_self ..) (by rw [hself, ofStream_append,
      ofStream_eq_self hframes]) (by rw [hother]) (by rw [hdetached])]
    refine Pair.ext (funext fun q => ?_) rfl (funext fun q => ?_) rfl
    · rcases party_cases p q with rfl | rfl <;> simp [pair, Side.write, Side.put, Pair.setChan,
        Pair.setWire]
    · rcases party_cases p q with rfl | rfl
      · simp [pair, Pair.setChan, Pair.setWire, update_of_ne (Party.other_ne q).symm]
      · simp [pair, Pair.setChan, Pair.setWire]
  · have hnil : ofStream stream frames = [] := ofStream_eq_nil fun f hf hin =>
      hstream (hin.1.symm.trans (hframes f hf).1)
    rw [pair_set_eq rfl (update_of_ne hstream ..) (by rw [hself, ofStream_append, hnil,
      append_nil]) (by rw [hother]) (by rw [hdetached])]
    refine Pair.ext (funext fun q => ?_) (funext fun q => ?_) (funext fun q => ?_) rfl
    · rcases party_cases p q with rfl | rfl <;> simp [pair, Side.write, Side.put]
    · rcases party_cases p q with rfl | rfl <;> simp [pair]
    · rcases party_cases p q with rfl | rfl
      · simp [pair, update_of_ne (Party.other_ne q).symm]
      · simp [pair]

/-- What one stream sees of a side that sends nothing. -/
theorem Linked.pair_quiet (h : t.Linked) (p : Party) (hsent : side.sent = (t.side p).sent)
    (hreceived : side.received = (t.side p).received)
    (hdetached : side.detached = (t.side p).detached) :
    (t.set p side).pair stream = { t.pair stream with
      alive := update (t.pair stream).alive p (!side.closed)
      chan := update (t.pair stream).chan p (side.streams stream) } := by
  have hsent' : side.sent = (t.side p).sent ++ [] := by rw [hsent, append_nil]
  obtain ⟨hself, hother⟩ := h.underWay_send p hsent' hreceived
  have hfar : ((t.set p side).side .far).detached = (t.side .far).detached := by
    cases p
    · rfl
    · exact hdetached
  rw [pair_set_eq rfl rfl (by rw [hself, append_nil]) (by rw [hother]) (by rw [hfar])]
  refine Pair.ext rfl rfl (funext fun q => ?_) rfl
  rcases party_cases p q with rfl | rfl
  · simp [pair, update_of_ne (Party.other_ne q).symm]
  · simp [pair]

variable {frame : Frame}

/-- A reader takes the oldest frame. -/
theorem underWay_receive (hframes : t.underWay p.other = frame :: frames) {other : Side}
    (hother : other.sent = (t.side p.other).sent)
    (hother' : other.received = (t.side p.other).received) (hsent : side.sent = (t.side p).sent)
    (hreceived : side.received = (t.side p).received ++ [frame]) :
    ((t.set p.other other).set p side).underWay p.other = frames ∧
      ((t.set p.other other).set p side).underWay p = t.underWay p := by
  have hside : ((t.set p.other other).set p side).side p.other = other := by
    rw [side_set_other, side_set_self]
  have hlen : side.received.length = (t.side p).received.length + 1 := by
    rw [hreceived, length_append, length_singleton]
  constructor
  · rw [underWay, Party.other_other] at hframes
    rw [underWay, hside, Party.other_other, side_set_self, hother, hlen, ← drop_drop, hframes]
    rfl
  · rw [underWay, underWay, side_set_self, hside, hsent, hother']

variable {wire : List UInt8}

theorem pair_receive (hframes : t.underWay p.other = frame :: frames)
    (hsent : side.sent = (t.side p).sent)
    (hreceived : side.received = (t.side p).received ++ [frame])
    (hclosed : side.closed = (t.side p).closed) :
    ((t.set p.other { t.side p.other with wire := wire }).set p side).pair stream = {
      alive := (t.pair stream).alive
      chan := update (t.pair stream).chan p (side.streams stream)
      wire := update (t.pair stream).wire p.other (ofStream stream frames)
      detached := ofStream stream (if p = .far then side else t.side .far).detached } := by
  let other : Side := { t.side p.other with wire := wire }
  have hother : other.sent = (t.side p.other).sent := rfl
  obtain ⟨hback, hself⟩ := underWay_receive hframes hother rfl hsent hreceived
  have hne := Party.other_ne p
  show ((t.set p.other other).set p side).pair stream = _
  refine Pair.ext (funext fun q => ?_) (funext fun q => ?_) (funext fun q => ?_) ?_
  · rcases party_cases p q with rfl | rfl
    · simp [pair, hclosed]
    · simp [pair, other]
  · rcases party_cases p q with rfl | rfl
    · simp [pair]
    · simp [pair, other]
  · rcases party_cases p q with rfl | rfl
    · simp [pair, hself, update_of_ne hne.symm]
    · simp [pair, hback]
  · cases p <;> rfl

/-! ### A step, for one stream -/

/-- A channel moves: the link stays as it is, and the other streams see nothing. -/
theorem Linked.moves (h : t.Linked) {s : UInt32} {c c' : Channel} {fails : Bool}
    (hsound : (t.pair s).Sound) (hc : (t.side p).streams s = some c)
    (hmoves : Channel.Moves s (!(t.side p).closed) fails c c' frames) :
    (t.set p (((t.side p).put s c').write frames)).Linked ∧
      ∀ stream, (t.set p (((t.side p).put s c').write frames)).pair stream = t.pair stream ∨
        stream = s ∧ Pair.Step stream (t.pair stream) fails
          ((t.set p (((t.side p).put s c').write frames)).pair stream) := by
  have hc' : (t.pair s).chan p = some c := hc
  have hheld : c.held ≤ WINDOW := by
    have hwindow := (hsound.flow p).window
    rw [Pair.channel_of_some hc'] at hwindow
    omega
  have hframes := hmoves.sent_of_stream hheld
  have hother : p = .near → ∀ s', (t.side .near).streams s' = none →
      ((t.side p).put s c').streams s' = none := by
    rintro rfl s' hs'
    have hne : s' ≠ s := fun heq => by
      rw [heq, hc] at hs'
      cases hs'
    exact (update_of_ne hne ..).trans hs'
  constructor
  · refine h.send p rfl rfl rfl (fun f hf => ?_) ?_ ?_ ?_
    · exact lt_of_le_of_lt (hframes f hf).2.2 (by decide)
    · rintro rfl
      exact h.detached
    · exact fun hp s' hs' => hother hp s' (h.fresh s' hs')
    · exact fun hp => hother hp _ h.link
  · intro stream
    rw [h.pair_move p fun f hf => ⟨(hframes f hf).1, (hframes f hf).2.1⟩]
    split_ifs with hstream
    · subst hstream
      exact .inr ⟨rfl, .moves hc' hmoves⟩
    · exact .inl rfl

/-- A side's link ends, or a write to it fails. -/
theorem Linked.quiet (h : t.Linked) (p : Party) (hsent : side.sent = (t.side p).sent)
    (hwire : side.wire = (t.side p).wire) (hreceived : side.received = (t.side p).received)
    (hdetached : side.detached = (t.side p).detached)
    (hstreams : ∀ s, (t.side p).streams s = none → side.streams s = none) :
    (t.set p side).Linked := by
  have hsent' : side.sent = (t.side p).sent ++ [] := by rw [hsent, append_nil]
  have hwire' : side.wire = (t.side p).wire ++ ([] : List Frame).flatMap encodeFrame := by
    rw [hwire, flatMap_nil, append_nil]
  refine h.send p hsent' hwire' hreceived (by simp) ?_ ?_ ?_
  · rintro rfl
    exact hdetached.trans h.detached
  · rintro rfl s hs
    exact hstreams s (h.fresh s hs)
  · rintro rfl
    exact hstreams _ h.link

/-- A reader takes a frame: what it leaves on the link. -/
theorem Linked.take (h : t.Linked) (hframes : t.underWay p.other = frame :: frames)
    (hbytes : wire = frames.flatMap encodeFrame) (hsent : side.sent = (t.side p).sent)
    (hwire : side.wire = (t.side p).wire)
    (hreceived : side.received = (t.side p).received ++ [frame])
    (hdetached : p = .near → side.detached = [])
    (hstreams : p = .near → ∀ s, (t.side p).streams s = none → side.streams s = none) :
    ((t.set p.other { t.side p.other with wire := wire }).set p side).Linked := by
  let other : Side := { t.side p.other with wire := wire }
  let t' := (t.set p.other other).set p side
  have hother : other.sent = (t.side p.other).sent := rfl
  obtain ⟨hback, hself⟩ := underWay_receive hframes hother rfl hsent hreceived
  have hnow : t'.side p = side := side_set_self ..
  have hthen : t'.side p.other = other := by rw [side_set_other, side_set_self]
  show t'.Linked
  constructor
  · intro q
    rcases party_cases p q with rfl | rfl
    · rw [hnow, hthen, hsent]
      exact h.received q
    · have hstarts : (t.side p).received ++ [frame] <+: (t.side p.other).sent := by
        obtain ⟨rest, hrest⟩ := h.received p.other
        rw [Party.other_other] at hrest
        rw [underWay, Party.other_other, ← hrest, drop_left] at hframes
        rw [← hrest, hframes]
        exact ⟨frames, by simp⟩
      rw [Party.other_other, hnow, hthen, hreceived]
      exact hstarts
  · intro q
    rcases party_cases p q with rfl | rfl
    · rw [hnow, hself, hwire, h.wire q]
    · rw [hthen, hback]
      exact hbytes
  · intro q f hf
    rcases party_cases p q with rfl | rfl
    · rw [hnow, hsent] at hf
      exact h.valid _ f hf
    · rw [hthen] at hf
      exact h.valid _ f hf
  · cases p with
    | near => exact hdetached rfl
    | far => exact h.detached
  · intro s hs
    cases p with
    | near => exact hstreams rfl s (h.fresh s hs)
    | far => exact h.fresh s hs
  · cases p with
    | near => exact hstreams rfl _ h.link
    | far => exact h.link
  · exact h.positive

/-- What a reader finds: nothing, or the oldest frame. -/
theorem Linked.readFrame_cases (h : t.Linked) (p : Party) :
    (t.underWay p.other = [] ∧ readFrame (t.side p.other).wire = none) ∨
    ∃ frame frames, t.underWay p.other = frame :: frames ∧ frame ∈ (t.side p.other).sent ∧
      ((MAX_FRAME < frame.payload.length ∧
          ∃ e, readFrame (t.side p.other).wire = some (.error e)) ∨
        (frame.payload.length ≤ MAX_FRAME ∧ readFrame (t.side p.other).wire =
          some (.ok (frame, frames.flatMap encodeFrame)))) := by
  have hwire := h.wire p.other
  cases hframes : t.underWay p.other with
  | nil =>
    refine .inl ⟨rfl, ?_⟩
    rw [hwire, hframes]
    rfl
  | cons frame frames =>
    have hmem : frame ∈ (t.side p.other).sent := by
      refine mem_of_mem_drop (i := (t.side p.other.other).received.length) ?_
      rw [← underWay, hframes]
      exact mem_cons_self ..
    refine .inr ⟨frame, frames, rfl, hmem, ?_⟩
    rw [hwire, hframes, flatMap_cons]
    rcases lt_or_ge MAX_FRAME frame.payload.length with hlong | hfits
    · exact .inl ⟨hlong, readFrame_error_of_long (h.valid _ frame hmem) hlong _⟩
    · exact .inr ⟨hfits, readFrame_encodeFrame hfits _⟩

end System

/-- A frame for a channel, as one stream sees it. -/
theorem Channel.dispatch_info {frame : Frame} (c : Channel)
    (h : frame.kind = .info ∨ frame.kind = .open) : c.dispatch frame = c := by
  rw [Channel.dispatch]
  rcases h with h | h <;> rw [h] <;> split_ifs <;> rfl

variable (side : Side) (frame : Frame)

theorem Side.dispatch_streams (s : UInt32) :
    (side.dispatch frame).streams s =
      if s = frame.stream then (side.streams s).map (Channel.dispatch frame)
      else side.streams s := by
  rw [Side.dispatch]
  split_ifs with hs
  · subst hs
    split
    · next hnone => rw [hnone]; rfl
    · next c hc => rw [hc]; exact update_self ..
  · split
    · rfl
    · exact update_of_ne hs ..

theorem Side.dispatch_rest :
    (side.dispatch frame).sent = side.sent ∧ (side.dispatch frame).received = side.received ∧
      (side.dispatch frame).wire = side.wire ∧ (side.dispatch frame).closed = side.closed ∧
      (side.dispatch frame).detached = side.detached ∧
      (side.dispatch frame).reading = side.reading := by
  rw [Side.dispatch]
  split <;> exact ⟨rfl, rfl, rfl, rfl, rfl, rfl⟩

/-- What the far side does with a frame. -/
theorem Side.serve_cases (connects : Bool) (info : List UInt8) :
    (frame.kind = .open ∧ ((side.serve frame connects info = side ∧
        (frame.stream = LINK_STREAM ∨ side.onLink frame.stream)) ∨
      (connects = true ∧ side.serve frame connects info = side.put frame.stream {}) ∨
      (connects = false ∧ side.serve frame connects info =
        { side with detached := side.detached ++ [⟨frame.stream, .close, []⟩] }))) ∨
    (frame.kind = .info ∧ (side.serve frame connects info = side ∨
      side.serve frame connects info =
        { side with detached := side.detached ++ [⟨LINK_STREAM, .info, info⟩] })) ∨
    (frame.kind ≠ .open ∧ frame.kind ≠ .info ∧
      side.serve frame connects info = side.dispatch frame) := by
  rw [Side.serve]
  split
  · next hkind =>
    refine .inl ⟨hkind, ?_⟩
    split_ifs with hlink hconnects
    · exact .inl ⟨rfl, hlink⟩
    · exact .inr (.inl ⟨hconnects, rfl⟩)
    · exact .inr (.inr ⟨by simpa using hconnects, rfl⟩)
  · next hkind =>
    refine .inr (.inl ⟨hkind, ?_⟩)
    split_ifs
    · exact .inr rfl
    · exact .inl rfl
  · next hopen hinfo => exact .inr (.inr ⟨hopen, hinfo, rfl⟩)

namespace System

/-- The frame that the far side reads next. -/
def arriving (t : System) : Option Frame :=
  (readFrame (t.side .near).wire).bind fun result => result.toOption.map Prod.fst

/-- Something fails that matters to a stream: its local sockets, its own connection, or the
link, whose reader takes no frame of more than `MAX_FRAME` bytes. That the far side cannot
connect another stream is no such thing. -/
def Fails (t : System) (stream : UInt32) : Action → Prop
  | .read _ stream' .error | .write _ stream' (.error _) => stream' = stream
  | .receive .far connects info => ∃ frame ∈ t.arriving,
      frame.kind = .open ∧ frame.stream = stream ∧ connects = false ∨
        frame.kind = .info ∧ MAX_FRAME < info.length
  | .breakLink _ | .linkEnds _ | .drop => True
  | _ => False

variable {t t' : System} {stream : UInt32} {a : Action}

/-- Both readers run, and no frame is too long for them. -/
structure Fit (t : System) : Prop where
  reading : ∀ p, (t.side p).reading = true
  fits : ∀ p, ∀ f ∈ (t.side p).sent ++ (t.side p).detached, f.payload.length ≤ MAX_FRAME

theorem arriving_eq {frame : Frame} {rest : List UInt8}
    (h : readFrame (t.side .near).wire = some (.ok (frame, rest))) : t.arriving = some frame := by
  rw [arriving, h]
  rfl

/-- A step of the bridge, for one stream. -/
def Moved (t : System) (a : Action) (t' : System) (stream : UInt32) : Prop :=
  t'.pair stream = t.pair stream ∨ ∃ fails, Pair.Step stream (t.pair stream) fails
    (t'.pair stream) ∧ (fails = true → t.Fails stream a ∨ ¬ (t.pair stream).Whole ∨ ¬ t.Fit)

variable {side : Side}

theorem Linked.ends (h : t.Linked) (p : Party)
    (hside : side = (t.side p).shutDown ∨ side = { (t.side p).shutDown with reading := false }) :
    (t.set p side).Linked ∧ ∀ stream, Pair.Step stream (t.pair stream) true
      ((t.set p side).pair stream) := by
  have hsame : side.sent = (t.side p).sent ∧ side.wire = (t.side p).wire ∧
      side.received = (t.side p).received ∧ side.detached = (t.side p).detached ∧
      side.closed = true ∧
      ∀ s, side.streams s = ((t.side p).streams s).map Channel.remove := by
    rcases hside with rfl | rfl <;> exact ⟨rfl, rfl, rfl, rfl, rfl, fun _ => rfl⟩
  obtain ⟨hsent, hwire, hreceived, hdetached, hclosed, hstreams⟩ := hsame
  constructor
  · refine h.quiet p hsent hwire hreceived hdetached fun s hs => ?_
    rw [hstreams, hs]
    rfl
  · intro stream
    rw [h.pair_quiet p hsent hreceived hdetached, hclosed, hstreams]
    exact .ends p

variable {p : Party} {frame : Frame} {frames : List Frame}

/-- What a frame that a channel gets is for one stream. -/
theorem Linked.receive_dispatch (h : t.Linked) (hframes : t.underWay p.other = frame :: frames)
    (hopen : p = .far → frame.kind = .open → (t.side .far).onLink frame.stream)
    (hsent : side.sent = (t.side p).sent) (hwire : side.wire = (t.side p).wire)
    (hreceived : side.received = (t.side p).received ++ [frame])
    (hclosed : side.closed = (t.side p).closed)
    (hdetached : ∀ s, ofStream s side.detached = ofStream s (t.side p).detached)
    (hnear : p = .near → side.detached = []) (hstreams : ∀ s, side.streams s =
      if s = frame.stream then ((t.side p).streams s).map (Channel.dispatch frame)
      else (t.side p).streams s) :
    let t' := (t.set p.other { t.side p.other with
      wire := frames.flatMap encodeFrame }).set p side
    t'.Linked ∧ ∀ s, t'.pair s = t.pair s ∨ Pair.Step s (t.pair s) false (t'.pair s) := by
  intro t'
  constructor
  · refine h.take hframes rfl hsent hwire hreceived hnear fun _ s hs => ?_
    rw [hstreams, hs]
    split_ifs <;> rfl
  · intro s
    have hdetached' : ofStream s (if p = .far then side else t.side .far).detached =
        (t.pair s).detached := by
      split_ifs with hp
      · rw [hdetached, hp]
        rfl
      · rfl
    have hchan : (t.pair s).chan p = (t.side p).streams s := rfl
    show t'.pair s = _ ∨ Pair.Step s _ _ (t'.pair s)
    rw [show t'.pair s = _ from pair_receive hframes hsent hreceived hclosed, hdetached', hstreams]
    have hwireBefore : (t.pair s).wire p.other = ofStream s (frame :: frames) :=
      congrArg (ofStream s) hframes
    by_cases hmine : frame.stream = s ∧ frame.kind ≠ .info
    · -- A frame of this stream.
      obtain ⟨rfl, hkind⟩ := hmine
      have hcons : ofStream frame.stream (frame :: frames) =
          frame :: ofStream frame.stream frames := filter_cons_of_pos (by simpa using hkind)
      rw [if_pos rfl, ← hchan]
      refine .inr (.gets (hwireBefore.trans hcons) fun hp hkind => ?_)
      exact hopen hp hkind
    · have hskip : ofStream s (frame :: frames) = ofStream s frames :=
        filter_cons_of_neg (by simpa using hmine)
      have hsame : (if s = frame.stream then ((t.side p).streams s).map (Channel.dispatch frame)
          else (t.side p).streams s) = (t.side p).streams s := by
        split_ifs with hs
        · have hinfo : frame.kind = .info := by
            by_contra hkind
            exact hmine ⟨hs.symm, hkind⟩
          rw [show Channel.dispatch frame = id from
            funext fun c => c.dispatch_info (.inl hinfo), Option.map_id_fun, id]
        · rfl
      refine .inl ?_
      rw [hsame, ← hchan, update_eq_self, ← hskip, ← hwireBefore,
        update_eq_self]

/-- Streams are not opened on the link's own id. -/
theorem Linked.stream_ne_link (h : t.Linked) (hsound : (t.pair LINK_STREAM).Sound)
    (hframe : frame ∈ t.underWay p) (hkind : frame.kind ≠ .info) :
    frame.stream ≠ LINK_STREAM := by
  intro hlink
  have hmem : frame ∈ (t.pair LINK_STREAM).wire p :=
    mem_filter.mpr ⟨hframe, decide_eq_true ⟨hlink, hkind⟩⟩
  obtain ⟨c, hc, -⟩ := hsound.toOpening.of_wire hmem
  have hc : (t.side .near).streams LINK_STREAM = some c := hc
  rw [h.link] at hc
  cases hc

/-- The far side connects a stream. -/
theorem Linked.receive_open (h : t.Linked) (hframes : t.underWay Party.far.other = frame :: frames)
    (hkind : frame.kind = .open) (hskip : ∀ s, ¬ (frame.stream = s ∧ frame.kind ≠ .info) →
      ofStream s (frame :: frames) = ofStream s frames) :
    let side : Side := { t.side .far with received := (t.side .far).received ++ [frame] }
    let t' := (t.set Party.far.other { t.side Party.far.other with
      wire := frames.flatMap encodeFrame }).set .far
      (side.put frame.stream {})
    t'.Linked ∧ ∀ s, t'.pair s = t.pair s ∨ Pair.Step s (t.pair s) false (t'.pair s) := by
  intro side t'
  have hclosed : (side.put frame.stream {}).closed = (t.side .far).closed := rfl
  refine ⟨h.take hframes rfl rfl rfl rfl (fun hp => by cases hp) (fun hp => by cases hp),
    fun s => ?_⟩
  have hpair : t'.pair s = _ := pair_receive hframes rfl rfl hclosed
  have hwire : (t.pair s).wire .near = ofStream s (frame :: frames) :=
    congrArg (ofStream s) hframes
  rw [hpair]
  by_cases hs : frame.stream = s
  · subst hs
    have hcons : ofStream frame.stream (frame :: frames) =
        frame :: ofStream frame.stream frames :=
      filter_cons_of_pos (by simp [hkind])
    rw [show (side.put frame.stream {}).streams frame.stream = some {} from
      update_self ..]
    exact .inr (.connects (hwire.trans hcons) hkind)
  · refine .inl ?_
    rw [show (side.put frame.stream {}).streams s = (t.pair s).chan .far from
      update_of_ne (Ne.symm hs) .., ← hskip s fun h => hs h.1, update_eq_self]
    refine Pair.ext rfl rfl ?_ rfl
    exact (congrArg (update (t.pair s).wire .near) hwire.symm).trans
      (update_eq_self ..)

/-- The far side cannot connect a stream; the other streams hear nothing of it. -/
theorem Linked.receive_refused (h : t.Linked)
    (hframes : t.underWay Party.far.other = frame :: frames) (hkind : frame.kind = .open)
    (hskip : ∀ s, ¬ (frame.stream = s ∧ frame.kind ≠ .info) →
      ofStream s (frame :: frames) = ofStream s frames) :
    let side : Side := { t.side .far with
      received := (t.side .far).received ++ [frame]
      detached := (t.side .far).detached ++ [⟨frame.stream, .close, []⟩] }
    let t' := (t.set Party.far.other { t.side Party.far.other with
      wire := frames.flatMap encodeFrame }).set .far side
    t'.Linked ∧ ∀ s, t'.pair s = t.pair s ∨
      frame.stream = s ∧ Pair.Step s (t.pair s) true (t'.pair s) := by
  intro side t'
  have hclosed : side.closed = (t.side .far).closed := rfl
  refine ⟨h.take hframes rfl rfl rfl rfl (fun hp => by cases hp) (fun hp => by cases hp),
    fun s => ?_⟩
  have hpair : t'.pair s = _ := pair_receive hframes rfl rfl hclosed
  have hwire : (t.pair s).wire .near = ofStream s (frame :: frames) :=
    congrArg (ofStream s) hframes
  rw [hpair, show side.streams s = (t.pair s).chan .far from rfl, update_eq_self]
  have hdetached : ofStream s (if Party.far = Party.far then side else t.side .far).detached =
      (t.pair s).detached ++ ofStream s [⟨frame.stream, .close, []⟩] := ofStream_append ..
  rw [hdetached]
  by_cases hs : frame.stream = s
  · subst hs
    have hcons : ofStream frame.stream (frame :: frames) =
        frame :: ofStream frame.stream frames :=
      filter_cons_of_pos (by simp [hkind])
    have hclose : ofStream frame.stream [⟨frame.stream, .close, []⟩] =
        [⟨frame.stream, .close, []⟩] := by simp [ofStream]
    rw [hclose]
    exact .inr ⟨rfl, .refuses (hwire.trans hcons) hkind⟩
  · have hclose : ofStream s [⟨frame.stream, .close, []⟩] = [] := by simp [ofStream, hs]
    rw [hclose, append_nil, ← hskip s fun h => hs h.1]
    refine .inl (Pair.ext rfl rfl ?_ rfl)
    exact (congrArg (update (t.pair s).wire .near) hwire.symm).trans
      (update_eq_self ..)

variable {connects : Bool} {info : List UInt8}

theorem Linked.receive (h : t.Linked) (hsound : ∀ s, (t.pair s).Sound)
    (hstep : t.receive p connects info = some t') :
    t'.Linked ∧ ∀ s, t.Moved (.receive p connects info) t' s := by
  rw [System.receive] at hstep
  split_ifs at hstep with hreading
  rcases h.readFrame_cases p with ⟨-, hnone⟩ | ⟨frame, frames, hframes, hmem, hread⟩
  · rw [hnone] at hstep
    cases hstep
  rcases hread with ⟨hlong, e, herror⟩ | ⟨-, hok⟩
  · -- A frame that is too long ends the link.
    rw [herror] at hstep
    cases hstep
    obtain ⟨hlinked, hpairs⟩ := h.ends p (.inr rfl)
    refine ⟨hlinked, fun s => .inr ⟨true, hpairs s, fun _ => .inr (.inr fun hfit => ?_)⟩⟩
    exact absurd (hfit.fits p.other frame (mem_append_left _ hmem)) (not_le.mpr hlong)
  rw [hok] at hstep
  have hin : frame ∈ t.underWay p.other := hframes ▸ mem_cons_self ..
  let side : Side := { t.side p with received := (t.side p).received ++ [frame] }
  have hmoved : ∀ {t' : System}, (t'.Linked ∧ ∀ s, t'.pair s = t.pair s ∨
      Pair.Step s (t.pair s) false (t'.pair s)) →
      t'.Linked ∧ ∀ s, t.Moved (.receive p connects info) t' s := by
    rintro t' ⟨hlinked, hpairs⟩
    refine ⟨hlinked, fun s => (hpairs s).imp id fun hs => ⟨false, hs, fun h => ?_⟩⟩
    cases h
  have hnotLink : frame.kind ≠ .info → frame.stream ≠ LINK_STREAM :=
    h.stream_ne_link (hsound _) hin
  cases p with
  | near =>
    cases hstep
    obtain ⟨hsent, hreceived, hwire, hclosed, hdetached, -⟩ := side.dispatch_rest frame
    have hnear : (side.dispatch frame).detached = [] := hdetached.trans h.detached
    have hother : ((t.set Party.near.other { t.side Party.near.other with
        wire := frames.flatMap encodeFrame }).side .near) = t.side .near := by
      rfl
    have := h.receive_dispatch (p := .near) hframes (fun hp => by cases hp) hsent hwire hreceived
      hclosed (fun s => by rw [hdetached]) (fun _ => hnear) (side.dispatch_streams frame)
    rw [hother]
    exact hmoved this
  | far =>
    cases hstep
    have hother : ((t.set Party.far.other { t.side Party.far.other with
        wire := frames.flatMap encodeFrame }).side .far) = t.side .far := by
      rfl
    rw [hother]
    have hopenNot : ∀ s, ¬ (frame.stream = s ∧ frame.kind ≠ .info) →
        ofStream s (frame :: frames) = ofStream s frames := fun s hs =>
      filter_cons_of_neg (by simpa using hs)
    have hkeep : (frame.kind = .info ∨ frame.kind = .open) → ∀ s, side.streams s =
        if s = frame.stream then ((t.side .far).streams s).map (Channel.dispatch frame)
        else (t.side .far).streams s := by
      intro hkind s
      rw [show Channel.dispatch frame = id from funext fun c => c.dispatch_info hkind,
        Option.map_id_fun, id, ite_self]
    rcases side.serve_cases frame connects info with
      ⟨hkind, ⟨hserve, hdone⟩ | ⟨hconnects, hserve⟩ | ⟨hconnects, hserve⟩⟩ |
      ⟨hkind, hserve | hserve⟩ | ⟨hkind, hkind', hserve⟩
    · rw [hserve]
      have hon : (t.side .far).onLink frame.stream :=
        hdone.resolve_left (hnotLink (by rw [hkind]; decide))
      exact hmoved (h.receive_dispatch hframes (fun _ _ => hon) rfl rfl rfl rfl (fun _ => rfl)
        (fun hp => by cases hp) (hkeep (.inr hkind)))
    · rw [hserve]
      exact hmoved (h.receive_open hframes hkind hopenNot)
    · rw [hserve]
      obtain ⟨hlinked, hpairs⟩ := h.receive_refused hframes hkind hopenNot
      refine ⟨hlinked, fun s => (hpairs s).imp id fun hs => ⟨true, hs.2, fun _ => ?_⟩⟩
      exact .inl ⟨frame, arriving_eq hok, .inl ⟨hkind, hs.1, hconnects⟩⟩
    · rw [hserve]
      exact hmoved (h.receive_dispatch hframes (fun _ hopen => by rw [hkind] at hopen; cases hopen)
        rfl rfl rfl rfl (fun _ => rfl) (fun hp => by cases hp) (hkeep (.inl hkind)))
    · rw [hserve]
      refine hmoved (h.receive_dispatch hframes (fun _ hopen => by rw [hkind] at hopen; cases hopen)
        rfl rfl rfl rfl (fun s => ?_) (fun hp => by cases hp) (hkeep (.inl hkind)))
      rw [ofStream_append]
      simp [ofStream, side]
    · rw [hserve]
      obtain ⟨hsent, hreceived, hwire, hclosed, hdetached, -⟩ := side.dispatch_rest frame
      exact hmoved (h.receive_dispatch hframes (fun _ hopen => absurd hopen hkind) hsent hwire
        hreceived hclosed (fun s => by rw [hdetached]) (fun hp => by cases hp)
        (side.dispatch_streams frame))

/-! ### Every step -/

variable {s : UInt32} {side' : Side}

theorem socket_eq_some {f : Channel → Option Channel} (h : side.socket s f = some side') :
    ∃ c c', side.streams s = some c ∧ f c = some c' ∧ side' = (side.put s c').write [] := by
  simp only [Side.socket, Option.bind_eq_bind, Option.bind_eq_some_iff, Option.pure_def,
    Option.some.injEq] at h
  obtain ⟨c, hc, c', hc', rfl⟩ := h
  exact ⟨c, c', hc, hc', by simp [Side.write]⟩

variable {late : Bool}

theorem pump_eq_some {f : UInt32 → Bool → Channel → Option (Channel × List Frame)}
    (h : side.pump s late f = some side') :
    ∃ c c' frames, side.streams s = some c ∧ f s (side.alive late c) c = some (c', frames) ∧
      side' = (side.put s c').write frames := by
  simp only [Side.pump, Option.bind_eq_bind, Option.bind_eq_some_iff, Option.pure_def,
    Option.some.injEq] at h
  obtain ⟨c, hc, ⟨c', frames⟩, hc', rfl⟩ := h
  exact ⟨c, c', frames, hc, hc', rfl⟩

theorem alive_cases (side : Side) (late : Bool) (c : Channel) :
    side.alive late c = !side.closed ∨ side.alive late c = true ∧ c.peer = .holding := by
  rw [Side.alive]
  cases side.closed
  · exact .inl rfl
  · by_cases hpeer : c.peer = .holding
    · cases late <;> simp [hpeer]
    · simp [hpeer]

variable {c : Channel} {c' : Channel} {fails : Bool}

/-- A move of a channel, as a step. -/
theorem Linked.moved (h : t.Linked) (hsound : ∀ s, (t.pair s).Sound)
    (hc : (t.side p).streams s = some c)
    (hmoves : Channel.Moves s (!(t.side p).closed) fails c c' frames)
    (hfails : fails = true → t.Fails s a ∨ ¬ (t.pair s).Whole) :
    (t.set p (((t.side p).put s c').write frames)).Linked ∧
      ∀ s', t.Moved a (t.set p (((t.side p).put s c').write frames)) s' := by
  obtain ⟨hlinked, hpairs⟩ := h.moves (hsound s) hc hmoves
  refine ⟨hlinked, fun s' => (hpairs s').imp id ?_⟩
  rintro ⟨rfl, hstep⟩
  exact ⟨fails, hstep, fun hf => (hfails hf).imp id .inl⟩

theorem Linked.open (h : t.Linked) (hstep : t.openStream late = some t') :
    t'.Linked ∧ ∀ s, t.Moved a t' s := by
  rw [openStream] at hstep
  split_ifs at hstep with hcan
  rw [not_or] at hcan
  cases hstep
  have hnew : (t.side .near).streams t.nextStream = none := h.fresh _ le_rfl
  have hbound := t.nextStream.toNat_lt
  have hsucc : (t.nextStream + 1).toNat = t.nextStream.toNat + 1 := by
    rw [UInt32.toNat_add]
    exact Nat.mod_eq_of_lt (by have := hcan.2; simp only [UInt32.toNat_one]; omega)
  let side := (t.side .near).put t.nextStream { peer := .opening }
  have hother : ∀ s : UInt32, s ≠ t.nextStream → side.streams s = (t.side .near).streams s :=
    fun s hs => update_of_ne hs ..
  let t₁ : System := { t with nextStream := t.nextStream + 1 }
  have h₁ : t₁.Linked := { h with
    fresh := fun s hs => h.fresh s (by
      have hs : (t.nextStream + 1).toNat ≤ s.toNat := hs
      omega)
    positive := by
      show 0 < (t.nextStream + 1).toNat
      omega }
  have hsent : side.sent = (t₁.side .near).sent ++ [] := (append_nil _).symm
  have hwire : side.wire = (t₁.side .near).wire ++ ([] : List Frame).flatMap encodeFrame :=
    (append_nil _).symm
  constructor
  · refine h₁.send .near hsent hwire rfl (by simp) (fun _ => h.detached) (fun _ s hs => ?_) fun _ => ?_
    · have hs : (t.nextStream + 1).toNat ≤ s.toNat := hs
      rw [hother s fun heq => by rw [heq] at hs; omega]
      exact h.fresh s (by omega)
    · rw [hother _ fun heq => by have := h.positive; rw [← heq] at this; cases this]
      exact h.link
  · intro s
    have hpair : (t₁.set .near side).pair s = _ := h₁.pair_quiet .near rfl rfl rfl
    have halive : update (t₁.pair s).alive .near (!side.closed) = (t.pair s).alive :=
      update_eq_self ..
    rw [Moved, show ({ t.set .near side with nextStream := t.nextStream + 1 } : System).pair s = _
      from hpair, halive]
    by_cases hs : s = t.nextStream
    · subst hs
      rw [show side.streams t.nextStream = some { peer := .opening } from update_self ..]
      have hstep : Pair.Step t.nextStream (t.pair t.nextStream) false _ := .opens hnew
      exact .inr ⟨false, hstep, fun hf => by cases hf⟩
    · rw [hother s hs]
      exact .inl (Pair.ext rfl (update_eq_self ..) rfl rfl)

/-- A thread of its own sends. -/
theorem Linked.reply (h : t.Linked) {index : ℕ} (hstep : t.reply p index late = some t') :
    t'.Linked ∧ ∀ s, t.Moved (.reply p index late) t' s := by
  simp only [System.reply, Option.bind_eq_bind, Option.bind_eq_some_iff, Option.pure_def] at hstep
  obtain ⟨frame, hframe, hstep⟩ := hstep
  cases p with
  | near =>
    rw [h.detached] at hframe
    cases hframe
  | far =>
  obtain ⟨hlt, hget⟩ := List.getElem?_eq_some_iff.mp hframe
  let before := (t.side .far).detached.take index
  let after := (t.side .far).detached.drop (index + 1)
  have hsplit : (t.side .far).detached = before ++ frame :: after := by
    rw [← hget, cons_getElem_drop_succ, take_append_drop]
  have herase : (t.side .far).detached.eraseIdx index = before ++ after :=
    eraseIdx_eq_take_drop_succ ..
  obtain ⟨frames, hframes, hvalid, rfl⟩ : ∃ frames, (frames = [] ∨ frames = [frame]) ∧
      (∀ f ∈ frames, f.Valid) ∧ t' = t.set .far
        (({ t.side .far with detached := before ++ after } : Side).write frames) := by
    rw [herase] at hstep
    split_ifs at hstep with hcan
    · exact ⟨[frame], .inr rfl, by simpa [Frame.Valid] using hcan.2, (Option.some.inj hstep).symm⟩
    · refine ⟨[], .inl rfl, by simp, ?_⟩
      rw [← Option.some.inj hstep]
      simp [Side.write]
  let side := ({ t.side .far with detached := before ++ after } : Side).write frames
  have hsent : side.sent = (t.side .far).sent ++ frames := rfl
  obtain ⟨hself, hback⟩ := h.underWay_send .far hsent rfl
  refine ⟨h.send .far hsent rfl rfl hvalid (fun hp => by cases hp) (fun hp => by cases hp)
    (fun hp => by cases hp), fun s => ?_⟩
  have hdetached : (t.pair s).detached = ofStream s (before ++ frame :: after) :=
    congrArg (ofStream s) hsplit
  rw [Moved, show (t.set .far side).pair s = _ from pair_set_eq rfl rfl
    (by rw [hself, ofStream_append]) (by rw [hback]) rfl]
  have halive : update (t.pair s).alive .far (!side.closed) = (t.pair s).alive :=
    update_eq_self ..
  have hchan : update (t.pair s).chan .far (side.streams s) = (t.pair s).chan :=
    update_eq_self ..
  have hnear : update (update (t.pair s).wire .far
      (ofStream s (t.underWay .far) ++ ofStream s frames)) Party.far.other
      (ofStream s (t.underWay Party.far.other)) = update (t.pair s).wire .far
      (ofStream s (t.underWay .far) ++ ofStream s frames) := by
    refine funext fun q => ?_
    cases q <;> rfl
  rw [halive, hchan, hnear]
  by_cases hmine : frame.stream = s ∧ frame.kind ≠ .info
  · have hcons : ofStream s (frame :: after) = frame :: ofStream s after :=
      filter_cons_of_pos (by simpa using hmine)
    have hframes' : ofStream s frames = [] ∨ ofStream s frames = [frame] := by
      rcases hframes with rfl | rfl
      · exact .inl rfl
      · exact .inr (filter_cons_of_pos (by simpa using hmine))
    rw [ofStream_append, hcons] at hdetached
    have hafter : ofStream s ((t.set .far side).side .far).detached =
        ofStream s before ++ ofStream s after := ofStream_append ..
    rw [hafter]
    have hstep : Pair.Step s (t.pair s) true _ := .replies hdetached _ hframes'
    refine .inr ⟨true, hstep, fun _ => .inr (.inl fun hwhole => ?_)⟩
    rw [hwhole.detached] at hdetached
    simp at hdetached
  · have hskip : ofStream s (frame :: after) = ofStream s after :=
      filter_cons_of_neg (by simpa using hmine)
    have hnil : ofStream s frames = [] := ofStream_eq_nil fun f hf => by
      rcases hframes with rfl | rfl
      · cases hf
      · rwa [mem_singleton.mp hf]
    have hafter : ofStream s ((t.set .far side).side .far).detached = (t.pair s).detached := by
      rw [hdetached, ofStream_append, hskip]
      exact ofStream_append ..
    rw [hafter, hnil, append_nil]
    exact .inl (Pair.ext rfl rfl (update_eq_self ..) rfl)

/-- What is asked on the link concerns no stream. -/
theorem Linked.query (h : t.Linked) :
    (t.set .near ((t.side .near).write [⟨LINK_STREAM, .info, []⟩])).Linked ∧
      ∀ s, t.Moved a (t.set .near ((t.side .near).write [⟨LINK_STREAM, .info, []⟩])) s := by
  let side := (t.side .near).write [⟨LINK_STREAM, .info, []⟩]
  have hsent : side.sent = (t.side .near).sent ++ [⟨LINK_STREAM, .info, []⟩] := rfl
  obtain ⟨hself, hback⟩ := h.underWay_send .near hsent rfl
  refine ⟨h.send .near hsent rfl rfl (by simp [Frame.Valid]) (fun _ => h.detached)
    (fun _ => h.fresh) (fun _ => h.link), fun s => .inl ?_⟩
  have hnil : ofStream s [⟨LINK_STREAM, .info, []⟩] = [] := by simp [ofStream]
  rw [show (t.set .near side).pair s = _ from pair_set_eq rfl rfl
    (by rw [hself, ofStream_append, hnil, append_nil]) (by rw [hback]) rfl]
  refine Pair.ext (update_eq_self ..) (update_eq_self ..) ?_ rfl
  refine funext fun q => ?_
  cases q <;> rfl

/-- **Every step** keeps the link, and is a step of each stream or none. -/
theorem Linked.step (h : t.Linked) (hsound : ∀ s, (t.pair s).Sound) (hstep : t.Next a t') :
    t'.Linked ∧ ∀ s, t.Moved a t' s := by
  cases a with
  | «open» late => exact h.open hstep
  | sendOpen stream late =>
    have hstep : t.sendOpen stream late = some t' := hstep
    simp only [System.sendOpen, Option.bind_eq_bind, Option.bind_eq_some_iff] at hstep
    obtain ⟨c, hc, hstep⟩ := hstep
    split_ifs at hstep with hpeer hlive
    · have hpeer : c.peer = .opening := not_not.mp hpeer
      cases hstep
      exact h.moved hsound hc (.hand hpeer) fun hf => by cases hf
    · have hpeer : c.peer = .opening := not_not.mp hpeer
      have hclosed : (!(t.side .near).closed) = false := by
        rw [Bool.or_eq_true, not_or] at hlive
        simpa using hlive.1
      obtain rfl : t' = t.set .near (((t.side .near).put stream
          { c.remove with peer := .refused }).write []) := by
        rw [← Option.some.inj hstep]
        simp [Side.write]
      refine h.moved hsound hc (.refuse hpeer hclosed) fun _ => .inr fun hwhole => ?_
      exact absurd ((hwhole.alive .near).symm.trans hclosed) (by decide)
  | read p stream result =>
    obtain ⟨side, hside, rfl⟩ := Option.map_eq_some_iff.mp hstep
    obtain ⟨c, c', hc, hread, rfl⟩ := socket_eq_some hside
    refine h.moved hsound hc (.read result hread) fun hf => .inl ?_
    obtain rfl : result = .error := by simpa using hf
    rfl
  | write p stream result =>
    obtain ⟨side, hside, rfl⟩ := Option.map_eq_some_iff.mp hstep
    obtain ⟨c, c', hc, hwrite, rfl⟩ := socket_eq_some hside
    refine h.moved hsound hc (.write result hwrite) fun hf => .inl ?_
    cases result with
    | ok => simp at hf
    | error count => rfl
  | outbound p stream late =>
    obtain ⟨side, hside, rfl⟩ := Option.map_eq_some_iff.mp hstep
    obtain ⟨c, c', frames, hc, hpump, rfl⟩ := pump_eq_some hside
    exact h.moved hsound hc (.outbound _ (alive_cases ..) hpump) fun hf => by cases hf
  | inbound p stream late =>
    obtain ⟨side, hside, rfl⟩ := Option.map_eq_some_iff.mp hstep
    obtain ⟨c, c', frames, hc, hpump, rfl⟩ := pump_eq_some hside
    exact h.moved hsound hc (.inbound _ (alive_cases ..) hpump) fun hf => by cases hf
  | receive p connects info => exact h.receive hsound hstep
  | reply p index late => exact h.reply hstep
  | queryInfo late =>
    have hstep : (if (t.side .near).closed ∧ ¬ late then none
      else some (t.set .near ((t.side .near).write [⟨LINK_STREAM, .info, []⟩]))) = some t' := hstep
    split_ifs at hstep
    exact Option.some.inj hstep ▸ h.query
  | breakLink p =>
    cases hstep
    refine ⟨h.quiet p rfl rfl rfl rfl fun s hs => hs, fun s => .inr ⟨true, ?_, fun _ => .inl trivial⟩⟩
    let side : Side := { t.side p with closed := true }
    have hpair : (t.set p side).pair s = _ := h.pair_quiet p rfl rfl rfl
    have hchan : update (t.pair s).chan p (side.streams s) = (t.pair s).chan :=
      update_eq_self ..
    show Pair.Step s _ _ ((t.set p side).pair s)
    rw [hpair, hchan]
    exact .breaks p
  | linkEnds p =>
    cases hstep
    obtain ⟨hlinked, hpairs⟩ := h.ends p (.inr rfl)
    exact ⟨hlinked, fun s => .inr ⟨true, hpairs s, fun _ => .inl trivial⟩⟩
  | drop =>
    cases hstep
    obtain ⟨hlinked, hpairs⟩ := h.ends .near (.inl rfl)
    exact ⟨hlinked, fun s => .inr ⟨true, hpairs s, fun _ => .inl trivial⟩⟩

/-! ### Steps on which nothing fails -/

theorem Fit.set (h : t.Fit) (p : Party) (hreading : side.reading = true)
    (hfits : ∀ f ∈ side.sent ++ side.detached, f.payload.length ≤ MAX_FRAME) :
    (t.set p side).Fit := by
  constructor
  · intro q
    rcases party_cases p q with rfl | rfl
    · rwa [side_set_self]
    · rw [side_set_other]
      exact h.reading _
  · intro q
    rcases party_cases p q with rfl | rfl
    · rwa [side_set_self]
    · rw [side_set_other]
      exact h.fits _

/-- A side that sends frames which fit. -/
theorem Fit.send (h : t.Fit) (p : Party) (hframes : ∀ f ∈ frames, f.payload.length ≤ MAX_FRAME) :
    (t.set p (((t.side p).put s c).write frames)).Fit := by
  refine h.set p (h.reading p) fun f hf => ?_
  have hf : f ∈ (t.side p).sent ++ frames ++ (t.side p).detached := hf
  rcases mem_append.mp hf with hf | hf
  · rcases mem_append.mp hf with hf | hf
    · exact h.fits p f (mem_append_left _ hf)
    · exact hframes f hf
  · exact h.fits p f (mem_append_right _ hf)

theorem Fit.moves (h : t.Fit) (hsound : (t.pair s).Sound) (hc : (t.side p).streams s = some c)
    (hmoves : Channel.Moves s (!(t.side p).closed) fails c c' frames) :
    (t.set p (((t.side p).put s c').write frames)).Fit := by
  have hheld : c.held ≤ WINDOW := by
    have hwindow := (hsound.flow p).window
    have hc' : (t.pair s).chan p = some c := hc
    rw [Pair.channel_of_some hc'] at hwindow
    omega
  exact h.send p fun f hf => (hmoves.sent_of_stream hheld f hf).2.2.trans (by decide)

theorem Fit.receive (h : t.Fit) (hlinked : t.Linked)
    (hfails : ¬ t.Fails stream (.receive p connects info))
    (hstep : t.receive p connects info = some t') : t'.Fit := by
  rw [System.receive] at hstep
  split_ifs at hstep with hreading
  rcases hlinked.readFrame_cases p with ⟨-, hnone⟩ | ⟨frame, frames, hframes, hmem, hread⟩
  · rw [hnone] at hstep
    cases hstep
  rcases hread with ⟨hlong, -⟩ | ⟨-, hok⟩
  · exact absurd (h.fits p.other frame (mem_append_left _ hmem)) (not_le.mpr hlong)
  rw [hok] at hstep
  have hother : (t.set p.other { t.side p.other with
      wire := frames.flatMap encodeFrame }).Fit := h.set p.other (h.reading _) (h.fits _)
  have hsame : (t.set p.other { t.side p.other with
      wire := frames.flatMap encodeFrame }).side p = t.side p := by
    have := side_set_other t p.other { t.side p.other with wire := frames.flatMap encodeFrame }
    rwa [Party.other_other] at this
  dsimp only at hstep
  rw [hsame] at hstep
  let side : Side := { t.side p with received := (t.side p).received ++ [frame] }
  have hdispatch : ∀ f ∈ (side.dispatch frame).sent ++ (side.dispatch frame).detached,
      f.payload.length ≤ MAX_FRAME := by
    obtain ⟨hsent, -, -, -, hdetached, -⟩ := side.dispatch_rest frame
    rw [hsent, hdetached]
    exact h.fits p
  have hreads : (side.dispatch frame).reading = true :=
    (side.dispatch_rest frame).2.2.2.2.2.trans (h.reading p)
  have hmore : ∀ f : Frame, f.payload.length ≤ MAX_FRAME →
      ∀ g ∈ side.sent ++ (side.detached ++ [f]), g.payload.length ≤ MAX_FRAME := by
    intro f hf g hg
    rw [← append_assoc] at hg
    rcases mem_append.mp hg with hg | hg
    · exact h.fits p g hg
    · rwa [mem_singleton.mp hg]
  cases p with
  | near =>
    cases hstep
    exact hother.set .near hreads hdispatch
  | far =>
    cases hstep
    rcases side.serve_cases frame connects info with
      ⟨-, ⟨hserve, -⟩ | ⟨-, hserve⟩ | ⟨-, hserve⟩⟩ | ⟨hkind, hserve | hserve⟩ | ⟨-, -, hserve⟩ <;>
      rw [hserve]
    · exact hother.set .far (h.reading _) (h.fits _)
    · exact hother.set .far (h.reading _) (h.fits _)
    · exact hother.set .far (h.reading _) (hmore _ (Nat.zero_le _))
    · exact hother.set .far (h.reading _) (h.fits _)
    · refine hother.set .far (h.reading _) (hmore _ (not_lt.mp fun hlong => hfails ?_))
      exact ⟨frame, arriving_eq hok, .inr ⟨hkind, hlong⟩⟩
    · exact hother.set .far hreads hdispatch

theorem Fit.step (h : t.Fit) (hlinked : t.Linked) (hsound : ∀ s, (t.pair s).Sound)
    (hfails : ¬ t.Fails stream a) (hstep : t.Next a t') : t'.Fit := by
  cases a with
  | «open» late =>
    have hstep : t.openStream late = some t' := hstep
    rw [openStream] at hstep
    split_ifs at hstep
    cases hstep
    let side := (t.side .near).put t.nextStream { peer := .opening }
    have hset : (t.set .near side).Fit := h.set .near (h.reading .near) (h.fits .near)
    exact ⟨hset.reading, hset.fits⟩
  | sendOpen s late =>
    have hstep : t.sendOpen s late = some t' := hstep
    simp only [System.sendOpen, Option.bind_eq_bind, Option.bind_eq_some_iff] at hstep
    obtain ⟨c, hc, hstep⟩ := hstep
    split_ifs at hstep
    · cases hstep
      exact h.send .near (by simp)
    · cases hstep
      exact h.set .near (h.reading .near) (h.fits .near)
  | read p s result =>
    obtain ⟨side, hside, rfl⟩ := Option.map_eq_some_iff.mp hstep
    obtain ⟨c, c', hc, hread, rfl⟩ := socket_eq_some hside
    exact h.moves (hsound s) hc (.read result hread)
  | write p s result =>
    obtain ⟨side, hside, rfl⟩ := Option.map_eq_some_iff.mp hstep
    obtain ⟨c, c', hc, hwrite, rfl⟩ := socket_eq_some hside
    exact h.moves (hsound s) hc (.write result hwrite)
  | outbound p s late =>
    obtain ⟨side, hside, rfl⟩ := Option.map_eq_some_iff.mp hstep
    obtain ⟨c, c', frames, hc, hpump, rfl⟩ := pump_eq_some hside
    exact h.moves (hsound s) hc (.outbound _ (alive_cases ..) hpump)
  | inbound p s late =>
    obtain ⟨side, hside, rfl⟩ := Option.map_eq_some_iff.mp hstep
    obtain ⟨c, c', frames, hc, hpump, rfl⟩ := pump_eq_some hside
    exact h.moves (hsound s) hc (.inbound _ (alive_cases ..) hpump)
  | receive p connects info =>
    exact h.receive hlinked hfails hstep
  | reply p index late =>
    have hstep : t.reply p index late = some t' := hstep
    simp only [System.reply, Option.bind_eq_bind, Option.bind_eq_some_iff, Option.pure_def] at hstep
    obtain ⟨frame, hframe, hstep⟩ := hstep
    have hframe := mem_of_getElem? hframe
    have hrest : ∀ f ∈ (t.side p).detached.eraseIdx index, f ∈ (t.side p).detached :=
      fun f hf => (eraseIdx_sublist ..).subset hf
    split_ifs at hstep
    · cases hstep
      refine h.set p (h.reading p) fun f hf => ?_
      have hf : f ∈ (t.side p).sent ++ [frame] ++ (t.side p).detached.eraseIdx index := hf
      rcases mem_append.mp hf with hf | hf
      · rcases mem_append.mp hf with hf | hf
        · exact h.fits p f (mem_append_left _ hf)
        · rw [mem_singleton.mp hf]
          exact h.fits p frame (mem_append_right _ hframe)
      · exact h.fits p f (mem_append_right _ (hrest f hf))
    · cases hstep
      refine h.set p (h.reading p) fun f hf => ?_
      rcases mem_append.mp hf with hf | hf
      · exact h.fits p f (mem_append_left _ hf)
      · exact h.fits p f (mem_append_right _ (hrest f hf))
  | queryInfo late =>
    have hstep : (if (t.side .near).closed ∧ ¬ late then none
      else some (t.set .near ((t.side .near).write [⟨LINK_STREAM, .info, []⟩]))) = some t' := hstep
    split_ifs at hstep
    cases hstep
    refine h.set .near (h.reading .near) fun f hf => ?_
    have hf : f ∈ (t.side .near).sent ++ [⟨LINK_STREAM, .info, []⟩] ++ (t.side .near).detached := hf
    rcases mem_append.mp hf with hf | hf
    · rcases mem_append.mp hf with hf | hf
      · exact h.fits .near f (mem_append_left _ hf)
      · rw [mem_singleton.mp hf]
        exact Nat.zero_le _
    · exact h.fits .near f (mem_append_right _ hf)
  | breakLink p => exact absurd trivial hfails
  | linkEnds p => exact absurd trivial hfails
  | drop => exact absurd trivial hfails

end System

end Zetta.Zmux
