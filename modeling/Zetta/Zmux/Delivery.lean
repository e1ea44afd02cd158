import Zetta.Zmux.Streams

/-!
# What a bridge delivers

Of every run of the bridge, for every stream and both directions, whatever else happens on the
link (`System.streams_of_run`):

* the readers get the frames that were sent, on the streams that they were sent on;
* what was written to the receiving socket is the first part of what was read from the sending
  one, and its end is passed on after all of it;
* no more than the window is sent and not written.

As long as nothing fails that matters to the stream (`System.Fails`: its local sockets, its own
connection at the far side, the link), it is not reset, whichever of its directions has ended
and whatever becomes of the other streams; credit, data and credit under way are the window; and
when readers and pumps have nothing left to do all that was read is written, and an end that was
read is passed on.
-/

namespace Zetta.Zmux

def Token.byte? : Token → Option UInt8
  | .byte b => some b
  | .eof => none

/-- The bytes among the tokens. -/
def bytesOf (l : List Token) : List UInt8 := l.filterMap Token.byte?

namespace System

/-- The bytes read from the local socket of a stream. -/
def read (t : System) (p : Party) (s : UInt32) : List UInt8 := bytesOf ((t.pair s).channel p).input

/-- The bytes written to the local socket of a stream. -/
def written (t : System) (p : Party) (s : UInt32) : List UInt8 :=
  bytesOf ((t.pair s).channel p).output

/-- The end of the local socket was read. -/
def readEnd (t : System) (p : Party) (s : UInt32) : Prop :=
  Token.eof ∈ ((t.pair s).channel p).input

/-- The local socket was half closed, as its peer asked. -/
def halfClosed (t : System) (p : Party) (s : UInt32) : Prop :=
  Token.eof ∈ ((t.pair s).channel p).output

instance (t : System) (p : Party) (s : UInt32) : Decidable (t.halfClosed p s) :=
  inferInstanceAs (Decidable (Token.eof ∈ _))

/-- The data from a side that was sent and is not yet written. -/
def unwritten (t : System) (p : Party) (s : UInt32) : ℕ :=
  wireSize ((t.pair s).wire p) + ((t.pair s).channel p.other).unwritten

/-- The data from a side for which it has used its credit, and gets none back yet. -/
def unacknowledged (t : System) (p : Party) (s : UInt32) : ℕ :=
  ((t.pair s).channel p).held + t.unwritten p s + ((t.pair s).channel p.other).uncredited

/-- The credit on its way to a side. -/
def creditUnderWay (t : System) (p : Party) (s : UInt32) : ℕ :=
  wireCredit ((t.pair s).wire p.other)

/-- Neither reader can go on, and no pump of the stream. -/
def Idle (t : System) (s : UInt32) : Prop :=
  ∀ p, (∀ connects info, t.step (.receive p connects info) = none) ∧
    (∀ late, t.step (.outbound p s late) = none) ∧
    (∀ late, t.step (.inbound p s late) = none) ∧ t.step (.write p s .ok) = none

/-- Neither end of the stream was reset. -/
def Unbroken (t : System) (s : UInt32) : Prop :=
  ∀ p c, (t.side p).streams s = some c → c.closed = false

variable {t t' : System} {ops : List Action} {a : Action} {p : Party} {s : UInt32}

theorem initial_linked : ({} : System).Linked where
  received := fun _ => List.prefix_rfl
  wire := fun _ => rfl
  valid := fun _ _ hf => by cases hf
  detached := rfl
  fresh := fun _ _ => rfl
  link := rfl
  positive := by decide

theorem initial_sound (s : UInt32) : (({} : System).pair s).Sound where
  absent := fun _ => ⟨rfl, rfl, rfl, rfl⟩
  opening := fun _ hc => by cases hc
  connecting := fun _ hc => by cases hc
  connected := fun hc => by cases hc
  held := fun _ hc => by cases hc
  back := fun _ hg => by cases hg
  replies := fun _ hg => by cases hg
  flow := fun _ => {
    ended := ⟨[], .inl rfl⟩
    delivered := List.prefix_rfl
    carries := fun _ => ⟨List.prefix_rfl, fun _ => rfl⟩
    window := le_rfl }

theorem initial_whole (s : UInt32) : (({} : System).pair s).Whole where
  alive := fun _ => rfl
  chan := fun _ _ hc => by cases hc
  noClose := fun _ _ hf => by cases hf
  detached := rfl
  awaited := fun _ => .inl fun _ hc => by cases hc
  exact := fun _ => rfl
  credit := fun _ _ => rfl

/-- What every run keeps. -/
theorem sound_step (h : t.Linked ∧ ∀ s, (t.pair s).Sound) (hstep : t.Next a t') :
    t'.Linked ∧ ∀ s, (t'.pair s).Sound := by
  obtain ⟨hlinked, hmoved⟩ := h.1.step h.2 hstep
  refine ⟨hlinked, fun s => ?_⟩
  rcases hmoved s with hsame | ⟨fails, hpair, -⟩
  · exact hsame ▸ h.2 s
  · exact (h.2 s).step hpair

/-- What every run keeps as long as nothing fails. -/
theorem whole_step (h : (t.Linked ∧ ∀ s, (t.pair s).Sound) ∧ t.Fit ∧ (t.pair s).Whole)
    (hfails : ¬ t.Fails s a) (hstep : t.Next a t') :
    (t'.Linked ∧ ∀ s, (t'.pair s).Sound) ∧ t'.Fit ∧ (t'.pair s).Whole := by
  obtain ⟨hsound, hfit, hwhole⟩ := h
  refine ⟨sound_step hsound hstep, hfit.step hsound.1 hsound.2 hfails hstep, ?_⟩
  rcases (hsound.1.step hsound.2 hstep).2 s with hsame | ⟨fails, hpair, hwhy⟩
  · exact hsame ▸ hwhole
  · obtain rfl : fails = false := by
      by_contra hne
      rcases hwhy (by simpa using hne) with h | h | h
      · exact hfails h
      · exact h hwhole
      · exact h hfit
    exact hwhole.step (hsound.2 s) hpair

theorem sound_of_run (h : Run Next {} ops t) : t.Linked ∧ ∀ s, (t.pair s).Sound :=
  h.invariant (I := fun t => t.Linked ∧ ∀ s, (t.pair s).Sound)
    ⟨initial_linked, initial_sound⟩ fun _ _ _ => sound_step

/-- The steps that do not fail for a stream. -/
def NextUnfailing (s : UInt32) : System → Action → System → Prop :=
  Meeting (fun t a => ¬ t.Fails s a) Next

theorem whole_of_run (h : Run (NextUnfailing s) {} ops t) :
    (t.Linked ∧ ∀ s, (t.pair s).Sound) ∧ t.Fit ∧ (t.pair s).Whole := by
  refine h.invariant
    (I := fun t => (t.Linked ∧ ∀ s, (t.pair s).Sound) ∧ t.Fit ∧ (t.pair s).Whole) ?_ ?_
  · refine ⟨⟨initial_linked, initial_sound⟩, ⟨fun _ => rfl, fun _ _ hf => by cases hf⟩,
      initial_whole s⟩
  · exact fun _ _ _ hI hn => whole_step hI hn.1 hn.2

/-! ### When nothing is left to do -/

/-- The links are empty. -/
theorem Idle.underWay (h : t.Idle s) (hlinked : t.Linked) (hfit : t.Fit) (p : Party) :
    t.underWay p = [] := by
  have hreceive := (h p.other).1 true []
  rcases hlinked.readFrame_cases p.other with ⟨hnil, -⟩ | ⟨frame, frames, -, hmem, hread⟩
  · rwa [Party.other_other] at hnil
  · have hshort := hfit.fits _ frame (List.mem_append_left _ hmem)
    rcases hread with ⟨hlong, -⟩ | ⟨-, hok⟩
    · exact absurd hshort (not_le.mpr hlong)
    · rw [step, System.receive, if_pos (hfit.reading _), hok] at hreceive
      cases hp : p.other <;> rw [hp] at hreceive <;> cases hreceive

/-- The inbound pump has written all that it has. -/
theorem Idle.writer (h : t.Idle s) {c : Channel} (hc : (t.side p).streams s = some c) :
    c.writer = .receiving ∧ c.queue = [] ∨ c.writer = .finished := by
  obtain ⟨-, -, hinbound, hwrite⟩ := h p
  have hinbound := hinbound true
  simp only [step, Side.pump, Side.socket, hc, Option.bind_eq_bind, Option.bind_some,
    Option.map_eq_none_iff, Option.bind_eq_none_iff] at hinbound hwrite
  have hpump : c.pumpInbound s ((t.side p).alive true c) = none := by
    cases hx : c.pumpInbound s ((t.side p).alive true c) with
    | none => rfl
    | some x => cases hinbound x hx
  have hsocket : c.writeLocal .ok = none := by
    cases hx : c.writeLocal .ok with
    | none => rfl
    | some x => cases hwrite x hx
  cases hwriter : c.writer with
  | receiving =>
    refine .inl ⟨rfl, ?_⟩
    cases hqueue : c.queue with
    | nil => rfl
    | cons m queue => cases m <;> simp [Channel.pumpInbound, hwriter, hqueue] at hpump
  | writing bytes => simp [Channel.writeLocal, hwriter] at hsocket
  | finished => exact .inr rfl
  | crediting _ => simp [Channel.pumpInbound, hwriter] at hpump
  | sendClose => simp [Channel.pumpInbound, hwriter] at hpump
  | removing => simp [Channel.pumpInbound, hwriter] at hpump
  | returned => simp [Channel.pumpInbound, hwriter] at hpump

/-- The outbound pump has sent all that it has, or has no credit. -/
theorem Idle.outbound (h : t.Idle s) {c : Channel} (hc : (t.side p).streams s = some c) :
    c.outbound = .reading ∨ c.outbound = .finished ∨
      (∃ rest, c.outbound = .sending rest) ∧ c.closed = false ∧ c.available = 0 := by
  have houtbound := (h p).2.1 true
  simp only [step, Side.pump, hc, Option.bind_eq_bind, Option.bind_some,
    Option.map_eq_none_iff, Option.bind_eq_none_iff] at houtbound
  have hpump : c.pumpOutbound s ((t.side p).alive true c) = none := by
    cases hx : c.pumpOutbound s ((t.side p).alive true c) with
    | none => rfl
    | some x => cases houtbound x hx
  cases hout : c.outbound with
  | reading => exact .inl rfl
  | finished => exact .inr (.inl rfl)
  | sending rest =>
    simp only [Channel.pumpOutbound, hout] at hpump
    split_ifs at hpump with hclosed havailable
    exact .inr (.inr ⟨⟨rest, rfl⟩, by simpa using hclosed, by omega⟩)
  | granted _ _ => simp [Channel.pumpOutbound, hout] at hpump
  | sendEof => simp [Channel.pumpOutbound, hout] at hpump
  | sendClose => simp [Channel.pumpOutbound, hout] at hpump
  | resetting => simp [Channel.pumpOutbound, hout] at hpump
  | returned => simp [Channel.pumpOutbound, hout] at hpump

/-- **Drained**: with nothing left to do, what was done is what was read. -/
theorem Idle.output_eq (h : t.Idle s) (hlinked : t.Linked) (hsound : (t.pair s).Sound)
    (hfit : t.Fit) (hwhole : (t.pair s).Whole) (p : Party) :
    ((t.pair s).channel p.other).output = ((t.pair s).channel p).input := by
  let c := (t.pair s).channel p
  let d := (t.pair s).channel p.other
  have hwire : ∀ q, (t.pair s).wire q = [] := fun q => by
    show ofStream s (t.underWay q) = []
    rw [h.underWay hlinked hfit q]
    rfl
  have hwriter : d.content = [] ∧ (d.unwritten + d.uncredited = 0 ∨ .eof ∈ d.output) := by
    cases hd : (t.side p.other).streams s with
    | none =>
      have : d = {} := Pair.channel_of_none hd
      rw [this]
      exact ⟨rfl, .inl rfl⟩
    | some d₀ =>
      obtain rfl : d = d₀ := Pair.channel_of_some hd
      rcases h.writer hd with ⟨hreceiving, hqueue⟩ | hfinished
      · simp [Channel.content, Channel.queued, Channel.unwritten, Channel.uncredited, hreceiving,
          hqueue]
      · refine ⟨by rw [Channel.content, hfinished], .inr ?_⟩
        exact (hwhole.chan _ d hd).stopped (by rw [hfinished]; exact id)
  have hexact : c.input = d.output ++ d.content ++ wireTokens ((t.pair s).wire p) ++ c.hand :=
    hwhole.exact p
  rw [hwriter.1, hwire, wireTokens_nil, List.append_nil, List.append_nil] at hexact
  have hhand : c.hand = [] := by
    cases hc : (t.side p).streams s with
    | none =>
      have : c = {} := Pair.channel_of_none hc
      rw [this]
      rfl
    | some c₀ =>
      obtain rfl : c = c₀ := Pair.channel_of_some hc
      rcases h.outbound hc with hreading | hfinished | ⟨⟨rest, hsending⟩, -, hzero⟩
      · rw [Channel.hand, hreading]
      · rw [Channel.hand, hfinished]
      · -- Out of credit: then some of it would be on its way.
        exfalso
        have hpumps := (hwhole.chan p c hc).pumps
        have hmapped : c.mapped := (hwhole.chan p c hc).mapped.mpr (by
          rw [hpumps, hsending]
          simp [Outbound.count])
        have hcredit : c.available + c.held + wireSize ((t.pair s).wire p) +
            (d.unwritten + d.uncredited) + wireCredit ((t.pair s).wire p.other) = WINDOW :=
          hwhole.credit p hmapped
        have hheld : c.held = 0 := by rw [Channel.held, hsending]
        have hpositive : 0 < WINDOW := by decide
        rw [hwire, hwire, wireSize_nil, wireCredit_nil, hzero, hheld] at hcredit
        rcases hwriter.2 with hnone | heof
        · omega
        · have hended : c.Ended := (hsound.flow p).ended
          refine Channel.not_mem_of_reads hended (by rw [hsending]; trivial) ?_
          rw [hexact]
          exact List.mem_append_left _ heof
  rw [hhand, List.append_nil] at hexact
  exact hexact.symm

/-- **What a bridge delivers.** -/
theorem streams_of_run (h : Run Next {} ops t) (p : Party) (s : UInt32) :
    (t.side p.other).received <+: (t.side p).sent ∧
      t.written p.other s <+: t.read p s ∧
      (t.halfClosed p.other s → t.readEnd p s ∧ t.written p.other s = t.read p s) ∧
      t.unwritten p s ≤ WINDOW ∧
      (Run (NextUnfailing s) {} ops t →
        t.Unbroken s ∧
        ((t.side p).onLink s → ((t.pair s).channel p).available + t.unacknowledged p s +
          t.creditUnderWay p s = WINDOW) ∧
        (t.Idle s → t.written p.other s = t.read p s ∧
          (t.halfClosed p.other s ↔ t.readEnd p s))) := by
  obtain ⟨hlinked, hsound⟩ := sound_of_run h
  have hflow := (hsound s).flow p
  have hstarts : ((t.pair s).channel p.other).output <+: ((t.pair s).channel p).input :=
    (List.prefix_append ..).trans hflow.delivered
  refine ⟨hlinked.received p, hstarts.filterMap _, fun hend => ?_, ?_,
    fun hunfailing => ?_⟩
  · obtain ⟨rest, hrest⟩ := hstarts
    have hlast := hflow.ended.eofLast
    rw [← hrest] at hlast
    rw [hlast.nil_of_mem hend, List.append_nil] at hrest
    rw [readEnd, written, read, ← hrest]
    exact ⟨hend, rfl⟩
  · have hwindow := hflow.window
    rw [unwritten]
    omega
  · obtain ⟨-, hfit, hwhole⟩ := whole_of_run hunfailing
    refine ⟨fun q c hc => (hwhole.chan q c hc).notClosed, fun hon => ?_, fun hidle => ?_⟩
    · obtain ⟨c, hc, hmapped⟩ := Option.any_eq_true _ _ |>.mp hon
      have hcredit := hwhole.credit p (by rw [Pair.channel_of_some hc]; exact hmapped)
      rw [unacknowledged, unwritten, creditUnderWay]
      omega
    · have hsame := hidle.output_eq hlinked (hsound s) hfit hwhole p
      rw [written, read, halfClosed, readEnd, hsame]
      exact ⟨rfl, Iff.rfl⟩

instance (s : UInt32) (t : System) : DecidablePred (t.Fails s)
  | .read _ stream .error | .write _ stream (.error _) => inferInstanceAs (Decidable (stream = s))
  | .receive .far connects info => inferInstanceAs (Decidable (∃ frame ∈ t.arriving,
      frame.kind = .open ∧ frame.stream = s ∧ connects = false ∨
        frame.kind = .info ∧ MAX_FRAME < info.length))
  | .breakLink _ | .linkEnds _ | .drop => .isTrue trivial
  | .open _ | .sendOpen .. | .outbound .. | .inbound .. | .reply .. | .queryInfo _
  | .receive .near .. | .read _ _ (.data _) | .read _ _ .eof | .write _ _ .ok => .isFalse id

/-- Two streams are opened, of which the far side connects the first; on that two bytes go to
the far side, and the near side ends its direction. -/
def deliveringActions : List Action :=
  [.open false, .sendOpen 1 false, .open false, .sendOpen 2 false, .receive .far true [],
    .receive .far false [], .reply .far 0 false, .receive .near true [],
    .read .near 1 (.data [104, 105]), .outbound .near 1 false, .outbound .near 1 false,
    .receive .far true [], .inbound .far 1 false, .write .far 1 .ok, .inbound .far 1 false,
    .receive .near true [], .read .near 1 .eof, .outbound .near 1 false, .receive .far true [],
    .inbound .far 1 false]

theorem streams_of_deliveringActions : ∃ t, Run (NextUnfailing 1) {} deliveringActions t ∧
    t.written .far 1 = [104, 105] ∧ t.written .far 1 = t.read .near 1 ∧ t.Unbroken 1 := by
  obtain ⟨t, hrun, hend, hwritten⟩ := exists_run_of_foldlM deliveringActions
    (f := fun t a => if Fails t 1 a then none else step t a)
    (P := fun t : System => t.halfClosed .far 1 ∧ t.written .far 1 = [104, 105]) (s := {})
    (by decide +kernel)
  have hunfailing : Run (NextUnfailing 1) {} deliveringActions t := hrun.mono fun t a t' h => by
    split_ifs at h with hfails
    exact ⟨hfails, h⟩
  have hstreams := streams_of_run hunfailing.of_meeting .near 1
  exact ⟨t, hunfailing, hwritten, (hstreams.2.2.1 hend).2, (hstreams.2.2.2.2 hunfailing).1⟩

end System

end Zetta.Zmux
