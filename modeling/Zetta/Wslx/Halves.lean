import Zetta.Wslx.Relay

/-!
# The two halves of a connection

Each half of a connection is described by the messages about it that it has sent and read
(`Connection.Follows`, `AgentConnection.Follows`): the requests, the replies and who closed. A step
of a thread keeps the description of its own half, and a message that is sent or read is the next
one of both.
-/

namespace Zetta.Wslx

open List

/-! ### What was read and written -/

/-- What was read of a peer: some agent messages, and what was read since. -/
structure Peer.Read (peer : Peer) (frames : List Bytes) (since : Option Bytes) : Prop where
  framed : ∀ frame ∈ frames, isAgentFrame frame = true
  given : frames.flatten <+: peer.given
  since : ∀ b ∈ since, peer.given.take peer.taken = frames.flatten ++ b
  taken_le : peer.taken ≤ peer.given.length

/-- What was written to a peer: a part of some agent messages, and what is left of it. -/
structure Peer.Written (peer : Peer) (frames : List Bytes) (left : Option Bytes) : Prop where
  received : peer.received <+: frames.flatten
  left : ∀ b ∈ left, peer.received ++ b = frames.flatten

namespace Peer

variable {peer peer' : Peer} {frames : List Bytes} {buffer frame left : Bytes} {since : Option Bytes}

theorem Read.give (h : peer.Read frames since) (bytes : Bytes) :
    (peer.give bytes).Read frames since where
  framed := h.framed
  given := h.given.trans (prefix_append ..)
  since b hb := by
    change (peer.given ++ bytes).take peer.taken = _
    rw [take_append_of_le_length h.taken_le, h.since b hb]
  taken_le := by
    change peer.taken ≤ (peer.given ++ bytes).length
    rw [length_append]
    exact le_trans h.taken_le (Nat.le_add_right ..)

theorem Read.write (h : peer.Read frames since) (left : Bytes) (n : ℕ) :
    (peer.write left n).Read frames since := ⟨h.framed, h.given, h.since, h.taken_le⟩

/-- What was read may be forgotten. -/
theorem Read.forget (h : peer.Read frames since) : peer.Read frames none where
  framed := h.framed
  given := h.given
  since _ hb := by cases hb
  taken_le := h.taken_le

/-- The message that was read last is one of them. -/
theorem Read.snoc (h : peer.Read frames (some frame)) (hframe : isAgentFrame frame = true) :
    peer.Read (frames ++ [frame]) (some []) := by
  have hsince := h.since frame rfl
  refine ⟨fun f hf => ?_, ?_, fun b hb => ?_, h.taken_le⟩
  · rcases mem_append.mp hf with hf | hf
    · exact h.framed f hf
    · rw [mem_singleton.mp hf]
      exact hframe
  · rw [flatten_append, flatten_singleton, ← hsince]
    exact List.take_prefix ..
  · rw [← Option.some.inj hb, append_nil, flatten_append, flatten_singleton, hsince]

/-- What is known after a read. -/
def Knows (peer : Peer) (frames : List Bytes) : FrameRead → Prop
  | .part buffer => peer.Read frames (some buffer)
  | .frame frame => isAgentFrame frame = true ∧ peer.Read frames (some frame)
  | .ended => peer.Read frames none

/-- A read of a part of an agent message. -/
theorem Read.readFrame (h : peer.Read frames (some buffer)) {transfer : Transfer} {r : FrameRead}
    (hread : peer.readFrame buffer transfer = some (peer', r)) :
    peer'.received = peer.received ∧ peer'.Knows frames r := by
  cases transfer with
  | fail =>
    cases hread
    exact ⟨rfl, h.forget⟩
  | some n =>
    rw [Peer.readFrame] at hread
    split_ifs at hread with hn
    obtain ⟨hpos, hwanted, hlength⟩ := hn
    have hchunk : ((peer.given.drop peer.taken).take n).length = n := by
      rw [length_take, length_drop]
      omega
    have hmore : { peer with taken := peer.taken + n }.Read frames
        (some (buffer ++ (peer.given.drop peer.taken).take n)) := by
      refine ⟨h.framed, h.given, fun b hb => ?_, hlength⟩
      rw [← Option.some.inj hb, ← append_assoc, ← h.since buffer rfl]
      exact take_add
    rw [readTo] at hread
    split at hread
    · cases hread
      exact ⟨rfl, hmore⟩
    · next frame hparse =>
      cases hread
      obtain ⟨rfl, hframe⟩ := isAgentFrame_of_parse (by omega) (by omega) hparse
      exact ⟨rfl, hframe, hmore⟩
    · cases hread
      exact ⟨rfl, hmore.forget⟩

theorem Written.forget (h : peer.Written frames since) : peer.Written frames none where
  received := h.received
  left _ hb := by cases hb

/-- Writing goes on where it was. -/
theorem Written.write (h : peer.Written frames (some left)) (n : ℕ) :
    (peer.write left n).Written frames (some (left.drop n)) := by
  have hleft : peer.received ++ left.take n ++ left.drop n = frames.flatten := by
    rw [append_assoc, take_append_drop, h.left left rfl]
  exact ⟨⟨_, hleft⟩, fun b hb => Option.some.inj hb ▸ hleft⟩

/-- The next message is still to be written. -/
theorem Written.snoc (h : peer.Written frames (some [])) (frame : Bytes) :
    peer.Written (frames ++ [frame]) (some frame) := by
  have hreceived := h.left [] rfl
  rw [append_nil] at hreceived
  refine ⟨?_, fun b hb => ?_⟩
  · rw [flatten_append, hreceived]
    exact prefix_append ..
  · rw [← Option.some.inj hb, flatten_append, flatten_singleton, hreceived]

/-- Only what was written counts. -/
theorem Written.congr (h : peer.Written frames since) (hreceived : peer'.received = peer.received) :
    peer'.Written frames since :=
  ⟨hreceived ▸ h.received, fun b hb => hreceived ▸ h.left b hb⟩

end Peer

/-! ### The half of the relay -/

/-- What the thread of a client has read and not sent. -/
def Client.since : Client → Option Bytes
  | unknown | opening | starting | waiting | writing _ => some []
  | reading buffer => some buffer
  | sending request => some request
  | leaving | closing | gone => none

/-- What is left of the replies that it took. -/
def Client.left : Client → Option Bytes
  | unknown | opening | starting | reading _ | sending _ | waiting => some []
  | writing left => some left
  | leaving | closing | gone => none

/-- Whether `Open` was sent. -/
def Client.opened : Client → Bool
  | unknown | opening => false
  | _ => true

/-- Whether there may be an entry. -/
def Client.listed : Client → Bool
  | unknown | closing | gone => false
  | _ => true

/-- What the relay has sent about a connection. -/
inductive Sends (id : UInt32) (requests : List Bytes) : Client → List Message → Prop
  | nothing {client : Client} (hopened : client.opened = false) (hnone : requests = []) :
      Sends id requests client []
  | opened {client : Client} (hopened : client.opened = true) :
      Sends id requests client (.open id :: requests.map (.request id))
  | closed : Sends id requests .gone (.open id :: (requests.map (.request id) ++ [.close id]))

/-- A connection at the relay, which has sent `up` about it and read `down`: the requests that were
sent, and the replies that the thread took. -/
structure Connection.Follows (id : UInt32) (c : Connection) (up down : List Message)
    (requests replies : List Bytes) : Prop where
  read : c.peer.Read requests c.client.since
  sends : Sends id requests c.client up
  sending : ∀ m ∈ c.client.outgoing id, m.Framed
  written : c.peer.Written replies c.client.left
  delivered : (replies ++ c.replies).map (.reply id) <+: down
  entry : c.entry = true → (replies ++ c.replies).map (.reply id) = down ∧ c.client.listed = true

namespace Connection

variable {id : UInt32} {c c' : Connection} {up down : List Message} {requests replies : List Bytes}

theorem follows_unknown (id : UInt32) : unknown.Follows id [] [] [] [] where
  read := ⟨fun _ h => (by cases h), List.nil_prefix, fun b hb => Option.some.inj hb, le_refl _⟩
  sends := .nothing rfl rfl
  sending _ h := by cases h
  written := ⟨List.nil_prefix, fun b hb => Option.some.inj hb ▸ rfl⟩
  delivered := List.nil_prefix
  entry h := by cases h

variable (h : c.Follows id up down requests replies)

include h

/-- What is sent before the connection is open, and while it is. -/
theorem Follows.up_eq (hgone : c.client ≠ .gone) :
    up = if c.client.opened then .open id :: requests.map (.request id) else [] := by
  cases hc : c.client with
  | gone => exact absurd hc hgone
  | _ =>
    have hsends := h.sends
    rw [hc] at hsends
    cases hsends <;> simp_all [Client.opened]

theorem Follows.give (bytes : Bytes) :
    { c with peer := c.peer.give bytes }.Follows id up down requests replies :=
  ⟨h.read.give bytes, h.sends, h.sending, h.written.congr rfl, h.delivered, h.entry⟩

/-- The thread goes on to a phase in which the same was sent. -/
theorem Follows.go (hopened : c.client.opened = true)
    (hgone : c.client ≠ .gone) {peer : Peer} {client : Client} (hopened' : client.opened = true)
    (hlisted : client.listed = true) (hread : peer.Read requests client.since)
    (hsending : ∀ m ∈ client.outgoing id, m.Framed) (hwritten : peer.Written replies client.left) :
    { c with peer := peer, client := client }.Follows id up down requests replies where
  read := hread
  sends := by
    rw [h.up_eq hgone, if_pos hopened]
    exact .opened hopened'
  sending := hsending
  written := hwritten
  delivered := h.delivered
  entry hentry := ⟨(h.entry hentry).1, hlisted⟩

theorem Follows.read_step {transfer : Transfer}
    (hstep : c.read transfer = some c') : c'.Follows id up down requests replies := by
  rw [Connection.read] at hstep
  split at hstep
  · next buffer hclient =>
    rw [Option.map_eq_some_iff] at hstep
    obtain ⟨⟨peer, r⟩, hread, rfl⟩ := hstep
    have hbefore := h.read
    have hwritten := h.written
    rw [hclient] at hbefore hwritten
    obtain ⟨hreceived, hknows⟩ := hbefore.readFrame hread
    have hopened : c.client.opened = true := by rw [hclient]; rfl
    have hgone : c.client ≠ .gone := by simp [hclient]
    cases r with
    | part buffer =>
      exact h.go hopened hgone rfl rfl hknows (fun m hm => by cases hm) (hwritten.congr hreceived)
    | frame request =>
      exact h.go hopened hgone rfl rfl hknows.2 (fun m hm => Option.some.inj hm ▸ hknows.1)
        (hwritten.congr hreceived)
    | ended =>
      exact h.go hopened hgone rfl rfl hknows (fun m hm => by cases hm) (hwritten.congr hreceived).forget
  · cases hstep

theorem Follows.receiveReply
    (hstep : c.receiveReply = some c') :
    ∃ replies, c'.Follows id up down requests replies := by
  rw [Connection.receiveReply] at hstep
  split at hstep
  · next reply rest hclient hreplies =>
    cases hstep
    have hread := h.read
    have hwritten := h.written
    rw [hclient] at hread hwritten
    -- The reply goes from those that wait to those that were taken.
    have hsame : replies ++ [reply] ++ rest = replies ++ c.replies := by
      rw [append_assoc, hreplies]
      rfl
    refine ⟨replies ++ [reply], hread, ?_, fun m hm => (by cases hm), hwritten.snoc reply, ?_,
      fun hentry => ⟨?_, rfl⟩⟩
    · rw [h.up_eq (by simp [hclient]), hclient]
      exact .opened rfl
    · rw [hsame]
      exact h.delivered
    · rw [hsame]
      exact (h.entry hentry).1
  · next hclient hreplies =>
    split_ifs at hstep with hentry
    cases hstep
    have hread := h.read
    have hwritten := h.written
    rw [hclient] at hread hwritten
    exact ⟨replies, h.go (by rw [hclient]; rfl) (by simp [hclient]) rfl rfl
      hread.forget (fun m hm => by cases hm) hwritten.forget⟩
  · cases hstep

theorem Follows.write_step {transfer : Transfer}
    (hstep : c.write transfer = some c') : c'.Follows id up down requests replies := by
  unfold Connection.write at hstep
  split at hstep
  · next left hclient =>
    cases hstep
    exact h.go (by rw [hclient]; rfl) (by simp [hclient]) rfl rfl
      h.read.forget (fun m hm => by cases hm) h.written.forget
  · next left n hclient =>
    split_ifs at hstep with hshut hdone
    all_goals
      cases hstep
      have hread := h.read
      have hwritten := h.written
      rw [hclient] at hread hwritten
      have hrest := hwritten.write n
      have hopened : c.client.opened = true := by rw [hclient]; rfl
      have hgone : c.client ≠ .gone := by simp [hclient]
    · rw [hdone] at hrest
      exact h.go hopened hgone rfl rfl (hread.write left n) (fun m hm => by cases hm) hrest
    · exact h.go hopened hgone rfl rfl (hread.write left n) (fun m hm => by cases hm) hrest
  · cases hstep

/-- The acceptor starts the thread, or goes on in its place. -/
theorem Follows.start (hclient : c.client = .starting) (started : Bool) :
    { c with client := if started then .reading [] else .leaving }.Follows id up down requests
      replies := by
  have hread := h.read
  have hwritten := h.written
  rw [hclient] at hread hwritten
  have hopened : c.client.opened = true := by rw [hclient]; rfl
  have hgone : c.client ≠ .gone := by simp [hclient]
  cases started with
  | true => exact h.go hopened hgone rfl rfl hread (fun m hm => by cases hm) hwritten
  | false => exact h.go hopened hgone rfl rfl hread.forget (fun m hm => by cases hm) hwritten.forget

/-- Whether the connection is to be reported closed depends on who removes the entry. -/
theorem Follows.removeEntry
    (hstep : c.removeEntry = some c') : c'.Follows id up down requests replies := by
  rw [Connection.removeEntry] at hstep
  split at hstep
  · next hclient =>
    cases hstep
    have hup := h.up_eq (by simp [hclient])
    rw [hclient] at hup
    have hsends : ∀ client : Client, client.opened = true → Sends id requests client up :=
      fun client hopened => hup ▸ .opened hopened
    cases c.entry with
    | true =>
      exact ⟨h.read.forget, hsends .closing rfl, fun m hm => Option.some.inj hm ▸ trivial,
        h.written.forget, h.delivered, fun hentry => by cases hentry⟩
    | false =>
      exact ⟨h.read.forget, hsends .gone rfl, fun m hm => (by cases hm), h.written.forget,
        h.delivered, fun hentry => by cases hentry⟩
  · cases hstep

/-- A reply that is read goes to the client. -/
theorem Follows.deliverReply (reply : Bytes) :
    (c.deliverReply reply).Follows id up (down ++ [.reply id reply]) requests replies := by
  rw [Connection.deliverReply]
  split_ifs with hentry
  · obtain ⟨hdelivered, hlisted⟩ := h.entry hentry
    have hdelivered' : (replies ++ (c.replies ++ [reply])).map (Message.reply id) =
        down ++ [.reply id reply] := by
      rw [← append_assoc, map_append, hdelivered]
      rfl
    exact ⟨h.read, h.sends, h.sending, h.written, hdelivered' ▸ prefix_refl _,
      fun _ => ⟨hdelivered', hlisted⟩⟩
  · exact ⟨h.read, h.sends, h.sending, h.written, h.delivered.trans (prefix_append ..),
      fun he => absurd he hentry⟩

omit h in
@[simp] theorem client_close (c : Connection) : c.close.client = c.client := by
  rw [Connection.close]
  split <;> rfl

/-- The relay shuts a client down that is left. -/
theorem Follows.shutDown : c.close.Follows id up down requests replies ∧ c.close.entry = false := by
  rw [Connection.close]
  split_ifs with hentry
  · exact ⟨⟨h.read, h.sends, h.sending, h.written, h.delivered, fun he => by cases he⟩, rfl⟩
  · exact ⟨h, Bool.eq_false_of_not_eq_true hentry⟩

theorem Follows.close : c.close.Follows id up (down ++ [.close id]) requests replies := by
  obtain ⟨hshut, hentry⟩ := h.shutDown
  exact ⟨hshut.read, hshut.sends, hshut.sending, hshut.written,
    hshut.delivered.trans (prefix_append ..), fun he => by cases hentry.symm.trans he⟩

omit h in
/-- A client that was not known comes, and nothing was read about it. -/
theorem Follows.accept (h : c.Follows id up [] requests replies) (hclient : c.client = .unknown) :
    { c with client := .opening, entry := true, replies := [] }.Follows id up [] requests
      replies := by
  have hread := h.read
  have hwritten := h.written
  have hup := h.up_eq (by simp [hclient])
  have hdelivered := h.delivered
  rw [hclient] at hread hwritten hup
  obtain ⟨rfl, -⟩ : replies = [] ∧ c.replies = [] := by
    rwa [prefix_nil, map_eq_nil_iff, append_eq_nil_iff] at hdelivered
  have hnone : requests = [] := by
    have hsends := h.sends
    rw [hclient] at hsends
    cases hsends with
    | nothing hopened hnone => exact hnone
    | opened hopened => cases hopened
  refine ⟨hread, ?_, fun m hm => Option.some.inj hm ▸ trivial, hwritten, List.nil_prefix,
    fun _ => ⟨rfl, rfl⟩⟩
  rw [hup]
  exact .nothing rfl hnone

/-- A message was sent. -/
theorem Follows.sent {m : Message} (hm : c.client.outgoing id = some m) :
    ∃ requests, { c with client := c.client.sent }.Follows id (up ++ [m]) down requests replies := by
  have hread := h.read
  have hwritten := h.written
  have hframed := h.sending m hm
  have hentry := h.entry
  cases hclient : c.client with
  | opening =>
    rw [hclient] at hm hread hwritten
    cases hm
    have hup := h.up_eq (by simp [hclient])
    rw [hclient] at hup
    have hnone : requests = [] := by
      have hsends := h.sends
      rw [hclient] at hsends
      cases hsends with
      | nothing hopened hnone => exact hnone
      | opened hopened => cases hopened
    refine ⟨requests, hread, ?_, fun m hm => (by cases hm), hwritten, h.delivered,
      fun he => ⟨(hentry he).1, rfl⟩⟩
    rw [hup, hnone]
    exact .opened rfl
  | sending request =>
    rw [hclient] at hm hread hwritten
    cases hm
    have hup := h.up_eq (by simp [hclient])
    rw [hclient] at hup
    refine ⟨requests ++ [request], hread.snoc hframed, ?_, fun m hm => (by cases hm), hwritten,
      h.delivered, fun he => ⟨(hentry he).1, rfl⟩⟩
    rw [hup]
    have hlog : Message.open id :: requests.map (.request id) ++ [.request id request] =
        .open id :: (requests ++ [request]).map (.request id) := by
      rw [map_append]
      rfl
    exact hlog ▸ .opened rfl
  | closing =>
    rw [hclient] at hm hread hwritten
    cases hm
    have hup := h.up_eq (by simp [hclient])
    rw [hclient] at hup
    refine ⟨requests, hread, ?_, fun m hm => (by cases hm), hwritten, h.delivered, fun he => ?_⟩
    · rw [hup]
      exact .closed
    · have hlisted := (hentry he).2
      rw [hclient] at hlisted
      cases hlisted
  | _ =>
    rw [hclient] at hm
    cases hm

end Connection

/-! ### The half of the bridge -/

/-- What the worker has read of the agent and not sent. -/
def Worker.since : Worker → Option Bytes
  | unknown | connecting | receiving | writing _ => some []
  | reading buffer => some buffer
  | sending reply => some reply
  | closing | gone => none

/-- What is left of the requests that it took. -/
def Worker.left : Worker → Option Bytes
  | unknown | connecting | receiving | reading _ | sending _ => some []
  | writing left => some left
  | closing | gone => none

/-- How many requests have no reply yet. -/
def Worker.owing : Worker → Option ℕ
  | unknown | connecting | receiving => some 0
  | writing _ | reading _ | sending _ => some 1
  | closing | gone => none

/-- What the bridge has sent about a connection. -/
inductive Answers (id : UInt32) (replies : List Bytes) : Worker → List Message → Prop
  | running {worker : Worker} : Answers id replies worker (replies.map (.reply id))
  | closed : Answers id replies .gone (replies.map (.reply id) ++ [.close id])

/-- A connection at the bridge, which has read `up` about it and sent `down`: the requests that the
worker took, and the replies that were sent. -/
structure AgentConnection.Follows (id : UInt32) (c : AgentConnection) (up down : List Message)
    (requests replies : List Bytes) : Prop where
  read : c.peer.Read replies c.worker.since
  answers : Answers id replies c.worker down
  sending : ∀ m ∈ c.worker.outgoing id, m.Framed
  written : c.peer.Written requests c.worker.left
  /-- A reply was read after its request was written. -/
  whole : (requests.take replies.length).flatten <+: c.peer.received
  count : replies.length ≤ requests.length
  owing : ∀ n ∈ c.worker.owing, replies.length + n = requests.length
  unknown : c.worker = .unknown → up = [] ∧ down = []
  known : c.worker ≠ .unknown → up.head? = some (.open id)
  delivered : (requests ++ c.requests).map (.request id) <+: up.tail
  registered : c.registered = true → c.worker ≠ .unknown ∧
    (c.worker ≠ .gone → (requests ++ c.requests).map (.request id) = up.tail)

namespace AgentConnection

variable {id : UInt32} {c c' : AgentConnection} {up down : List Message}
  {requests replies : List Bytes}

theorem follows_unknown (id : UInt32) : unknown.Follows id [] [] [] [] where
  read := ⟨fun _ h => (by cases h), List.nil_prefix, fun b hb => Option.some.inj hb, le_refl _⟩
  answers := .running
  sending _ h := by cases h
  written := ⟨List.nil_prefix, fun b hb => Option.some.inj hb ▸ rfl⟩
  whole := List.nil_prefix
  count := le_refl _
  owing n h := Option.some.inj h ▸ rfl
  unknown _ := ⟨rfl, rfl⟩
  known h := absurd rfl h
  delivered := List.nil_prefix
  registered h := by cases h

variable (h : c.Follows id up down requests replies)

include h

theorem Follows.down_eq (hgone : c.worker ≠ .gone) : down = replies.map (.reply id) := by
  cases hw : c.worker with
  | gone => exact absurd hw hgone
  | _ =>
    have hanswers := h.answers
    rw [hw] at hanswers
    cases hanswers
    rfl

theorem Follows.give (bytes : Bytes) :
    { c with peer := c.peer.give bytes }.Follows id up down requests replies :=
  ⟨h.read.give bytes, h.answers, h.sending, h.written.congr rfl, h.whole, h.count, h.owing,
    h.unknown, h.known, h.delivered, h.registered⟩

/-- The worker goes on to a phase in which the same was sent. -/
theorem Follows.go (hunknown : c.worker ≠ .unknown)
    (hgone : c.worker ≠ .gone) {peer : Peer} {worker : Worker} (hunknown' : worker ≠ .unknown)
    (hread : peer.Read replies worker.since) (hsending : ∀ m ∈ worker.outgoing id, m.Framed)
    (hwritten : peer.Written requests worker.left) (hreceived : c.peer.received <+: peer.received)
    (howing : ∀ n ∈ worker.owing, n ∈ c.worker.owing) :
    { c with peer := peer, worker := worker }.Follows id up down requests replies where
  read := hread
  answers := by
    rw [h.down_eq hgone]
    exact .running
  sending := hsending
  written := hwritten
  whole := h.whole.trans hreceived
  count := h.count
  owing n hn := h.owing n (howing n hn)
  unknown hw := absurd hw hunknown'
  known _ := h.known hunknown
  delivered := h.delivered
  registered hr := ⟨hunknown', fun _ => (h.registered hr).2 hgone⟩

theorem Follows.connect {connected : Bool}
    (hstep : c.connect connected = some c') : c'.Follows id up down requests replies := by
  rw [AgentConnection.connect] at hstep
  split at hstep
  · next hworker =>
    cases hstep
    have hread := h.read
    have hwritten := h.written
    rw [hworker] at hread hwritten
    have hunknown : c.worker ≠ .unknown := by simp [hworker]
    have hgone : c.worker ≠ .gone := by simp [hworker]
    cases connected with
    | true =>
      exact h.go hunknown hgone Worker.noConfusion hread (fun m hm => by cases hm) hwritten
        (prefix_refl _) (fun n hn => by rw [hworker]; exact hn)
    | false =>
      exact h.go hunknown hgone Worker.noConfusion hread.forget
        (fun m hm => Option.some.inj hm ▸ trivial) hwritten.forget (prefix_refl _)
        (fun n hn => by cases hn)
  · cases hstep

theorem Follows.receiveRequest
    (hstep : c.receiveRequest = some c') :
    ∃ requests, c'.Follows id up down requests replies := by
  rw [AgentConnection.receiveRequest] at hstep
  split at hstep
  · next request rest hworker hrequests =>
    cases hstep
    have hread := h.read
    have hwritten := h.written
    have howing := h.owing
    rw [hworker] at hread hwritten howing
    have hunknown : c.worker ≠ .unknown := by simp [hworker]
    have hgone : c.worker ≠ .gone := by simp [hworker]
    have hcount := howing 0 rfl
    -- The request goes from those that wait to those that were taken.
    have hsame : requests ++ [request] ++ rest = requests ++ c.requests := by
      rw [append_assoc, hrequests]
      rfl
    refine ⟨requests ++ [request], hread, ?_, fun m hm => (by cases hm), hwritten.snoc request, ?_,
      ?_, fun n hn => ?_, fun hw => (by cases hw), fun _ => h.known hunknown, ?_,
      fun hr => ⟨Worker.noConfusion, fun _ => ?_⟩⟩
    · rw [h.down_eq hgone]
      exact .running
    · rw [take_append_of_le_length h.count]
      exact h.whole
    · rw [length_append]
      exact le_trans h.count (Nat.le_add_right ..)
    · rw [← Option.some.inj hn, length_append, length_singleton]
      omega
    · rw [hsame]
      exact h.delivered
    · rw [hsame]
      exact (h.registered hr).2 hgone
  · next hworker hrequests =>
    split_ifs at hstep with hregistered
    cases hstep
    have hunknown : c.worker ≠ .unknown := by simp [hworker]
    have hgone : c.worker ≠ .gone := by simp [hworker]
    exact ⟨requests, h.go hunknown hgone Worker.noConfusion h.read.forget
      (fun m hm => by cases hm) h.written.forget (prefix_refl _) (fun n hn => by cases hn)⟩
  · cases hstep

theorem Follows.write_step {transfer : Transfer}
    (hstep : c.write transfer = some c') : c'.Follows id up down requests replies := by
  unfold AgentConnection.write at hstep
  split at hstep
  · next left hworker =>
    cases hstep
    have hunknown : c.worker ≠ .unknown := by simp [hworker]
    have hgone : c.worker ≠ .gone := by simp [hworker]
    exact h.go hunknown hgone Worker.noConfusion h.read.forget
      (fun m hm => Option.some.inj hm ▸ trivial) h.written.forget (prefix_refl _)
      (fun n hn => by cases hn)
  · next left n hworker =>
    cases hstep
    have hread := h.read
    have hwritten := h.written
    rw [hworker] at hread hwritten
    have hunknown : c.worker ≠ .unknown := by simp [hworker]
    have hgone : c.worker ≠ .gone := by simp [hworker]
    have hrest := hwritten.write n
    by_cases hdone : left = []
    · rw [if_pos hdone]
      rw [hdone, drop_nil] at hrest
      rw [hdone]
      exact h.go hunknown hgone Worker.noConfusion (hread.write [] n) (fun m hm => by cases hm)
        hrest (prefix_append ..) (fun k hk => by rw [hworker]; exact hk)
    · rw [if_neg hdone]
      exact h.go hunknown hgone Worker.noConfusion (hread.write left n) (fun m hm => by cases hm)
        hrest (prefix_append ..) (fun k hk => by rw [hworker]; exact hk)
  · cases hstep

theorem Follows.read_step {transfer : Transfer}
    (hstep : c.read transfer = some c') : c'.Follows id up down requests replies := by
  rw [AgentConnection.read] at hstep
  split at hstep
  · next buffer hworker =>
    rw [Option.map_eq_some_iff] at hstep
    obtain ⟨⟨peer, r⟩, hread, rfl⟩ := hstep
    have hbefore := h.read
    have hwritten := h.written
    rw [hworker] at hbefore hwritten
    obtain ⟨hreceived, hknows⟩ := hbefore.readFrame hread
    have hunknown : c.worker ≠ .unknown := by simp [hworker]
    have hgone : c.worker ≠ .gone := by simp [hworker]
    have hkept : c.peer.received <+: peer.received := hreceived ▸ prefix_refl _
    cases r with
    | part buffer =>
      exact h.go hunknown hgone Worker.noConfusion hknows (fun m hm => by cases hm)
        (hwritten.congr hreceived) hkept (fun k hk => by rw [hworker]; exact hk)
    | frame reply =>
      exact h.go hunknown hgone Worker.noConfusion hknows.2
        (fun m hm => Option.some.inj hm ▸ hknows.1) (hwritten.congr hreceived) hkept
        (fun k hk => by rw [hworker]; exact hk)
    | ended =>
      exact h.go hunknown hgone Worker.noConfusion hknows
        (fun m hm => Option.some.inj hm ▸ trivial) (hwritten.congr hreceived).forget hkept
        (fun k hk => by cases hk)
  · cases hstep

omit h in
/-- `Open` is the first message that is read. -/
theorem Follows.open (h : c.Follows id [] down requests replies) (started : Bool) :
    (c.open started).Follows id [.open id] down requests replies := by
  have hworker : c.worker = .unknown := by
    by_contra hknown
    cases h.known hknown
  have hread := h.read
  have hwritten := h.written
  have howing := h.owing
  have hdelivered := h.delivered
  rw [hworker] at hread hwritten howing
  have hnone : (requests ++ c.requests).map (Message.request id) = [] := prefix_nil.mp hdelivered
  have hanswers : ∀ worker, Answers id replies worker down := by
    intro worker
    rw [h.down_eq (by simp [hworker])]
    exact .running
  cases started with
  | true =>
    exact ⟨hread, hanswers _, fun m hm => (by cases hm), hwritten, h.whole, h.count, howing,
      fun hw => (by cases hw), fun _ => rfl, hdelivered, fun _ => ⟨Worker.noConfusion, fun _ => hnone⟩⟩
  | false =>
    exact ⟨hread.forget, hanswers _, fun m hm => Option.some.inj hm ▸ trivial, hwritten.forget,
      h.whole, h.count, fun n hn => (by cases hn), fun hw => (by cases hw), fun _ => rfl, hdelivered,
      fun hr => by cases hr⟩

/-- More is read about a connection that is known. -/
theorem tail_append_of_known
    (hknown : c.worker ≠ .unknown) (m : Message) :
    (up ++ [m]).tail = up.tail ++ [m] ∧ (up ++ [m]).head? = some (.open id) := by
  have hhead := h.known hknown
  cases up with
  | nil => cases hhead
  | cons first rest => exact ⟨rfl, hhead⟩

/-- A request that is read goes to the worker. -/
theorem Follows.deliverRequest
    (hknown : c.worker ≠ .unknown) (request : Bytes) :
    (c.deliverRequest request).Follows id (up ++ [.request id request]) down requests replies := by
  obtain ⟨htail, hhead⟩ := tail_append_of_known h hknown (.request id request)
  have hmore : (requests ++ c.requests).map (Message.request id) <+:
      (up ++ [Message.request id request]).tail := by
    rw [htail]
    exact h.delivered.trans (prefix_append ..)
  rw [AgentConnection.deliverRequest]
  split_ifs with hregistered hgone
  · exact ⟨h.read, h.answers, h.sending, h.written, h.whole, h.count, h.owing,
      fun hw => absurd hw hknown, fun _ => hhead, hmore, fun hr => by cases hr⟩
  · have hsame : (requests ++ (c.requests ++ [request])).map (Message.request id) =
        (up ++ [Message.request id request]).tail := by
      rw [htail, ← (h.registered hregistered).2 hgone, ← append_assoc, map_append]
      rfl
    exact ⟨h.read, h.answers, h.sending, h.written, h.whole, h.count, h.owing,
      fun hw => absurd hw hknown, fun _ => hhead, hsame ▸ prefix_refl _,
      fun _ => ⟨hknown, fun _ => hsame⟩⟩
  · exact ⟨h.read, h.answers, h.sending, h.written, h.whole, h.count, h.owing,
      fun hw => absurd hw hknown, fun _ => hhead, hmore, fun hr => absurd hr hregistered⟩

/-- The bridge forgets a worker, having read no more about it. -/
theorem Follows.forgotten : c.close.Follows id up down requests replies :=
  { h with registered := fun hr => by cases hr }

theorem Follows.close (hknown : c.worker ≠ .unknown) :
    c.close.Follows id (up ++ [.close id]) down requests replies := by
  obtain ⟨htail, hhead⟩ := tail_append_of_known h hknown (.close id)
  refine ⟨h.read, h.answers, h.sending, h.written, h.whole, h.count, h.owing,
    fun hw => absurd hw hknown, fun _ => hhead, ?_, fun hr => by cases hr⟩
  rw [htail]
  exact h.delivered.trans (prefix_append ..)

/-- A message was sent. -/
theorem Follows.sent {m : Message} (hm : c.worker.outgoing id = some m) :
    ∃ replies, { c with worker := c.worker.sent }.Follows id up (down ++ [m]) requests replies := by
  have hread := h.read
  have hwritten := h.written
  have hframed := h.sending m hm
  have howing := h.owing
  cases hworker : c.worker with
  | sending reply =>
    rw [hworker] at hm hread hwritten howing
    cases hm
    have hunknown : c.worker ≠ .unknown := by simp [hworker]
    have hgone : c.worker ≠ .gone := by simp [hworker]
    have hcount := howing 1 rfl
    have hreceived := hwritten.left [] rfl
    rw [append_nil] at hreceived
    refine ⟨replies ++ [reply], hread.snoc hframed, ?_, fun m hm => (by cases hm), hwritten, ?_, ?_,
      fun n hn => ?_, fun hw => (by cases hw), fun _ => h.known hunknown, h.delivered,
      fun hr => ⟨Worker.noConfusion, fun _ => (h.registered hr).2 hgone⟩⟩
    · have hlog : down ++ [.reply id reply] = (replies ++ [reply]).map (Message.reply id) := by
        rw [h.down_eq hgone, map_append]
        rfl
      exact hlog ▸ .running
    · -- The worker has written every request that it took.
      rw [length_append, length_singleton, hcount, take_length]
      exact hreceived ▸ prefix_refl _
    · rw [length_append]
      exact hcount.le
    · rw [← Option.some.inj hn, length_append]
      exact hcount
  | closing =>
    rw [hworker] at hm
    cases hm
    have hunknown : c.worker ≠ .unknown := by simp [hworker]
    refine ⟨replies, h.read.forget, ?_, fun m hm => (by cases hm), h.written.forget, h.whole,
      h.count, fun n hn => (by cases hn), fun hw => (by cases hw), fun _ => h.known hunknown,
      h.delivered, fun _ => ⟨Worker.noConfusion, fun hgone => absurd rfl hgone⟩⟩
    rw [h.down_eq (by simp [hworker])]
    exact .closed
  | _ =>
    rw [hworker] at hm
    cases hm

end AgentConnection

end Zetta.Wslx
