import Zetta.Wslx.Halves

/-!
# What clients and agents get

Every thread of the relay and of the bridge keeps the state consistent (`State.Consistent`): the
streams carry whole messages, a thread that has a lock writes the message that it is about to send,
and both halves of every connection follow what was sent and read about it. Joined, the halves say
that a client gets the replies of its own agent, in order, and its agent its requests
(`exchanged`).
-/

namespace Zetta.Wslx

open List

/-- The messages about a connection. -/
def about (id : UInt32) (messages : List Message) : List Message :=
  messages.filter fun m => m.id = id

theorem about_append (id : UInt32) (messages : List Message) (m : Message) :
    about id (messages ++ [m]) =
      if m.id = id then about id messages ++ [m] else about id messages := by
  rw [about, filter_append, filter_singleton]
  by_cases hid : m.id = id
  · rw [if_pos hid, decide_eq_true hid]
    rfl
  · rw [if_neg hid, decide_eq_false hid]
    exact append_nil _

theorem about_append_self (messages : List Message) (m : Message) :
    about m.id (messages ++ [m]) = about m.id messages ++ [m] := by
  rw [about_append, if_pos rfl]

variable {m : Message} {id : UInt32}

theorem about_append_of_ne (h : m.id ≠ id) (messages : List Message) :
    about id (messages ++ [m]) = about id messages := by
  rw [about_append, if_neg h]

theorem about_mono {messages messages' : List Message} (h : messages <+: messages')
    (id : UInt32) : about id messages <+: about id messages' := h.filter _

/-- What was read of a stream. -/
def handled (stream : Stream) : List Message := stream.sent.take stream.taken

theorem prefix_handled (stream : Stream) : handled stream <+: stream.sent := List.take_prefix ..

theorem handled_succ {stream stream' : Stream} (hsent : stream'.sent = stream.sent)
    (htaken : stream'.taken = stream.taken + 1) (hm : stream.sent[stream.taken]? = some m) :
    handled stream' = handled stream ++ [m] := by
  rw [handled, hsent, htaken, take_add_one, hm]
  rfl

variable {client : Client}

theorem Client.id_of_outgoing (h : client.outgoing id = some m) : m.id = id := by
  cases client <;> first | cases h; rfl | cases h

variable {worker : Worker}

theorem Worker.id_of_outgoing (h : worker.outgoing id = some m) : m.id = id := by
  cases worker <;> first | cases h; rfl | cases h

variable {requests : List Bytes} {up : List Message}

/-- The next message about a connection that the bridge reads. -/
theorem Sends.next {before : List Message} (h : Sends id requests client up)
    (hnext : before ++ [m] <+: up) :
    before = [] ∧ m = .open id ∨ before ≠ [] ∧ ((∃ r, m = .request id r) ∨ m = .close id) := by
  have hrest : ∀ rest, before ++ [m] <+: .open id :: rest →
      (∀ m ∈ rest, (∃ r, m = .request id r) ∨ m = .close id) →
      before = [] ∧ m = .open id ∨ before ≠ [] ∧ ((∃ r, m = .request id r) ∨ m = .close id) := by
    intro rest hstarts hall
    cases before with
    | nil => exact .inl ⟨rfl, (cons_prefix_cons.mp hstarts).1⟩
    | cons first before =>
      have hmem : m ∈ before ++ [m] := mem_append_right _ (mem_singleton_self m)
      exact .inr ⟨cons_ne_nil _ _,
        hall m ((cons_prefix_cons.mp hstarts).2.subset hmem)⟩
  cases h with
  | nothing =>
    have hnil := prefix_nil.mp hnext
    exact absurd hnil (by simp)
  | opened =>
    refine hrest _ hnext fun m hm => ?_
    obtain ⟨r, -, rfl⟩ := mem_map.mp hm
    exact .inl ⟨r, rfl⟩
  | closed =>
    refine hrest _ hnext fun m hm => ?_
    rcases mem_append.mp hm with hm | hm
    · obtain ⟨r, -, rfl⟩ := mem_map.mp hm
      exact .inl ⟨r, rfl⟩
    · exact .inr (mem_singleton.mp hm)

variable {replies : List Bytes} {down : List Message}

/-- What the dispatcher reads about a connection. -/
theorem Answers.mem (h : Answers id replies worker down) (hm : m ∈ down) :
    (∃ r, m = .reply id r) ∨ m = .close id := by
  cases h with
  | running =>
    obtain ⟨r, -, rfl⟩ := mem_map.mp hm
    exact .inl ⟨r, rfl⟩
  | closed =>
    rcases mem_append.mp hm with hm | hm
    · obtain ⟨r, -, rfl⟩ := mem_map.mp hm
      exact .inl ⟨r, rfl⟩
    · exact .inr (mem_singleton.mp hm)

/-! ### Consistent states -/

/-- A connection at the relay follows what was sent and read about it, and a message that is being
written on its behalf is the one that is to be sent. -/
structure Connection.Fits (id : UInt32) (c : Connection) (up down : Stream) (nextId : UInt32) :
    Prop where
  follows : ∃ requests replies,
    c.Follows id (about id up.sent) (about id (handled down)) requests replies
  locked : ∀ m left, up.lock = some (id, m, left) → c.client.outgoing id = some m
  fresh : nextId < id → c.client = .unknown

structure AgentConnection.Fits (id : UInt32) (c : AgentConnection) (up down : Stream) : Prop where
  follows : ∃ requests replies,
    c.Follows id (about id (handled up)) (about id down.sent) requests replies
  locked : ∀ m left, down.lock = some (id, m, left) → c.worker.outgoing id = some m

structure State.Consistent (s : State) : Prop where
  up : s.up.Whole messageCodec Message.Framed
  down : s.down.Whole messageCodec Message.Framed
  dispatcher : ∀ e, s.dispatcher ≠ .failed e
  bridge : ∀ e, s.bridge ≠ .failed e
  relayFits : ∀ id, (s.connections id).Fits id s.up s.down s.nextId
  bridgeFits : ∀ id, (s.agents id).Fits id s.up s.down

section Fits

variable {id : UInt32} {up down up' down' : Stream} {nextId : UInt32}

/-- Nothing was sent or read about the connection. -/
theorem Connection.Fits.congr {c : Connection} (h : c.Fits id up down nextId)
    (hup : about id up'.sent = about id up.sent)
    (hdown : about id (handled down') = about id (handled down))
    (hlock : ∀ m left, up'.lock = some (id, m, left) → ∃ left, up.lock = some (id, m, left)) :
    c.Fits id up' down' nextId where
  follows := by
    rw [hup, hdown]
    exact h.follows
  locked m left hl := by
    obtain ⟨left, hl⟩ := hlock m left hl
    exact h.locked m left hl
  fresh := h.fresh

theorem AgentConnection.Fits.congr {c : AgentConnection} (h : c.Fits id up down)
    (hup : about id (handled up') = about id (handled up))
    (hdown : about id down'.sent = about id down.sent)
    (hlock : ∀ m left, down'.lock = some (id, m, left) → ∃ left, down.lock = some (id, m, left)) :
    c.Fits id up' down' where
  follows := by
    rw [hup, hdown]
    exact h.follows
  locked m left hl := by
    obtain ⟨left, hl⟩ := hlock m left hl
    exact h.locked m left hl

end Fits

namespace State

variable {s s' : State} {id : UInt32}

theorem consistent_initial : initial.Consistent where
  up := Pipe.whole_empty
  down := Pipe.whole_empty
  dispatcher _ h := by cases h
  bridge _ h := by cases h
  relayFits id := ⟨⟨[], [], Connection.follows_unknown id⟩, fun m left h => (by cases h), fun _ => rfl⟩
  bridgeFits id := ⟨⟨[], [], AgentConnection.follows_unknown id⟩, fun m left h => by cases h⟩

section

variable (h : s.Consistent)

include h

/-- Who the acceptor and the reader work for does not matter. -/
theorem Consistent.working (acceptor refusing : Option UInt32) :
    { s with acceptor := acceptor, refusing := refusing }.Consistent :=
  ⟨h.up, h.down, h.dispatcher, h.bridge, h.relayFits, h.bridgeFits⟩

theorem Consistent.release (id : UInt32) : (s.release id).Consistent := by
  rw [State.release]
  split_ifs
  · exact h.working none s.refusing
  · exact h

theorem Consistent.set {c : Connection}
    (hfits : c.Fits id s.up s.down s.nextId) : (s.set id c).Consistent where
  up := h.up
  down := h.down
  dispatcher := h.dispatcher
  bridge := h.bridge
  relayFits := (Function.forall_update_iff s.connections fun id c =>
    c.Fits id s.up s.down s.nextId).mpr ⟨hfits, fun id' _ => h.relayFits id'⟩
  bridgeFits := h.bridgeFits

theorem Consistent.setAgent {c : AgentConnection}
    (hfits : c.Fits id s.up s.down) : (s.setAgent id c).Consistent where
  up := h.up
  down := h.down
  dispatcher := h.dispatcher
  bridge := h.bridge
  relayFits := h.relayFits
  bridgeFits := (Function.forall_update_iff s.agents fun id c => c.Fits id s.up s.down).mpr
    ⟨hfits, fun id' _ => h.bridgeFits id'⟩

/-! ### Steps of one connection -/

/-- A thread that does not send works. -/
theorem Consistent.update {f : Connection → Option Connection}
    (hfollows : ∀ c c' up down requests replies, f c = some c' →
      c.Follows id up down requests replies → ∃ requests replies,
        c'.Follows id up down requests replies)
    (hworks : ∀ c c', f c = some c' → c.client.outgoing id = none ∧ c.client ≠ .unknown)
    (hstep : s.update id f = some s') : s'.Consistent := by
  rw [State.update, Option.map_eq_some_iff] at hstep
  obtain ⟨c, hc, rfl⟩ := hstep
  obtain ⟨hnone, hknown⟩ := hworks _ _ hc
  obtain ⟨⟨requests, replies, hbefore⟩, hlocked, hfresh⟩ := h.relayFits id
  refine h.set ⟨hfollows _ _ _ _ requests replies hc hbefore, fun m left hlock => ?_,
    fun hid => absurd (hfresh hid) hknown⟩
  have hm := hlocked m left hlock
  rw [hnone] at hm
  cases hm

theorem Consistent.updateAgent {f : AgentConnection → Option AgentConnection}
    (hfollows : ∀ c c' up down requests replies, f c = some c' →
      c.Follows id up down requests replies → ∃ requests replies,
        c'.Follows id up down requests replies)
    (hworks : ∀ c c', f c = some c' → c.worker.outgoing id = none)
    (hstep : s.updateAgent id f = some s') : s'.Consistent := by
  rw [State.updateAgent, Option.map_eq_some_iff] at hstep
  obtain ⟨c, hc, rfl⟩ := hstep
  obtain ⟨⟨requests, replies, hbefore⟩, hlocked⟩ := h.bridgeFits id
  refine h.setAgent ⟨hfollows _ _ _ _ requests replies hc hbefore, fun m left hlock => ?_⟩
  have hm := hlocked m left hlock
  rw [hworks _ _ hc] at hm
  cases hm

/-- A client or an agent writes. -/
theorem Consistent.clientGives {bytes : Bytes}
    (hstep : s.update id (fun c => some { c with peer := c.peer.give bytes }) = some s') :
    s'.Consistent := by
  cases hstep
  obtain ⟨⟨requests, replies, hbefore⟩, hlocked, hfresh⟩ := h.relayFits id
  exact h.set ⟨⟨requests, replies, hbefore.give bytes⟩, hlocked, hfresh⟩

theorem Consistent.agentGives {bytes : Bytes}
    (hstep : s.updateAgent id (fun c => some { c with peer := c.peer.give bytes }) = some s') :
    s'.Consistent := by
  cases hstep
  obtain ⟨⟨requests, replies, hbefore⟩, hlocked⟩ := h.bridgeFits id
  exact h.setAgent ⟨⟨requests, replies, hbefore.give bytes⟩, hlocked⟩

/-! ### The acceptor -/

/-- **A client comes**: its connection is not known to either half. -/
theorem Consistent.accept (hstep : s.accept = some s') : s'.Consistent := by
  rw [State.accept] at hstep
  split_ifs at hstep with hfree
  cases hstep
  have hnext : (s.nextId + 1).toNat = s.nextId.toNat + 1 := by
    rw [UInt32.toNat_add]
    exact Nat.mod_eq_of_lt hfree.2.2
  have hlt : s.nextId < s.nextId + 1 := by
    rw [UInt32.lt_iff_toNat_lt, hnext]
    exact Nat.lt_succ_self _
  obtain ⟨⟨requests, replies, hbefore⟩, hlocked, hfresh⟩ := h.relayFits (s.nextId + 1)
  have hunknown := hfresh hlt
  -- Nothing was sent about it, and so nothing was read and answered.
  have hup : about (s.nextId + 1) s.up.sent = [] := by
    rw [hbefore.up_eq (by simp [hunknown]), hunknown]
    rfl
  have hhandled : about (s.nextId + 1) (handled s.up) = [] := by
    have hstarts := about_mono (prefix_handled s.up) (s.nextId + 1)
    rw [hup] at hstarts
    exact prefix_nil.mp hstarts
  have hdown : about (s.nextId + 1) (handled s.down) = [] := by
    obtain ⟨requests', replies', hagent⟩ := (h.bridgeFits (s.nextId + 1)).follows
    rw [hhandled] at hagent
    have hworker : (s.agents (s.nextId + 1)).worker = .unknown := by
      by_contra hknown
      cases hagent.known hknown
    have hstarts := about_mono (prefix_handled s.down) (s.nextId + 1)
    rw [(hagent.unknown hworker).2] at hstarts
    exact prefix_nil.mp hstarts
  have hfits : { s.connections (s.nextId + 1) with
      client := .opening, entry := true, replies := [] }.Fits (s.nextId + 1) s.up s.down
        (s.nextId + 1) := by
    rw [hdown] at hbefore
    refine ⟨⟨requests, replies, ?_⟩, fun m left hlock => ?_, fun hid => absurd hid (UInt32.lt_irrefl _)⟩
    · rw [hdown]
      exact hbefore.accept hunknown
    · have hm := hlocked m left hlock
      rw [hunknown] at hm
      cases hm
  refine ⟨h.up, h.down, h.dispatcher, h.bridge, ?_, h.bridgeFits⟩
  refine (Function.forall_update_iff s.connections fun id c =>
    c.Fits id s.up s.down (s.nextId + 1)).mpr ⟨hfits, fun id' _ => ?_⟩
  obtain ⟨hfollows, hlocked', hfresh'⟩ := h.relayFits id'
  exact ⟨hfollows, hlocked', fun hid => hfresh' (UInt32.lt_trans hlt hid)⟩

theorem Consistent.start {started : Bool} (hstep : s.start started = some s') : s'.Consistent := by
  rw [State.start] at hstep
  split at hstep
  · cases hstep
  · next id hacceptor =>
    split at hstep
    · next hclient =>
      obtain ⟨⟨requests, replies, hbefore⟩, hlocked, hfresh⟩ := h.relayFits id
      have hfits : { s.connections id with
          client := if started then Client.reading [] else .leaving }.Fits id s.up s.down
            s.nextId := by
        refine ⟨⟨requests, replies, hbefore.start hclient started⟩, fun m left hlock => ?_,
          fun hid => ?_⟩
        · have hm := hlocked m left hlock
          rw [hclient] at hm
          cases hm
        · have hunknown := hfresh hid
          rw [hclient] at hunknown
          cases hunknown
      cases started with
      | true =>
        rw [if_pos rfl] at hstep hfits
        cases hstep
        exact (h.set hfits).working none s.refusing
      | false =>
        rw [if_neg Bool.false_ne_true] at hstep hfits
        cases hstep
        exact h.set hfits
    · cases hstep

/-! ### Messages that are sent -/

/-- A lock is taken for the message that is about to be sent. -/
theorem Consistent.lockUp_step (hstep : s.lockUp id = some s') : s'.Consistent := by
  rw [State.lockUp] at hstep
  split at hstep
  · cases hstep
  · next m hm =>
    obtain ⟨requests, replies, hbefore⟩ := (h.relayFits id).follows
    have hframed := hbefore.sending m hm
    rw [Message.writeTo_of_framed hframed] at hstep
    split at hstep
    · cases hstep
    · next up bytes hacquire hwrite =>
      cases hstep
      have hwhole := h.up.acquire hframed (lawful_messageCodec.encode_ne_nil hframed) hacquire
      obtain ⟨-, rfl⟩ := Pipe.acquire_eq_some hacquire
      refine ⟨hwhole, h.down, h.dispatcher, h.bridge, fun id' => ?_, fun id' =>
        (h.bridgeFits id').congr rfl rfl fun m' left hl => ⟨left, hl⟩⟩
      obtain ⟨hfollows, hlocked, hfresh⟩ := h.relayFits id'
      refine ⟨hfollows, fun m' left hlock => ?_, hfresh⟩
      obtain ⟨rfl, hpair⟩ := Prod.mk.inj (Option.some.inj hlock)
      obtain ⟨rfl, -⟩ := Prod.mk.inj hpair
      exact hm
    · next hwrite => cases hwrite

theorem Consistent.lockDown_step (hstep : s.lockDown id = some s') : s'.Consistent := by
  rw [State.lockDown] at hstep
  split at hstep
  · cases hstep
  · next m hm =>
    obtain ⟨requests, replies, hbefore⟩ := (h.bridgeFits id).follows
    have hframed := hbefore.sending m hm
    rw [Message.writeTo_of_framed hframed] at hstep
    split at hstep
    · cases hstep
    · next down bytes hacquire hwrite =>
      cases hstep
      have hwhole := h.down.acquire hframed (lawful_messageCodec.encode_ne_nil hframed) hacquire
      obtain ⟨-, rfl⟩ := Pipe.acquire_eq_some hacquire
      refine ⟨h.up, hwhole, h.dispatcher, h.bridge, fun id' =>
        (h.relayFits id').congr rfl rfl fun m' left hl => ⟨left, hl⟩, fun id' => ?_⟩
      obtain ⟨hfollows, hlocked⟩ := h.bridgeFits id'
      refine ⟨hfollows, fun m' left hlock => ?_⟩
      obtain ⟨rfl, hpair⟩ := Prod.mk.inj (Option.some.inj hlock)
      obtain ⟨rfl, -⟩ := Prod.mk.inj hpair
      exact hm
    · next hwrite => cases hwrite

end

/-- A write does not change what was read. -/
theorem handled_of_write {stream stream' : Stream} (hwhole : stream.Whole messageCodec Message.Framed)
    (htaken : stream'.taken = stream.taken) (hsent : stream.sent <+: stream'.sent) :
    handled stream' = handled stream := by
  obtain ⟨rest, hrest⟩ := hsent
  rw [handled, handled, htaken, ← hrest, take_append_of_le_length hwhole.taken_le]

variable {n : ℕ}

/-- **A message is sent** when its last byte is written. -/
theorem Consistent.writeUp_step (h : s.Consistent) (hstep : s.writeUp n = some s') :
    s'.Consistent := by
  rw [State.writeUp] at hstep
  split at hstep
  · cases hstep
  · next up hwrite =>
    cases hstep
    have hwhole := h.up.write hwrite
    obtain ⟨id, m, left, hlock, htaken, -, hkept | ⟨hr, -⟩⟩ := Pipe.write_eq_some hwrite
    · obtain ⟨rest, -, -, hsent, hlock', -⟩ := hkept
      have hhandled := handled_of_write h.up htaken (hsent ▸ prefix_refl _)
      refine ⟨hwhole, h.down, h.dispatcher, h.bridge, fun id' => ?_, fun id' => ?_⟩
      · refine (h.relayFits id').congr (by rw [hsent]) rfl fun m' left' hl => ?_
        rw [hlock'] at hl
        obtain ⟨rfl, hpair⟩ := Prod.mk.inj (Option.some.inj hl)
        obtain ⟨rfl, -⟩ := Prod.mk.inj hpair
        exact ⟨left, hlock⟩
      · exact (h.bridgeFits id').congr (by rw [hhandled]) rfl fun m' left' hl => ⟨left', hl⟩
    · cases hr
  · next up id m hwrite =>
    cases hstep
    have hwhole := h.up.write hwrite
    obtain ⟨id', m', left, hlock, htaken, -, ⟨rest, -, hr, -⟩ | ⟨hr, hsent, hlock', -⟩⟩ :=
      Pipe.write_eq_some hwrite
    · cases hr
    · cases hr
      have hhandled := handled_of_write h.up htaken (hsent ▸ prefix_append ..)
      obtain ⟨⟨requests, replies, hbefore⟩, hlocked, hfresh⟩ := h.relayFits id
      have hm := hlocked m left hlock
      obtain rfl := Client.id_of_outgoing hm
      obtain ⟨requests', hafter⟩ := hbefore.sent hm
      refine Consistent.release ?_ m.id
      refine ⟨hwhole, h.down, h.dispatcher, h.bridge, ?_, fun id' => ?_⟩
      · refine (Function.forall_update_iff s.connections fun id c =>
          c.Fits id up s.down s.nextId).mpr ⟨⟨⟨requests', replies, ?_⟩, fun m' left' hl => ?_,
            fun hid => ?_⟩, fun id' hid => ?_⟩
        · rw [hsent, about_append_self]
          exact hafter
        · rw [hlock'] at hl
          cases hl
        · rw [hfresh hid] at hm
          cases hm
        · refine (h.relayFits id').congr ?_ rfl fun m' left' hl => ?_
          · rw [hsent, about_append_of_ne (Ne.symm hid)]
          · rw [hlock'] at hl
            cases hl
      · exact (h.bridgeFits id').congr (by rw [hhandled]) rfl fun m' left' hl => ⟨left', hl⟩

theorem Consistent.writeDown_step (h : s.Consistent) (hstep : s.writeDown n = some s') :
    s'.Consistent := by
  rw [State.writeDown] at hstep
  split at hstep
  · cases hstep
  · next down hwrite =>
    cases hstep
    have hwhole := h.down.write hwrite
    obtain ⟨id, m, left, hlock, htaken, -, hkept | ⟨hr, -⟩⟩ := Pipe.write_eq_some hwrite
    · obtain ⟨rest, -, -, hsent, hlock', -⟩ := hkept
      have hhandled := handled_of_write h.down htaken (hsent ▸ prefix_refl _)
      refine ⟨h.up, hwhole, h.dispatcher, h.bridge, fun id' => ?_, fun id' => ?_⟩
      · exact (h.relayFits id').congr rfl (by rw [hhandled]) fun m' left' hl => ⟨left', hl⟩
      · refine (h.bridgeFits id').congr rfl (by rw [hsent]) fun m' left' hl => ?_
        rw [hlock'] at hl
        obtain ⟨rfl, hpair⟩ := Prod.mk.inj (Option.some.inj hl)
        obtain ⟨rfl, -⟩ := Prod.mk.inj hpair
        exact ⟨left, hlock⟩
    · cases hr
  · next down id m hwrite =>
    cases hstep
    have hwhole := h.down.write hwrite
    obtain ⟨id', m', left, hlock, htaken, -, ⟨rest, -, hr, -⟩ | ⟨hr, hsent, hlock', -⟩⟩ :=
      Pipe.write_eq_some hwrite
    · cases hr
    · cases hr
      have hhandled := handled_of_write h.down htaken (hsent ▸ prefix_append ..)
      obtain ⟨⟨requests, replies, hbefore⟩, hlocked⟩ := h.bridgeFits id
      have hm := hlocked m left hlock
      obtain rfl := Worker.id_of_outgoing hm
      obtain ⟨replies', hafter⟩ := hbefore.sent hm
      refine ⟨h.up, hwhole, h.dispatcher, h.bridge, fun id' => ?_, ?_⟩
      · exact (h.relayFits id').congr rfl (by rw [hhandled]) fun m' left' hl => ⟨left', hl⟩
      · refine (Function.forall_update_iff s.agents fun id c => c.Fits id s.up down).mpr
          ⟨⟨⟨requests, replies', ?_⟩, fun m' left' hl => ?_⟩, fun id' hid => ?_⟩
        · rw [hsent, about_append_self]
          exact hafter
        · rw [hlock'] at hl
          cases hl
        · refine (h.bridgeFits id').congr rfl ?_ fun m' left' hl => ?_
          · rw [hsent, about_append_of_ne (Ne.symm hid)]
          · rw [hlock'] at hl
            cases hl

/-! ### Messages that are read -/

/-- What the dispatcher does with a message for a connection that it knows, or does not. -/
theorem fits_of_dispatch {c : Connection} {up down down' : Stream} {nextId : UInt32}
    (h : c.Fits id up down nextId) {m : Message} (hid : m.id = id)
    (hhandled : handled down' = handled down ++ [m]) :
    (∀ frame, m = .reply id frame → (c.deliverReply frame).Fits id up down' nextId) ∧
      (m = .close id → c.close.Fits id up down' nextId) := by
  obtain ⟨⟨requests, replies, hbefore⟩, hlocked, hfresh⟩ := h
  have hdown : about id (handled down') = about id (handled down) ++ [m] := by
    rw [hhandled, about_append, if_pos hid]
  constructor
  · rintro frame rfl
    have hclient : (c.deliverReply frame).client = c.client := by
      rw [Connection.deliverReply]
      split_ifs <;> rfl
    refine ⟨⟨requests, replies, hdown ▸ hbefore.deliverReply frame⟩, fun m left hlock => ?_,
      fun hid => ?_⟩
    · rw [hclient]
      exact hlocked m left hlock
    · rw [hclient]
      exact hfresh hid
  · rintro rfl
    have hclient : c.close.client = c.client := by
      rw [Connection.close]
      split_ifs <;> rfl
    refine ⟨⟨requests, replies, hdown ▸ hbefore.close⟩, fun m left hlock => ?_, fun hid => ?_⟩
    · rw [hclient]
      exact hlocked m left hlock
    · rw [hclient]
      exact hfresh hid

/-- **The dispatcher** reads replies and ends only. -/
theorem Consistent.dispatch_step (h : s.Consistent) (hstep : s.dispatch n = some s') :
    s'.Consistent := by
  rw [State.dispatch] at hstep
  split_ifs at hstep
  split at hstep
  · cases hstep
  · next down hread =>
    cases hstep
    obtain ⟨hwhole, hsent, hlock, ⟨-, htaken⟩ | ⟨m, hr, -⟩⟩ :=
      h.down.read lawful_messageCodec hread
    · have hhandled : handled down = handled s.down := by rw [handled, handled, hsent, htaken]
      refine ⟨h.up, hwhole, h.dispatcher, h.bridge, fun id => ?_, fun id => ?_⟩
      · exact (h.relayFits id).congr rfl (by rw [hhandled]) fun m left hl => ⟨left, hl⟩
      · exact (h.bridgeFits id).congr rfl (by rw [hsent]) fun m left hl => ⟨left, hlock ▸ hl⟩
    · cases hr
  · next down m hread =>
    cases hstep
    obtain ⟨hwhole, hsent, hlock, ⟨hr, -⟩ | ⟨m', hr, hm, htaken⟩⟩ :=
      h.down.read lawful_messageCodec hread
    · cases hr
    · cases Option.some.inj hr
      have hhandled := handled_succ hsent htaken hm
      obtain ⟨hreply, hclose⟩ := fits_of_dispatch (h.relayFits m.id) rfl hhandled
      have hothers : ∀ id ≠ m.id, (s.connections id).Fits id s.up down s.nextId := by
        intro id hid
        refine (h.relayFits id).congr rfl ?_ fun m' left hl => ⟨left, hl⟩
        rw [hhandled, about_append_of_ne (Ne.symm hid)]
      have hagents : ∀ id, (s.agents id).Fits id s.up down := fun id =>
        (h.bridgeFits id).congr rfl (by rw [hsent]) fun m' left hl => ⟨left, hlock ▸ hl⟩
      have hset : ∀ c : Connection, c.Fits m.id s.up down s.nextId →
          ({ s with down := down }.set m.id c).Consistent := fun c hc =>
        ⟨h.up, hwhole, h.dispatcher, h.bridge, (Function.forall_update_iff s.connections fun id c =>
          c.Fits id s.up down s.nextId).mpr ⟨hc, hothers⟩, hagents⟩
      -- What the bridge has sent about a connection are replies and its end.
      obtain ⟨requests, replies, hagent⟩ := (h.bridgeFits m.id).follows
      have hmem : m ∈ about m.id s.down.sent :=
        mem_filter.mpr ⟨mem_of_getElem? hm, decide_eq_true rfl⟩
      rcases hagent.answers.mem hmem with ⟨frame, hframe⟩ | hend
      · have hfits := hset _ (hreply frame hframe)
        rw [hframe] at hfits ⊢
        exact hfits
      · have hfits := hset _ (hclose hend)
        rw [hend] at hfits ⊢
        exact hfits
  · next down e hread =>
    obtain ⟨-, -, -, ⟨hr, -⟩ | ⟨m, hr, -⟩⟩ := h.down.read lawful_messageCodec hread
    · cases hr
    · cases hr

/-- **The bridge** reads what opens a connection first, and then requests and ends only. -/
theorem Consistent.readBridge_step (h : s.Consistent) {started : Bool}
    (hstep : s.readBridge n started = some s') : s'.Consistent := by
  rw [State.readBridge] at hstep
  split_ifs at hstep
  split at hstep
  · cases hstep
  · next up hread =>
    cases hstep
    obtain ⟨hwhole, hsent, hlock, ⟨-, htaken⟩ | ⟨m, hr, -⟩⟩ := h.up.read lawful_messageCodec hread
    · have hhandled : handled up = handled s.up := by rw [handled, handled, hsent, htaken]
      refine ⟨hwhole, h.down, h.dispatcher, h.bridge, fun id => ?_, fun id => ?_⟩
      · exact (h.relayFits id).congr (by rw [hsent]) rfl fun m left hl => ⟨left, hlock ▸ hl⟩
      · exact (h.bridgeFits id).congr (by rw [hhandled]) rfl fun m left hl => ⟨left, hl⟩
    · cases hr
  · next up m hread =>
    cases hstep
    obtain ⟨hwhole, hsent, hlock, ⟨hr, -⟩ | ⟨m', hr, hm, htaken⟩⟩ :=
      h.up.read lawful_messageCodec hread
    · cases hr
    · cases Option.some.inj hr
      have hhandled := handled_succ hsent htaken hm
      have hconnections : ∀ id, (s.connections id).Fits id up s.down s.nextId := fun id =>
        (h.relayFits id).congr (by rw [hsent]) rfl fun m' left hl => ⟨left, hlock ▸ hl⟩
      have hothers : ∀ id ≠ m.id, (s.agents id).Fits id up s.down := by
        intro id hid
        refine (h.bridgeFits id).congr ?_ rfl fun m' left hl => ⟨left, hl⟩
        rw [hhandled, about_append_of_ne (Ne.symm hid)]
      have hset : ∀ c : AgentConnection, c.Fits m.id up s.down →
          ({ s with up := up }.setAgent m.id c).Consistent := fun c hc =>
        ⟨hwhole, h.down, h.dispatcher, h.bridge, hconnections,
          (Function.forall_update_iff s.agents fun id c => c.Fits id up s.down).mpr ⟨hc, hothers⟩⟩
      obtain ⟨⟨requests, replies, hagent⟩, hlocked⟩ := h.bridgeFits m.id
      have hup : about m.id (handled up) = about m.id (handled s.up) ++ [m] := by
        rw [hhandled, about_append_self]
      obtain ⟨requests', replies', hrelay⟩ := (h.relayFits m.id).follows
      have hnext : about m.id (handled s.up) ++ [m] <+: about m.id s.up.sent := by
        rw [← hup, ← hsent]
        exact about_mono (prefix_handled up) m.id
      rcases hrelay.sends.next hnext with ⟨hfirst, hopen⟩ | ⟨hlater, hmore⟩
      · rw [hfirst] at hagent hup
        have hworker : (s.agents m.id).worker = .unknown := by
          by_contra hknown
          cases hagent.known hknown
        have hfits := hset ((s.agents m.id).open started)
          ⟨⟨requests, replies, by rw [hup, hopen]; exact hagent.open started⟩, fun m' left hl => by
            have hm' := hlocked m' left hl
            rw [hworker] at hm'
            cases hm'⟩
        rw [hopen] at hfits ⊢
        exact hfits.working s.acceptor (if started then s.refusing else some m.id)
      · have hknown : (s.agents m.id).worker ≠ .unknown := fun hunknown =>
          hlater (hagent.unknown hunknown).1
        rcases hmore with ⟨frame, hframe⟩ | hend
        · have hworker : ((s.agents m.id).deliverRequest frame).worker = (s.agents m.id).worker := by
            rw [AgentConnection.deliverRequest]
            split_ifs <;> rfl
          have hfits := hset ((s.agents m.id).deliverRequest frame)
            ⟨⟨requests, replies, by rw [hup, hframe]; exact hagent.deliverRequest hknown frame⟩,
              fun m' left hl => by rw [hworker]; exact hlocked m' left hl⟩
          rw [hframe] at hfits ⊢
          exact hfits
        · have hfits := hset (s.agents m.id).close
            ⟨⟨requests, replies, by rw [hup, hend]; exact hagent.close hknown⟩, hlocked⟩
          rw [hend] at hfits ⊢
          exact hfits
  · next up e hread =>
    obtain ⟨-, -, -, ⟨hr, -⟩ | ⟨m, hr, -⟩⟩ := h.up.read lawful_messageCodec hread
    · cases hr
    · cases hr

/-! ### Runs -/

/-- Every step keeps the state consistent. -/
theorem Consistent.step (h : s.Consistent) {e : Event} (hstep : s.step e = some s') :
    s'.Consistent := by
  cases e with
  | accept => exact h.accept hstep
  | start started => exact h.start hstep
  | lockUp id => exact h.lockUp_step hstep
  | lockDown id => exact h.lockDown_step hstep
  | writeUp n => exact h.writeUp_step hstep
  | writeDown n => exact h.writeDown_step hstep
  | dispatch n => exact h.dispatch_step hstep
  | readBridge n started => exact h.readBridge_step hstep
  | readClient id transfer =>
    refine h.update (fun c c' up down requests replies hc hbefore =>
      ⟨requests, replies, hbefore.read_step hc⟩) (fun c c' hc => ?_) hstep
    rw [Connection.read] at hc
    split at hc
    · next buffer hclient =>
      rw [hclient]
      exact ⟨rfl, Client.noConfusion⟩
    · cases hc
  | receiveReply id =>
    refine h.update (fun c c' up down requests replies hc hbefore =>
      ⟨requests, hbefore.receiveReply hc⟩) (fun c c' hc => ?_) hstep
    rw [Connection.receiveReply] at hc
    split at hc
    · next hclient hreplies =>
      rw [hclient]
      exact ⟨rfl, Client.noConfusion⟩
    · next hclient hreplies =>
      rw [hclient]
      exact ⟨rfl, Client.noConfusion⟩
    · cases hc
  | writeClient id transfer =>
    refine h.update (fun c c' up down requests replies hc hbefore =>
      ⟨requests, replies, hbefore.write_step hc⟩) (fun c c' hc => ?_) hstep
    unfold Connection.write at hc
    split at hc
    · next hclient =>
      rw [hclient]
      exact ⟨rfl, Client.noConfusion⟩
    · next hclient =>
      rw [hclient]
      exact ⟨rfl, Client.noConfusion⟩
    · cases hc
  | removeEntry id =>
    obtain ⟨s₁, hremove, rfl⟩ := Option.map_eq_some_iff.mp hstep
    refine (h.update (fun c c' up down requests replies hc hbefore =>
      ⟨requests, replies, hbefore.removeEntry hc⟩) (fun c c' hc => ?_) hremove).release id
    rw [Connection.removeEntry] at hc
    split at hc
    · next hclient =>
      rw [hclient]
      exact ⟨rfl, Client.noConfusion⟩
    · cases hc
  | connect id connected =>
    refine h.updateAgent (fun c c' up down requests replies hc hbefore =>
      ⟨requests, replies, hbefore.connect hc⟩) (fun c c' hc => ?_) hstep
    rw [AgentConnection.connect] at hc
    split at hc
    · next hworker =>
      rw [hworker]
      rfl
    · cases hc
  | receiveRequest id =>
    refine h.updateAgent (fun c c' up down requests replies hc hbefore => ?_) (fun c c' hc => ?_) hstep
    · obtain ⟨requests, hafter⟩ := hbefore.receiveRequest hc
      exact ⟨requests, replies, hafter⟩
    · rw [AgentConnection.receiveRequest] at hc
      split at hc
      · next hworker hrequests =>
        rw [hworker]
        rfl
      · next hworker hrequests =>
        rw [hworker]
        rfl
      · cases hc
  | writeAgent id transfer =>
    refine h.updateAgent (fun c c' up down requests replies hc hbefore =>
      ⟨requests, replies, hbefore.write_step hc⟩) (fun c c' hc => ?_) hstep
    unfold AgentConnection.write at hc
    split at hc
    · next hworker =>
      rw [hworker]
      rfl
    · next hworker =>
      rw [hworker]
      rfl
    · cases hc
  | readAgent id transfer =>
    refine h.updateAgent (fun c c' up down requests replies hc hbefore =>
      ⟨requests, replies, hbefore.read_step hc⟩) (fun c c' hc => ?_) hstep
    rw [AgentConnection.read] at hc
    split at hc
    · next buffer hworker =>
      rw [hworker]
      rfl
    · cases hc
  | clientGives id bytes => exact h.clientGives hstep
  | agentGives id bytes => exact h.agentGives hstep
  | endDown =>
    simp only [State.step, endDown] at hstep
    split_ifs at hstep
    cases hstep
    exact ⟨h.up, h.down, fun _ h => (by cases h), h.bridge, h.relayFits, h.bridgeFits⟩
  | endUp =>
    simp only [State.step, endUp] at hstep
    split_ifs at hstep
    cases hstep
    refine ⟨h.up, h.down, h.dispatcher, fun _ h => (by cases h), h.relayFits, fun id => ?_⟩
    obtain ⟨⟨requests, replies, hc⟩, hlocked⟩ := h.bridgeFits id
    exact ⟨⟨requests, replies, hc.forgotten⟩, hlocked⟩
  | stop =>
    simp only [State.step, stop] at hstep
    split_ifs at hstep
    cases hstep
    refine ⟨h.up, h.down, h.dispatcher, h.bridge, fun id => ?_, h.bridgeFits⟩
    obtain ⟨⟨requests, replies, hc⟩, hlocked, hfresh⟩ := h.relayFits id
    exact ⟨⟨requests, replies, hc.shutDown.1⟩, by simpa using hlocked, by simpa using hfresh⟩

theorem consistent_at_end {events : List Event}
    (h : Run (fun s e s' => s.step e = some s') initial events s) : s.Consistent :=
  h.invariant consistent_initial fun _ _ _ hbefore hstep => hbefore.step hstep

end State

/-! ### Both halves together -/

/-- Messages of one kind that come before others. -/
theorem prefix_of_map_prefix {α β : Type} {f : α → β} (hf : Function.Injective f) {rest : List β}
    (hrest : ∀ b ∈ rest, ∀ a, f a ≠ b) {l l' : List α} (h : l.map f <+: l'.map f ++ rest) :
    l <+: l' := by
  induction l generalizing l' with
  | nil => exact List.nil_prefix
  | cons a l ih =>
    cases l' with
    | nil =>
      have hmem : f a ∈ rest := h.subset mem_cons_self
      exact absurd rfl (hrest _ hmem a)
    | cons a' l' =>
      obtain ⟨hhead, htail⟩ := cons_prefix_cons.mp h
      obtain rfl := hf hhead
      exact cons_prefix_cons.mpr ⟨rfl, ih htail⟩

/-- What the relay has sent ends with `Close` at most once. -/
theorem Sends.shape (h : Sends id requests client up) :
    up = [] ∨ ∃ closed, up = .open id :: (requests.map (.request id) ++ closed) ∧
      (closed = [] ∨ closed = [.close id] ∧ client = .gone) := by
  cases h with
  | nothing => exact .inl rfl
  | opened => exact .inr ⟨[], by rw [append_nil], .inl rfl⟩
  | closed => exact .inr ⟨_, rfl, .inr ⟨rfl, rfl⟩⟩

theorem Answers.shape (h : Answers id replies worker down) :
    ∃ closed, down = replies.map (.reply id) ++ closed ∧
      (closed = [] ∨ closed = [.close id] ∧ worker = .gone) := by
  cases h with
  | running => exact ⟨[], (append_nil _).symm, .inl rfl⟩
  | closed => exact ⟨_, rfl, .inr ⟨rfl, rfl⟩⟩

/-- After its `Close` a half is done with the connection. -/
theorem Sends.gone (h : Sends id requests client up) (hclosed : .close id ∈ up) :
    client = .gone := by
  rcases h.shape with rfl | ⟨closed, rfl, rfl | ⟨-, hgone⟩⟩
  · cases hclosed
  · rw [append_nil, mem_cons] at hclosed
    rcases hclosed with hopen | hrequest
    · cases hopen
    · obtain ⟨r, -, hr⟩ := mem_map.mp hrequest
      cases hr
  · exact hgone

theorem Answers.gone (h : Answers id replies worker down) (hclosed : .close id ∈ down) :
    worker = .gone := by
  obtain ⟨closed, rfl, rfl | ⟨-, hgone⟩⟩ := h.shape
  · rw [append_nil] at hclosed
    obtain ⟨r, -, hr⟩ := mem_map.mp hclosed
    cases hr
  · exact hgone

section Joined

variable {id : UInt32} {c : Connection} {a : AgentConnection} {up down : Stream}
  {requests replies requests' replies' : List Bytes}

/-- The worker takes requests that were sent. -/
theorem prefix_requests
    (hc : c.Follows id (about id up.sent) (about id (handled down)) requests replies)
    (ha : a.Follows id (about id (handled up)) (about id down.sent) requests' replies') :
    requests' <+: requests := by
  have htail : (about id (handled up)).tail <+: (about id up.sent).tail := by
    rw [← drop_one, ← drop_one]
    exact (about_mono (prefix_handled up) id).drop 1
  have hmap := ((prefix_append _ a.requests).map (Message.request id)).trans
    (ha.delivered.trans htail)
  rcases hc.sends.shape with hnone | ⟨closed, hsent, hclosed⟩
  · rw [hnone] at hmap
    have hnil := map_eq_nil_iff.mp (prefix_nil.mp hmap)
    rw [hnil]
    exact List.nil_prefix
  · rw [hsent, tail_cons] at hmap
    refine prefix_of_map_prefix (fun x y hxy => (Message.request.inj hxy).2) (fun m hm r hr => ?_) hmap
    rcases hclosed with rfl | ⟨rfl, -⟩
    · cases hm
    · rw [mem_singleton.mp hm] at hr
      cases hr

/-- The client takes replies that were sent. -/
theorem prefix_replies
    (hc : c.Follows id (about id up.sent) (about id (handled down)) requests replies)
    (ha : a.Follows id (about id (handled up)) (about id down.sent) requests' replies') :
    replies <+: replies' := by
  have hmap := ((prefix_append _ c.replies).map (Message.reply id)).trans
    (hc.delivered.trans (about_mono (prefix_handled down) id))
  obtain ⟨closed, hsent, hclosed⟩ := ha.answers.shape
  rw [hsent] at hmap
  refine prefix_of_map_prefix (fun x y hxy => (Message.reply.inj hxy).2) (fun m hm r hr => ?_) hmap
  rcases hclosed with rfl | ⟨rfl, -⟩
  · cases hm
  · rw [mem_singleton.mp hm] at hr
    cases hr

/-- What the dispatcher reads about a connection that the relay has closed changes nothing. -/
theorem dispatch_of_closed {s : State}
    (hc : (s.connections id).Follows id (about id s.up.sent) (about id (handled s.down)) requests
      replies)
    (ha : (s.agents id).Follows id (about id (handled s.up)) (about id s.down.sent) requests'
      replies')
    (hclosed : .close id ∈ s.up.sent) {m : Message} (hm : m ∈ s.down.pending) (hid : m.id = id) :
    s.dispatchMessage m = s := by
  have hgone := hc.sends.gone (mem_filter.mpr ⟨hclosed, decide_eq_true rfl⟩)
  have hentry : (s.connections id).entry = false := by
    by_contra hentry
    have hlisted := (hc.entry (Bool.eq_true_of_not_eq_false hentry)).2
    rw [hgone] at hlisted
    cases hlisted
  have hsame : ∀ c, c = s.connections id → s.set id c = s := by
    rintro c rfl
    rw [State.set, Function.update_eq_self]
  have hsent : m ∈ about id s.down.sent :=
    mem_filter.mpr ⟨mem_of_mem_drop hm, decide_eq_true hid⟩
  rcases ha.answers.mem hsent with ⟨frame, rfl⟩ | rfl
  · refine hsame _ ?_
    rw [Connection.deliverReply, hentry]
    exact if_neg Bool.false_ne_true
  · refine hsame _ ?_
    rw [Connection.close, hentry]
    exact if_neg Bool.false_ne_true

/-- What the bridge reads about a connection that it has closed only takes it out of the table. -/
theorem bridge_of_closed {s : State}
    (hc : (s.connections id).Follows id (about id s.up.sent) (about id (handled s.down)) requests
      replies)
    (ha : (s.agents id).Follows id (about id (handled s.up)) (about id s.down.sent) requests'
      replies')
    (hclosed : .close id ∈ s.down.sent) {m : Message} (hm : m ∈ s.up.pending) (hid : m.id = id)
    (started : Bool) :
    s.bridgeMessage started m = s.setAgent id { s.agents id with registered := false } := by
  have hgone := ha.answers.gone (mem_filter.mpr ⟨hclosed, decide_eq_true rfl⟩)
  have hopened := ha.known (by simp [hgone])
  -- `Open` was read, so that what is under way was sent after it.
  have hlater : ∃ before, before ≠ [] ∧ before ++ [m] <+: about id s.up.sent := by
    obtain ⟨before, after, hsplit⟩ := append_of_mem hm
    refine ⟨about id (handled s.up ++ before), fun hnil => ?_, ?_⟩
    · have hnone := about_mono (prefix_append (handled s.up) before) id
      rw [hnil, prefix_nil] at hnone
      rw [hnone] at hopened
      cases hopened
    · have hsent : handled s.up ++ before ++ [m] <+: s.up.sent := by
        refine ⟨after, ?_⟩
        rw [append_assoc, append_assoc, singleton_append, ← hsplit]
        exact take_append_drop ..
      have hstarts := about_mono hsent id
      rwa [about_append, if_pos hid] at hstarts
  obtain ⟨before, hne, hnext⟩ := hlater
  rcases hc.sends.next hnext with ⟨hfirst, -⟩ | ⟨-, ⟨frame, rfl⟩ | rfl⟩
  · exact absurd hfirst hne
  · refine congrArg (s.setAgent id) ?_
    rw [AgentConnection.deliverRequest]
    split_ifs with hregistered
    · rfl
    · rw [← Bool.eq_false_of_not_eq_true hregistered]
  · rfl

end Joined

/-- **The relay answers each client with its own replies.** Neither half fails, and the streams carry
whole messages. For some number of messages that a client has sent, its agent has got at least these,
and only this client's; the client gets no more than so many replies of its agent, in order. Either half
says at most once that it has closed a connection, and nothing after it; the relay opens it first,
and the bridge says nothing before it has read that. What a half reads about a connection that it
has closed changes nothing. -/
theorem exchanged {events : List Event} {s : State}
    (h : Run (fun s e s' => s.step e = some s') State.initial events s) :
    (∀ e, s.dispatcher ≠ .failed e) ∧ (∀ e, s.bridge ≠ .failed e) ∧
    s.up.Whole messageCodec Message.Framed ∧ s.down.Whole messageCodec Message.Framed ∧ ∀ id,
      (∃ n, n ≤ (agentFrames (s.connections id).peer.given).length ∧
        ((agentFrames (s.connections id).peer.given).take n).flatten <+:
          (s.agents id).peer.received ∧
        (s.connections id).peer.received <+:
          ((agentFrames (s.agents id).peer.given).take n).flatten) ∧
      (s.agents id).peer.received <+: (agentFrames (s.connections id).peer.given).flatten ∧
      (about id s.up.sent = [] ∨ ∃ requests closed,
        about id s.up.sent = .open id :: (requests.map (.request id) ++ closed) ∧
        requests <+: agentFrames (s.connections id).peer.given ∧
        (closed = [] ∨ closed = [.close id])) ∧
      (∃ replies closed, about id s.down.sent = replies.map (.reply id) ++ closed ∧
        replies <+: agentFrames (s.agents id).peer.given ∧
        (closed = [] ∨ closed = [.close id])) ∧
      (about id s.down.sent ≠ [] → .open id ∈ handled s.up) ∧
      (.close id ∈ s.up.sent → ∀ m ∈ s.down.pending, m.id = id → s.dispatchMessage m = s) ∧
      (.close id ∈ s.down.sent → ∀ m ∈ s.up.pending, m.id = id → ∀ started,
        s.bridgeMessage started m =
          s.setAgent id { s.agents id with registered := false }) := by
  have hs := State.consistent_at_end h
  refine ⟨hs.dispatcher, hs.bridge, hs.up, hs.down, fun id => ?_⟩
  obtain ⟨requests, replies, hc⟩ := (hs.relayFits id).follows
  obtain ⟨requests', replies', ha⟩ := (hs.bridgeFits id).follows
  have hrequests := prefix_requests hc ha
  have hreplies := prefix_replies hc ha
  have hgiven := prefix_agentFrames hc.read.framed hc.read.given
  have hanswered := prefix_agentFrames ha.read.framed ha.read.given
  refine ⟨⟨replies'.length, ?_, ?_, ?_⟩, ?_, ?_, ?_, ?_, ?_, ?_⟩
  · exact ha.count.trans (hrequests.trans hgiven).length_le
  · have htake : requests'.take replies'.length =
        (agentFrames (s.connections id).peer.given).take replies'.length := by
      obtain ⟨rest, hrest⟩ := hrequests.trans hgiven
      rw [← hrest, take_append_of_le_length ha.count]
    exact htake ▸ ha.whole
  · rw [← prefix_iff_eq_take.mp hanswered]
    exact hc.written.received.trans hreplies.flatten
  · exact ha.written.received.trans (hrequests.trans hgiven).flatten
  · rcases hc.sends.shape with hnone | ⟨closed, hsent, hclosed⟩
    · exact .inl hnone
    · exact .inr ⟨requests, closed, hsent, hgiven, hclosed.imp_right And.left⟩
  · obtain ⟨closed, hsent, hclosed⟩ := ha.answers.shape
    exact ⟨replies', closed, hsent, hanswered, hclosed.imp_right And.left⟩
  · intro hsaid
    have hknown : (s.agents id).worker ≠ .unknown := fun hunknown =>
      hsaid (ha.unknown hunknown).2
    have hopen := mem_of_mem_head? (ha.known hknown)
    exact (mem_filter.mp hopen).1
  · exact fun hclosed m hm hid => dispatch_of_closed hc ha hclosed hm hid
  · exact fun hclosed m hm hid started => bridge_of_closed hc ha hclosed hm hid started

/-- A client comes, asks and is answered. -/
def answered : List Event :=
  [.accept, .lockUp 1, .writeUp 4, .writeUp 5, .start true, .readBridge 9 true, .connect 1 true,
    .clientGives 1 [0, 0, 0, 1, 11], .readClient 1 (.some 4), .readClient 1 (.some 1), .lockUp 1,
    .writeUp 14, .readBridge 9 true, .readBridge 5 true, .receiveRequest 1, .writeAgent 1 (.some 5),
    .writeAgent 1 (.some 0), .agentGives 1 [0, 0, 0, 1, 12], .readAgent 1 (.some 4),
    .readAgent 1 (.some 1), .lockDown 1, .writeDown 14, .dispatch 9, .dispatch 5, .receiveReply 1,
    .writeClient 1 (.some 5)]

theorem exchanged_answered : ∃ s : State, (s.connections 1).peer.received = [0, 0, 0, 1, 12] ∧
    ∃ n, n ≤ (agentFrames (s.connections 1).peer.given).length ∧
      ((agentFrames (s.connections 1).peer.given).take n).flatten <+:
        (s.agents 1).peer.received ∧
      (s.connections 1).peer.received <+:
        ((agentFrames (s.agents 1).peer.given).take n).flatten := by
  obtain ⟨s, hrun, hreceived⟩ := exists_run_of_foldlM (f := fun s e => State.step s e)
    (P := fun s => (s.connections 1).peer.received = [0, 0, 0, 1, 12]) answered (s := State.initial)
    (by decide +kernel)
  exact ⟨s, hreceived, ((exchanged hrun).2.2.2.2 1).1⟩

end Zetta.Wslx
