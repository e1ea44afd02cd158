import Zetta.Zmux.SharedReader

/-!
# What the reader of a shared pane gives

* `Pane.Streams`: what was returned, and what waits to be, are the payloads that came whole, in
  order and once each, connection after connection, each after what it replays. What is left of
  the connection begins with a message.
* `Ended.Whole`: nothing that came whole on a connection that was given up is missing.

A time-out inside a payload loses what was read of it, so that both hold only where a replacement is
there to be installed then.
-/

namespace Zetta.Zmux.SharedReader

open List
open Transport (Serde takeFrame takeFrame_frameOf takeFrame_of_short frameOf MAX_MESSAGE_BYTES
  READ_BUFFER RAW_READ_CHUNK)

variable {serde : Serde Event}

/-! ### The bytes of the items -/

def payloads (items : List Item) : List UInt8 := items.flatMap Item.payload

def sizesOf (items : List Item) : List PaneSize := items.filterMap Item.size?

theorem Item.bytes_eq_some {item : Item} {bytes : List UInt8}
    (h : item.bytes serde = some bytes) : ∃ body, bytes = frameOf body ++ item.payload ∧
      body.length ≤ MAX_MESSAGE_BYTES ∧ serde.fromSlice body = some item.event := by
  obtain ⟨encoded, hencoded, rfl⟩ := Option.map_eq_some_iff.mp h
  cases hmessage : Transport.encodeMessage serde item.event with
  | error e =>
    rw [hmessage] at hencoded
    cases hencoded
  | ok frame =>
    rw [hmessage] at hencoded
    cases hencoded
    obtain ⟨body, rfl, hlength, hslice⟩ := Transport.encodeMessage_eq_ok hmessage
    exact ⟨body, rfl, hlength, hslice⟩

theorem wire_cons {item : Item} {items : List Item} {bytes : List UInt8}
    (h : wire serde (item :: items) = some bytes) : ∃ own rest, item.bytes serde = some own ∧
      wire serde items = some rest ∧ bytes = own ++ rest := by
  rw [wire] at h
  obtain ⟨own, hown, h⟩ := Option.bind_eq_some_iff.mp h
  obtain ⟨rest, hrest, h⟩ := Option.bind_eq_some_iff.mp h
  exact ⟨own, rest, hown, hrest, (Option.some.inj h).symm⟩

/-- A message is taken off what has come, once it is whole. -/
theorem takeFrame_cases {body left rest : List UInt8} (hbody : body.length ≤ MAX_MESSAGE_BYTES)
    (h : left <+: frameOf body ++ rest) :
    takeFrame left = .ok none ∧ left.length < (frameOf body).length ∨
      ∃ more, left = frameOf body ++ more ∧ takeFrame left = .ok (some (body, more)) := by
  obtain ⟨later, hlater⟩ := h
  obtain hshort | hwhole := lt_or_ge left.length (frameOf body).length
  · exact .inl ⟨takeFrame_of_short hbody hlater hshort, hshort⟩
  · obtain ⟨more, rfl⟩ : frameOf body <+: left :=
      prefix_of_prefix_length_le ⟨rest, rfl⟩ ⟨later, hlater⟩ hwhole
    exact .inr ⟨more, rfl, takeFrame_frameOf hbody more⟩

namespace Connection

variable {c c' : Connection} {limit : ℕ}

/-- A read takes off what is coming, and a time-out leaves it. -/
theorem readSome_cases (c : Connection) (limit : ℕ) :
    (∃ bytes c', c.readSome limit = (.read bytes, c') ∧ bytes.length ≤ limit ∧
      c'.leftover = c.leftover ∧ c.coming = bytes ++ c'.coming) ∨
    (∃ c', c.readSome limit = (.timedOut, c') ∧ c'.leftover = c.leftover ∧
      c'.coming = c.coming ∧ ∃ reads, c.reads = .timedOut :: reads) ∨
    (c.readSome limit = (.failed, c) ∧ c.coming = []) := by
  unfold readSome coming
  cases hreads : c.reads with
  | nil => exact .inr (.inr ⟨rfl, rfl⟩)
  | cons read reads =>
    cases read with
    | timedOut => exact .inr (.inl ⟨_, rfl, rfl, rfl, _, rfl⟩)
    | data bytes =>
      dsimp only
      rw [arriving]
      split_ifs with hempty hfits
      · exact .inr (.inr ⟨rfl, rfl⟩)
      · exact .inl ⟨bytes, _, rfl, hfits, rfl, rfl⟩
      · refine .inl ⟨_, _, rfl, length_take_le .., rfl, ?_⟩
        have hrest : bytes.drop limit ≠ [] := by
          rw [Ne, drop_eq_nil_iff]
          exact hfits
        rw [arriving, if_neg hrest, ← append_assoc, take_append_drop]

end Connection

/-! ### A connection that was given up -/

namespace Ended

/-- Its end was announced, or the next item had not come whole. -/
def Whole (e : Ended serde) : Prop :=
  (e.source.items.take e.taken).getLast? = some .sharedClosed ∨
  ∀ item bytes, e.source.items[e.taken]? = some item → item.bytes serde = some bytes →
    e.rest.length < bytes.length

def payloads (e : Ended serde) : List UInt8 :=
  e.source.replay ++ SharedReader.payloads (e.source.items.take e.taken)

def sizes (e : Ended serde) : List PaneSize := sizesOf (e.source.items.take e.taken)

end Ended

namespace Pane

variable {s s' : Pane serde}

/-! ### What was taken -/

/-- The items of the connection that is read. -/
def took (s : Pane serde) : List Item := s.source.items.take s.taken

def toTake (s : Pane serde) : List Item := s.source.items.drop s.taken

/-- All that is to be returned of what was taken. -/
def due (s : Pane serde) : List UInt8 :=
  s.earlier.flatMap Ended.payloads ++ s.source.replay ++ payloads s.took

/-- What is left of the connection begins with an item, and is all of it but what a failure cuts
off. -/
def Aligned (s : Pane serde) : Prop :=
  ∃ bytes, wire serde s.toTake = some bytes ∧
    s.connection.leftover ++ s.connection.coming <+: bytes

/-- The bytes that are read are the next item's payload. -/
structure Within (s : Pane serde) (length : ℕ) (bytes : List UInt8) : Prop where
  next : ∃ payload items rest, s.toTake = .output payload :: items ∧ payload.length = length ∧
    wire serde s.toTake ≠ none ∧ wire serde items = some rest ∧
    bytes ++ s.connection.leftover ++ s.connection.coming <+: payload ++ rest
  fits : bytes.length ≤ length
  first : bytes.length < length → s.connection.leftover = []

/-- Nothing waits to be returned. -/
def Drained (s : Pane serde) : Prop := s.pending = [] ∧ s.reconnectReplay = []

structure Streams (s : Pane serde) : Prop where
  bytes : s.returned ++ s.pending ++ s.reconnectReplay = s.due
  aligned : (∀ room length bytes, s.phase ≠ .payload room length bytes) → s.Aligned
  within : ∀ room length bytes, s.phase = .payload room length bytes → s.Within length bytes
  receiving : ∀ room, s.phase = .receiving room → s.Drained
  payload : ∀ room length bytes, s.phase = .payload room length bytes → s.Drained
  whole : ∀ e ∈ s.earlier, e.Whole

variable {item : Item} {items : List Item}

theorem took_succ (h : s.toTake = item :: items) :
    s.source.items.take (s.taken + 1) = s.took ++ [item] ∧
      s.source.items.drop (s.taken + 1) = items := by
  rw [toTake] at h
  have hlt : s.taken < s.source.items.length := by
    by_contra hge
    rw [drop_eq_nil_of_le (not_lt.mp hge)] at h
    cases h
  rw [drop_eq_getElem_cons hlt] at h
  obtain ⟨hitem, hitems⟩ := List.cons.inj h
  exact ⟨by rw [took, take_add_one, getElem?_eq_getElem hlt, hitem]; rfl, hitems⟩

theorem next_item (h : s.toTake = item :: items) :
    s.source.items[s.taken]? = some item := by
  rw [toTake] at h
  have hget := congrArg (fun l => l[0]?) h
  simpa using hget

/-- A source that is installed begins with an item. -/
theorem aligned_of_source (source : Source serde) :
    ∃ bytes, wire serde (source.items.drop 0) = some bytes ∧
      source.connection.leftover ++ source.connection.coming <+: bytes :=
  source.carries

/-- A replacement is installed, or the call ends. -/
theorem Streams.install (room : ℕ) (rest : List UInt8) (lost : Bool)
    (hbytes : s.returned = s.due) (hdrained : s.Drained) (hwhole : ∀ e ∈ s.earlier, e.Whole)
    (hended : (⟨s.source, s.taken, rest⟩ : Ended serde).Whole)
    (haligned : s.readerHandoffs = [] → s.Aligned) : (s.install room rest lost).Streams := by
  have hreturned : s.returned ++ s.pending ++ s.reconnectReplay = s.due := by
    rw [hdrained.1, hdrained.2, append_nil, append_nil]
    exact hbytes
  rw [Pane.install]
  cases hhandoffs : s.readerHandoffs with
  | nil =>
    exact ⟨hreturned, fun _ => haligned hhandoffs, fun _ _ _ h => (by cases h),
      fun _ h => (by cases h), fun _ _ _ h => (by cases h), hwhole⟩
  | cons source readerHandoffs =>
    refine ⟨?_, fun _ => aligned_of_source source, fun _ _ _ h => (by cases h),
      fun _ h => (by cases h), fun _ _ _ h => (by cases h), fun e he => ?_⟩
    · -- What the connection gave is behind it, and the replay is what waits.
      have hnone : payloads (source.items.take 0) = [] := by rw [take_zero]; rfl
      simp only [due, took, flatMap_append, flatMap_cons, flatMap_nil,
        append_nil, hnone]
      rw [hdrained.1, hdrained.2, append_nil, nil_append, hbytes, due, took,
        Ended.payloads]
      simp only [append_assoc]
    · obtain hmem | hmem := mem_append.mp he
      · exact hwhole e hmem
      · rw [mem_singleton.mp hmem]
        exact hended

variable {room : ℕ}

/-- What is there already is given first. -/
theorem Streams.loop (h : s.Streams) (hphase : s.phase = .looping room) :
    (s.loop room).Streams := by
  have haligned : s.Aligned := h.aligned fun _ _ _ hpayload => by
    rw [hphase] at hpayload
    cases hpayload
  have hbytes := h.bytes
  rw [Pane.loop]
  split_ifs with hpending hreplay
  · refine ⟨?_, fun _ => haligned, fun _ _ _ h => (by cases h), fun _ h => (by cases h),
      fun _ _ _ h => (by cases h), h.whole⟩
    change s.returned ++ s.pending.take room ++ s.pending.drop room ++ s.reconnectReplay = s.due
    rw [append_assoc s.returned, take_append_drop]
    exact hbytes
  · refine ⟨?_, fun _ => haligned, fun _ _ _ h => (by cases h), fun _ h => (by cases h),
      fun _ _ _ h => (by cases h), h.whole⟩
    rw [not_not] at hpending
    rw [hpending, append_nil] at hbytes
    change s.returned ++ s.reconnectReplay.take room ++ s.pending ++ s.reconnectReplay.drop room =
      s.due
    rw [hpending, append_nil, append_assoc, take_append_drop]
    exact hbytes
  · exact ⟨hbytes, fun _ => haligned, fun _ _ _ h => (by cases h),
      fun _ _ => ⟨not_not.mp hpending, not_not.mp hreplay⟩, fun _ _ _ h => (by cases h), h.whole⟩

/-- What the next message is, and what it leaves. -/
structure NextItem (s : Pane serde) (item : Item) (items : List Item) (body left : List UInt8) :
    Prop where
  toTake : s.toTake = item :: items
  sent : wire serde s.toTake ≠ none
  slice : serde.fromSlice body = some item.event
  rest : ∃ bytes, wire serde items = some bytes ∧
    left ++ s.connection.coming <+: item.payload ++ bytes

/-- While the next message is not whole, the reader waits for it. -/
theorem Aligned.receive_cases (h : s.Aligned) :
    takeFrame s.connection.leftover = .ok none ∧
      s.connection.leftover.length ≤ MAX_MESSAGE_BYTES + 4 ∧
      (∀ item bytes, s.source.items[s.taken]? = some item → item.bytes serde = some bytes →
        s.connection.leftover.length < bytes.length) ∨
    ∃ item items body left, takeFrame s.connection.leftover = .ok (some (body, left)) ∧
      s.NextItem item items body left := by
  obtain ⟨bytes, hwire, hcome⟩ := h
  cases htake : s.toTake with
  | nil =>
    rw [htake, wire] at hwire
    rw [← Option.some.inj hwire, prefix_nil, append_eq_nil_iff] at hcome
    refine .inl ⟨by rw [hcome.1]; rfl, by rw [hcome.1]; exact Nat.zero_le _, fun item _ hitem => ?_⟩
    have hnone : s.source.items[s.taken]? = none := by
      rw [getElem?_eq_none_iff]
      exact drop_eq_nil_iff.mp htake
    exact nomatch hitem.symm.trans hnone
  | cons item items =>
    have hsent : wire serde s.toTake ≠ none := by simp [hwire]
    rw [htake] at hwire
    obtain ⟨own, rest, hown, hrest, rfl⟩ := wire_cons hwire
    obtain ⟨body, rfl, hbody, hslice⟩ := Item.bytes_eq_some hown
    rw [append_assoc] at hcome
    have hleft : s.connection.leftover <+: frameOf body ++ (item.payload ++ rest) :=
      (prefix_append _ _).trans hcome
    obtain ⟨hnone, hshort⟩ | ⟨left, hleftover, hframe⟩ := takeFrame_cases hbody hleft
    · refine .inl ⟨hnone, ?_, fun next bytes hother hbytes => ?_⟩
      · have hlength : (frameOf body).length = 4 + body.length := by simp [frameOf]
        omega
      · cases (next_item htake).symm.trans hother
        rw [← Option.some.inj (hown.symm.trans hbytes), length_append]
        omega
    · refine .inr ⟨item, items, body, left, hframe, htake, hsent, hslice, rest, hrest, ?_⟩
      rw [hleftover, append_assoc] at hcome
      exact (prefix_append_right_inj _).mp hcome

variable {body left : List UInt8}

/-- A message that ends where it does is behind the reader. -/
theorem NextItem.taken (h : s.NextItem item items body left) (hpayload : item.payload = [])
    (connection : Connection) (hleft : connection.leftover = left)
    (hcoming : connection.coming = s.connection.coming) :
    ∃ bytes, wire serde (s.source.items.drop (s.taken + 1)) = some bytes ∧
      connection.leftover ++ connection.coming <+: bytes := by
  obtain ⟨bytes, hbytes, hcome⟩ := h.rest
  rw [hpayload, nil_append] at hcome
  rw [(took_succ h.toTake).2, hleft, hcoming]
  exact ⟨bytes, hbytes, hcome⟩

theorem NextItem.due (h : s.NextItem item items body left) :
    s.earlier.flatMap Ended.payloads ++ s.source.replay ++
      payloads (s.source.items.take (s.taken + 1)) = s.due ++ item.payload := by
  rw [(took_succ h.toTake).1, Pane.due, payloads, payloads, flatMap_append,
    flatMap_singleton, ← append_assoc]

theorem Streams.dispatch (h : s.Streams) (hphase : s.phase = .receiving room)
    (hnext : s.NextItem item items body left) :
    (s.dispatch room left item.event).Streams := by
  have hdrained := h.receiving room hphase
  have hbytes := h.bytes
  have hdue := hnext.due
  cases item with
  | output payload =>
    obtain ⟨rest, hrest, hcome⟩ := hnext.rest
    refine ⟨hbytes, fun hnot => absurd rfl (hnot _ _ _), fun room' length bytes hpayload => ?_,
      fun _ h => (by cases h), fun _ _ _ _ => hdrained, h.whole⟩
    cases hpayload
    refine ⟨⟨payload, items, rest, hnext.toTake, rfl, hnext.sent, hrest, ?_⟩, ?_, fun hshort => ?_⟩
    · change left.take payload.length ++ left.drop payload.length ++ s.connection.coming <+: _
      rw [take_append_drop]
      exact hcome
    · exact length_take_le ..
    · rw [length_take] at hshort
      exact drop_eq_nil_of_le (by omega)
  | size size =>
    have haligned := hnext.taken rfl { s.connection with leftover := left } rfl rfl
    refine ⟨?_, fun _ => haligned, fun _ _ _ h => (by cases h), fun _ h => (by cases h),
      fun _ _ _ h => (by cases h), h.whole⟩
    exact hbytes.trans ((append_nil _).symm.trans hdue.symm)
  | sharedClosed =>
    have haligned := hnext.taken rfl { s.connection with leftover := left } rfl rfl
    refine Streams.install room left false ?_ hdrained h.whole (.inl ?_) fun _ => haligned
    · rw [hdrained.1, hdrained.2, append_nil, append_nil] at hbytes
      exact hbytes.trans ((append_nil _).symm.trans hdue.symm)
    · exact (congrArg List.getLast? (took_succ hnext.toTake).1).trans getLast?_concat
  | other =>
    have haligned := hnext.taken rfl { s.connection with leftover := left } rfl rfl
    refine ⟨?_, fun _ => haligned, fun _ _ _ h => (by cases h), fun _ h => (by cases h),
      fun _ _ _ h => (by cases h), h.whole⟩
    exact hbytes.trans ((append_nil _).symm.trans hdue.symm)

theorem Streams.receive (h : s.Streams) (hphase : s.phase = .receiving room) :
    (s.receive room).Streams := by
  have haligned : s.Aligned := h.aligned fun _ _ _ hpayload => by
    rw [hphase] at hpayload
    cases hpayload
  have hdrained := h.receiving room hphase
  have hreturned : s.returned = s.due := by
    have hbytes := h.bytes
    rwa [hdrained.1, hdrained.2, append_nil, append_nil] at hbytes
  rw [Pane.receive]
  obtain ⟨hnone, hshort, hended⟩ | ⟨item, items, body, left, hframe, hnext⟩ :=
    haligned.receive_cases
  · rw [hnone]
    dsimp only
    rw [if_neg (not_lt.mpr hshort)]
    obtain ⟨bytes, c, hread, -, hleft, hcoming⟩ | ⟨c, hread, hleft, hcoming, -⟩ | ⟨hread, -⟩ :=
      s.connection.readSome_cases READ_BUFFER
    · rw [hread]
      refine ⟨h.bytes, fun _ => ?_, fun _ _ _ hpayload => ?_, fun _ _ => hdrained,
        fun _ _ _ hpayload => ?_, h.whole⟩
      · obtain ⟨all, hall, hcome⟩ := haligned
        refine ⟨all, hall, ?_⟩
        rw [hcoming, ← append_assoc] at hcome
        dsimp only
        rw [hleft]
        exact hcome
      · exact nomatch hphase.symm.trans hpayload
      · exact nomatch hphase.symm.trans hpayload
    · rw [hread]
      refine Streams.install room s.connection.leftover false hreturned hdrained h.whole
        (.inr hended) fun _ => ?_
      obtain ⟨all, hall, hcome⟩ := haligned
      refine ⟨all, hall, ?_⟩
      dsimp only
      rw [hleft, hcoming]
      exact hcome
    · rw [hread]
      exact Streams.install room s.connection.leftover true hreturned hdrained h.whole
        (.inr hended) fun _ => haligned
  · rw [hframe]
    dsimp only
    rw [hnext.slice]
    exact h.dispatch hphase hnext

/-- A payload that is whole is given, and what has no room waits. -/
theorem Streams.readPayload (h : s.Streams) {length : ℕ} {bytes : List UInt8}
    (hphase : s.phase = .payload room length bytes)
    (hmeets : bytes.length < length → (∃ reads, s.connection.reads = .timedOut :: reads) →
      s.readerHandoffs ≠ []) : (s.readPayload room length bytes).Streams := by
  obtain ⟨⟨payload, items, rest, htake, rfl, hsent, hrest, hcome⟩, hfits, hfirst⟩ :=
    h.within room length bytes hphase
  have hdrained := h.payload room payload.length bytes hphase
  have hreturned : s.returned = s.due := by
    have hbytes := h.bytes
    rwa [hdrained.1, hdrained.2, append_nil, append_nil] at hbytes
  rw [Pane.readPayload]
  split_ifs with hwhole
  · -- What was read is the payload.
    obtain rfl : bytes = payload := by
      have hbytes : bytes <+: payload ++ rest :=
        ((prefix_append bytes _).trans (prefix_append _ _)).trans hcome
      exact (prefix_of_prefix_length_le hbytes (prefix_append payload rest) hfits).eq_of_length
        (le_antisymm hfits hwhole)
    refine ⟨?_, fun _ => ⟨rest, ?_, ?_⟩, fun _ _ _ h => (by cases h), fun _ h => (by cases h),
      fun _ _ _ h => (by cases h), h.whole⟩
    · have hdue : s.earlier.flatMap Ended.payloads ++ s.source.replay ++
          payloads (s.source.items.take (s.taken + 1)) = s.due ++ bytes := by
        rw [(took_succ htake).1, due, payloads, payloads, flatMap_append,
          flatMap_singleton, ← append_assoc]
        rfl
      change s.returned ++ bytes.take room ++ bytes.drop room ++ s.reconnectReplay = _
      rw [hdrained.2, append_nil, append_assoc, take_append_drop, hreturned]
      exact hdue.symm
    · exact (congrArg (wire serde) (took_succ htake).2).trans hrest
    · rw [append_assoc] at hcome
      exact (prefix_append_right_inj _).mp hcome
  · have hshort := not_le.mp hwhole
    have hended : (⟨s.source, s.taken, bytes⟩ : Ended serde).Whole := by
      refine .inr fun item own hitem hown => ?_
      cases (next_item htake).symm.trans hitem
      obtain ⟨body, rfl, -⟩ := Item.bytes_eq_some hown
      rw [length_append]
      exact hshort.trans_le (Nat.le_add_left _ _)
    obtain ⟨more, c, hread, hmore, hleft, hcoming⟩ | ⟨c, hread, hleft, hcoming, htimedOut⟩ |
        ⟨hread, hcoming⟩ :=
      s.connection.readSome_cases (min (payload.length - bytes.length) RAW_READ_CHUNK)
    · rw [hread]
      refine ⟨h.bytes, fun hnot => absurd rfl (hnot _ _ _), fun room' length' bytes' hpayload => ?_,
        fun _ h => (by cases h), fun _ _ _ _ => hdrained, h.whole⟩
      cases hpayload
      refine ⟨⟨payload, items, rest, htake, rfl, hsent, hrest, ?_⟩, ?_, fun _ => ?_⟩
      · rw [hfirst hshort, append_nil, hcoming, ← append_assoc] at hcome
        dsimp only
        rw [hleft, hfirst hshort, append_nil]
        exact hcome
      · rw [length_append]
        omega
      · exact hleft.trans (hfirst hshort)
    · rw [hread]
      exact Streams.install room bytes false hreturned hdrained h.whole hended fun hnone =>
        absurd hnone (hmeets hshort htimedOut)
    · rw [hread]
      refine Streams.install room bytes true hreturned hdrained h.whole hended fun _ => ?_
      -- The connection has failed: nothing more comes.
      obtain ⟨all, hall⟩ := Option.ne_none_iff_exists'.mp hsent
      refine ⟨all, hall, ?_⟩
      rw [hfirst hshort, hcoming]
      exact List.nil_prefix

end Pane

end Zetta.Zmux.SharedReader
