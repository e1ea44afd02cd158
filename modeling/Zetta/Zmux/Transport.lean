import Zetta.Lib.BigEndian

/-!
# Messages and descriptors on a connection

A connection of the multiplexer carries messages, each framed by its length, and raw payloads.
Descriptors travel beside the first byte of a message. The receiver reads into a buffer that
belongs to the connection and cuts the messages out of it, so a read may end one message and
begin the next.

* `receiveAll_contents`: however the socket cuts the stream into reads, the messages and the
  raw payloads come back in order and whole.
* `receiveAll_eq_iff`: each message comes back with exactly its own descriptors if and only if
  no read returns descriptors that belong to a message it does not begin with. The other reads
  give the descriptors of a message to the one before it.
-/

namespace Zetta.Zmux.Transport

open List

/-- A control message longer than this is refused rather than buffered. -/
def MAX_MESSAGE_BYTES : ℕ := 64 * 1024
/-- The buffer of one read for a message. -/
def READ_BUFFER : ℕ := 8192
/-- How much of a raw payload is read at a time. -/
def RAW_READ_CHUNK : ℕ := 64 * 1024
def MAX_DESCRIPTORS : ℕ := 4

variable {μ δ : Type}

/-- The serialization of messages. What is written is read back. -/
structure Serde (μ : Type) where
  toVec : μ → Option (List UInt8)
  fromSlice : List UInt8 → Option μ
  fromSlice_toVec : ∀ {message bytes}, toVec message = some bytes → fromSlice bytes = some message

/-- One byte of the stream and the descriptors that ride on it. -/
structure Cell (δ : Type) where
  byte : UInt8
  descriptors : List δ

/-- Bytes that nothing rides on. -/
def plain (bytes : List UInt8) : List (Cell δ) := bytes.map fun b => ⟨b, []⟩

/-- Bytes sent together with descriptors, which ride on the first of them. -/
def attach (descriptors : List δ) : List UInt8 → List (Cell δ)
  | [] => []
  | b :: bytes => ⟨b, descriptors⟩ :: plain bytes

def bytesOf (cells : List (Cell δ)) : List UInt8 := cells.map Cell.byte

def descriptorsOf (cells : List (Cell δ)) : List δ := cells.flatMap Cell.descriptors

/-! ### Sending -/

def encodeMessage (serde : Serde μ) (message : μ) : Except String (List UInt8) :=
  match serde.toVec message with
  | none => .error "serializing"
  | some bytes =>
    if MAX_MESSAGE_BYTES < bytes.length then .error "multiplexer message is too long"
    else .ok (beBytes 4 bytes.length ++ bytes)

def sendWithDescriptors (payload : List UInt8) (descriptors : List δ) :
    Except String (List (Cell δ)) :=
  if payload = [] then .error "descriptors must accompany at least one byte"
  else if MAX_DESCRIPTORS < descriptors.length then
    .error s!"at most {MAX_DESCRIPTORS} descriptors may be sent at once"
  else .ok (attach descriptors payload)

/-- What one end puts on a connection. -/
inductive Outgoing (μ δ : Type) where
  | send (message : μ)
  | sendWith (message : μ) (descriptors : List δ)
  | writeAll (payload : List UInt8)

/-- The bytes that go out, if the call succeeds. -/
def Outgoing.cells (serde : Serde μ) : Outgoing μ δ → Except String (List (Cell δ))
  | .send message => return plain (← encodeMessage serde message)
  | .sendWith message descriptors => do
    sendWithDescriptors (← encodeMessage serde message) descriptors
  | .writeAll payload => return plain payload

/-- The stream that a sequence of calls puts on the connection. -/
def transmit (serde : Serde μ) (items : List (Outgoing μ δ)) : Except String (List (Cell δ)) :=
  return (← items.mapM (Outgoing.cells serde)).flatten

/-! ### Receiving -/

inductive ReceiveError where
  | failed (text : String)
  /-- A read returned more than its buffer holds, which no socket does. -/
  | overrun
  deriving DecidableEq

/-- The connection of the receiver: what has been read and not used, and the reads that the
socket will return. -/
structure Connection (δ : Type) where
  leftover : List UInt8
  incoming : List (List (Cell δ))

/-- Takes the first frame off a buffer, once all of it is there. -/
def takeFrame (buffer : List UInt8) : Except ReceiveError (Option (List UInt8 × List UInt8)) :=
  if buffer.length < 4 then .ok none
  else
    let length := ofBeBytes (buffer.take 4)
    if MAX_MESSAGE_BYTES < length then .error (.failed "multiplexer message is too long")
    else if buffer.length < 4 + length then .ok none
    else .ok (some ((buffer.drop 4).take length, buffer.drop (4 + length)))

/-- `receive_until` without a deadline, from the reads to come, what is left over and the
descriptors collected so far. -/
def receiveUntil (serde : Serde μ) :
    List (List (Cell δ)) → List UInt8 → List δ →
      Except ReceiveError ((μ × List δ) × Connection δ)
  | incoming, leftover, handles => do
    match ← takeFrame leftover with
    | some (frame, rest) =>
      match serde.fromSlice frame with
      | none => .error (.failed "parsing multiplexer message")
      | some message => .ok ((message, handles), ⟨rest, incoming⟩)
    | none =>
      if MAX_MESSAGE_BYTES + 4 < leftover.length then
        .error (.failed "multiplexer message is too long")
      else
        match incoming with
        | [] => .error (.failed "the multiplexer connection closed")
        | read :: incoming =>
          if READ_BUFFER < read.length then .error .overrun
          else if read = [] then .error (.failed "the multiplexer connection closed")
          else receiveUntil serde incoming (leftover ++ bytesOf read) (handles ++ descriptorsOf read)

/-- Receives one message and the descriptors that came with its reads. -/
def Connection.receive (serde : Serde μ) (c : Connection δ) :
    Except ReceiveError ((μ × List δ) × Connection δ) :=
  receiveUntil serde c.incoming c.leftover []

/-- The loop of `read_exact_until`: reads of at most what is missing. Descriptors that such a
read meets are lost. -/
def readMissing (length : ℕ) :
    List (List (Cell δ)) → List UInt8 → Except ReceiveError (List UInt8 × List (List (Cell δ)))
  | incoming, bytes =>
    if length ≤ bytes.length then .ok (bytes, incoming)
    else
      match incoming with
      | [] => .error (.failed "unexpected end of file")
      | read :: incoming =>
        if min (length - bytes.length) RAW_READ_CHUNK < read.length then .error .overrun
        else if read = [] then .error (.failed "unexpected end of file")
        else readMissing length incoming (bytes ++ bytesOf read)

/-- Reads exactly some raw bytes, beginning with what is buffered. -/
def Connection.readExact (length : ℕ) (c : Connection δ) :
    Except ReceiveError (List UInt8 × Connection δ) := do
  let buffered := min c.leftover.length length
  let (bytes, incoming) ← readMissing length c.incoming (c.leftover.take buffered)
  return (bytes, ⟨c.leftover.drop buffered, incoming⟩)

/-- What the receiver gets. -/
inductive Received (μ δ : Type) where
  | message (message : μ) (descriptors : List δ)
  | payload (bytes : List UInt8)
  deriving DecidableEq

/-- The call that is made for one item of the conversation: `receive` for a message,
`read_exact` for a raw payload, whose length both ends know. -/
def Outgoing.receive (serde : Serde μ) (c : Connection δ) :
    Outgoing μ δ → Except ReceiveError (Received μ δ × Connection δ)
  | .send _ | .sendWith _ _ => do
    let ((message, descriptors), c) ← c.receive serde
    return (.message message descriptors, c)
  | .writeAll payload => do
    let (bytes, c) ← c.readExact payload.length
    return (.payload bytes, c)

/-- One call for each item, in order. -/
def receiveAll (serde : Serde μ) :
    Connection δ → List (Outgoing μ δ) → Except ReceiveError (List (Received μ δ))
  | _, [] => .ok []
  | c, item :: items => do
    let (received, c) ← item.receive serde c
    return received :: (← receiveAll serde c items)

/-- What was sent, as it is to be received. -/
def Outgoing.sent : Outgoing μ δ → Received μ δ
  | .send message => .message message []
  | .sendWith message descriptors => .message message descriptors
  | .writeAll payload => .payload payload

/-! ### Bytes and descriptors of a stretch of the stream -/

@[simp]
theorem bytesOf_append (as bs : List (Cell δ)) : bytesOf (as ++ bs) = bytesOf as ++ bytesOf bs :=
  map_append ..

@[simp]
theorem descriptorsOf_append (as bs : List (Cell δ)) :
    descriptorsOf (as ++ bs) = descriptorsOf as ++ descriptorsOf bs := flatMap_append ..

@[simp]
theorem length_bytesOf (cells : List (Cell δ)) : (bytesOf cells).length = cells.length :=
  length_map ..

@[simp]
theorem bytesOf_plain (bytes : List UInt8) : bytesOf (plain bytes : List (Cell δ)) = bytes := by
  simp [bytesOf, plain, Function.comp_def]

@[simp]
theorem descriptorsOf_plain (bytes : List UInt8) :
    descriptorsOf (plain bytes : List (Cell δ)) = [] := by
  simp [descriptorsOf, plain]

@[simp]
theorem bytesOf_attach (descriptors : List δ) (bytes : List UInt8) :
    bytesOf (attach descriptors bytes) = bytes := by
  cases bytes with
  | nil => rfl
  | cons b bytes => exact congrArg (b :: ·) (bytesOf_plain bytes)

theorem attach_nil (bytes : List UInt8) : attach ([] : List δ) bytes = plain bytes := by
  cases bytes <;> rfl

/-- Nothing rides on these bytes. -/
def Unmarked (cells : List (Cell δ)) : Prop := descriptorsOf cells = []

variable {as bs : List (Cell δ)}

theorem unmarked_append :
    Unmarked (as ++ bs) ↔ Unmarked as ∧ Unmarked bs := by
  simp [Unmarked]

theorem Unmarked.of_suffix (h : Unmarked bs) (hsuffix : as <:+ bs) :
    Unmarked as := by
  obtain ⟨cs, rfl⟩ := hsuffix
  exact (unmarked_append.mp h).2

/-- A read that returns no descriptors but those of the message that it begins with. -/
def Aligned (read : List (Cell δ)) : Prop := Unmarked read.tail

/-- If descriptors ride on the first byte of some reads only, then the reads are aligned. -/
theorem aligned_of_unmarked_tail {reads : List (List (Cell δ))} (hne : ∀ read ∈ reads, read ≠ [])
    (h : Unmarked reads.flatten.tail) : ∀ read ∈ reads, Aligned read := by
  cases reads with
  | nil => exact fun read hread => absurd hread not_mem_nil
  | cons first reads =>
    obtain ⟨c, cells, rfl⟩ := exists_cons_of_ne_nil (hne first (mem_cons_self ..))
    have hrest : Unmarked cells ∧ Unmarked reads.flatten := by
      simpa [unmarked_append] using h
    intro read hread
    rcases mem_cons.mp hread with rfl | hread
    · exact hrest.1
    · obtain ⟨before, after, hsplit⟩ := append_of_mem hread
      have hflat := hrest.2
      rw [hsplit, flatten_append, flatten_cons] at hflat
      have hmid : Unmarked read := (unmarked_append.mp (unmarked_append.mp hflat).2).1
      exact hmid.of_suffix (List.tail_suffix read)

/-! ### One message -/

/-- A frame as it lies on the wire. -/
def frameOf (body : List UInt8) : List UInt8 := beBytes 4 body.length ++ body

variable {body : List UInt8}

theorem takeFrame_frameOf (h : body.length ≤ MAX_MESSAGE_BYTES) (rest : List UInt8) :
    takeFrame (frameOf body ++ rest) = .ok (some (body, rest)) := by
  have hheader : (frameOf body ++ rest).take 4 = beBytes 4 body.length := by
    rw [frameOf, append_assoc, take_left' (length_beBytes 4 _)]
  have hbody : (frameOf body ++ rest).drop 4 = body ++ rest := by
    rw [frameOf, append_assoc, drop_left' (length_beBytes 4 _)]
  have hlength : ofBeBytes (beBytes 4 body.length) = body.length :=
    ofBeBytes_beBytes_of_lt (by simp only [MAX_MESSAGE_BYTES] at h; omega)
  have hlong : (frameOf body ++ rest).length = 4 + body.length + rest.length := by
    simp [frameOf, Nat.add_assoc]
  rw [takeFrame, if_neg (by omega), hheader, hlength]
  simp only [hbody, ← drop_drop]
  rw [if_neg (by omega), if_neg (by omega), take_left, drop_left]

/-- What has arrived of a frame before all of it has. -/
theorem takeFrame_of_short {buffer more rest : List UInt8} (h : body.length ≤ MAX_MESSAGE_BYTES)
    (hstarts : buffer ++ more = frameOf body ++ rest)
    (hshort : buffer.length < (frameOf body).length) : takeFrame buffer = .ok none := by
  have hframe : (frameOf body).length = 4 + body.length := by simp [frameOf]
  rw [takeFrame]
  split_ifs with hheader
  · rfl
  have htake : buffer.take 4 = beBytes 4 body.length := by
    have := congrArg (List.take 4) hstarts
    rwa [take_append_of_le_length (by omega), frameOf, append_assoc,
      take_left' (length_beBytes 4 _)] at this
  have hlength : ofBeBytes (beBytes 4 body.length) = body.length :=
    ofBeBytes_beBytes_of_lt (by simp only [MAX_MESSAGE_BYTES] at h; omega)
  simp only [htake, hlength]
  rw [if_neg (by omega), if_pos (by omega)]

variable {rest cells : List (Cell δ)} {message : μ}

/-- **One message**: it is read whole, with the descriptors of every read that was made for it,
and what follows it is left over. -/
theorem receiveUntil_spec (serde : Serde μ) (hbody : body.length ≤ MAX_MESSAGE_BYTES)
    (hslice : serde.fromSlice body = some message) (hcells : bytesOf cells = frameOf body) :
    ∀ (incoming : List (List (Cell δ))) (acc : List (Cell δ)) (handles : List δ),
      (∀ read ∈ incoming, read ≠ []) → acc ++ incoming.flatten = cells ++ rest →
      receiveUntil serde incoming (bytesOf acc) handles = .error .overrun ∨
        ∃ taken later left, incoming = taken ++ later ∧ acc ++ taken.flatten = cells ++ left ∧
          (taken = [] ∧ left <:+ acc ∨ ∃ read ∈ taken, left <:+ read.tail) ∧
          receiveUntil serde incoming (bytesOf acc) handles =
            .ok ((message, handles ++ descriptorsOf taken.flatten), ⟨bytesOf left, later⟩) := by
  have hlen : cells.length = (frameOf body).length := by rw [← hcells, length_bytesOf]
  have hframe : (frameOf body).length = 4 + body.length := by simp [frameOf]
  intro incoming
  induction incoming with
  | nil =>
    intro acc handles _ hstream
    rw [flatten_nil, append_nil] at hstream
    refine .inr ⟨[], [], rest, rfl, by simpa using hstream, .inl ⟨rfl, cells, hstream.symm⟩, ?_⟩
    rw [receiveUntil, hstream, bytesOf_append, hcells, takeFrame_frameOf hbody]
    simp [hslice, bind, Except.bind, descriptorsOf]
  | cons read incoming ih =>
    intro acc handles hne hstream
    by_cases hwhole : cells.length ≤ acc.length
    · -- The frame has arrived: nothing is read for it.
      obtain ⟨left, rfl⟩ : ∃ left, acc = cells ++ left := by
        obtain ⟨left, hleft⟩ :=
          prefix_of_prefix_length_le ⟨rest, rfl⟩ ⟨_, hstream⟩ hwhole
        exact ⟨left, hleft.symm⟩
      refine .inr ⟨[], read :: incoming, left, rfl, by simp, .inl ⟨rfl, cells, rfl⟩, ?_⟩
      rw [receiveUntil, bytesOf_append, hcells, takeFrame_frameOf hbody]
      simp [hslice, bind, Except.bind, descriptorsOf]
    · have hbytes : bytesOf acc ++ bytesOf (read :: incoming).flatten =
          frameOf body ++ bytesOf rest := by
        rw [← bytesOf_append, hstream, bytesOf_append, hcells]
      have hshort : takeFrame (bytesOf acc) = .ok none :=
        takeFrame_of_short hbody hbytes (by rw [length_bytesOf]; omega)
      have hnext : receiveUntil serde (read :: incoming) (bytesOf acc) handles =
          if READ_BUFFER < read.length then .error .overrun
          else receiveUntil serde incoming (bytesOf (acc ++ read))
            (handles ++ descriptorsOf read) := by
        rw [receiveUntil, hshort]
        simp only [bind, Except.bind, length_bytesOf, bytesOf_append]
        rw [if_neg (by omega), if_neg (hne read (mem_cons_self ..))]
      rw [hnext]
      split_ifs with hover
      · exact .inl rfl
      rcases ih (acc ++ read) (handles ++ descriptorsOf read)
        (fun r hr => hne r (mem_cons_of_mem _ hr))
        (by rw [append_assoc]; exact hstream) with hfail | ⟨taken, later, left, rfl, hsplit, hleft, hok⟩
      · exact .inl hfail
      refine .inr ⟨read :: taken, later, left, rfl, ?_, .inr ?_, ?_⟩
      · rw [flatten_cons, ← append_assoc, hsplit]
      · rcases hleft with ⟨rfl, -⟩ | ⟨r, hr, hleft⟩
        · -- The frame ends inside this read, which begins before its end.
          rw [flatten_nil, append_nil] at hsplit
          rcases append_eq_append_iff.mp hsplit with ⟨tail, rfl, hread⟩ | ⟨tail, rfl, -⟩
          · obtain ⟨c, tail, rfl⟩ := exists_cons_of_ne_nil
              (show tail ≠ [] by rintro rfl; simp at hwhole)
            exact ⟨read, mem_cons_self .., tail, by rw [hread]; rfl⟩
          · simp at hwhole
        · exact ⟨r, mem_cons_of_mem _ hr, hleft⟩
      · rw [hok, flatten_cons, descriptorsOf_append, append_assoc]

/-! ### One raw payload -/

theorem readMissing_spec :
    ∀ (incoming : List (List (Cell δ))) (acc : List (Cell δ)),
      (∀ read ∈ incoming, read ≠ []) → acc.length ≤ cells.length →
      acc ++ incoming.flatten = cells ++ rest →
      readMissing cells.length incoming (bytesOf acc) = .error .overrun ∨
        ∃ taken later, incoming = taken ++ later ∧ acc ++ taken.flatten = cells ∧
          readMissing cells.length incoming (bytesOf acc) = .ok (bytesOf cells, later) := by
  intro incoming
  induction incoming with
  | nil =>
    intro acc _ hle hstream
    rw [flatten_nil, append_nil] at hstream
    obtain rfl : rest = [] := by
      rw [hstream, length_append] at hle
      exact length_eq_zero_iff.mp (by omega)
    obtain rfl : acc = cells := by rw [hstream, append_nil]
    exact .inr ⟨[], [], rfl, by simp, by simp [readMissing]⟩
  | cons read incoming ih =>
    intro acc hne hle hstream
    by_cases hwhole : acc.length = cells.length
    · obtain ⟨rfl, -⟩ := append_inj hstream hwhole
      exact .inr ⟨[], read :: incoming, rfl, by simp, by simp [readMissing]⟩
    · have hnext : readMissing cells.length (read :: incoming) (bytesOf acc) =
          if min (cells.length - acc.length) RAW_READ_CHUNK < read.length then .error .overrun
          else readMissing cells.length incoming (bytesOf (acc ++ read)) := by
        rw [readMissing]
        simp only [length_bytesOf, bytesOf_append]
        rw [if_neg (by omega), if_neg (hne read (mem_cons_self ..))]
      rw [hnext]
      split_ifs with hover
      · exact .inl rfl
      rcases ih (acc ++ read) (fun r hr => hne r (mem_cons_of_mem _ hr))
        (by rw [length_append]; omega) (by rw [append_assoc]; exact hstream)
        with hfail | ⟨taken, later, rfl, hsplit, hok⟩
      · exact .inl hfail
      · exact .inr ⟨read :: taken, later, rfl,
          by rw [flatten_cons, ← append_assoc, hsplit], hok⟩

variable {acc : List (Cell δ)} {incoming : List (List (Cell δ))}

/-- **One raw payload**: exactly its bytes are consumed. A read for it never goes past its end,
so it meets no descriptors of what follows. -/
theorem readExact_spec (hne : ∀ read ∈ incoming, read ≠ [])
    (hstream : acc ++ incoming.flatten = cells ++ rest) :
    Connection.readExact cells.length ⟨bytesOf acc, incoming⟩ = .error .overrun ∨
      ∃ taken later left, incoming = taken ++ later ∧ acc ++ taken.flatten = cells ++ left ∧
        (taken = [] ∧ left <:+ acc ∨ left = []) ∧
        Connection.readExact cells.length ⟨bytesOf acc, incoming⟩ =
          .ok (bytesOf cells, ⟨bytesOf left, later⟩) := by
  rw [Connection.readExact]
  by_cases hwhole : cells.length ≤ acc.length
  · obtain ⟨left, rfl⟩ : ∃ left, acc = cells ++ left := by
      obtain ⟨left, hleft⟩ := prefix_of_prefix_length_le ⟨rest, rfl⟩ ⟨_, hstream⟩ hwhole
      exact ⟨left, hleft.symm⟩
    refine .inr ⟨[], incoming, left, rfl, by simp, .inl ⟨rfl, cells, rfl⟩, ?_⟩
    have hbuffered : min (bytesOf (cells ++ left)).length cells.length = cells.length := by simp
    simp only [hbuffered]
    rw [bytesOf_append, take_left' (length_bytesOf cells), drop_left' (length_bytesOf cells)]
    have hdone : readMissing cells.length incoming (bytesOf cells) =
        .ok (bytesOf cells, incoming) := by
      rw [readMissing.eq_def]
      simp
    simp [hdone, bind, Except.bind, pure, Except.pure]
  · have hbuffered : min (bytesOf acc).length cells.length = (bytesOf acc).length := by
      rw [length_bytesOf]
      omega
    simp only [hbuffered, take_length, drop_length]
    rcases readMissing_spec incoming acc hne (by omega) hstream with
      hfail | ⟨taken, later, rfl, hsplit, hok⟩
    · exact .inl (by rw [hfail]; rfl)
    · exact .inr ⟨taken, later, [], rfl, by simpa using hsplit, .inr rfl,
        by rw [hok]; rfl⟩

/-! ### The whole conversation -/

/-- A message without the descriptors that came with it. -/
def Received.bare : Received μ δ → Received μ δ
  | .message m _ => .message m []
  | .payload bytes => .payload bytes

variable {bytes : List UInt8} {serde : Serde μ}

theorem encodeMessage_eq_ok (h : encodeMessage serde message = .ok bytes) :
    ∃ body, bytes = frameOf body ∧ body.length ≤ MAX_MESSAGE_BYTES ∧
      serde.fromSlice body = some message := by
  rw [encodeMessage] at h
  split at h
  · cases h
  next body hvec =>
    split_ifs at h with hlong
    exact ⟨body, (Except.ok.inj h).symm, by omega, serde.fromSlice_toVec hvec⟩

variable {item : Outgoing μ δ} {descriptors : List δ}

/-- What the two calls that send a message put on the wire. -/
theorem cells_message (hsent : item.sent = .message message descriptors)
    (h : item.cells serde = .ok cells) :
    ∃ body, cells = attach descriptors (frameOf body) ∧ body.length ≤ MAX_MESSAGE_BYTES ∧
      serde.fromSlice body = some message := by
  cases item with
  | writeAll payload => cases hsent
  | send sent =>
    obtain ⟨rfl, rfl⟩ : sent = message ∧ [] = descriptors := by simpa [Outgoing.sent] using hsent
    cases hencode : encodeMessage serde sent with
    | error e => simp [Outgoing.cells, hencode, bind, Except.bind] at h
    | ok bytes =>
      obtain ⟨body, rfl, hbody⟩ := encodeMessage_eq_ok hencode
      refine ⟨body, ?_, hbody⟩
      simp only [Outgoing.cells, hencode, bind, Except.bind, pure, Except.pure,
        Except.ok.injEq] at h
      rw [← h, attach_nil]
  | sendWith sent sentDescriptors =>
    obtain ⟨rfl, rfl⟩ : sent = message ∧ sentDescriptors = descriptors := by
      simpa [Outgoing.sent] using hsent
    cases hencode : encodeMessage serde sent with
    | error e => simp [Outgoing.cells, hencode, bind, Except.bind] at h
    | ok bytes =>
      obtain ⟨body, rfl, hbody⟩ := encodeMessage_eq_ok hencode
      refine ⟨body, ?_, hbody⟩
      simp only [Outgoing.cells, hencode, bind, Except.bind, sendWithDescriptors] at h
      split_ifs at h
      exact (Except.ok.inj h).symm

/-- The reads made for one message give exactly its descriptors if and only if they are
aligned, and then nothing rides on what is left over. -/
theorem descriptorsOf_taken {left : List (Cell δ)} {taken : List (List (Cell δ))}
    (hbytes : bytes ≠ []) (hne : ∀ read ∈ taken, read ≠ []) (hacc : Unmarked acc)
    (hsplit : acc ++ taken.flatten = attach descriptors bytes ++ left)
    (hleft : taken = [] ∧ left <:+ acc ∨ ∃ read ∈ taken, left <:+ read.tail) :
    (descriptorsOf taken.flatten = descriptors ↔ ∀ read ∈ taken, Aligned read) ∧
      (descriptorsOf taken.flatten = descriptors → Unmarked left) := by
  obtain ⟨b, bytes, rfl⟩ := exists_cons_of_ne_nil hbytes
  have hdescriptors : descriptorsOf taken.flatten = descriptors ++ descriptorsOf left := by
    have := congrArg descriptorsOf hsplit
    rw [descriptorsOf_append, hacc, nil_append, descriptorsOf_append] at this
    rwa [attach, show descriptorsOf (⟨b, descriptors⟩ :: plain bytes) =
      descriptors ++ descriptorsOf (plain bytes) from rfl, descriptorsOf_plain,
      append_nil] at this
  have hiff : descriptorsOf taken.flatten = descriptors ↔ Unmarked left := by
    rw [hdescriptors, append_right_eq_self, Unmarked]
  refine ⟨hiff.trans ⟨fun hunmarked => ?_, fun haligned => ?_⟩, hiff.mp⟩
  · refine aligned_of_unmarked_tail hne ?_
    have htail : Unmarked (acc ++ taken.flatten).tail := by
      rw [hsplit, attach, cons_append, tail_cons, unmarked_append]
      exact ⟨descriptorsOf_plain bytes, hunmarked⟩
    cases acc with
    | nil => exact htail
    | cons c acc =>
      rw [cons_append, tail_cons, unmarked_append] at htail
      exact htail.2.of_suffix (List.tail_suffix _)
  · rcases hleft with ⟨-, hleft⟩ | ⟨read, hread, hleft⟩
    · exact hacc.of_suffix hleft
    · exact (haligned read hread).of_suffix hleft

/-- One call, whatever it is for. -/
theorem receive_spec (serde : Serde μ) (hcells : item.cells serde = .ok cells)
    (hne : ∀ read ∈ incoming, read ≠ []) (hstream : acc ++ incoming.flatten = cells ++ rest) :
    item.receive serde ⟨bytesOf acc, incoming⟩ = .error .overrun ∨
      ∃ taken later left received, incoming = taken ++ later ∧
        acc ++ taken.flatten = cells ++ left ∧
        item.receive serde ⟨bytesOf acc, incoming⟩ = .ok (received, ⟨bytesOf left, later⟩) ∧
        received.bare = item.sent.bare ∧
        (Unmarked acc → (received = item.sent ↔ ∀ read ∈ taken, Aligned read) ∧
          (received = item.sent → Unmarked left)) := by
  -- Both calls that send a message are answered by `receive`.
  have hmessage : ∀ {message descriptors}, item.sent = .message message descriptors →
      (item.receive serde ⟨bytesOf acc, incoming⟩ =
        (Connection.receive serde ⟨bytesOf acc, incoming⟩).map
          fun r => (.message r.1.1 r.1.2, r.2)) →
      item.receive serde ⟨bytesOf acc, incoming⟩ = .error .overrun ∨
      ∃ taken later left received, incoming = taken ++ later ∧
        acc ++ taken.flatten = cells ++ left ∧
        item.receive serde ⟨bytesOf acc, incoming⟩ = .ok (received, ⟨bytesOf left, later⟩) ∧
        received.bare = item.sent.bare ∧
        (Unmarked acc → (received = item.sent ↔ ∀ read ∈ taken, Aligned read) ∧
          (received = item.sent → Unmarked left)) := by
    intro message descriptors hsent hreceive
    obtain ⟨body, rfl, hbody, hslice⟩ := cells_message hsent hcells
    rw [hreceive, Connection.receive]
    rcases receiveUntil_spec serde hbody hslice (bytesOf_attach descriptors _) incoming acc []
      hne hstream with hfail | ⟨taken, later, left, rfl, hsplit, hleft, hok⟩
    · exact .inl (by rw [hfail]; rfl)
    refine .inr ⟨taken, later, left, .message message (descriptorsOf taken.flatten), rfl, hsplit,
      by rw [hok]; rfl, by rw [hsent]; rfl, fun hacc => ?_⟩
    rw [hsent, Received.message.injEq, and_iff_right rfl]
    exact descriptorsOf_taken (by simp [frameOf, beBytes])
      (fun r hr => hne r (mem_append_left _ hr)) hacc hsplit hleft
  cases item with
  | send message => exact hmessage rfl (by
      rw [Outgoing.receive]
      cases Connection.receive serde (⟨bytesOf acc, incoming⟩ : Connection δ) <;> rfl)
  | sendWith message descriptors => exact hmessage rfl (by
      rw [Outgoing.receive]
      cases Connection.receive serde (⟨bytesOf acc, incoming⟩ : Connection δ) <;> rfl)
  | writeAll payload =>
    obtain rfl : plain payload = cells := Except.ok.inj hcells
    have hlength : payload.length = (plain payload : List (Cell δ)).length := by simp [plain]
    rw [Outgoing.receive, hlength]
    rcases readExact_spec hne hstream with hfail | ⟨taken, later, left, rfl, hsplit, hleft, hok⟩
    · exact .inl (by rw [hfail]; rfl)
    refine .inr ⟨taken, later, left, .payload payload, rfl, hsplit,
      by rw [hok, bytesOf_plain]; rfl, rfl, fun hacc => ?_⟩
    have hunmarked : Unmarked left := by
      rcases hleft with ⟨-, hleft⟩ | rfl
      · exact hacc.of_suffix hleft
      · rfl
    refine ⟨⟨fun _ => ?_, fun _ => rfl⟩, fun _ => hunmarked⟩
    have hall : Unmarked (acc ++ taken.flatten) := by
      rw [hsplit, unmarked_append]
      exact ⟨descriptorsOf_plain payload, hunmarked⟩
    exact aligned_of_unmarked_tail (fun r hr => hne r (mem_append_left _ hr))
      ((unmarked_append.mp hall).2.of_suffix (List.tail_suffix _))

theorem transmit_cons {items : List (Outgoing μ δ)} {stream : List (Cell δ)}
    (h : transmit serde (item :: items) = .ok stream) :
    ∃ cells rest, item.cells serde = .ok cells ∧ transmit serde items = .ok rest ∧
      stream = cells ++ rest := by
  rw [transmit, mapM_cons] at h
  cases hcells : item.cells serde with
  | error e => simp [hcells, bind, Except.bind] at h
  | ok cells =>
    cases hrest : items.mapM (Outgoing.cells serde) with
    | error e => simp [hcells, hrest, bind, Except.bind] at h
    | ok rest =>
      simp only [hcells, hrest, bind, Except.bind, pure, Except.pure, Except.ok.injEq] at h
      exact ⟨cells, rest.flatten, rfl, by simp [transmit, hrest, bind, Except.bind, pure,
        Except.pure], by rw [← h, flatten_cons]⟩

/-- All calls, from any point between two of them. -/
theorem receiveAll_spec (serde : Serde μ) :
    ∀ (items : List (Outgoing μ δ)) (acc stream : List (Cell δ))
      (incoming : List (List (Cell δ))), transmit serde items = .ok stream →
      (∀ read ∈ incoming, read ≠ []) → acc ++ incoming.flatten = stream →
      receiveAll serde ⟨bytesOf acc, incoming⟩ items = .error .overrun ∨
        ∃ received, receiveAll serde ⟨bytesOf acc, incoming⟩ items = .ok received ∧
          received.map Received.bare = items.map (fun item => item.sent.bare) ∧
          (Unmarked acc →
            (received = items.map Outgoing.sent ↔ ∀ read ∈ incoming, Aligned read)) := by
  intro items
  induction items with
  | nil =>
    intro acc stream incoming hsent hne hstream
    obtain rfl : [] = stream := Except.ok.inj hsent
    refine .inr ⟨[], rfl, rfl, fun _ => iff_of_true rfl fun read hread => ?_⟩
    have hnothing := (append_eq_nil_iff.mp hstream).2
    exact absurd (flatten_eq_nil_iff.mp hnothing read hread) (hne read hread)
  | cons item items ih =>
    intro acc stream incoming hsent hne hstream
    obtain ⟨cells, rest, hcells, hrest, rfl⟩ := transmit_cons hsent
    rw [receiveAll]
    rcases receive_spec serde hcells hne hstream with
      hfail | ⟨taken, later, left, got, rfl, hsplit, hok, hbare, hmarks⟩
    · exact .inl (by rw [hfail]; rfl)
    have hlater : left ++ later.flatten = rest := by
      rw [flatten_append, ← append_assoc, hsplit, append_assoc] at hstream
      exact append_cancel_left hstream
    rcases ih left rest later hrest (fun r hr => hne r (mem_append_right _ hr)) hlater with
      hfail | ⟨received, hreceived, hbares, hiff⟩
    · exact .inl (by rw [hok]; simp [hfail, bind, Except.bind])
    refine .inr ⟨got :: received, ?_, ?_, fun hacc => ?_⟩
    · rw [hok]
      simp [hreceived, bind, Except.bind, pure, Except.pure]
    · rw [map_cons, map_cons, hbare, hbares]
    obtain ⟨hgot, hleft⟩ := hmarks hacc
    rw [map_cons, List.cons.injEq, forall_mem_append, ← hgot]
    exact and_congr_right fun heq => hiff (hleft heq)

section Conversation

variable (serde : Serde μ) (items : List (Outgoing μ δ)) (reads : List (List (Cell δ)))

/-- **Contents**: for every segmentation of the stream into reads that fit the buffers they are
made into, the messages and the raw payloads come back in order, each whole. -/
theorem receiveAll_contents (hsent : transmit serde items = .ok reads.flatten)
    (hne : ∀ read ∈ reads, read ≠ [])
    (hfits : receiveAll serde ⟨[], reads⟩ items ≠ .error .overrun) :
    ∃ received, receiveAll serde ⟨[], reads⟩ items = .ok received ∧
      received.map Received.bare = items.map fun item => item.sent.bare := by
  rcases receiveAll_spec serde items [] _ reads hsent hne rfl with
    hfail | ⟨received, hok, hbare, -⟩
  · exact absurd hfail hfits
  · exact ⟨received, hok, hbare⟩

/-- **Descriptors**: for every segmentation of the stream into reads that fit the buffers they
are made into, every message comes back with exactly the descriptors it was sent with if and
only if every read returns descriptors only of the message that it begins with. -/
theorem receiveAll_eq_iff (hsent : transmit serde items = .ok reads.flatten)
    (hne : ∀ read ∈ reads, read ≠ [])
    (hfits : receiveAll serde ⟨[], reads⟩ items ≠ .error .overrun) :
    receiveAll serde ⟨[], reads⟩ items = .ok (items.map Outgoing.sent) ↔
      ∀ read ∈ reads, Aligned read := by
  rcases receiveAll_spec serde items [] _ reads hsent hne rfl with
    hfail | ⟨received, hok, -, hiff⟩
  · exact absurd hfail hfits
  · change receiveAll serde ⟨[], reads⟩ items = .ok received at hok
    rw [hok, Except.ok.injEq]
    exact hiff rfl

end Conversation

/-- Serialization of the two JSON truth values. -/
def boolSerde : Serde Bool where
  toVec b := some (if b then [116, 114, 117, 101] else [102, 97, 108, 115, 101])
  fromSlice bytes :=
    if bytes = [116, 114, 117, 101] then some true
    else if bytes = [102, 97, 108, 115, 101] then some false
    else none
  fromSlice_toVec := by
    intro message bytes h
    cases h
    cases message <;> decide

/-- Two messages, the second with a descriptor. -/
def twoMessages : List (Outgoing Bool ℕ) := [.send true, .sendWith false [3]]

/-- A read for each message. -/
def readEach : List (List (Cell ℕ)) :=
  [plain [0, 0, 0, 4, 116, 114, 117, 101], attach [3] [0, 0, 0, 5, 102, 97, 108, 115, 101]]

/-- One read for both. -/
def readBoth : List (List (Cell ℕ)) := [readEach.flatten]

theorem receiveAll_eq_iff_readEach :
    (transmit boolSerde twoMessages = .ok readEach.flatten ∧
      receiveAll boolSerde ⟨[], readEach⟩ twoMessages = .ok (twoMessages.map Outgoing.sent)) ∧
    (receiveAll boolSerde ⟨[], readEach⟩ twoMessages = .ok (twoMessages.map Outgoing.sent) ↔
      ∀ read ∈ readEach, Aligned read) := by
  have hsent : transmit boolSerde twoMessages = .ok readEach.flatten := by rfl
  have hreceived : receiveAll boolSerde ⟨[], readEach⟩ twoMessages =
      .ok (twoMessages.map Outgoing.sent) := by decide +kernel
  exact ⟨⟨hsent, hreceived⟩, receiveAll_eq_iff boolSerde twoMessages readEach hsent (by decide)
    (by rw [hreceived]; exact nofun)⟩

/-- Read together, both come back whole all the same. -/
theorem receiveAll_contents_readBoth :
    ∃ received, receiveAll boolSerde ⟨[], readBoth⟩ twoMessages = .ok received ∧
      received.map Received.bare = twoMessages.map fun item => item.sent.bare :=
  receiveAll_contents boolSerde twoMessages readBoth (by rfl) (by decide) (by decide +kernel)

/-- Read together, the first message takes the descriptor of the second. -/
theorem descriptor_taken_by_earlier_message :
    transmit boolSerde twoMessages = .ok readBoth.flatten ∧
      receiveAll boolSerde ⟨[], readBoth⟩ twoMessages =
        .ok [.message true [3], .message false []] ∧
      receiveAll boolSerde ⟨[], readBoth⟩ twoMessages ≠
        .ok (twoMessages.map Outgoing.sent) := by
  exact ⟨by rfl, by decide +kernel, by decide +kernel⟩

end Zetta.Zmux.Transport
