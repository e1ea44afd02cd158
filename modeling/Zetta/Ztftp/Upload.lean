import Zetta.Ztftp.System

/-!
# Uploads

The client asks to store a file, takes the first address that answers as its peer, and sends the
blocks to it, each one when the one before it was acknowledged.

* `Upload.program`: the client.
* `UploadRequest.WriteStep`: what the server can do while the client uploads.
-/

namespace Zetta.Ztftp

open StopAndWait

/-- Where `upload` is. -/
inductive UploadPhase where
  /-- The request was sent. -/
  | requesting
  /-- A block was sent. -/
  | sending
  | done
  | failed
  deriving DecidableEq

structure Upload where
  request : List UInt8
  phase : UploadPhase
  /-- Where the first answer came from. -/
  peer : Option Address
  blockSize : ℕ
  /-- How often the last packet was sent. -/
  attempts : ℕ
  /-- What is still to be read of the local file. -/
  rest : List UInt8
  packet : List UInt8
  block : UInt16
  /-- The packet is the last block. -/
  last : Bool
  /-- How many blocks were sent. -/
  index : ℕ

namespace Upload

/-- The request is sent. -/
def new (request contents : List UInt8) : Upload :=
  ⟨request, .requesting, none, DEFAULT_BLOCK_SIZE, 1, contents, [], 0, false, 0⟩

def fail (c : Upload) : Upload := { c with phase := .failed }

/-- The packet for the peer. -/
def toPeer (c : Upload) : List Datagram :=
  c.peer.toList.map fun peer => ⟨.client, peer, c.packet, c.index⟩

/-- The next block is read and sent. -/
def sendBlock (c : Upload) (block : UInt16) : Upload × List Datagram :=
  let data := c.rest.take c.blockSize
  let c := { c with
    phase := .sending
    attempts := 1
    rest := c.rest.drop c.blockSize
    packet := dataPacket block data
    block := block
    last := data.length < c.blockSize
    index := c.index + 1 }
  (c, c.toPeer)

/-- A packet arrives: `initial_response`, then `receive_from_peer`, and what follows them. -/
def receive (c : Upload) (source : Address) (packet : List UInt8) : Upload × List Datagram :=
  match c.phase with
  | .requesting =>
    let c := { c with peer := some source }
    if packetOpcode packet = some OP_ERROR then (c.fail, [])
    else if packetOpcode packet = some OP_OACK then
      ({ c with blockSize := (parsedBlockSize packet).getD DEFAULT_BLOCK_SIZE } : Upload).sendBlock 1
    else if packetOpcode packet = some OP_ACK ∧ packetBlock packet = some 0 then
      ({ c with blockSize := DEFAULT_BLOCK_SIZE } : Upload).sendBlock 1
    else (c.fail, [])
  | .sending =>
    if c.peer = some source then
      if isReply OP_ACK c.block packet then
        if packetOpcode packet = some OP_ERROR then (c.fail, [])
        else if c.last then ({ c with phase := .done }, [])
        else c.sendBlock (c.block + 1)
      else (c, c.toPeer)
    else (c, [])
  | .done | .failed => (c, [])

/-- The last packet is sent again, or the transfer is given up. -/
def resend (c : Upload) (sent : List Datagram) : Upload × List Datagram :=
  if c.attempts < MAX_RETRIES then ({ c with attempts := c.attempts + 1 }, sent)
  else (c.fail, [])

def timeout (c : Upload) : Upload × List Datagram :=
  match c.phase with
  | .requesting => c.resend [⟨.client, .listener, c.request, 0⟩]
  | .sending => c.resend c.toPeer
  | .done | .failed => (c, [])

/-- Something that the client calls fails. -/
def breakOff (c : Upload) : Upload :=
  match c.phase with
  | .done => c
  | _ => c.fail

/-- `upload` -/
def program : ClientProgram Upload := ⟨receive, timeout, breakOff, peer, fun c => c.index⟩

end Upload

/-! ### The file and its packets -/

/-- What is uploaded: the contents of a file, and what the client asks for. The client asks for
`REQUESTED_BLOCK_SIZE` and announces the size. -/
structure UploadRequest where
  filename : Field
  blockSize : Option ℕ
  size : Option ℕ
  contents : List UInt8
  noZero : 0 ∉ filename

namespace UploadRequest

variable (q : UploadRequest)

def options : List (Field × Field) := Ztftp.options q.blockSize q.size

def packet : List UInt8 := requestPacketWith OP_WRQ q.filename q.options

/-- The block size that is used. -/
def granted : ℕ := (Ztftp.granted q.blockSize).getD DEFAULT_BLOCK_SIZE

def acknowledged : List (Field × Field) :=
  Ztftp.options (Ztftp.granted q.blockSize) (announced q.size)

/-- The answer to a block, or to the request. -/
def answerTo (n : ℕ) : List UInt8 :=
  if n = 0 ∧ q.acknowledged ≠ [] then optionAckPacket q.acknowledged
  else ackPacket (UInt16.ofNat n)

/-- The packet of a block. -/
def packetOf (n : ℕ) : List UInt8 := dataPacket (UInt16.ofNat n) (block q.granted q.contents n)

/-- The first blocks of the file. -/
def stored (n : ℕ) : List UInt8 := q.contents.take (n * q.granted)

/-- The client and the server, when the request has been sent. `before` is what the server has
under the name. -/
def initial (writable : Bool) (before : Option (List UInt8)) : System Upload where
  client := .new q.packet q.contents
  server := ⟨writable, before, fun _ => none, 0, none⟩
  sent := [⟨.client, .listener, q.packet, 0⟩]

variable {q} {label : Label}

theorem agree : Agree q.granted q.acknowledged := agree_acknowledged _ granted_bounds

theorem answerTo_succ (n : ℕ) : q.answerTo (n + 1) = ackPacket (UInt16.ofNat (n + 1)) :=
  if_neg fun h => absurd h.1 (Nat.succ_ne_zero n)

/-- An answer that acknowledges a block acknowledges the one it is about. -/
theorem packetBlock_answerTo {n : ℕ} (h : packetOpcode (q.answerTo n) = some OP_ACK) :
    packetBlock (q.answerTo n) = some (UInt16.ofNat n) := by
  unfold answerTo at h ⊢
  split_ifs at h ⊢
  · rw [packetOpcode_optionAckPacket] at h
    exact absurd h (by decide)
  · exact packetBlock_ackPacket _

/-- The request is read as it was written, if it is read. -/
theorem parseRequest_packet {request : Request} (h : parseRequest q.packet = .ok request) :
    request = ⟨true, q.filename, OCTET, q.options⟩ := by
  have hwrite : decide (OP_WRQ = OP_WRQ) = true := by decide
  rw [parseRequest_requestPacketWith q.noZero (fun _ => isNumber_of_mem_options) h, hwrite]
  rfl

/-! ### What the server does -/

/-- **A write and its file**: as many blocks are stored as were accepted, and all of the file when
the last one was. -/
structure Stores (q : UploadRequest) (t : WriteTransfer) (file : Option (List UInt8)) : Prop where
  blockSize : t.blockSize = q.granted
  response : t.responsePacket = q.answerTo t.accepted
  total : t.total = (q.stored t.accepted).length
  expected : t.phase = .receiving → t.expectedBlock = UInt16.ofNat (t.accepted + 1)
  file : file = some (q.stored t.accepted)
  complete : t.phase ≠ .receiving → q.stored t.accepted = q.contents

/-- What becomes of a write that was going on, without a block. -/
inductive WriteGoesOn (q : UploadRequest) (t : WriteTransfer) (file : Option (List UInt8)) :
    Written → Prop
  | failed {answers : List Answer}
      (errors : ∀ a ∈ answers, packetOpcode a.1 = some OP_ERROR) :
      WriteGoesOn q t file ⟨.failed true, none, answers⟩
  | done (h : t.phase = .dallying) : WriteGoesOn q t file ⟨.done t.total, file, []⟩
  | again {t' : WriteTransfer} {answers : List Answer} (h : Stores q t file → Stores q t' file)
      (accepted : t'.accepted = t.accepted)
      (response : answers = [] ∨ answers = [(t.responsePacket, t.accepted)]) :
      WriteGoesOn q t file ⟨.write t', file, answers⟩

variable {t : WriteTransfer} {file : Option (List UInt8)}

theorem WriteGoesOn.same :
    WriteGoesOn q t file ⟨.write t, file, []⟩ := .again id rfl (Or.inl rfl)

theorem WriteGoesOn.answer :
    WriteGoesOn q t file ⟨.write t, file, [(t.responsePacket, t.accepted)]⟩ :=
  .again id rfl (Or.inr rfl)

theorem WriteGoesOn.fail :
    WriteGoesOn q t file (WriteTransfer.fail []) := .failed fun _ h => absurd h List.not_mem_nil

theorem writeGoesOn_timeout (t : WriteTransfer) (file : Option (List UInt8)) :
    WriteGoesOn q t file (t.timeout file) := by
  unfold WriteTransfer.timeout
  split
  · split_ifs
    · exact .again (fun h => ⟨h.1, h.2, h.3, h.4, h.5, h.6⟩) rfl (Or.inr rfl)
    · exact .fail
  · exact .same
  · next hphase => exact .done hphase

theorem writeGoesOn_finish (t : WriteTransfer) (file : Option (List UInt8)) :
    WriteGoesOn q t file (t.finish file) := by
  unfold WriteTransfer.finish
  split
  · next hphase =>
    have hcomplete : t.phase ≠ .receiving := by rw [hphase]; decide
    exact .again (fun h => ⟨h.1, h.2, h.3, nofun, h.5, fun _ => h.6 hcomplete⟩) rfl (Or.inl rfl)
  · exact .same
  · exact .same

theorem writeGoesOn_breakOff (t : WriteTransfer) (file : Option (List UInt8)) :
    WriteGoesOn q t file (t.breakOff file) := by
  unfold WriteTransfer.breakOff
  split
  · exact .fail
  · exact .fail
  · next hphase => exact .done hphase

/-- A packet is the block that is waited for, or no block. -/
theorem writeGoesOn_receive (t : WriteTransfer) (file : Option (List UInt8)) (packet : List UInt8) :
    WriteGoesOn q t file (t.receive file packet) ∨ t.phase = .receiving ∧
      packetOpcode packet = some OP_DATA ∧ packetBlock packet = some t.expectedBlock ∧
      t.receive file packet = t.accept file (packet.drop 4) := by
  unfold WriteTransfer.receive
  split
  · next hphase =>
    split_ifs with hdata
    · exact Or.inr ⟨hphase, hdata.1, hdata.2, rfl⟩
    · exact Or.inl .fail
    · exact Or.inl .answer
  · exact Or.inl .same
  · split_ifs
    · exact Or.inl .answer
    · exact Or.inl .same

/-- **The next block is stored**, or the transfer fails. -/
theorem accept_next (h : Stores q t file) (hphase : t.phase = .receiving) :
    WriteGoesOn q t file (t.accept file (block q.granted q.contents (t.accepted + 1))) ∨
      ∃ t' file', t.accept file (block q.granted q.contents (t.accepted + 1)) =
          ⟨.write t', file', [(q.answerTo (t.accepted + 1), t.accepted + 1)]⟩ ∧
        Stores q t' file' ∧ t'.accepted = t.accepted + 1 := by
  have hack : ackPacket t.expectedBlock = q.answerTo (t.accepted + 1) := by
    rw [h.expected hphase, answerTo_succ]
  have hstored : q.stored t.accepted ++ block q.granted q.contents (t.accepted + 1) =
      q.stored (t.accepted + 1) := take_append_block _ _ _
  have htotal : t.total + (block q.granted q.contents (t.accepted + 1)).length =
      (q.stored (t.accepted + 1)).length := by rw [← hstored, List.length_append, h.total]
  have hfile : file.map (· ++ block q.granted q.contents (t.accepted + 1)) =
      some (q.stored (t.accepted + 1)) := by rw [h.file, Option.map_some, hstored]
  have herror : ∀ code text n,
      WriteGoesOn q t file (WriteTransfer.fail [(errorPacket code text, n)]) := fun code text n =>
    .failed fun a ha => List.mem_singleton.mp ha ▸ packetOpcode_errorPacket _ _
  simp only [WriteTransfer.accept, hack, htotal, hfile]
  split_ifs with hlarge hshort hsize
  · exact Or.inl (herror _ _ _)
  · exact Or.inl (herror _ _ _)
  · -- the last block
    refine Or.inr ⟨_, _, rfl, ⟨h.blockSize, rfl, rfl, nofun, rfl, fun _ => ?_⟩, rfl⟩
    exact take_of_length_block_lt (h.blockSize ▸ hshort)
  · have hnext : t.expectedBlock + 1 = UInt16.ofNat (t.accepted + 1 + 1) := by
      rw [h.expected hphase, UInt16.ofNat_add (t.accepted + 1)]
      rfl
    exact Or.inr ⟨_, _, rfl, ⟨h.blockSize, rfl, rfl, fun _ => hnext, rfl,
      fun hne => absurd hphase hne⟩, rfl⟩

/-- A request is answered by a write, or refused. -/
theorem serve_cases {request : Request} (hrequest : request.options = q.options)
    (file : Option (List UInt8)) (refused : Bool) :
    (∃ answers, WriteTransfer.serve request file refused = ⟨.failed true, file, answers⟩ ∧
      ∀ a ∈ answers, packetOpcode a.1 = some OP_ERROR) ∨
    ∃ t, WriteTransfer.serve request file refused = ⟨.write t, some [], [(q.answerTo 0, 0)]⟩ ∧
      file = none ∧ Stores q t (some []) ∧ t.accepted = 0 := by
  unfold WriteTransfer.serve
  split_ifs with hrefused
  · exact Or.inl ⟨[], rfl, fun _ h => absurd h List.not_mem_nil⟩
  have hnone : file = none := by
    rcases file with - | contents
    · rfl
    · exact absurd (Or.inr (Or.inl rfl)) hrefused
  have hack : Ztftp.options (Ztftp.granted q.blockSize) (announced q.size) = q.acknowledged := rfl
  simp only [hrequest, options, negotiatedWriteOptions_options, hack]
  split_ifs with hlarge hempty
  · refine Or.inl ⟨_, by rw [WriteTransfer.fail, hnone], fun a ha => ?_⟩
    exact List.mem_singleton.mp ha ▸ packetOpcode_errorPacket _ _
  · have hanswer : q.answerTo 0 = ackPacket 0 := if_neg fun h => h.2 hempty
    refine Or.inr ⟨_, by rw [hanswer], hnone, ⟨rfl, hanswer.symm, ?_, fun _ => rfl, ?_, ?_⟩, rfl⟩
    · simp [stored]
    · simp [stored]
    · exact fun hne => absurd rfl hne
  · have hanswer : q.answerTo 0 = optionAckPacket q.acknowledged := if_pos ⟨rfl, hempty⟩
    refine Or.inr ⟨_, by rw [hanswer], hnone, ⟨rfl, hanswer.symm, ?_, fun _ => rfl, ?_, ?_⟩, rfl⟩
    · simp [stored]
    · simp [stored]
    · exact fun hne => absurd rfl hne

end UploadRequest

end Zetta.Ztftp
