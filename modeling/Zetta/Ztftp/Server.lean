import Zetta.Ztftp.Packets

/-!
# The server of file transfers

The server listens for requests and answers each with a transfer of its own, on a socket of its
own. A transfer sends a packet, waits for the answer to it, and sends it again when none comes.

* `ReadTransfer` sends a file, one block at a time.
* `WriteTransfer` stores one. The file exists from the start, and is removed when the transfer
  fails.
* `Server.listen`, `Server.receive`, ... : what the server does with a request, and with a packet
  for one of its transfers.

Of the file system there is the one file the request names. A `Datagram` also says which block it
is about, counted without wrapping around; neither side looks at that.
-/

namespace Zetta.Ztftp

inductive Address where
  | client
  /-- The port requests are sent to. -/
  | listener
  /-- The socket of a transfer. -/
  | transfer (id : ℕ)
  /-- The socket that the error of a failed transfer is sent from. -/
  | reporter
  deriving DecidableEq

structure Datagram where
  source : Address
  destination : Address
  packet : List UInt8
  /-- The block it is about. -/
  index : ℕ
  deriving DecidableEq

/-- A packet for the other side, and the block it is about. -/
abbrev Answer : Type := List UInt8 × ℕ

/-! ### Reads -/

/-- `serve_read_request`, waiting for the acknowledgement of a packet. -/
structure ReadTransfer where
  blockSize : ℕ
  /-- What is still to be read of the file. -/
  rest : List UInt8
  packet : List UInt8
  block : UInt16
  /-- The packet is the last block. -/
  last : Bool
  /-- How much was read. -/
  total : ℕ
  /-- How often the packet was sent. -/
  attempts : ℕ
  /-- The block the packet is about. -/
  index : ℕ
  deriving DecidableEq

inductive WritePhase where
  | receiving
  /-- The last block was acknowledged. -/
  | finishing
  /-- The file is complete: `dally_after_final_ack`. -/
  | dallying
  deriving DecidableEq

/-- `serve_write_request`, waiting for a block. -/
structure WriteTransfer where
  blockSize : ℕ
  expectedSize : Option ℕ
  responsePacket : List UInt8
  expectedBlock : UInt16
  total : ℕ
  attempts : ℕ
  phase : WritePhase
  /-- How many blocks were accepted. -/
  accepted : ℕ
  deriving DecidableEq

inductive Transfer where
  | read (t : ReadTransfer)
  | write (t : WriteTransfer)
  /-- It returned how much was transferred. -/
  | done (total : ℕ)
  | failed (write : Bool)
  deriving DecidableEq

namespace ReadTransfer

/-- The next block is read and sent. -/
def sendBlock (t : ReadTransfer) (block : UInt16) : ReadTransfer :=
  let data := t.rest.take t.blockSize
  { t with
    rest := t.rest.drop t.blockSize
    packet := dataPacket block data
    block := block
    last := data.length < t.blockSize
    total := t.total + data.length
    attempts := 1
    index := t.index + 1 }

/-- A request, up to the first packet that is sent. -/
def serve (request : Request) (file : Option (List UInt8)) : Option ReadTransfer :=
  if request.mode = OCTET then
    file.map fun contents =>
      let (blockSize, optionAck) := negotiatedOptions request.options contents.length
      let t : ReadTransfer :=
        { blockSize, rest := contents, packet := optionAckPacket optionAck, block := 0,
          last := false, total := 0, attempts := 1, index := 0 }
      if optionAck = [] then t.sendBlock 1 else t
  else none

/-- `send_with_ack`, and what follows it. -/
def receive (t : ReadTransfer) (packet : List UInt8) : Transfer × List Answer :=
  if packetOpcode packet = some OP_ACK ∧ packetBlock packet = some t.block then
    if t.last then (.done t.total, [])
    else
      let t := t.sendBlock (t.block + 1)
      (.read t, [(t.packet, t.index)])
  else if packetOpcode packet = some OP_ERROR then (.failed false, [])
  else (.read t, [])

def timeout (t : ReadTransfer) : Transfer × List Answer :=
  if t.attempts < MAX_RETRIES then
    (.read { t with attempts := t.attempts + 1 }, [(t.packet, t.index)])
  else (.failed false, [])

end ReadTransfer

/-! ### Writes -/

/-- What a step of a write comes to: the transfer, the file, and what is sent. -/
structure Written where
  transfer : Transfer
  file : Option (List UInt8)
  answers : List Answer

namespace WriteTransfer

/-- The transfer fails, and what it stored is removed. -/
def fail (answers : List Answer) : Written := ⟨.failed true, none, answers⟩

/-- A request, up to the first packet that is sent. The file must not exist yet; other reasons not
to create it are `refused`. -/
def serve (request : Request) (file : Option (List UInt8)) (refused : Bool) : Written :=
  if request.mode ≠ OCTET ∨ file.isSome ∨ refused then ⟨.failed true, file, []⟩
  else
    let (blockSize, expectedSize, optionAck) := negotiatedWriteOptions request.options
    if expectedSize.any fun size => MAX_UPLOAD_BYTES < size then
      fail [(errorPacket 3 (textBytes "upload is larger than the server allows"), 0)]
    else
      let responsePacket := if optionAck = [] then ackPacket 0 else optionAckPacket optionAck
      ⟨.write ⟨blockSize, expectedSize, responsePacket, 1, 0, 1, .receiving, 0⟩, some [],
        [(responsePacket, 0)]⟩

/-- The block that was waited for. -/
def accept (t : WriteTransfer) (file : Option (List UInt8)) (data : List UInt8) : Written :=
  let total := t.total + data.length
  let acknowledgement := ackPacket t.expectedBlock
  let t := { t with total, accepted := t.accepted + 1, responsePacket := acknowledgement }
  if MAX_UPLOAD_BYTES < total then
    fail [(errorPacket 3 (textBytes "upload is larger than the server allows"), t.accepted)]
  else if data.length < t.blockSize then
    if t.expectedSize.any fun size => total ≠ size then
      fail [(errorPacket 0 (textBytes "upload size differs from the negotiated transfer size"),
        t.accepted)]
    else
      ⟨.write { t with phase := .finishing }, file.map (· ++ data),
        [(acknowledgement, t.accepted)]⟩
  else
    ⟨.write { t with expectedBlock := t.expectedBlock + 1, attempts := 1 }, file.map (· ++ data),
      [(acknowledgement, t.accepted)]⟩

/-- `receive_data_after_response`, and what follows it. -/
def receive (t : WriteTransfer) (file : Option (List UInt8)) (packet : List UInt8) : Written :=
  match t.phase with
  | .receiving =>
    if packetOpcode packet = some OP_DATA ∧ packetBlock packet = some t.expectedBlock then
      t.accept file (packet.drop 4)
    else if packetOpcode packet = some OP_ERROR then fail []
    else ⟨.write t, file, [(t.responsePacket, t.accepted)]⟩
  | .finishing => ⟨.write t, file, []⟩
  | .dallying =>
    if packetOpcode packet = some OP_DATA ∧ packetBlock packet = some t.expectedBlock then
      ⟨.write t, file, [(t.responsePacket, t.accepted)]⟩
    else ⟨.write t, file, []⟩

def timeout (t : WriteTransfer) (file : Option (List UInt8)) : Written :=
  match t.phase with
  | .receiving =>
    if t.attempts < MAX_RETRIES then
      ⟨.write { t with attempts := t.attempts + 1 }, file, [(t.responsePacket, t.accepted)]⟩
    else fail []
  | .finishing => ⟨.write t, file, []⟩
  | .dallying => ⟨.done t.total, file, []⟩

/-- The file is closed. -/
def finish (t : WriteTransfer) (file : Option (List UInt8)) : Written :=
  match t.phase with
  | .finishing => ⟨.write { t with phase := .dallying }, file, []⟩
  | .receiving | .dallying => ⟨.write t, file, []⟩

/-- Something the transfer calls fails. -/
def breakOff (t : WriteTransfer) (file : Option (List UInt8)) : Written :=
  match t.phase with
  | .receiving | .finishing => fail []
  -- what happens after the file is complete is not looked at
  | .dallying => ⟨.done t.total, file, []⟩

end WriteTransfer

/-! ### The server -/

structure Server where
  writable : Bool
  /-- The file that the client asks for. -/
  file : Option (List UInt8)
  transfers : ℕ → Option Transfer
  next : ℕ
  /-- The transfer that the client's request is registered for. -/
  registered : Option ℕ

/-- What may keep the server from answering a request: other transfers, no thread to be had, or a
name that it does not serve. -/
structure Hindrance where
  busy : Bool
  unstarted : Bool
  refused : Bool
  deriving DecidableEq

namespace Server

/-- An error sent to the client. -/
def error (source : Address) (code : UInt16) (message : Field) : Datagram :=
  ⟨source, .client, errorPacket code message, 0⟩

/-- What a transfer sends. -/
def answers (id : ℕ) (answers : List Answer) : List Datagram :=
  answers.map fun answer => ⟨.transfer id, .client, answer.1, answer.2⟩

/-- A transfer is in a new state. -/
def put (s : Server) (id : ℕ) (t : Transfer) (file : Option (List UInt8)) : Server :=
  { s with transfers := Function.update s.transfers id (some t), file }

/-- A request is answered by a transfer. -/
def start (s : Server) (request : Request) (refused : Bool) : Server × List Datagram :=
  let s' := { s with next := s.next + 1, registered := some s.next }
  if request.write then
    let w := WriteTransfer.serve request s.file refused
    (s'.put s.next w.transfer w.file, answers s.next w.answers)
  else
    match ReadTransfer.serve request (if refused then none else s.file) with
    | some t => (s'.put s.next (.read t) s.file, answers s.next [(t.packet, t.index)])
    | none => (s'.put s.next (.failed false) s.file, [])

/-- A packet for the listener. -/
def listen (s : Server) (packet : List UInt8) (hindrance : Hindrance) : Server × List Datagram :=
  match parseRequest packet with
  | .error message => (s, [error .listener 4 (textBytes message)])
  | .ok request =>
    if request.write ∧ s.writable = false then
      (s, [error .listener 2 (textBytes "uploads are disabled on this server")])
    else if s.registered.isSome then (s, [])
    else if hindrance.busy then (s, [error .listener 0 (textBytes "server is busy")])
    else if hindrance.unstarted then
      (s, [error .listener 0 (textBytes "could not start transfer")])
    else s.start request hindrance.refused

/-- A packet for a transfer. -/
def receive (s : Server) (id : ℕ) (packet : List UInt8) : Option (Server × List Datagram) :=
  match s.transfers id with
  | some (.read t) =>
    let (t, sent) := t.receive packet
    some (s.put id t s.file, answers id sent)
  | some (.write t) =>
    let w := t.receive s.file packet
    some (s.put id w.transfer w.file, answers id w.answers)
  | _ => none

/-- No packet came for a transfer. -/
def timeout (s : Server) (id : ℕ) : Option (Server × List Datagram) :=
  match s.transfers id with
  | some (.read t) =>
    let (t, sent) := t.timeout
    some (s.put id t s.file, answers id sent)
  | some (.write t) =>
    let w := t.timeout s.file
    some (s.put id w.transfer w.file, answers id w.answers)
  | _ => none

/-- A transfer closes its file. -/
def finish (s : Server) (id : ℕ) : Option (Server × List Datagram) :=
  match s.transfers id with
  | some (.write t) =>
    let w := t.finish s.file
    some (s.put id w.transfer w.file, answers id w.answers)
  | _ => none

/-- Something that a transfer calls fails, or the server stops. -/
def breakOff (s : Server) (id : ℕ) : Option (Server × List Datagram) :=
  match s.transfers id with
  | some (.read _) => some (s.put id (.failed false) s.file, [])
  | some (.write t) =>
    let w := t.breakOff s.file
    some (s.put id w.transfer w.file, answers id w.answers)
  | _ => none

/-- The thread of a transfer ends; `message` is the error it reports, if it can. -/
def report (s : Server) (id : ℕ) (message : Option Field) : Option (Server × List Datagram) :=
  if s.registered = some id then
    match s.transfers id with
    | some (.done _) => some ({ s with registered := none }, [])
    | some (.failed write) =>
      some ({ s with registered := none },
        message.toList.map fun text => error .reporter (if write then 2 else 1) text)
    | _ => none
  else none

end Server

end Zetta.Ztftp
