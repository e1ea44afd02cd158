import Zetta.Ztftp.System

/-!
# Downloads

The client asks for a file, takes the first address that answers as its peer, and writes the
blocks that come from it, in order.

* `Download.program`: the client.
* `DownloadRequest.ReadStep`: what the server can do while the client downloads.
-/

namespace Zetta.Ztftp

open Function
open StopAndWait

/-- Where `download` is. -/
inductive DownloadPhase where
  /-- The request was sent. -/
  | requesting
  /-- The server's options were acknowledged. -/
  | starting
  /-- The file was created, and the acknowledgement of a block was sent. -/
  | receiving (ack : List UInt8) (expected : UInt16)
  | done
  | failed
  deriving DecidableEq

structure Download where
  request : List UInt8
  phase : DownloadPhase
  /-- Where the first answer came from. -/
  peer : Option Address
  blockSize : ℕ
  /-- How often the last packet was sent. -/
  attempts : ℕ
  /-- The local file. -/
  output : Option (List UInt8)
  /-- How many blocks were written. -/
  accepted : ℕ

namespace Download

/-- The request is sent. -/
def new (request : List UInt8) (output : Option (List UInt8)) : Download :=
  ⟨request, .requesting, none, DEFAULT_BLOCK_SIZE, 1, output, 0⟩

/-- A packet for the peer. -/
def toPeer (c : Download) (packet : List UInt8) : List Datagram :=
  c.peer.toList.map fun peer => ⟨.client, peer, packet, c.accepted⟩

def fail (c : Download) : Download := { c with phase := .failed }

/-- The body of the loop: a block is written and acknowledged. -/
def write (c : Download) (expected : UInt16) (packet : List UInt8) : Download × List Datagram :=
  if packetOpcode packet ≠ some OP_DATA ∨ packetBlock packet ≠ some expected then (c.fail, [])
  else
    let data := packet.drop 4
    let ack := ackPacket expected
    let c := { c with output := c.output.map (· ++ data), accepted := c.accepted + 1 }
    if data.length < c.blockSize then ({ c with phase := .done }, c.toPeer ack)
    else ({ c with phase := .receiving ack (expected + 1), attempts := 1 }, c.toPeer ack)

/-- The first packet behind the options: the local file is created. -/
def start (c : Download) (packet : List UInt8) : Download × List Datagram :=
  if packetOpcode packet = some OP_ERROR then (c.fail, [])
  else ({ c with output := some [] } : Download).write 1 packet

/-- A packet arrives: `initial_response`, then `receive_from_peer`, and what follows them. -/
def receive (c : Download) (source : Address) (packet : List UInt8) : Download × List Datagram :=
  match c.phase with
  | .requesting =>
    let c := { c with peer := some source }
    if packetOpcode packet = some OP_OACK then
      let c := { c with
        phase := .starting
        blockSize := (parsedBlockSize packet).getD DEFAULT_BLOCK_SIZE
        attempts := 1 }
      (c, c.toPeer (ackPacket 0))
    else c.start packet
  | .starting =>
    if c.peer = some source then
      if isReply OP_DATA 1 packet then c.start packet else (c, c.toPeer (ackPacket 0))
    else (c, [])
  | .receiving ack expected =>
    if c.peer = some source then
      if isReply OP_DATA expected packet then c.write expected packet else (c, c.toPeer ack)
    else (c, [])
  | .done | .failed => (c, [])

/-- The last packet is sent again, or the transfer is given up. -/
def resend (c : Download) (sent : List Datagram) : Download × List Datagram :=
  if c.attempts < MAX_RETRIES then ({ c with attempts := c.attempts + 1 }, sent)
  else (c.fail, [])

def timeout (c : Download) : Download × List Datagram :=
  match c.phase with
  | .requesting => c.resend [⟨.client, .listener, c.request, 0⟩]
  | .starting => c.resend (c.toPeer (ackPacket 0))
  | .receiving ack _ => c.resend (c.toPeer ack)
  | .done | .failed => (c, [])

/-- Something that the client calls fails. -/
def breakOff (c : Download) : Download :=
  match c.phase with
  | .done => c
  | _ => c.fail

/-- `download` -/
def program : ClientProgram Download := ⟨receive, timeout, breakOff, peer, fun c => c.accepted + 1⟩

end Download

/-! ### The file and its packets -/

/-- What is downloaded: a file, and what the client asks for. The client asks for
`REQUESTED_BLOCK_SIZE` and for the size. -/
structure DownloadRequest where
  filename : Field
  blockSize : Option ℕ
  size : Option ℕ
  noZero : 0 ∉ filename

namespace DownloadRequest

variable (q : DownloadRequest) (file : List UInt8)

def options : List (Field × Field) := Ztftp.options q.blockSize q.size

def packet : List UInt8 := requestPacketWith OP_RRQ q.filename q.options

/-- The block size that is used. -/
def granted : ℕ := (Ztftp.granted q.blockSize).getD DEFAULT_BLOCK_SIZE

def acknowledged : List (Field × Field) :=
  Ztftp.options (Ztftp.granted q.blockSize) (q.size.map fun _ => file.length)

/-- The block that a transfer begins with: none if options are acknowledged. -/
def first : ℕ := if q.acknowledged file = [] then 1 else 0

/-- The packet about a block. -/
def packetOf (n : ℕ) : List UInt8 :=
  if n = 0 then optionAckPacket (q.acknowledged file)
  else dataPacket (UInt16.ofNat n) (block q.granted file n)

/-- The client and the server, when the request has been sent. -/
def initial (writable : Bool) (output : Option (List UInt8)) : System Download where
  client := .new q.packet output
  server := ⟨writable, some file, fun _ => none, 0, none⟩
  sent := [⟨.client, .listener, q.packet, 0⟩]

variable {q file} {label : Label}

theorem agree : Agree q.granted (q.acknowledged file) :=
  agree_acknowledged _ granted_bounds

theorem first_le_one : q.first file ≤ 1 := by
  unfold first
  split <;> omega

theorem packetOf_succ (n : ℕ) :
    q.packetOf file (n + 1) = dataPacket (UInt16.ofNat (n + 1)) (block q.granted file (n + 1)) :=
  if_neg (Nat.succ_ne_zero n)

/-- The request is read as it was written, if it is read. -/
theorem parseRequest_packet {request : Request} (h : parseRequest q.packet = .ok request) :
    request = ⟨false, q.filename, OCTET, q.options⟩ := by
  have hwrite : decide (OP_RRQ = OP_WRQ) = false := by decide
  rw [parseRequest_requestPacketWith q.noZero (fun _ => isNumber_of_mem_options) h, hwrite]
  rfl

/-- A transfer sends the blocks of the file: it has sent the one it is at. -/
structure Serves (q : DownloadRequest) (file : List UInt8) (t : ReadTransfer) : Prop where
  blockSize : t.blockSize = q.granted
  block : t.block = UInt16.ofNat t.index
  packet : t.packet = q.packetOf file t.index
  rest : t.rest = file.drop (t.index * q.granted)
  first : q.first file ≤ t.index

variable {t : ReadTransfer}

theorem Serves.sendBlock (h : Serves q file t) :
    Serves q file (t.sendBlock (t.block + 1)) := by
  have hnext : t.block + 1 = UInt16.ofNat (t.index + 1) := by
    rw [h.block, UInt16.ofNat_add]
    rfl
  refine ⟨h.blockSize, hnext, ?_, ?_, h.first.trans (Nat.le_succ _)⟩
  · rw [ReadTransfer.sendBlock, packetOf_succ, block_succ, hnext, h.rest, h.blockSize]
  · rw [ReadTransfer.sendBlock, h.rest, h.blockSize, List.drop_drop, Nat.succ_mul]

theorem serves_serve {request : Request} (hrequest : request.options = q.options)
    (h : ReadTransfer.serve request (some file) = some t) :
    Serves q file t ∧ t.index = q.first file := by
  rw [ReadTransfer.serve] at h
  split_ifs at h with hmode
  cases h
  simp only [hrequest, options, negotiatedOptions_options]
  have hack : Ztftp.options (Ztftp.granted q.blockSize) (q.size.map fun _ => file.length) =
      q.acknowledged file := rfl
  rw [hack]
  split_ifs with hempty
  · have hfirst : q.first file = 1 := if_pos hempty
    refine ⟨⟨rfl, rfl, ?_, ?_, hfirst.le⟩, hfirst.symm⟩
    · refine ((packetOf_succ 0).trans ?_).symm
      rw [block_succ, Nat.zero_mul, List.drop_zero]
      rfl
    · have hone : file.drop q.granted = file.drop ((0 + 1) * q.granted) := by
        rw [Nat.zero_add, Nat.one_mul]
      exact hone
  · have hfirst : q.first file = 0 := if_neg hempty
    exact ⟨⟨rfl, rfl, rfl, by rw [Nat.zero_mul, List.drop_zero], hfirst.le⟩, hfirst.symm⟩

/-! ### What the server does -/

/-- What becomes of a read that was going on. -/
inductive ReadGoesOn (t : ReadTransfer) : Transfer → List Answer → Prop
  | ended {t' : Transfer} (h : ∀ r, t' ≠ .read r) (h' : ∀ w, t' ≠ .write w) : ReadGoesOn t t' []
  | waits : ReadGoesOn t (.read t) []
  | again (n : ℕ) : ReadGoesOn t (.read { t with attempts := n }) [(t.packet, t.index)]

theorem ReadGoesOn.done (total : ℕ) : ReadGoesOn t (.done total) [] :=
  .ended (fun _ => Transfer.noConfusion) fun _ => Transfer.noConfusion

theorem ReadGoesOn.failed (write : Bool) : ReadGoesOn t (.failed write) [] :=
  .ended (fun _ => Transfer.noConfusion) fun _ => Transfer.noConfusion

variable {answers : List Answer} {t' : Transfer}

/-- What a packet does: it is the acknowledgement that the next block waits for, or no block is
sent for the first time. -/
theorem readTransfer_receive_cases {packet : List UInt8} (h : t.receive packet = (t', answers)) :
    ReadGoesOn t t' answers ∨ packetBlock packet = some t.block ∧
      t' = .read (t.sendBlock (t.block + 1)) ∧
      answers = [((t.sendBlock (t.block + 1)).packet, t.index + 1)] := by
  rw [ReadTransfer.receive] at h
  split_ifs at h with hack hlast herror
  · cases h
    exact Or.inl (.done _)
  · cases h
    exact Or.inr ⟨hack.2, rfl, rfl⟩
  · cases h
    exact Or.inl (.failed _)
  · cases h
    exact Or.inl .waits

theorem readTransfer_timeout_cases (h : t.timeout = (t', answers)) : ReadGoesOn t t' answers := by
  rw [ReadTransfer.timeout] at h
  split_ifs at h
  · cases h
    exact .again _
  · cases h
    exact .failed _

/-- **A step of the server** while all its transfers are reads of the file. -/
inductive ReadStep (q : DownloadRequest) (file : List UInt8) (s : System Download) :
    Label → Server × List Datagram → Prop
  | quiet {label : Label} {server : Server} {sent : List Datagram}
      (transfers : server.transfers = s.server.transfers) (next : server.next = s.server.next)
      (errors : ∀ d ∈ sent, IsError d) : ReadStep q file s label (server, sent)
  | refused {label : Label} {server : Server}
      (transfers : server.transfers =
        update s.server.transfers s.server.next (some (.failed false)))
      (next : server.next = s.server.next + 1) : ReadStep q file s label (server, [])
  | started {label : Label} {server : Server} {t : ReadTransfer}
      (transfers : server.transfers =
        update s.server.transfers s.server.next (some (.read t)))
      (next : server.next = s.server.next + 1) (serves : Serves q file t)
      (index : t.index = q.first file) :
      ReadStep q file s label (server, Server.answers s.server.next [(t.packet, t.index)])
  | goesOn {label : Label} {server : Server} {id : ℕ} {t : ReadTransfer} {t' : Transfer}
      {answers : List Answer} (read : s.server.transfers id = some (.read t))
      (transfers : server.transfers = update s.server.transfers id (some t'))
      (next : server.next = s.server.next) (h : ReadGoesOn t t' answers) :
      ReadStep q file s label (server, Server.answers id answers)
  | sends {server : Server} {id : ℕ} {t : ReadTransfer} {d : Datagram}
      (read : s.server.transfers id = some (.read t)) (sent : d ∈ s.sent)
      (destination : d.destination = .transfer id) (ack : packetBlock d.packet = some t.block)
      (transfers : server.transfers = update s.server.transfers id
        (some (.read (t.sendBlock (t.block + 1)))))
      (next : server.next = s.server.next) :
      ReadStep q file s (.receive id d)
        (server, Server.answers id [((t.sendBlock (t.block + 1)).packet, t.index + 1)])

/-- There are no writes, and the file is there. -/
structure Reading (q : DownloadRequest) (file : List UInt8) (s : System Download) : Prop where
  file : s.server.file = some file
  reads : ∀ id w, s.server.transfers id ≠ some (.write w)
  requests : ∀ d ∈ s.sent, d.destination = .listener → d.packet = q.packet

variable {s : System Download}

theorem Reading.listen (hs : Reading q file s) (hindrance : Hindrance) :
    ReadStep q file s label (s.server.listen q.packet hindrance) ∧
      (s.server.listen q.packet hindrance).1.file = some file := by
  rcases hparse : parseRequest q.packet with message | request
  · simp only [Server.listen, hparse]
    refine ⟨.quiet rfl rfl fun d hd => ?_, hs.file⟩
    exact List.mem_singleton.mp hd ▸ isError_error (Or.inl rfl) _ _
  obtain rfl := parseRequest_packet hparse
  have herror : ∀ code text, ReadStep q file s label
      (s.server, [Server.error .listener code text]) := fun code text =>
    .quiet rfl rfl fun d hd => List.mem_singleton.mp hd ▸ isError_error (Or.inl rfl) _ _
  simp only [Server.listen, hparse, Bool.false_eq_true, false_and, if_false]
  split_ifs
  · exact ⟨.quiet rfl rfl fun d hd => absurd hd (List.not_mem_nil), hs.file⟩
  · exact ⟨herror _ _, hs.file⟩
  · exact ⟨herror _ _, hs.file⟩
  · simp only [Server.start, Bool.false_eq_true, if_false]
    split
    · next t ht =>
      have hserve : ReadTransfer.serve ⟨false, q.filename, OCTET, q.options⟩ (some file) = some t := by
        split_ifs at ht with hrefused
        · simp [ReadTransfer.serve] at ht
        · rwa [hs.file] at ht
      obtain ⟨hserves, hindex⟩ := serves_serve rfl hserve
      exact ⟨.started rfl rfl hserves hindex, hs.file⟩
    · exact ⟨.refused rfl rfl, hs.file⟩

/-- The spec of the server's steps. -/
theorem Reading.serverStep (hs : Reading q file s) {r : Server × List Datagram}
    (h : s.serverStep label = some r) : ReadStep q file s label r ∧ r.1.file = some file := by
  cases label with
  | clientReceive d => cases h
  | clientTimeout => cases h
  | clientFail => cases h
  | listen d hindrance =>
    rw [System.serverStep] at h
    split_ifs at h with hd
    cases h
    rw [hs.requests d hd.1 hd.2]
    exact hs.listen hindrance
  | receive id d =>
    rw [System.serverStep] at h
    split_ifs at h with hd
    rw [Server.receive] at h
    split at h
    · next t ht =>
      rcases hreceive : t.receive d.packet with ⟨t', answers⟩
      rw [hreceive] at h
      cases h
      refine ⟨?_, hs.file⟩
      rcases readTransfer_receive_cases hreceive with hgoes | ⟨hack, rfl, rfl⟩
      · exact .goesOn ht rfl rfl hgoes
      · exact .sends ht hd.1 hd.2 hack rfl rfl
    · next t ht => exact absurd ht (hs.reads id t)
    · cases h
  | timeout id =>
    rw [System.serverStep, Server.timeout] at h
    split at h
    · next t ht =>
      rcases htimeout : t.timeout with ⟨t', answers⟩
      rw [htimeout] at h
      cases h
      exact ⟨.goesOn ht rfl rfl (readTransfer_timeout_cases htimeout), hs.file⟩
    · next t ht => exact absurd ht (hs.reads id t)
    · cases h
  | finish id =>
    rw [System.serverStep, Server.finish] at h
    split at h
    · next t ht => exact absurd ht (hs.reads id t)
    · cases h
  | breakOff id =>
    rw [System.serverStep, Server.breakOff] at h
    split at h
    · next t ht =>
      cases h
      have hstep : ReadStep q file s (.breakOff id)
          (s.server.put id (.failed false) s.server.file, Server.answers id []) :=
        .goesOn ht rfl rfl (.failed false)
      exact ⟨hstep, hs.file⟩
    · next t ht => exact absurd ht (hs.reads id t)
    · cases h
  | report id message =>
    rw [System.serverStep, Server.report] at h
    split_ifs at h
    split at h
    · cases h
      exact ⟨.quiet rfl rfl fun d hd => absurd hd (List.not_mem_nil), hs.file⟩
    · cases h
      refine ⟨.quiet rfl rfl fun d hd => ?_, hs.file⟩
      obtain ⟨text, -, rfl⟩ := List.mem_map.mp hd
      exact isError_error (Or.inr rfl) _ _
    · cases h

end DownloadRequest

end Zetta.Ztftp
