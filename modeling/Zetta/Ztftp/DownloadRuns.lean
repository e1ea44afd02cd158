import Zetta.Ztftp.Download

/-!
# Runs of a download

* `DownloadRequest.Inv`: what holds in every state of a client that downloads and the server. The
  client has accepted as many blocks as its peer has sent, or one less (`Going.turns`); what is on
  the network is known (`Known`).
* `DownloadRequest.output_of_reaches`: what was written is always the beginning of the file, and
  a download that succeeds has the file.
-/

namespace Zetta.Ztftp

open List Function
open StopAndWait

namespace DownloadRequest

variable {q : DownloadRequest} {file : List UInt8} {label : Label}

/-! ### The invariant -/

/-- **What was sent**, and how it stands to the two sides. -/
inductive Known (q : DownloadRequest) (file : List UInt8) (s : System Download) (d : Datagram) :
    Prop
  | error (h : IsError d)
  | request (destination : d.destination = .listener) (source : d.source = .client)
      (packet : d.packet = q.packet)
  | block (id : ℕ) (destination : d.destination = .client) (source : d.source = .transfer id)
      (started : id < s.server.next) (packet : d.packet = q.packetOf file d.index)
      (sent : ∀ t, s.server.transfers id = some (.read t) → d.index ≤ t.index)
      (next : s.client.peer = some (.transfer id) → d.index ≤ s.client.accepted + 1)
      (first : s.client.peer = none → d.index = q.first file)
  | ack (id : ℕ) (destination : d.destination = .transfer id) (source : d.source = .client)
      (packet : d.packet = ackPacket (UInt16.ofNat d.index))
      (peer : s.client.peer = some (.transfer id)) (accepted : d.index ≤ s.client.accepted)

/-- A transfer that is going on, and how it stands to the client. -/
structure Going (q : DownloadRequest) (file : List UInt8) (s : System Download) (id : ℕ)
    (t : ReadTransfer) : Prop where
  serves : Serves q file t
  turns : s.client.peer = some (.transfer id) → Alternates t.index s.client.accepted
  first : s.client.peer = none → t.index = q.first file

/-- Where the client is. -/
def AtPhase (q : DownloadRequest) (file : List UInt8) (c : Download) : Prop :=
  match c.phase with
  | .requesting => c.peer = none ∧ c.accepted = 0 ∧ c.blockSize = DEFAULT_BLOCK_SIZE
  | .starting => (∃ id, c.peer = some (.transfer id)) ∧ c.accepted = 0 ∧ c.blockSize = q.granted
  | .receiving ack expected =>
    (∃ id, c.peer = some (.transfer id)) ∧ ack = ackPacket (UInt16.ofNat c.accepted) ∧
      expected = UInt16.ofNat (c.accepted + 1) ∧ c.blockSize = q.granted ∧
      c.output = some (file.take (c.accepted * q.granted))
  | .done => c.output = some file
  | .failed => True

/-- What holds of the client and the server in every state. -/
structure Inv (q : DownloadRequest) (file : List UInt8) (s : System Download) : Prop where
  reading : Reading q file s
  request : s.client.request = q.packet
  fresh : ∀ id, s.server.next ≤ id → s.server.transfers id = none
  started : ∀ id, s.client.peer = some (.transfer id) → id < s.server.next
  known : ∀ d ∈ s.sent, Known q file s d
  going : ∀ id t, s.server.transfers id = some (.read t) → Going q file s id t
  output : 1 ≤ s.client.accepted →
    s.client.output = some (file.take (s.client.accepted * q.granted))
  phase : AtPhase q file s.client

theorem inv_initial (writable : Bool) (output : Option (List UInt8)) :
    Inv q file (q.initial file writable output) where
  reading := ⟨rfl, fun _ _ => nofun, fun _ hd _ => mem_singleton.mp hd ▸ rfl⟩
  request := rfl
  fresh _ _ := rfl
  started _ h := nomatch h
  known _ hd := .request (mem_singleton.mp hd ▸ rfl) (mem_singleton.mp hd ▸ rfl)
    (mem_singleton.mp hd ▸ rfl)
  going _ _ h := nomatch h
  output h := absurd h (Nat.not_succ_le_zero 0)
  phase := ⟨rfl, rfl, rfl⟩

variable {s s' : System Download} {d : Datagram}

/-- What was sent stays known when the server goes on. -/
theorem Known.server (h : Known q file s d) (hclient : s'.client = s.client)
    (hnext : s.server.next ≤ s'.server.next)
    (hreads : ∀ id t', id < s.server.next → s'.server.transfers id = some (.read t') →
      ∃ t, s.server.transfers id = some (.read t) ∧ t.index ≤ t'.index) :
    Known q file s' d := by
  rcases h with herror | ⟨hdest, hsource, hpacket⟩ |
    ⟨id, hdest, hsource, hstarted, hpacket, hsent, hnext', hfirst⟩ |
    ⟨id, hdest, hsource, hpacket, hpeer, haccepted⟩
  · exact .error herror
  · exact .request hdest hsource hpacket
  · refine .block id hdest hsource (hstarted.trans_le hnext) hpacket (fun t' ht' => ?_)
      (hclient ▸ hnext') (hclient ▸ hfirst)
    obtain ⟨t, ht, hle⟩ := hreads id t' hstarted ht'
    exact (hsent t ht).trans hle
  · exact .ack id hdest hsource hpacket (hclient ▸ hpeer) (hclient ▸ haccepted)

variable {id : ℕ}

/-- Only acknowledgements go to a transfer. -/
theorem Known.of_transfer (h : Known q file s d) (hdest : d.destination = .transfer id) :
    d.packet = ackPacket (UInt16.ofNat d.index) ∧ s.client.peer = some (.transfer id) ∧
      d.index ≤ s.client.accepted := by
  rcases h with herror | ⟨hdest', -, -⟩ | ⟨id', hdest', -, -, -, -, -, -⟩ |
    ⟨id', hdest', -, hpacket, hpeer, haccepted⟩
  · exact absurd (hdest.symm.trans herror.destination) Address.noConfusion
  · cases hdest.symm.trans hdest'
  · cases hdest.symm.trans hdest'
  · obtain rfl : id' = id := Address.transfer.inj (hdest'.symm.trans hdest)
    exact ⟨hpacket, hpeer, haccepted⟩

variable {server : Server} {sent : List Datagram}

/-- An invariant survives a step of the server that leaves what was sent known. -/
theorem Inv.withServer (hs : Inv q file s) (hfile : server.file = some file)
    (hreads : ∀ id w, server.transfers id ≠ some (.write w)) (hnext : s.server.next ≤ server.next)
    (hfresh : ∀ id, server.next ≤ id → server.transfers id = none)
    (hold : ∀ id t', id < s.server.next → server.transfers id = some (.read t') →
      ∃ t, s.server.transfers id = some (.read t) ∧ t.index ≤ t'.index)
    (hgoing : ∀ id t, server.transfers id = some (.read t) →
      Going q file (s.withServer (server, sent)) id t)
    (hsent : ∀ d ∈ sent, d.destination = .client ∧ Known q file (s.withServer (server, sent)) d) :
    Inv q file (s.withServer (server, sent)) where
  reading := by
    refine ⟨hfile, hreads, fun d hd hdest => ?_⟩
    rcases mem_append.mp hd with hd | hd
    · exact hs.reading.requests d hd hdest
    · exact absurd (hdest.symm.trans (hsent d hd).1) Address.noConfusion
  request := hs.request
  fresh := hfresh
  started id hpeer := (hs.started id hpeer).trans_le hnext
  known d hd := by
    rcases mem_append.mp hd with hd | hd
    · exact (hs.known d hd).server rfl hnext hold
    · exact (hsent d hd).2
  going := hgoing
  output := hs.output
  phase := hs.phase

/-- Errors are known. -/
theorem known_of_isError (h : IsError d) :
    d.destination = .client ∧ Known q file s d := ⟨h.destination, .error h⟩

/-- An invariant survives a new state of one transfer. -/
theorem Inv.put {t' : Transfer} (hs : Inv q file s) (hfile : server.file = some file)
    (htransfers : server.transfers = update s.server.transfers id (some t'))
    (hnext : s.server.next ≤ server.next) (hid : id < server.next) (hwrite : ∀ w, t' ≠ .write w)
    (hold : ∀ r, t' = .read r → id < s.server.next →
      ∃ t, s.server.transfers id = some (.read t) ∧ t.index ≤ r.index)
    (hgoing : ∀ r, t' = .read r → Going q file s id r)
    (hsent : ∀ d ∈ sent, d.destination = .client ∧ Known q file (s.withServer (server, sent)) d) :
    Inv q file (s.withServer (server, sent)) := by
  refine hs.withServer hfile (fun id' w h => ?_) hnext (fun id' hid' => ?_) (fun id' r hlt h => ?_)
    (fun id' r h => ?_) hsent
  · rw [htransfers] at h
    rcases transfers_update h with ⟨-, hw⟩ | ⟨-, hw⟩
    · exact hwrite w hw.symm
    · exact hs.reading.reads id' w hw
  · rw [htransfers, update_of_ne (by omega)]
    exact hs.fresh id' (hnext.trans hid')
  · rw [htransfers] at h
    rcases transfers_update h with ⟨rfl, hr⟩ | ⟨-, hr⟩
    · exact hold r hr.symm hlt
    · exact ⟨r, hr, le_rfl⟩
  · rw [htransfers] at h
    rcases transfers_update h with ⟨rfl, hr⟩ | ⟨-, hr⟩
    · exact ⟨(hgoing r hr.symm).serves, (hgoing r hr.symm).turns, (hgoing r hr.symm).first⟩
    · exact ⟨(hs.going id' r hr).serves, (hs.going id' r hr).turns, (hs.going id' r hr).first⟩

/-- What a transfer sends is known, if it is about the block that the transfer is at. -/
theorem known_answer {t : ReadTransfer} (hid : id < server.next) (ht : Going q file s id t)
    (hindex : ∀ r, server.transfers id = some (.read r) → t.index ≤ r.index)
    (hd : d ∈ Server.answers id [(t.packet, t.index)]) :
    d.destination = .client ∧ Known q file (s.withServer (server, sent)) d := by
  obtain rfl := mem_singleton.mp hd
  exact ⟨rfl, .block id rfl rfl hid ht.serves.packet hindex (fun hpeer => (ht.turns hpeer).le_succ)
    ht.first⟩

theorem Inv.readStep {r : Server × List Datagram} (hs : Inv q file s)
    (hlate : System.OnTime Download.program s label) (hfile : r.1.file = some file)
    (h : ReadStep q file s label r) : Inv q file (s.withServer r) := by
  rcases h with ⟨htransfers, hnext, herrors⟩ | ⟨htransfers, hnext⟩ |
    ⟨htransfers, hnext, hserves, hindex⟩ | ⟨hread, htransfers, hnext, hgoes⟩ |
    ⟨hread, hsent, hdest, hack, htransfers, hnext⟩
  · refine hs.withServer hfile (htransfers ▸ hs.reading.reads) hnext.ge (fun id hid => ?_)
      (fun id t _ ht => ⟨t, htransfers ▸ ht, le_rfl⟩) (fun id t ht => ?_)
      fun d hd => known_of_isError (herrors d hd)
    · rw [htransfers, hs.fresh id (hnext ▸ hid)]
    · obtain ⟨hserves, hturns, hfirst⟩ := hs.going id t (htransfers ▸ ht)
      exact ⟨hserves, hturns, hfirst⟩
  · exact hs.put hfile htransfers (by omega) (by omega) (fun _ => Transfer.noConfusion)
      (fun _ h => Transfer.noConfusion h) (fun _ h => Transfer.noConfusion h)
      fun d hd => absurd hd not_mem_nil
  · -- the client's peer is an older transfer, if it has one
    have hgoing : Going q file s s.server.next _ := ⟨hserves,
      fun hpeer => absurd (hs.started _ hpeer) (lt_irrefl _), fun _ => hindex⟩
    refine hs.put hfile htransfers (by omega) (by omega) (fun _ => Transfer.noConfusion)
      (fun _ _ hlt => absurd hlt (lt_irrefl _)) (fun r hr => Transfer.read.inj hr ▸ hgoing)
      fun d hd => known_answer (by omega) hgoing (fun r hr => ?_) hd
    rw [htransfers, update_self] at hr
    exact (Transfer.read.inj (Option.some.inj hr)).symm ▸ le_rfl
  · rename_i server id t t' answers
    have hid : id < s.server.next := by
      by_contra hle
      rw [hs.fresh id (Nat.not_lt.mp hle)] at hread
      cases hread
    have hgoing := hs.going id t hread
    -- the transfer is at the block it was at, or it has ended
    have hsame : ∀ r, t' = .read r → r.index = t.index ∧ Going q file s id r := by
      intro r hr
      rcases hgoes with ⟨hended, -⟩ | - | ⟨n⟩
      · exact absurd hr (hended r)
      · cases hr
        exact ⟨rfl, hgoing⟩
      · cases hr
        obtain ⟨hserves, hturns, hfirst⟩ := hgoing
        exact ⟨rfl, ⟨hserves.1, hserves.2, hserves.3, hserves.4, hserves.5⟩, hturns, hfirst⟩
    have hwrite : ∀ w, t' ≠ .write w := by
      rcases hgoes with ⟨-, hended⟩ | - | ⟨n⟩
      · exact hended
      · exact fun _ => Transfer.noConfusion
      · exact fun _ => Transfer.noConfusion
    have hanswers : answers = [] ∨ answers = [(t.packet, t.index)] := by
      rcases hgoes with - | - | - <;> simp
    refine hs.put hfile htransfers hnext.ge (hnext ▸ hid) hwrite
      (fun r hr _ => ⟨t, hread, (hsame r hr).1.ge⟩) (fun r hr => (hsame r hr).2) fun d hd => ?_
    rcases hanswers with rfl | rfl
    · exact absurd hd not_mem_nil
    · refine known_answer (hnext ▸ hid) hgoing (fun r hr => ?_) hd
      rw [htransfers, update_self] at hr
      exact (hsame r (Option.some.inj hr)).1.ge
  · rename_i server id t d
    have hid : id < s.server.next := by
      by_contra hle
      rw [hs.fresh id (Nat.not_lt.mp hle)] at hread
      cases hread
    have hgoing := hs.going id t hread
    -- the acknowledgement is for the block sent last
    obtain ⟨hpacket, hpeer, haccepted⟩ := (hs.known d hsent).of_transfer hdest
    have hmod : d.index % 2 ^ 16 = t.index % 2 ^ 16 := by
      rw [hpacket, packetBlock_ackPacket, Option.some.injEq, hgoing.serves.block] at hack
      exact mod_eq_of_ofNat_eq hack
    have hturn := ((hgoing.turns hpeer).acknowledge haccepted (hlate (.read t) hread) hmod).2
    have hnew : Going q file s id (t.sendBlock (t.block + 1)) := ⟨hgoing.serves.sendBlock,
      fun _ => hturn, fun hnone => absurd (hpeer.symm.trans hnone) (Option.some_ne_none _)⟩
    refine hs.put hfile htransfers hnext.ge (hnext ▸ hid) (fun _ => Transfer.noConfusion)
      (fun r hr _ => ⟨t, hread, Transfer.read.inj hr ▸ Nat.le_succ _⟩)
      (fun r hr => Transfer.read.inj hr ▸ hnew) fun d' hd' => ?_
    refine known_answer (hnext ▸ hid) hnew (fun r hr => ?_) hd'
    rw [htransfers, update_self] at hr
    exact (Transfer.read.inj (Option.some.inj hr)).symm ▸ le_rfl

/-! ### What the client does -/

/-- What was sent stays known when the client goes on: it writes blocks, and it may have found its
peer. -/
theorem Known.client (h : Known q file s d) (hserver : s'.server = s.server)
    (hpeer : s'.client.peer = s.client.peer ∧ s.client.accepted ≤ s'.client.accepted ∨
      s.client.peer = none) : Known q file s' d := by
  rcases h with herror | ⟨hdest, hsource, hpacket⟩ |
    ⟨id, hdest, hsource, hstarted, hpacket, hsent, hnext, hfirst⟩ |
    ⟨id, hdest, hsource, hpacket, hpeer', haccepted⟩
  · exact .error herror
  · exact .request hdest hsource hpacket
  · refine .block id hdest hsource (hserver ▸ hstarted) hpacket (hserver ▸ hsent) (fun h => ?_)
      fun h => ?_
    · rcases hpeer with ⟨hsame, hle⟩ | hnone
      · exact (hnext (hsame ▸ h)).trans (Nat.succ_le_succ hle)
      · rw [hfirst hnone]
        exact first_le_one.trans (Nat.le_add_left _ _)
    · rcases hpeer with ⟨hsame, -⟩ | hnone
      · exact hfirst (hsame ▸ h)
      · exact hfirst hnone
  · rcases hpeer with ⟨hsame, hle⟩ | hnone
    · exact .ack id hdest hsource hpacket (hsame ▸ hpeer') (haccepted.trans hle)
    · exact absurd (hpeer'.symm.trans hnone) (Option.some_ne_none _)

variable {c : Download}

/-- An invariant survives a step of the client that leaves what was sent known. -/
theorem Inv.withClient (hs : Inv q file s) (hrequest : c.request = s.client.request)
    (hstarted : ∀ id, c.peer = some (.transfer id) → id < s.server.next)
    (hpeer : c.peer = s.client.peer ∧ s.client.accepted ≤ c.accepted ∨ s.client.peer = none)
    (hturns : ∀ id t, s.server.transfers id = some (.read t) → c.peer = some (.transfer id) →
      Alternates t.index c.accepted) (hsent : ∀ d ∈ sent, Known q file (s.withClient (c, sent)) d)
    (houtput : 1 ≤ c.accepted → c.output = some (file.take (c.accepted * q.granted)))
    (hphase : AtPhase q file c) : Inv q file (s.withClient (c, sent)) where
  reading := by
    refine ⟨hs.reading.file, hs.reading.reads, fun d hd hdest => ?_⟩
    rcases mem_append.mp hd with hd | hd
    · exact hs.reading.requests d hd hdest
    · rcases hsent d hd with herror | ⟨-, -, hpacket⟩ | ⟨id, hdest', -, -, -, -, -, -⟩ |
        ⟨id, hdest', -, -, -, -⟩
      · exact absurd (hdest.symm.trans herror.destination) Address.noConfusion
      · exact hpacket
      · cases hdest.symm.trans hdest'
      · cases hdest.symm.trans hdest'
  request := hrequest.trans hs.request
  fresh := hs.fresh
  started := hstarted
  known d hd := by
    rcases mem_append.mp hd with hd | hd
    · exact (hs.known d hd).client rfl hpeer
    · exact hsent d hd
  going id t ht := by
    obtain ⟨hserves, -, hfirst⟩ := hs.going id t ht
    refine ⟨hserves, hturns id t ht, fun hnone => hfirst ?_⟩
    rcases hpeer with ⟨hsame, -⟩ | hpeer
    · exact hsame ▸ hnone
    · exact hpeer
  output := houtput
  phase := hphase

/-- A step of the client after which its peer and its blocks are what they were. -/
theorem Inv.stays (hs : Inv q file s) (hrequest : c.request = s.client.request)
    (hpeer : c.peer = s.client.peer) (haccepted : c.accepted = s.client.accepted)
    (houtput : c.output = s.client.output)
    (hsent : ∀ d ∈ sent, Known q file (s.withClient (c, sent)) d) (hphase : AtPhase q file c) :
    Inv q file (s.withClient (c, sent)) :=
  hs.withClient hrequest (hpeer ▸ hs.started) (Or.inl ⟨hpeer, haccepted.ge⟩)
    (fun id t ht hp => haccepted ▸ (hs.going id t ht).turns (hpeer ▸ hp)) hsent
    (haccepted ▸ houtput ▸ hs.output) hphase

variable {packet : List UInt8}

/-- What the client sends to its peer is known. -/
theorem known_toPeer (hpeer : ∃ id, c.peer = some (.transfer id))
    (hpacket : packet = ackPacket (UInt16.ofNat c.accepted)) {c' : Download}
    (hpeer' : c'.peer = c.peer) (haccepted : c'.accepted = c.accepted) (hd : d ∈ c.toPeer packet) :
    Known q file (s.withClient (c', sent)) d := by
  obtain ⟨id, hid⟩ := hpeer
  rw [Download.toPeer, hid] at hd
  obtain rfl := mem_singleton.mp hd
  exact .ack id rfl rfl hpacket (hpeer'.trans hid) haccepted.ge

/-- A failed client promises nothing more. -/
theorem Inv.fail (hs : Inv q file s) :
    Inv q file (s.withClient (s.client.fail, [])) :=
  hs.stays rfl rfl rfl rfl (fun _ hd => absurd hd not_mem_nil) trivial

/-- **A block is written**: the one after those that were. -/
theorem write_spec {n : ℕ} (haccepted : c.accepted = n) (hblockSize : c.blockSize = q.granted)
    (houtput : c.output = some (file.take (n * q.granted)))
    (hpeer : ∃ id, c.peer = some (.transfer id)) :
    ∃ c', c.write (UInt16.ofNat (n + 1)) (q.packetOf file (n + 1)) =
        (c', c'.toPeer (ackPacket (UInt16.ofNat (n + 1)))) ∧
      c'.request = c.request ∧ c'.peer = c.peer ∧ c'.accepted = n + 1 ∧
      c'.output = some (file.take ((n + 1) * q.granted)) ∧ AtPhase q file c' := by
  have hmatch : ¬(packetOpcode (q.packetOf file (n + 1)) ≠ some OP_DATA ∨
      packetBlock (q.packetOf file (n + 1)) ≠ some (UInt16.ofNat (n + 1))) := by
    simp [packetOf_succ]
  have hdata : (q.packetOf file (n + 1)).drop 4 = block q.granted file (n + 1) := by
    rw [packetOf_succ, drop_dataPacket]
  have hout : c.output.map (· ++ block q.granted file (n + 1)) =
      some (file.take ((n + 1) * q.granted)) := by
    rw [houtput, Option.map_some, take_append_block]
  simp only [Download.write, if_neg hmatch, hdata, hblockSize]
  split_ifs with hshort
  · -- the last block: the file is complete
    refine ⟨_, rfl, rfl, rfl, congrArg (· + 1) haccepted, hout, ?_⟩
    exact hout.trans (congrArg some (take_of_length_block_lt hshort))
  · have hnext : UInt16.ofNat (n + 1) + 1 = UInt16.ofNat (n + 1 + 1) := by
      rw [UInt16.ofNat_add (n + 1)]
      rfl
    refine ⟨_, rfl, rfl, rfl, congrArg (· + 1) haccepted, hout, hpeer, ?_, ?_, rfl, ?_⟩
    · simp only [haccepted]
    · simp only [haccepted, hnext]
    · simp only [haccepted, hout]

/-- The client takes a block, when it has come at the right time. -/
theorem Inv.write (hs : Inv q file s) (hrequest : c.request = s.client.request)
    (hpeer : c.peer = some (.transfer id)) (hid : id < s.server.next)
    (hsame : s.client.peer = some (.transfer id) ∨ s.client.peer = none)
    (haccepted : c.accepted = s.client.accepted) (hblockSize : c.blockSize = q.granted)
    (houtput : c.output = some (file.take (c.accepted * q.granted)))
    (hsent : ∀ t, s.server.transfers id = some (.read t) → Alternates t.index (c.accepted + 1)) :
    Inv q file (s.withClient
      (c.write (UInt16.ofNat (c.accepted + 1)) (q.packetOf file (c.accepted + 1)))) := by
  obtain ⟨c', hwrite, hrequest', hpeer', haccepted', houtput', hphase⟩ :=
    write_spec rfl hblockSize houtput ⟨id, hpeer⟩
  rw [hwrite]
  refine hs.withClient (hrequest'.trans hrequest) (fun id' h => ?_) ?_ (fun id' t ht h => ?_)
    (fun d hd => ?_) (fun _ => ?_) hphase
  · obtain rfl : id = id' := Address.transfer.inj (Option.some.inj
      (hpeer.symm.trans (hpeer'.symm.trans h)))
    exact hid
  · rcases hsame with hsame | hnone
    · exact Or.inl ⟨hpeer'.trans (hpeer.trans hsame.symm), by omega⟩
    · exact Or.inr hnone
  · obtain rfl : id = id' := Address.transfer.inj (Option.some.inj
      (hpeer.symm.trans (hpeer'.symm.trans h)))
    exact haccepted' ▸ hsent t ht
  · exact known_toPeer ⟨id, hpeer'.trans hpeer⟩ (haccepted' ▸ rfl) rfl rfl hd
  · exact haccepted' ▸ houtput'

/-- **The block awaited**: a packet of the peer with its number is about it. -/
theorem Inv.block_awaited (hs : Inv q file s) (hd : d ∈ s.sent) (hdest : d.destination = .client)
    (hsource : d.source = .transfer id) (hpeer : s.client.peer = some (.transfer id))
    (hlate : s.client.accepted + 1 < d.index + 2 ^ 16)
    (hopcode : packetOpcode d.packet = some OP_DATA)
    (hnumber : packetBlock d.packet = some (UInt16.ofNat (s.client.accepted + 1))) :
    d.packet = q.packetOf file (s.client.accepted + 1) ∧
      ∀ t, s.server.transfers id = some (.read t) → Alternates t.index (s.client.accepted + 1) := by
  rcases hs.known d hd with herror | ⟨hdest', -, -⟩ |
    ⟨id', -, hsource', -, hpacket, hsent, hnext, -⟩ | ⟨id', hdest', -, -, -, -⟩
  · rcases herror.source with h | h
    · cases hsource.symm.trans h
    · cases hsource.symm.trans h
  · cases hdest.symm.trans hdest'
  · obtain rfl : id' = id := Address.transfer.inj (hsource'.symm.trans hsource)
    have hindex : d.index = s.client.accepted + 1 := by
      rcases hn : d.index with - | n
      · rw [hpacket, hn, packetOf, if_pos rfl, packetOpcode_optionAckPacket] at hopcode
        exact absurd hopcode (by decide)
      · rw [hpacket, hn, packetOf_succ, packetBlock_dataPacket, Option.some.injEq] at hnumber
        rw [← hn] at hnumber ⊢
        exact eq_of_mod_eq (hnext hpeer) hlate (mod_eq_of_ofNat_eq hnumber)
    refine ⟨hindex ▸ hpacket, fun t ht => ⟨hindex ▸ hsent t ht, ?_⟩⟩
    exact ((hs.going id' t ht).turns hpeer).le_succ.trans (Nat.le_succ _)
  · cases hdest.symm.trans hdest'

/-- A packet that is not the block awaited ends the transfer. -/
theorem write_of_error {expected : UInt16} (h : packetOpcode packet = some OP_ERROR) :
    c.write expected packet = (c.fail, []) :=
  if_pos (Or.inl (by rw [h]; decide))

theorem start_of_error (h : packetOpcode packet = some OP_ERROR) :
    c.start packet = (c.fail, []) := if_pos h

theorem start_of_data (h : packetOpcode packet = some OP_DATA) :
    c.start packet = ({ c with output := some [] } : Download).write 1 packet :=
  if_neg (by rw [h]; decide)

/-- The first packet: the client takes its address as the peer. -/
theorem Inv.firstPacket (hs : Inv q file s) (hd : d ∈ s.sent) (hdest : d.destination = .client)
    (hphase : s.client.phase = .requesting) :
    Inv q file (s.withClient (s.client.receive d.source d.packet)) := by
  have hat := hs.phase
  simp only [AtPhase, hphase] at hat
  obtain ⟨hnone, haccepted, hblockSize⟩ := hat
  simp only [Download.receive, hphase]
  rcases hs.known d hd with herror | ⟨hdest', -, -⟩ |
    ⟨id, -, hsource, hid, hpacket, hsent, -, hfirst⟩ | ⟨id, hdest', -, -, -, -⟩
  · -- an error ends the transfer
    have hopcode : packetOpcode d.packet ≠ some OP_OACK := by rw [herror.packet]; decide
    rw [if_neg hopcode, start_of_error herror.packet]
    have hsource : ∀ id, some d.source ≠ some (Address.transfer id) := by
      intro id h
      rcases herror.source with hs | hs <;> rw [hs] at h <;> cases h
    refine hs.withClient rfl (fun id h => absurd h (hsource id)) (Or.inr hnone)
      (fun id t _ h => absurd h (hsource id)) (fun d hd => absurd hd not_mem_nil) hs.output
      trivial
  · cases hdest.symm.trans hdest'
  · have hindex := hfirst hnone
    rw [hindex] at hpacket
    by_cases hempty : q.acknowledged file = []
    · -- without options, the first block comes first
      have hone : q.first file = 1 := if_pos hempty
      have hopcode : packetOpcode d.packet = some OP_DATA := by
        rw [hpacket, hone, packetOf_succ, packetOpcode_dataPacket]
      have hoack : packetOpcode d.packet ≠ some OP_OACK := by rw [hopcode]; decide
      rw [if_neg hoack, start_of_data hopcode, hsource, hpacket, hone]
      have hturns : ∀ t, s.server.transfers id = some (.read t) → Alternates t.index (0 + 1) := by
        intro t ht
        have ht' := (hs.going id t ht).first hnone
        rw [hone] at ht'
        rw [ht']
        exact ⟨le_rfl, Nat.le_succ _⟩
      have hsize : s.client.blockSize = q.granted := hblockSize.trans (agree.2.2 hempty).symm
      have hempty' : some ([] : List UInt8) = some (file.take (s.client.accepted * q.granted)) := by
        rw [haccepted, Nat.zero_mul, take_zero]
      have hwrite := hs.write (c := { s.client with
        phase := .requesting, peer := some (.transfer id), output := some [] }) rfl rfl hid
        (Or.inr hnone) rfl hsize hempty' (haccepted ▸ hturns)
      simp only [haccepted] at hwrite ⊢
      exact hwrite
    · -- the options come first
      have hzero : q.first file = 0 := if_neg hempty
      rw [hzero] at hpacket
      have hoack : packetOpcode d.packet = some OP_OACK := by
        rw [hpacket, packetOf, if_pos rfl, packetOpcode_optionAckPacket]
      rw [if_pos hoack]
      refine hs.withClient rfl (fun id' h => ?_) (Or.inr hnone) (fun id' t ht h => ?_)
        (fun d' hd' => ?_) (fun h => absurd h (by simp only [haccepted]; omega)) ⟨?_, haccepted, ?_⟩
      · obtain rfl : id = id' := Address.transfer.inj (hsource ▸ Option.some.inj h)
        exact hid
      · rw [haccepted, (hs.going id' t ht).first hnone, hzero]
        exact ⟨le_rfl, Nat.zero_le _⟩
      · exact known_toPeer ⟨id, congrArg some hsource⟩ (by simp only [haccepted]; rfl) rfl rfl hd'
      · exact ⟨id, congrArg some hsource⟩
      · simp only [hpacket, packetOf, if_true]
        exact agree.2.1
  · cases hdest.symm.trans hdest'

/-- A packet from the peer, or another one. -/
theorem Inv.clientReceive (hs : Inv q file s) (hd : d ∈ s.sent) (hdest : d.destination = .client)
    (hlate : s.client.peer = some d.source → s.client.accepted + 1 < d.index + 2 ^ 16) :
    Inv q file (s.withClient (s.client.receive d.source d.packet)) := by
  have hat := hs.phase
  have hquiet : Inv q file (s.withClient (s.client, [])) :=
    hs.stays rfl rfl rfl rfl (fun _ h => absurd h not_mem_nil) hs.phase
  rcases hphase : s.client.phase with - | - | ⟨ack, expected⟩ | - | -
  · exact hs.firstPacket hd hdest hphase
  · simp only [AtPhase, hphase] at hat
    obtain ⟨⟨id, hid⟩, haccepted, hblockSize⟩ := hat
    simp only [Download.receive, hphase]
    split_ifs with hsource hreply
    · have hsource' : d.source = .transfer id := Option.some.inj (hsource.symm.trans hid)
      rcases isReply_iff.mp hreply with herror | ⟨hopcode, hnumber⟩
      · rw [start_of_error herror]
        exact hs.fail
      · obtain ⟨hpacket, hturns⟩ := hs.block_awaited hd hdest hsource' hid (hlate hsource) hopcode
          (by rw [hnumber, haccepted]; rfl)
        have hempty : some ([] : List UInt8) = some (file.take (s.client.accepted * q.granted)) := by
          rw [haccepted, Nat.zero_mul, take_zero]
        have hwrite := hs.write (c := { s.client with output := some [] }) rfl hid
          (hs.started id hid) (Or.inl hid) rfl hblockSize hempty hturns
        rw [start_of_data hopcode, hpacket]
        simp only [haccepted] at hwrite ⊢
        exact hwrite
    · exact hs.stays rfl rfl rfl rfl
        (fun _ => known_toPeer ⟨id, hid⟩ (by rw [haccepted]; rfl) rfl rfl) hs.phase
    · exact hquiet
  · simp only [AtPhase, hphase] at hat
    obtain ⟨⟨id, hid⟩, rfl, rfl, hblockSize, houtput⟩ := hat
    simp only [Download.receive, hphase]
    split_ifs with hsource hreply
    · have hsource' : d.source = .transfer id := Option.some.inj (hsource.symm.trans hid)
      rcases isReply_iff.mp hreply with herror | ⟨hopcode, hnumber⟩
      · rw [write_of_error herror]
        exact hs.fail
      · obtain ⟨hpacket, hturns⟩ := hs.block_awaited hd hdest hsource' hid (hlate hsource) hopcode hnumber
        rw [hpacket]
        exact hs.write rfl hid (hs.started id hid) (Or.inl hid) rfl hblockSize houtput hturns
    · exact hs.stays rfl rfl rfl rfl (fun _ => known_toPeer ⟨id, hid⟩ rfl rfl rfl) hs.phase
    · exact hquiet
  · simp only [Download.receive, hphase]
    exact hquiet
  · simp only [Download.receive, hphase]
    exact hquiet

/-- Sending a packet again. -/
theorem Inv.resend (hs : Inv q file s)
    (hsent : ∀ d ∈ sent, ∀ s' : System Download, s'.client.peer = s.client.peer →
      s'.client.accepted = s.client.accepted → Known q file s' d) :
    Inv q file (s.withClient (s.client.resend sent)) := by
  unfold Download.resend
  split_ifs
  · exact hs.stays rfl rfl rfl rfl (fun d hd => hsent d hd _ rfl rfl) hs.phase
  · exact hs.fail

theorem Inv.clientTimeout (hs : Inv q file s) :
    Inv q file (s.withClient s.client.timeout) := by
  have hat := hs.phase
  have hquiet : Inv q file (s.withClient (s.client, [])) :=
    hs.stays rfl rfl rfl rfl (fun _ h => absurd h not_mem_nil) hs.phase
  have hpeer : ∀ packet, (∃ id, s.client.peer = some (.transfer id)) →
      packet = ackPacket (UInt16.ofNat s.client.accepted) →
      Inv q file (s.withClient (s.client.resend (s.client.toPeer packet))) := by
    rintro packet ⟨id, hid⟩ rfl
    refine hs.resend fun d hd s' hpeer haccepted => ?_
    rw [Download.toPeer, hid] at hd
    obtain rfl := mem_singleton.mp hd
    exact .ack id rfl rfl rfl (hpeer.trans hid) haccepted.ge
  rcases hphase : s.client.phase with - | - | ⟨ack, expected⟩ | - | - <;>
    simp only [Download.timeout, hphase] <;> simp only [AtPhase, hphase] at hat
  · refine hs.resend fun d hd s' _ _ => ?_
    obtain rfl := mem_singleton.mp hd
    exact .request rfl rfl hs.request
  · exact hpeer _ hat.1 (by rw [hat.2.1]; rfl)
  · exact hpeer _ hat.1 hat.2.1
  · exact hquiet
  · exact hquiet

theorem Inv.clientFail (hs : Inv q file s) :
    Inv q file (s.withClient (s.client.breakOff, [])) := by
  unfold Download.breakOff
  split
  · exact hs.stays rfl rfl rfl rfl (fun _ h => absurd h not_mem_nil) hs.phase
  · exact hs.fail

/-- **The invariant is kept** at every step that is on time. -/
theorem Inv.step (hs : Inv q file s) (hlate : System.OnTime Download.program s label)
    (h : System.step Download.program s label = some s') : Inv q file s' := by
  rcases System.step_cases h with ⟨d, hd, hdest, rfl, rfl⟩ | rfl | rfl | ⟨r, hr, rfl⟩
  · exact hs.clientReceive hd hdest hlate
  · exact hs.clientTimeout
  · exact hs.clientFail
  · obtain ⟨hstep, hfile⟩ := hs.reading.serverStep hr
    exact hs.readStep hlate hfile hstep

variable {output : Option (List UInt8)} {writable : Bool}

theorem inv_of_reaches (h : System.Reaches Download.program (q.initial file writable output) s) :
    Inv q file s := by
  obtain ⟨labels, hrun⟩ := h
  exact hrun.invariant (inv_initial writable output) fun s label s' hs hstep =>
    hs.step hstep.1 hstep.2

/-- **Downloads**: what was written is always the first blocks of the file, and all of it when
`download` succeeds. -/
theorem output_of_reaches (h : System.Reaches Download.program (q.initial file writable output) s) :
    (s.client.phase = .done → s.client.output = some file) ∧
      (1 ≤ s.client.accepted →
        s.client.output = some (file.take (s.client.accepted * q.granted))) := by
  have hs := inv_of_reaches h
  refine ⟨fun hdone => ?_, hs.output⟩
  have hphase := hs.phase
  simp only [AtPhase, hdone] at hphase
  exact hphase

end DownloadRequest

end Zetta.Ztftp
