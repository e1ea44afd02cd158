import Zetta.Ztftp.Upload

/-!
# Runs of an upload

* `UploadRequest.Inv`: what holds in every state of a client that uploads and the server. The
  transfer has accepted as many blocks as its client has sent, or one less; what is on the network
  is known (`Known`); one transfer at most has stored something (`Held`).
* `UploadRequest.file_of_reaches`: what is stored is always the beginning of the file, all of it
  once a transfer has succeeded, and nothing when all have failed.
-/

namespace Zetta.Ztftp

open List Function
open StopAndWait

namespace UploadRequest

variable {q : UploadRequest} {before : Option (List UInt8)} {label : Label}

/-! ### The steps of the server -/

/-- **A step of the server** while all its transfers are writes. -/
inductive WriteStep (q : UploadRequest) (s : System Upload) : Label → Server × List Datagram → Prop
  | quiet {label : Label} {server : Server} {sent : List Datagram} (file : server.file = s.server.file)
      (transfers : server.transfers = s.server.transfers) (next : server.next = s.server.next)
      (errors : ∀ d ∈ sent, IsError d) : WriteStep q s label (server, sent)
  | refused {label : Label} {server : Server} {answers : List Answer}
      (file : server.file = s.server.file)
      (transfers : server.transfers =
        update s.server.transfers s.server.next (some (.failed true)))
      (next : server.next = s.server.next + 1)
      (errors : ∀ a ∈ answers, packetOpcode a.1 = some OP_ERROR) :
      WriteStep q s label (server, Server.answers s.server.next answers)
  | started {label : Label} {server : Server} {t : WriteTransfer} (free : s.server.file = none)
      (file : server.file = some [])
      (transfers : server.transfers =
        update s.server.transfers s.server.next (some (.write t)))
      (next : server.next = s.server.next + 1) (stores : Stores q t (some []))
      (accepted : t.accepted = 0) :
      WriteStep q s label (server, Server.answers s.server.next [(q.answerTo 0, 0)])
  | goesOn {label : Label} {id : ℕ} {t : WriteTransfer} {w : Written}
      (write : s.server.transfers id = some (.write t)) (h : WriteGoesOn q t s.server.file w) :
      WriteStep q s label (s.server.put id w.transfer w.file, Server.answers id w.answers)
  | accepts {id : ℕ} {t : WriteTransfer} {d : Datagram} {w : Written}
      (write : s.server.transfers id = some (.write t)) (sent : d ∈ s.sent)
      (destination : d.destination = .transfer id) (phase : t.phase = .receiving)
      (opcode : packetOpcode d.packet = some OP_DATA)
      (number : packetBlock d.packet = some t.expectedBlock)
      (h : w = t.accept s.server.file (d.packet.drop 4)) :
      WriteStep q s (.receive id d) (s.server.put id w.transfer w.file, Server.answers id w.answers)

/-- There are no reads. -/
structure Writing (q : UploadRequest) (s : System Upload) : Prop where
  writes : ∀ id r, s.server.transfers id ≠ some (.read r)
  requests : ∀ d ∈ s.sent, d.destination = .listener → d.packet = q.packet

variable {s : System Upload}

theorem Writing.listen (hindrance : Hindrance) :
    WriteStep q s label (s.server.listen q.packet hindrance) := by
  rcases hparse : parseRequest q.packet with message | request
  · simp only [Server.listen, hparse]
    refine .quiet rfl rfl rfl fun d hd => ?_
    exact mem_singleton.mp hd ▸ isError_error (Or.inl rfl) _ _
  obtain rfl := parseRequest_packet hparse
  have herror : ∀ code text, WriteStep q s label
      (s.server, [Server.error .listener code text]) := fun code text =>
    .quiet rfl rfl rfl fun d hd => mem_singleton.mp hd ▸ isError_error (Or.inl rfl) _ _
  simp only [Server.listen, hparse]
  split_ifs
  · exact herror _ _
  · exact .quiet rfl rfl rfl fun d hd => absurd hd (not_mem_nil)
  · exact herror _ _
  · exact herror _ _
  · simp only [Server.start, if_true]
    have hoptions : (Request.mk true q.filename OCTET q.options).options = q.options := rfl
    rcases serve_cases hoptions s.server.file hindrance.refused with ⟨answers, hserve, herrors⟩ |
      ⟨t, hserve, hnone, hstores, hzero⟩
    · rw [hserve]
      exact .refused rfl rfl rfl herrors
    · rw [hserve]
      exact .started hnone rfl rfl rfl hstores hzero

variable {r : Server × List Datagram}

/-- The spec of the server's steps. -/
theorem Writing.serverStep (hs : Writing q s) (h : s.serverStep label = some r) :
    WriteStep q s label r := by
  cases label with
  | clientReceive d => cases h
  | clientTimeout => cases h
  | clientFail => cases h
  | listen d hindrance =>
    rw [System.serverStep] at h
    split_ifs at h with hd
    cases h
    rw [hs.requests d hd.1 hd.2]
    exact Writing.listen hindrance
  | receive id d =>
    rw [System.serverStep] at h
    split_ifs at h with hd
    rw [Server.receive] at h
    split at h
    · next t ht => exact absurd ht (hs.writes id t)
    · next t ht =>
      cases h
      rcases writeGoesOn_receive t s.server.file d.packet with hgoes |
        ⟨hphase, hopcode, hnumber, haccept⟩
      · exact .goesOn ht hgoes
      · exact .accepts ht hd.1 hd.2 hphase hopcode hnumber haccept
    · cases h
  | timeout id =>
    rw [System.serverStep, Server.timeout] at h
    split at h
    · next t ht => exact absurd ht (hs.writes id t)
    · next t ht =>
      cases h
      exact .goesOn ht (writeGoesOn_timeout t _)
    · cases h
  | finish id =>
    rw [System.serverStep, Server.finish] at h
    split at h
    · next t ht =>
      cases h
      exact .goesOn ht (writeGoesOn_finish t _)
    · cases h
  | breakOff id =>
    rw [System.serverStep, Server.breakOff] at h
    split at h
    · next t ht => exact absurd ht (hs.writes id t)
    · next t ht =>
      cases h
      exact .goesOn ht (writeGoesOn_breakOff t _)
    · cases h
  | report id message =>
    rw [System.serverStep, Server.report] at h
    split_ifs at h
    split at h
    · cases h
      exact .quiet rfl rfl rfl fun d hd => absurd hd (not_mem_nil)
    · cases h
      refine .quiet rfl rfl rfl fun d hd => ?_
      obtain ⟨text, -, rfl⟩ := mem_map.mp hd
      exact isError_error (Or.inr rfl) _ _
    · cases h

/-! ### The invariant -/

/-- **What was sent**, and how it stands to the two sides. -/
inductive Known (q : UploadRequest) (s : System Upload) (d : Datagram) : Prop
  | error (destination : d.destination = .client) (packet : packetOpcode d.packet = some OP_ERROR)
      (started : ∀ id, d.source = .transfer id → id < s.server.next)
  | request (destination : d.destination = .listener) (packet : d.packet = q.packet)
  | block (id : ℕ) (destination : d.destination = .transfer id)
      (packet : d.packet = q.packetOf d.index) (peer : s.client.peer = some (.transfer id))
      (sent : d.index ≤ s.client.index)
  | answer (id : ℕ) (destination : d.destination = .client) (source : d.source = .transfer id)
      (started : id < s.server.next) (packet : d.packet = q.answerTo d.index)
      (accepted : ∀ t, s.server.transfers id = some (.write t) → d.index ≤ t.accepted)
      (sent : s.client.peer = some (.transfer id) → d.index ≤ s.client.index)
      (first : s.client.peer = none → d.index = 0)

/-- How a transfer that is going on stands to the client. -/
structure Turns (s : System Upload) (id : ℕ) (t : WriteTransfer) : Prop where
  alternates : s.client.peer = some (.transfer id) → Alternates s.client.index t.accepted
  first : s.client.peer = none → t.accepted = 0

/-- What one transfer has stored. -/
def Holds (q : UploadRequest) (s : System Upload) (id : ℕ) : Prop :=
  (∃ t, s.server.transfers id = some (.write t) ∧ Stores q t s.server.file) ∨
    s.server.transfers id = some (.done q.contents.length) ∧ s.server.file = some q.contents

/-- All transfers failed but one. -/
def FailedBut (s : System Upload) (id : ℕ) : Prop :=
  ∀ id', id' ≠ id → ∀ t, s.server.transfers id' = some t → t = .failed true

/-- **What the server has stored**: what it had before, or what one transfer has stored. -/
def Held (q : UploadRequest) (before : Option (List UInt8)) (s : System Upload) : Prop :=
  (∀ id t, s.server.transfers id = some t → t = .failed true) ∧ s.server.file = before ∨
    before = none ∧ ∃ id, FailedBut s id ∧ Holds q s id

/-- Where the client is. -/
def AtPhase (q : UploadRequest) (c : Upload) : Prop :=
  match c.phase with
  | .requesting => c.peer = none ∧ c.index = 0 ∧ c.rest = q.contents
  | .sending =>
    (∃ id, c.peer = some (.transfer id)) ∧ c.blockSize = q.granted ∧
      c.block = UInt16.ofNat c.index ∧ c.packet = q.packetOf c.index ∧
      c.rest = q.contents.drop (c.index * q.granted)
  | .done | .failed => True

/-- What holds of the client and the server in every state. -/
structure Inv (q : UploadRequest) (before : Option (List UInt8)) (s : System Upload) : Prop where
  writing : Writing q s
  request : s.client.request = q.packet
  fresh : ∀ id, s.server.next ≤ id → s.server.transfers id = none
  started : ∀ id, s.client.peer = some (.transfer id) → id < s.server.next
  known : ∀ d ∈ s.sent, Known q s d
  turns : ∀ id t, s.server.transfers id = some (.write t) → Turns s id t
  held : Held q before s
  phase : AtPhase q s.client

theorem inv_initial (writable : Bool) : Inv q before (q.initial writable before) where
  writing := ⟨fun _ _ => nofun, fun _ hd _ => mem_singleton.mp hd ▸ rfl⟩
  request := rfl
  fresh _ _ := rfl
  started _ h := nomatch h
  known _ hd := .request (mem_singleton.mp hd ▸ rfl) (mem_singleton.mp hd ▸ rfl)
  turns _ _ h := nomatch h
  held := Or.inl ⟨fun _ _ => nofun, rfl⟩
  phase := ⟨rfl, rfl, rfl⟩

variable {id : ℕ} {t : WriteTransfer}

/-- A write that is going on is the one that has stored something. -/
theorem Held.write (h : Held q before s) (ht : s.server.transfers id = some (.write t)) :
    before = none ∧ FailedBut s id ∧ Stores q t s.server.file := by
  rcases h with ⟨hfailed, -⟩ | ⟨hnone, id', hbut, hholds⟩
  · exact nomatch hfailed id _ ht
  by_cases hid : id = id'
  · subst hid
    rcases hholds with ⟨t', ht', hstores⟩ | ⟨hdone, -⟩
    · cases Option.some.inj (ht.symm.trans ht')
      exact ⟨hnone, hbut, hstores⟩
    · cases ht.symm.trans hdone
  · exact nomatch hbut id hid _ ht

variable {sent : List Datagram}

/-- A transfer is started when nothing is stored, or nothing is stored by it. -/
theorem Held.start {server : Server} {t : Transfer} (h : Held q before s)
    (hfree : s.server.transfers s.server.next = none)
    (htransfers : server.transfers = update s.server.transfers s.server.next (some t))
    (ht : t = .failed true ∧ server.file = s.server.file ∨
      ∃ w, t = .write w ∧ s.server.file = none ∧ Stores q w server.file) :
    Held q before (s.withServer (server, sent)) := by
  rcases ht with ⟨rfl, hfile⟩ | ⟨w, rfl, hnone, hstores⟩
  · rcases h with ⟨hfailed, hbefore⟩ | ⟨hnone, id, hbut, hholds⟩
    · refine Or.inl ⟨fun id t ht => ?_, hfile.trans hbefore⟩
      rw [System.withServer, htransfers] at ht
      rcases transfers_update ht with ⟨-, h⟩ | ⟨-, h⟩
      · exact h
      · exact hfailed id t h
    · -- the transfer that has stored something is an older one
      have hne : id ≠ s.server.next := by
        rintro rfl
        rcases hholds with ⟨t, ht, -⟩ | ⟨ht, -⟩ <;> rw [hfree] at ht <;> cases ht
      refine Or.inr ⟨hnone, id, fun id' hid' t ht => ?_, ?_⟩
      · rw [System.withServer, htransfers] at ht
        rcases transfers_update ht with ⟨-, h⟩ | ⟨-, h⟩
        · exact h
        · exact hbut id' hid' t h
      · simp only [Holds, System.withServer, htransfers, update_of_ne hne, hfile]
        exact hholds
  · rcases h with ⟨hfailed, hbefore⟩ | ⟨-, id, -, hholds⟩
    · refine Or.inr ⟨hbefore.symm.trans hnone, s.server.next, fun id' hid' t ht => ?_,
        Or.inl ⟨w, ?_, hstores⟩⟩
      · rw [System.withServer, htransfers, update_of_ne hid'] at ht
        exact hfailed id' t ht
      · rw [System.withServer, htransfers, update_self]
    · rcases hholds with ⟨t, -, ht⟩ | ⟨-, ht⟩
      · exact nomatch hnone.symm.trans ht.file
      · exact nomatch hnone.symm.trans ht

variable {w : Written}

/-- The transfer that has stored something goes on, or fails and leaves nothing. -/
theorem Held.put (h : Held q before s) (ht : s.server.transfers id = some (.write t))
    (hw : (∃ t', w.transfer = .write t' ∧ Stores q t' w.file) ∨
      w.transfer = .done q.contents.length ∧ w.file = some q.contents ∨
      w.transfer = .failed true ∧ w.file = none) :
    Held q before (s.withServer (s.server.put id w.transfer w.file, sent)) := by
  obtain ⟨hnone, hbut, -⟩ := h.write ht
  have hself : (s.server.put id w.transfer w.file).transfers id = some w.transfer :=
    update_self ..
  have hother : ∀ id', id' ≠ id → ∀ t, (s.server.put id w.transfer w.file).transfers id' = some t →
      t = .failed true := by
    intro id' hid' t' ht'
    exact hbut id' hid' t' ((update_of_ne hid' _ _).symm.trans ht')
  rcases hw with ⟨t', hwrite, hstores⟩ | ⟨hdone, hfile⟩ | ⟨hfailed, hfile⟩
  · exact Or.inr ⟨hnone, id, hother, Or.inl ⟨t', hself.trans (congrArg some hwrite), hstores⟩⟩
  · exact Or.inr ⟨hnone, id, hother, Or.inr ⟨hself.trans (congrArg some hdone), hfile⟩⟩
  · refine Or.inl ⟨fun id' t' ht' => ?_, hfile.trans hnone.symm⟩
    by_cases hid : id' = id
    · subst hid
      exact (Option.some.inj (hself.symm.trans ht')).symm.trans hfailed
    · exact hother id' hid t' ht'

variable {s' : System Upload} {d : Datagram}

/-- What was sent stays known when the server goes on. -/
theorem Known.server (h : Known q s d) (hclient : s'.client = s.client)
    (hnext : s.server.next ≤ s'.server.next)
    (hwrites : ∀ id t', id < s.server.next → s'.server.transfers id = some (.write t') →
      ∃ t, s.server.transfers id = some (.write t) ∧ t.accepted ≤ t'.accepted) :
    Known q s' d := by
  rcases h with ⟨hdest, hpacket, hstarted⟩ | ⟨hdest, hpacket⟩ | ⟨id, hdest, hpacket, hpeer, hsent⟩ |
    ⟨id, hdest, hsource, hstarted, hpacket, haccepted, hsent, hfirst⟩
  · exact .error hdest hpacket fun id hid => (hstarted id hid).trans_le hnext
  · exact .request hdest hpacket
  · exact .block id hdest hpacket (hclient ▸ hpeer) (hclient ▸ hsent)
  · refine .answer id hdest hsource (hstarted.trans_le hnext) hpacket (fun t' ht' => ?_)
      (hclient ▸ hsent) (hclient ▸ hfirst)
    obtain ⟨t, ht, hle⟩ := hwrites id t' hstarted ht'
    exact (haccepted t ht).trans hle

/-- Only blocks go to a transfer. -/
theorem Known.of_transfer (h : Known q s d) (hdest : d.destination = .transfer id) :
    d.packet = q.packetOf d.index ∧ s.client.peer = some (.transfer id) ∧
      d.index ≤ s.client.index := by
  rcases h with ⟨hdest', -, -⟩ | ⟨hdest', -⟩ | ⟨id', hdest', hpacket, hpeer, hsent⟩ |
    ⟨id', hdest', -, -, -, -, -, -⟩
  · cases hdest.symm.trans hdest'
  · cases hdest.symm.trans hdest'
  · obtain rfl : id' = id := Address.transfer.inj (hdest'.symm.trans hdest)
    exact ⟨hpacket, hpeer, hsent⟩
  · cases hdest.symm.trans hdest'

/-- An invariant survives a step of the server that leaves what was sent known. -/
theorem Inv.withServer {server : Server} (hs : Inv q before s)
    (hwrites : ∀ id r, server.transfers id ≠ some (.read r)) (hnext : s.server.next ≤ server.next)
    (hfresh : ∀ id, server.next ≤ id → server.transfers id = none)
    (hold : ∀ id t', id < s.server.next → server.transfers id = some (.write t') →
      ∃ t, s.server.transfers id = some (.write t) ∧ t.accepted ≤ t'.accepted)
    (hturns : ∀ id t, server.transfers id = some (.write t) →
      Turns (s.withServer (server, sent)) id t)
    (hheld : Held q before (s.withServer (server, sent)))
    (hsent : ∀ d ∈ sent, d.destination = .client ∧ Known q (s.withServer (server, sent)) d) :
    Inv q before (s.withServer (server, sent)) where
  writing := by
    refine ⟨hwrites, fun d hd hdest => ?_⟩
    rcases mem_append.mp hd with hd | hd
    · exact hs.writing.requests d hd hdest
    · exact absurd (hdest.symm.trans (hsent d hd).1) Address.noConfusion
  request := hs.request
  fresh := hfresh
  started id hpeer := (hs.started id hpeer).trans_le hnext
  known d hd := by
    rcases mem_append.mp hd with hd | hd
    · exact (hs.known d hd).server rfl hnext hold
    · exact (hsent d hd).2
  turns := hturns
  held := hheld
  phase := hs.phase

/-- An invariant survives a new state of one transfer. -/
theorem Inv.put {server : Server} {t' : Transfer} (hs : Inv q before s)
    (htransfers : server.transfers = update s.server.transfers id (some t'))
    (hnext : s.server.next ≤ server.next) (hid : id < server.next) (hread : ∀ r, t' ≠ .read r)
    (hold : ∀ w, t' = .write w → id < s.server.next →
      ∃ t, s.server.transfers id = some (.write t) ∧ t.accepted ≤ w.accepted)
    (hturns : ∀ w, t' = .write w → Turns s id w)
    (hheld : Held q before (s.withServer (server, sent)))
    (hsent : ∀ d ∈ sent, d.destination = .client ∧ Known q (s.withServer (server, sent)) d) :
    Inv q before (s.withServer (server, sent)) := by
  refine hs.withServer (fun id' r h => ?_) hnext (fun id' hid' => ?_) (fun id' w hlt h => ?_)
    (fun id' w h => ?_) hheld hsent
  · rw [htransfers] at h
    rcases transfers_update h with ⟨-, hr⟩ | ⟨-, hr⟩
    · exact hread r hr.symm
    · exact hs.writing.writes id' r hr
  · rw [htransfers, update_of_ne (by omega)]
    exact hs.fresh id' (hnext.trans hid')
  · rw [htransfers] at h
    rcases transfers_update h with ⟨rfl, hw⟩ | ⟨-, hw⟩
    · exact hold w hw.symm hlt
    · exact ⟨w, hw, le_rfl⟩
  · rw [htransfers] at h
    rcases transfers_update h with ⟨rfl, hw⟩ | ⟨-, hw⟩
    · exact ⟨(hturns w hw.symm).alternates, (hturns w hw.symm).first⟩
    · exact ⟨(hs.turns id' w hw).alternates, (hs.turns id' w hw).first⟩

/-- An error that a transfer sends is known. -/
theorem known_error {answers : List Answer} (hid : id < s.server.next)
    (h : ∀ a ∈ answers, packetOpcode a.1 = some OP_ERROR) (hd : d ∈ Server.answers id answers) :
    d.destination = .client ∧ Known q s d := by
  obtain ⟨a, ha, rfl⟩ := mem_map.mp hd
  exact ⟨rfl, .error rfl (h a ha) fun id' hid' => Address.transfer.inj hid' ▸ hid⟩

/-- An answer that a transfer sends is known, if it has accepted the block. -/
theorem known_answer {n : ℕ} (hid : id < s.server.next)
    (haccepted : ∀ t, s.server.transfers id = some (.write t) → n ≤ t.accepted)
    (hsent : s.client.peer = some (.transfer id) → n ≤ s.client.index)
    (hfirst : s.client.peer = none → n = 0) (hd : d ∈ Server.answers id [(q.answerTo n, n)]) :
    d.destination = .client ∧ Known q s d := by
  obtain rfl := mem_singleton.mp hd
  exact ⟨rfl, .answer id rfl rfl hid rfl haccepted hsent hfirst⟩

/-- A write goes on without a block. -/
theorem Inv.goesOn (hs : Inv q before s) (ht : s.server.transfers id = some (.write t))
    (h : WriteGoesOn q t s.server.file w) :
    Inv q before
      (s.withServer (s.server.put id w.transfer w.file, Server.answers id w.answers)) := by
  have hid : id < s.server.next := by
    by_contra hle
    rw [hs.fresh id (Nat.not_lt.mp hle)] at ht
    cases ht
  obtain ⟨-, -, hstores⟩ := hs.held.write ht
  have hturns := hs.turns id t ht
  have hself : ∀ t' file, (s.server.put id t' file).transfers id = some t' := fun t' file =>
    update_self ..
  rcases h with ⟨herrors⟩ | hphase | ⟨hkeeps, haccepted, hresponse⟩
  · exact hs.put rfl le_rfl hid (fun _ => nofun) (fun _ h => nomatch h) (fun _ h => nomatch h)
      (hs.held.put ht (Or.inr (Or.inr ⟨rfl, rfl⟩))) fun d => known_error (s := s.withServer _) hid herrors
  · -- a transfer that is dallying has stored the file
    have hcomplete : q.stored t.accepted = q.contents := hstores.complete (by rw [hphase]; decide)
    refine hs.put rfl le_rfl hid (fun _ => nofun) (fun _ h => nomatch h) (fun _ h => nomatch h)
      (hs.held.put ht (Or.inr (Or.inl ⟨?_, ?_⟩))) fun d hd => absurd hd not_mem_nil
    · rw [hstores.total, hcomplete]
    · exact hstores.file.trans (congrArg some hcomplete)
  · rename_i t' answers
    have hgoing : ∀ w', Transfer.write t' = .write w' → Turns s id w' := fun w' h => by
      cases h
      exact ⟨haccepted ▸ hturns.alternates, haccepted ▸ hturns.first⟩
    refine hs.put rfl le_rfl hid (fun _ => nofun)
      (fun w' h _ => ⟨t, ht, Transfer.write.inj h ▸ haccepted.ge⟩) hgoing
      (hs.held.put ht (Or.inl ⟨t', rfl, hkeeps hstores⟩)) fun d hd => ?_
    rcases hresponse with rfl | rfl
    · exact absurd hd not_mem_nil
    · rw [hstores.response] at hd
      refine known_answer (s := s.withServer _) hid (fun w' hw' => ?_)
        (fun hpeer => (hturns.alternates hpeer).le)
        hturns.first hd
      have := Transfer.write.inj (Option.some.inj ((hself _ _).symm.trans hw'))
      exact (this ▸ haccepted).ge

/-- **The block that was waited for** is the next one. -/
theorem Inv.accepts (hs : Inv q before s) (ht : s.server.transfers id = some (.write t))
    (hd : d ∈ s.sent) (hdest : d.destination = .transfer id) (hphase : t.phase = .receiving)
    (hlate : t.accepted + 1 < d.index + 2 ^ 16)
    (hnumber : packetBlock d.packet = some t.expectedBlock)
    (h : w = t.accept s.server.file (d.packet.drop 4)) :
    Inv q before
      (s.withServer (s.server.put id w.transfer w.file, Server.answers id w.answers)) := by
  have hid : id < s.server.next := by
    by_contra hle
    rw [hs.fresh id (Nat.not_lt.mp hle)] at ht
    cases ht
  obtain ⟨-, -, hstores⟩ := hs.held.write ht
  obtain ⟨hpacket, hpeer, hsent⟩ := (hs.known d hd).of_transfer hdest
  have hmod : d.index % 2 ^ 16 = (t.accepted + 1) % 2 ^ 16 := by
    rw [hpacket, packetOf, packetBlock_dataPacket, Option.some.injEq, hstores.expected hphase]
      at hnumber
    exact mod_eq_of_ofNat_eq hnumber
  obtain ⟨hindex, hturn⟩ := ((hs.turns id t ht).alternates hpeer).accept hsent hlate hmod
  have hdata : d.packet.drop 4 = block q.granted q.contents (t.accepted + 1) := by
    rw [hpacket, packetOf, drop_dataPacket, hindex]
  rw [hdata] at h
  rcases accept_next hstores hphase with hgoes | ⟨t', file', haccept, hstores', haccepted⟩
  · exact hs.goesOn ht (h ▸ hgoes)
  · obtain rfl := h.trans haccept
    have hgoing : ∀ w', Transfer.write t' = .write w' → Turns s id w' := fun w' h => by
      cases h
      exact ⟨fun _ => haccepted ▸ hturn,
        fun hnone => absurd (hpeer.symm.trans hnone) (Option.some_ne_none _)⟩
    refine hs.put rfl le_rfl hid (fun _ => nofun)
      (fun w' h _ => ⟨t, ht, Transfer.write.inj h ▸ haccepted ▸ Nat.le_succ _⟩) hgoing
      (hs.held.put ht (Or.inl ⟨t', rfl, hstores'⟩)) fun d' hd' => ?_
    refine known_answer (s := s.withServer _) hid (fun w' hw' => ?_) (fun _ => hturn.le)
      (fun hnone => absurd (hpeer.symm.trans hnone) (Option.some_ne_none _)) hd'
    have hself : (s.server.put id (.write t') file').transfers id = some (.write t') :=
      update_self ..
    have := Transfer.write.inj (Option.some.inj (hself.symm.trans hw'))
    exact (this ▸ haccepted).ge

theorem Inv.writeStep (hs : Inv q before s) (hlate : System.OnTime Upload.program s label)
    (h : WriteStep q s label r) : Inv q before (s.withServer r) := by
  have hfree := hs.fresh s.server.next le_rfl
  rcases h with ⟨hfile, htransfers, hnext, herrors⟩ | ⟨hfile, htransfers, hnext, herrors⟩ |
    ⟨hnone, hfile, htransfers, hnext, hstores, hzero⟩ | ⟨ht, hgoes⟩ |
    ⟨ht, hd, hdest, hphase, hopcode, hnumber, haccept⟩
  · refine hs.withServer (htransfers ▸ hs.writing.writes) hnext.ge (fun id hid => ?_)
      (fun id t _ ht => ⟨t, htransfers ▸ ht, le_rfl⟩) (fun id t ht => ?_) ?_ fun d hd => ?_
    · rw [htransfers, hs.fresh id (hnext ▸ hid)]
    · obtain ⟨halternates, hfirst⟩ := hs.turns id t (htransfers ▸ ht)
      exact ⟨halternates, hfirst⟩
    · have hheld := hs.held
      simp only [Held, Holds, FailedBut, System.withServer, htransfers, hfile] at hheld ⊢
      exact hheld
    · refine ⟨(herrors d hd).destination, .error (herrors d hd).destination (herrors d hd).packet
        fun id hid => ?_⟩
      rcases (herrors d hd).source with h | h <;> rw [h] at hid <;> cases hid
  · refine hs.put htransfers (by omega) (by omega) (fun _ => nofun) (fun _ h => nomatch h)
      (fun _ h => nomatch h) (hs.held.start hfree htransfers (Or.inl ⟨rfl, hfile⟩)) fun d hd => ?_
    exact known_error (by simp only [System.withServer]; omega) herrors hd
  · rename_i server t
    -- the client's peer is an older transfer, if it has one
    have hnew : s.client.peer ≠ some (.transfer s.server.next) := fun hpeer =>
      absurd (hs.started _ hpeer) (lt_irrefl _)
    refine hs.put htransfers (by omega) (by omega) (fun _ => nofun)
      (fun _ _ hlt => absurd hlt (lt_irrefl _)) (fun w hw => ?_)
      (hs.held.start hfree htransfers (Or.inr ⟨t, rfl, hnone, hfile ▸ hstores⟩)) fun d hd => ?_
    · cases hw
      exact ⟨fun hpeer => absurd hpeer hnew, fun _ => hzero⟩
    · exact known_answer (by simp only [System.withServer]; omega) (fun _ _ => Nat.zero_le _)
        (fun _ => Nat.zero_le _) (fun _ => rfl) hd
  · exact hs.goesOn ht hgoes
  · exact hs.accepts ht hd hdest hphase (hlate _ ht) hnumber haccept

/-! ### What the client does -/

/-- What was sent stays known when the client goes on: it sends blocks, and it may have found its
peer. -/
theorem Known.client (h : Known q s d) (hserver : s'.server = s.server)
    (hpeer : s'.client.peer = s.client.peer ∧ s.client.index ≤ s'.client.index ∨
      s.client.peer = none) : Known q s' d := by
  rcases h with ⟨hdest, hpacket, hstarted⟩ | ⟨hdest, hpacket⟩ | ⟨id, hdest, hpacket, hpeer', hsent⟩ |
    ⟨id, hdest, hsource, hstarted, hpacket, haccepted, hsent, hfirst⟩
  · exact .error hdest hpacket (hserver ▸ hstarted)
  · exact .request hdest hpacket
  · rcases hpeer with ⟨hsame, hle⟩ | hnone
    · exact .block id hdest hpacket (hsame ▸ hpeer') (hsent.trans hle)
    · exact absurd (hpeer'.symm.trans hnone) (Option.some_ne_none _)
  · refine .answer id hdest hsource (hserver ▸ hstarted) hpacket (hserver ▸ haccepted) (fun h => ?_)
      fun h => ?_
    · rcases hpeer with ⟨hsame, hle⟩ | hnone
      · exact (hsent (hsame ▸ h)).trans hle
      · exact (hfirst hnone).le.trans (Nat.zero_le _)
    · rcases hpeer with ⟨hsame, -⟩ | hnone
      · exact hfirst (hsame ▸ h)
      · exact hfirst hnone

variable {c : Upload}

/-- An invariant survives a step of the client that leaves what was sent known. -/
theorem Inv.withClient (hs : Inv q before s) (hrequest : c.request = s.client.request)
    (hstarted : ∀ id, c.peer = some (.transfer id) → id < s.server.next)
    (hpeer : c.peer = s.client.peer ∧ s.client.index ≤ c.index ∨ s.client.peer = none)
    (hturns : ∀ id t, s.server.transfers id = some (.write t) → c.peer = some (.transfer id) →
      Alternates c.index t.accepted) (hsent : ∀ d ∈ sent, Known q (s.withClient (c, sent)) d)
    (hphase : AtPhase q c) :
    Inv q before (s.withClient (c, sent)) where
  writing := by
    refine ⟨hs.writing.writes, fun d hd hdest => ?_⟩
    rcases mem_append.mp hd with hd | hd
    · exact hs.writing.requests d hd hdest
    · rcases hsent d hd with ⟨hdest', -, -⟩ | ⟨-, hpacket⟩ | ⟨id, hdest', -, -, -⟩ |
        ⟨id, hdest', -, -, -, -, -, -⟩
      · cases hdest.symm.trans hdest'
      · exact hpacket
      · cases hdest.symm.trans hdest'
      · cases hdest.symm.trans hdest'
  request := hrequest.trans hs.request
  fresh := hs.fresh
  started := hstarted
  known d hd := by
    rcases mem_append.mp hd with hd | hd
    · exact (hs.known d hd).client rfl hpeer
    · exact hsent d hd
  turns id t ht := by
    refine ⟨hturns id t ht, fun hnone => (hs.turns id t ht).first ?_⟩
    rcases hpeer with ⟨hsame, -⟩ | hpeer
    · exact hsame ▸ hnone
    · exact hpeer
  held := hs.held
  phase := hphase

/-- A step of the client after which its peer and its blocks are what they were. -/
theorem Inv.stays (hs : Inv q before s) (hrequest : c.request = s.client.request)
    (hpeer : c.peer = s.client.peer) (hindex : c.index = s.client.index)
    (hsent : ∀ d ∈ sent, Known q (s.withClient (c, sent)) d) (hphase : AtPhase q c) :
    Inv q before (s.withClient (c, sent)) :=
  hs.withClient hrequest (hpeer ▸ hs.started) (Or.inl ⟨hpeer, hindex.ge⟩)
    (fun id t ht hp => hindex ▸ (hs.turns id t ht).alternates (hpeer ▸ hp)) hsent hphase

/-- A client that has ended promises nothing more. -/
theorem Inv.ended (hs : Inv q before s) {phase : UploadPhase} (h : phase = .done ∨ phase = .failed) :
    Inv q before (s.withClient ({ s.client with phase }, [])) := by
  refine hs.stays rfl rfl rfl (fun d hd => absurd hd not_mem_nil) ?_
  rcases h with rfl | rfl <;> trivial

/-- What the client sends to its peer is known. -/
theorem known_toPeer (hpeer : ∃ id, c.peer = some (.transfer id))
    (hpacket : c.packet = q.packetOf c.index) (hpeer' : s.client.peer = c.peer)
    (hindex : s.client.index = c.index) (hd : d ∈ c.toPeer) : Known q s d := by
  obtain ⟨id, hid⟩ := hpeer
  rw [Upload.toPeer, hid] at hd
  obtain rfl := mem_singleton.mp hd
  exact .block id rfl hpacket (hpeer'.trans hid) hindex.ge

/-- **The next block is sent**, when the one before it was accepted. -/
theorem Inv.sendBlock (hs : Inv q before s) {number : UInt16}
    (hrequest : c.request = s.client.request) (hpeer : c.peer = some (.transfer id))
    (hid : id < s.server.next) (hsame : s.client.peer = some (.transfer id) ∨ s.client.peer = none)
    (hindex : c.index = s.client.index) (hblockSize : c.blockSize = q.granted)
    (hrest : c.rest = q.contents.drop (c.index * q.granted))
    (hnumber : number = UInt16.ofNat (c.index + 1))
    (hturns : ∀ t, s.server.transfers id = some (.write t) → Alternates (c.index + 1) t.accepted) :
    Inv q before (s.withClient (c.sendBlock number)) := by
  have hpacket : dataPacket number (c.rest.take c.blockSize) = q.packetOf (c.index + 1) := by
    rw [packetOf, block_succ, hnumber, hrest, hblockSize]
  have hdrop : c.rest.drop c.blockSize = q.contents.drop ((c.index + 1) * q.granted) := by
    rw [hrest, hblockSize, drop_drop, Nat.succ_mul]
  have hsame' : ∀ id', c.peer = some (.transfer id') → id' = id := fun id' h =>
    Address.transfer.inj (Option.some.inj (h.symm.trans hpeer))
  refine hs.withClient hrequest (fun id' h => hsame' id' h ▸ hid) ?_ (fun id' t ht h => ?_)
    (fun d hd => known_toPeer (c := (c.sendBlock number).1) ⟨id, hpeer⟩ hpacket rfl rfl hd)
    ⟨⟨id, hpeer⟩, hblockSize, hnumber, hpacket, hdrop⟩
  · rcases hsame with hsame | hnone
    · exact Or.inl ⟨hpeer.trans hsame.symm, hindex ▸ Nat.le_succ _⟩
    · exact Or.inr hnone
  · obtain rfl := hsame' id' h
    exact hturns t ht

/-- The first packet: the client takes its address as the peer. -/
theorem Inv.firstPacket (hs : Inv q before s) (hd : d ∈ s.sent) (hdest : d.destination = .client)
    (hphase : s.client.phase = .requesting) :
    Inv q before (s.withClient (s.client.receive d.source d.packet)) := by
  have hat := hs.phase
  simp only [AtPhase, hphase] at hat
  obtain ⟨hnone, hindex, hrest⟩ := hat
  have hzero : ∀ id t, s.server.transfers id = some (.write t) →
      Alternates s.client.index t.accepted := fun id t ht => by
    rw [hindex, (hs.turns id t ht).first hnone]
    exact ⟨le_rfl, Nat.zero_le _⟩
  simp only [Upload.receive, hphase]
  rcases hs.known d hd with ⟨-, hpacket, hstarted⟩ | ⟨hdest', -⟩ | ⟨id, hdest', -, -, -⟩ |
    ⟨id, -, hsource, hid, hpacket, -, -, hfirst⟩
  · -- an error ends the transfer
    rw [if_pos hpacket]
    exact hs.withClient rfl (fun id h => hstarted id (Option.some.inj h)) (Or.inr hnone)
      (fun id t ht _ => hzero id t ht) (fun d hd => absurd hd not_mem_nil) trivial
  · cases hdest.symm.trans hdest'
  · cases hdest.symm.trans hdest'
  · rw [hfirst hnone] at hpacket
    have hone : ∀ t, s.server.transfers id = some (.write t) →
        Alternates (s.client.index + 1) t.accepted := fun t ht => by
      rw [hindex, (hs.turns id t ht).first hnone]
      exact ⟨Nat.zero_le _, le_rfl⟩
    have hstart : s.client.rest = q.contents.drop (s.client.index * q.granted) := by
      rw [hindex, Nat.zero_mul, drop_zero, hrest]
    have hnumber : (1 : UInt16) = UInt16.ofNat (s.client.index + 1) := by rw [hindex]; rfl
    by_cases hempty : q.acknowledged = []
    · have hanswer : q.answerTo 0 = ackPacket 0 := if_neg fun h => h.2 hempty
      rw [hpacket, hanswer, packetOpcode_ackPacket, packetBlock_ackPacket,
        if_neg (by decide), if_neg (by decide), if_pos ⟨rfl, rfl⟩]
      exact hs.sendBlock (c := { s.client with
        peer := some d.source, blockSize := DEFAULT_BLOCK_SIZE, phase := .requesting }) rfl
        (congrArg some hsource) hid (Or.inr hnone) rfl (agree.2.2 hempty).symm hstart hnumber hone
    · have hanswer : q.answerTo 0 = optionAckPacket q.acknowledged := if_pos ⟨rfl, hempty⟩
      rw [hpacket, hanswer, packetOpcode_optionAckPacket, if_neg (by decide), if_pos rfl]
      exact hs.sendBlock (c := { s.client with
        peer := some d.source, phase := .requesting,
        blockSize := (parsedBlockSize (optionAckPacket q.acknowledged)).getD DEFAULT_BLOCK_SIZE })
        rfl (congrArg some hsource) hid (Or.inr hnone) rfl agree.2.1 hstart hnumber hone

/-- **The acknowledgement awaited** is for the block sent last. -/
theorem Inv.acknowledged (hs : Inv q before s) (hd : d ∈ s.sent) (hdest : d.destination = .client)
    (hsource : d.source = .transfer id) (hpeer : s.client.peer = some (.transfer id))
    (hlate : s.client.index < d.index + 2 ^ 16) (hopcode : packetOpcode d.packet = some OP_ACK)
    (hnumber : packetBlock d.packet = some (UInt16.ofNat s.client.index)) :
    ∀ t, s.server.transfers id = some (.write t) → Alternates (s.client.index + 1) t.accepted := by
  rcases hs.known d hd with ⟨-, hpacket, -⟩ | ⟨hdest', -⟩ | ⟨id', hdest', -, -, -⟩ |
    ⟨id', -, hsource', -, hpacket, haccepted, hsent, -⟩
  · rw [hpacket] at hopcode
    exact absurd hopcode (by decide)
  · cases hdest.symm.trans hdest'
  · cases hdest.symm.trans hdest'
  · obtain rfl : id' = id := Address.transfer.inj (hsource'.symm.trans hsource)
    rw [hpacket] at hopcode
    rw [hpacket, packetBlock_answerTo hopcode, Option.some.injEq] at hnumber
    have hindex := eq_of_mod_eq (hsent hpeer) hlate (mod_eq_of_ofNat_eq hnumber)
    intro t ht
    exact ⟨(((hs.turns id' t ht).alternates hpeer).le).trans (Nat.le_succ _),
      Nat.succ_le_succ (hindex ▸ haccepted t ht)⟩

theorem Inv.clientReceive (hs : Inv q before s) (hd : d ∈ s.sent) (hdest : d.destination = .client)
    (hlate : s.client.peer = some d.source → s.client.index < d.index + 2 ^ 16) :
    Inv q before (s.withClient (s.client.receive d.source d.packet)) := by
  have hat := hs.phase
  have hquiet : Inv q before (s.withClient (s.client, [])) :=
    hs.stays rfl rfl rfl (fun _ h => absurd h not_mem_nil) hs.phase
  rcases hphase : s.client.phase with - | - | - | -
  · exact hs.firstPacket hd hdest hphase
  · simp only [AtPhase, hphase] at hat
    obtain ⟨⟨id, hid⟩, hblockSize, hblock, hpacket, hrest⟩ := hat
    simp only [Upload.receive, hphase]
    split_ifs with hsource hreply herror hlast
    · exact hs.ended (Or.inr rfl)
    · exact hs.ended (Or.inl rfl)
    · have hsource' : d.source = .transfer id := Option.some.inj (hsource.symm.trans hid)
      obtain ⟨hopcode, hnumber⟩ := (isReply_iff.mp hreply).resolve_left herror
      refine hs.sendBlock rfl hid (hs.started id hid) (Or.inl hid) rfl hblockSize hrest ?_
        (hs.acknowledged hd hdest hsource' hid (hlate hsource) hopcode (hblock ▸ hnumber))
      rw [hblock, UInt16.ofNat_add]
      rfl
    · exact hs.stays rfl rfl rfl (fun _ => known_toPeer (s := s.withClient _) ⟨id, hid⟩ hpacket rfl rfl)
        hs.phase
    · exact hquiet
  · simp only [Upload.receive, hphase]
    exact hquiet
  · simp only [Upload.receive, hphase]
    exact hquiet

/-- Sending a packet again. -/
theorem Inv.resend (hs : Inv q before s)
    (hsent : ∀ d ∈ sent, ∀ s' : System Upload, s'.client.peer = s.client.peer →
      s'.client.index = s.client.index → Known q s' d) :
    Inv q before (s.withClient (s.client.resend sent)) := by
  unfold Upload.resend
  split_ifs
  · exact hs.stays rfl rfl rfl (fun d hd => hsent d hd _ rfl rfl) hs.phase
  · exact hs.ended (Or.inr rfl)

theorem Inv.clientTimeout (hs : Inv q before s) :
    Inv q before (s.withClient s.client.timeout) := by
  have hat := hs.phase
  have hquiet : Inv q before (s.withClient (s.client, [])) :=
    hs.stays rfl rfl rfl (fun _ h => absurd h not_mem_nil) hs.phase
  rcases hphase : s.client.phase with - | - | - | - <;>
    simp only [Upload.timeout, hphase] <;> simp only [AtPhase, hphase] at hat
  · refine hs.resend fun d hd s' _ _ => ?_
    obtain rfl := mem_singleton.mp hd
    exact .request rfl hs.request
  · exact hs.resend fun d hd s' hpeer hindex => known_toPeer hat.1 hat.2.2.2.1 hpeer hindex hd
  · exact hquiet
  · exact hquiet

theorem Inv.clientFail (hs : Inv q before s) :
    Inv q before (s.withClient (s.client.breakOff, [])) := by
  unfold Upload.breakOff
  split
  · exact hs.stays rfl rfl rfl (fun _ h => absurd h not_mem_nil) hs.phase
  · exact hs.ended (Or.inr rfl)

/-- **The invariant is kept** at every step that is on time. -/
theorem Inv.step (hs : Inv q before s) (hlate : System.OnTime Upload.program s label)
    (h : System.step Upload.program s label = some s') : Inv q before s' := by
  rcases System.step_cases h with ⟨d, hd, hdest, rfl, rfl⟩ | rfl | rfl | ⟨r, hr, rfl⟩
  · exact hs.clientReceive hd hdest hlate
  · exact hs.clientTimeout
  · exact hs.clientFail
  · exact hs.writeStep hlate (hs.writing.serverStep hr)

theorem inv_of_reaches {writable : Bool}
    (h : System.Reaches Upload.program (q.initial writable before) s) : Inv q before s := by
  obtain ⟨labels, hrun⟩ := h
  exact hrun.invariant (inv_initial writable) fun s label s' hs hstep => hs.step hstep.1 hstep.2

end UploadRequest

end Zetta.Ztftp
