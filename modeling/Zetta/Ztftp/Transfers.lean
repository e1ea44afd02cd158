import Zetta.Ztftp.DownloadRuns
import Zetta.Ztftp.UploadRuns

/-!
# Transfers deliver the file intact

The result about a client and the server over a network that loses, delays, repeats and reorders
datagrams: downloads (`DownloadRequest.output_of_reaches`), uploads
(`UploadRequest.file_of_reaches`), and both together (`transfers_intact`), for files and block
sizes of any kind, and for more blocks than sixteen bits can number.
-/

namespace Zetta.Ztftp

namespace UploadRequest

variable {q : UploadRequest} {before : Option (List UInt8)} {label : Label}

/-- **Uploads**: what the server has under the name is what it had before, or what one transfer has
stored, and that is the first blocks of the file, all of it when `serve_write_request` has
succeeded. -/
theorem file_of_reaches {s : System Upload} {writable : Bool}
    (h : System.Reaches Upload.program (q.initial writable before) s) :
    (∀ id n, s.server.transfers id = some (.done n) →
      s.server.file = some q.contents ∧ n = q.contents.length) ∧
    (∀ id t, s.server.transfers id = some (.write t) →
      s.server.file = some (q.stored t.accepted)) ∧
    ((∀ id t, s.server.transfers id = some t → ∃ write, t = .failed write) →
      s.server.file = before) := by
  have hheld := (inv_of_reaches h).held
  refine ⟨fun id n hdone => ?_, fun id t ht => (hheld.write ht).2.2.file, fun hfailed => ?_⟩
  · rcases hheld with ⟨hfailed, -⟩ | ⟨-, id', hbut, hholds⟩
    · exact nomatch hfailed id _ hdone
    by_cases hid : id = id'
    · subst hid
      rcases hholds with ⟨t, ht, -⟩ | ⟨hdone', hfile⟩
      · cases hdone.symm.trans ht
      · exact ⟨hfile, Transfer.done.inj (Option.some.inj (hdone.symm.trans hdone'))⟩
    · exact nomatch hbut id hid _ hdone
  · rcases hheld with ⟨-, hbefore⟩ | ⟨-, id, -, ⟨t, ht, -⟩ | ⟨hdone, -⟩⟩
    · exact hbefore
    · obtain ⟨write, h⟩ := hfailed id _ ht
      cases h
    · obtain ⟨write, h⟩ := hfailed id _ hdone
      cases h

variable {t : WriteTransfer} {write : Bool}

/-- A block that is taken when the transfer fails over it is removed as well. -/
theorem file_of_accept_failed {file : Option (List UInt8)} {data : List UInt8}
    (h : (t.accept file data).transfer = .failed write) : (t.accept file data).file = none := by
  simp only [WriteTransfer.accept] at h ⊢
  split_ifs at h ⊢
  · rfl
  · rfl

/-- **A transfer that fails** leaves no file behind. -/
theorem file_of_failed {s s' : System Upload} (hs : Inv q before s)
    (h : System.step Upload.program s label = some s') {id : ℕ}
    (ht : s.server.transfers id = some (.write t))
    (hfailed : s'.server.transfers id = some (.failed write)) : s'.server.file = none := by
  have hsame : s.server.transfers id ≠ some (.failed write) := by rw [ht]; exact nofun
  have hold : id ≠ s.server.next := by
    rintro rfl
    rw [hs.fresh _ le_rfl] at ht
    cases ht
  -- the transfer that failed is the one that the step was about
  have hput : ∀ {id' : ℕ} {w : Written}, (s.server.put id' w.transfer w.file).transfers id =
      some (.failed write) → w.transfer = .failed write := by
    intro id' w hw
    rcases transfers_update hw with ⟨-, h⟩ | ⟨-, h⟩
    · exact h.symm
    · exact absurd h hsame
  rcases System.step_cases h with ⟨d, -, -, -, rfl⟩ | rfl | rfl | ⟨r, hr, rfl⟩
  · exact absurd hfailed hsame
  · exact absurd hfailed hsame
  · exact absurd hfailed hsame
  rcases hs.writing.serverStep hr with ⟨-, htransfers, -, -⟩ | ⟨-, htransfers, -, -⟩ |
    ⟨-, -, htransfers, -, -, -⟩ | ⟨-, hgoes⟩ | ⟨-, -, -, -, -, -, rfl⟩
  · exact absurd (htransfers ▸ hfailed) hsame
  · rw [System.withServer, htransfers, Function.update_of_ne hold] at hfailed
    exact absurd hfailed hsame
  · rw [System.withServer, htransfers, Function.update_of_ne hold] at hfailed
    exact absurd hfailed hsame
  · have htransfer := hput hfailed
    rcases hgoes with - | - | -
    · rfl
    · cases htransfer
    · cases htransfer
  · exact file_of_accept_failed (hput hfailed)

end UploadRequest

/-- **Transfers deliver the file intact.** In every run of a client and the server over a network
that loses, delays, repeats and reorders datagrams, none of them by 65536 blocks:

* what a download has written is the first blocks of the file that is served, each of them once and
  in order, and all of the file when `download` succeeds;
* what an upload has stored is the first blocks of the file, and all of the file when
  `serve_write_request` succeeds; a transfer that fails leaves no file, and when all have failed
  the server has what it had before. -/
theorem transfers_intact :
    (∀ (q : DownloadRequest) (file : List UInt8) (writable : Bool) (output : Option (List UInt8))
        (s : System Download),
      System.Reaches Download.program (q.initial file writable output) s →
        (s.client.phase = .done → s.client.output = some file) ∧
        (1 ≤ s.client.accepted →
          s.client.output = some (file.take (s.client.accepted * q.granted)))) ∧
    ∀ (q : UploadRequest) (writable : Bool) (before : Option (List UInt8)) (s : System Upload),
      System.Reaches Upload.program (q.initial writable before) s →
        (∀ id n, s.server.transfers id = some (.done n) →
          s.server.file = some q.contents ∧ n = q.contents.length) ∧
        (∀ id t, s.server.transfers id = some (.write t) →
          s.server.file = some (q.contents.take (t.accepted * q.granted))) ∧
        ((∀ id t, s.server.transfers id = some t → ∃ write, t = .failed write) →
          s.server.file = before) ∧
        ∀ label s', System.step Upload.program s label = some s' →
          ∀ id t write, s.server.transfers id = some (.write t) →
            s'.server.transfers id = some (.failed write) → s'.server.file = none := by
  refine ⟨fun q file writable output s h => DownloadRequest.output_of_reaches h,
    fun q writable before s h => ?_⟩
  obtain ⟨hdone, hwrite, hfailed⟩ := UploadRequest.file_of_reaches h
  exact ⟨hdone, hwrite, hfailed, fun label s' hstep id t write ht hfail =>
    UploadRequest.file_of_failed (UploadRequest.inv_of_reaches h) hstep ht hfail⟩

/-- A file of two blocks, the second one short, is downloaded and uploaded; an acknowledgement and a
block arrive twice. -/
theorem transfers_intact_twoBlocks :
    let file : List UInt8 := [1, 2, 3, 4, 5, 6, 7, 8, 9]
    let down : DownloadRequest := ⟨[0x66], some 8, some 0, by decide⟩
    let up : UploadRequest := ⟨[0x66], some 8, some 9, file, by decide⟩
    (∃ s, System.Reaches Download.program (down.initial file false none) s ∧
      s.client.output = some file) ∧
    ∃ s, System.Reaches Upload.program (up.initial true none) s ∧ s.server.file = some file := by
  intro file down up
  have hdown : ∃ s, System.Reaches Download.program (down.initial file false none) s ∧
      s.client.phase = .done :=
    System.exists_reaches_of_foldlM
      [.listen ⟨.client, .listener, down.packet, 0⟩ ⟨false, false, false⟩,
        .clientReceive ⟨.transfer 0, .client, down.packetOf file 0, 0⟩,
        .receive 0 ⟨.client, .transfer 0, ackPacket 0, 0⟩,
        .clientReceive ⟨.transfer 0, .client, down.packetOf file 1, 1⟩,
        .receive 0 ⟨.client, .transfer 0, ackPacket 0, 0⟩,
        .clientReceive ⟨.transfer 0, .client, down.packetOf file 1, 1⟩,
        .receive 0 ⟨.client, .transfer 0, ackPacket 1, 1⟩,
        .clientReceive ⟨.transfer 0, .client, down.packetOf file 2, 2⟩] (by decide +kernel)
  have hup : ∃ s, System.Reaches Upload.program (up.initial true none) s ∧
      s.server.transfers 0 = some (.done 9) :=
    System.exists_reaches_of_foldlM
      [.listen ⟨.client, .listener, up.packet, 0⟩ ⟨false, false, false⟩,
        .clientReceive ⟨.transfer 0, .client, up.answerTo 0, 0⟩,
        .receive 0 ⟨.client, .transfer 0, up.packetOf 1, 1⟩,
        .receive 0 ⟨.client, .transfer 0, up.packetOf 1, 1⟩,
        .clientReceive ⟨.transfer 0, .client, ackPacket 1, 1⟩,
        .receive 0 ⟨.client, .transfer 0, up.packetOf 2, 2⟩,
        .finish 0, .timeout 0] (by decide +kernel)
  obtain ⟨s, hs, hdone⟩ := hdown
  obtain ⟨s', hs', hdone'⟩ := hup
  exact ⟨⟨s, hs, (transfers_intact.1 down file false none s hs).1 hdone⟩,
    s', hs', ((transfers_intact.2 up true none s' hs').1 0 9 hdone').1⟩

/-- **In step.** In every such run the two sides are never more than a block apart, every block on
its way is that block of the file, and what is acknowledged has been written. -/
theorem transfers_in_step :
    (∀ (q : DownloadRequest) (file : List UInt8) (writable : Bool) (output : Option (List UInt8))
        (s : System Download),
      System.Reaches Download.program (q.initial file writable output) s →
        (∀ id t, s.server.transfers id = some (.read t) → s.client.peer = some (.transfer id) →
          StopAndWait.Alternates t.index s.client.accepted) ∧
        ∀ d ∈ s.sent,
          (d.destination = .client → packetOpcode d.packet = some OP_ERROR ∨
            d.packet = q.packetOf file d.index) ∧
          ∀ id, d.destination = .transfer id →
            d.packet = ackPacket (UInt16.ofNat d.index) ∧ d.index ≤ s.client.accepted) ∧
    ∀ (q : UploadRequest) (writable : Bool) (before : Option (List UInt8)) (s : System Upload),
      System.Reaches Upload.program (q.initial writable before) s →
        (∀ id t, s.server.transfers id = some (.write t) → s.client.peer = some (.transfer id) →
          StopAndWait.Alternates s.client.index t.accepted) ∧
        ∀ d ∈ s.sent,
          (d.destination = .client → packetOpcode d.packet = some OP_ERROR ∨
            d.packet = q.answerTo d.index ∧ ∀ id t, d.source = .transfer id →
              s.server.transfers id = some (.write t) → d.index ≤ t.accepted) ∧
          ∀ id, d.destination = .transfer id → d.packet = q.packetOf d.index := by
  constructor
  · intro q file writable output s hreaches
    have hs := DownloadRequest.inv_of_reaches hreaches
    refine ⟨fun id t ht => (hs.going id t ht).turns, fun d hd => ?_⟩
    rcases hs.known d hd with h | ⟨hdest, -, -⟩ | ⟨-, hdest, -, -, hpacket, -, -, -⟩ |
      ⟨_, hdest, -, hpacket, -, haccepted⟩
    · exact ⟨fun _ => .inl h.packet, fun id h' => nomatch h.destination.symm.trans h'⟩
    · exact ⟨fun h => (nomatch hdest.symm.trans h), fun id h => (nomatch hdest.symm.trans h)⟩
    · exact ⟨fun _ => .inr hpacket, fun id h => nomatch hdest.symm.trans h⟩
    · exact ⟨fun h => (nomatch hdest.symm.trans h), fun _ _ => ⟨hpacket, haccepted⟩⟩
  · intro q writable before s hreaches
    have hs := UploadRequest.inv_of_reaches hreaches
    refine ⟨fun id t ht => (hs.turns id t ht).alternates, fun d hd => ?_⟩
    rcases hs.known d hd with ⟨hdest, hpacket, -⟩ | ⟨hdest, -⟩ | ⟨_, hdest, hpacket, -, -⟩ |
      ⟨id, hdest, hsource, -, hpacket, haccepted, -, -⟩
    · exact ⟨fun _ => .inl hpacket, fun id h => nomatch hdest.symm.trans h⟩
    · exact ⟨fun h => (nomatch hdest.symm.trans h), fun id h => (nomatch hdest.symm.trans h)⟩
    · exact ⟨fun h => (nomatch hdest.symm.trans h), fun _ _ => hpacket⟩
    · refine ⟨fun _ => .inr ⟨hpacket, fun id' t hid ht => haccepted t ?_⟩,
        fun id h => nomatch hdest.symm.trans h⟩
      cases hsource.symm.trans hid
      exact ht

/-- The first block of a download has been written, its acknowledgement is on the way. -/
theorem transfers_in_step_firstBlock : let file : List UInt8 := [1, 2, 3, 4, 5, 6, 7, 8, 9]
    let down : DownloadRequest := ⟨[0x66], some 8, some 0, by decide⟩
    let t : ReadTransfer := ⟨8, [9], down.packetOf file 1, 1, false, 8, 1, 1⟩
    ∃ s, System.Reaches Download.program (down.initial file false none) s ∧
      s.server.transfers 0 = some (.read t) ∧ s.client.accepted = 1 ∧
        StopAndWait.Alternates t.index s.client.accepted := by
  intro file down t
  obtain ⟨s, hs, ht, hpeer, haccepted⟩ :
      ∃ s, System.Reaches Download.program (down.initial file false none) s ∧
        s.server.transfers 0 = some (.read t) ∧ s.client.peer = some (.transfer 0) ∧
          s.client.accepted = 1 :=
    System.exists_reaches_of_foldlM
      [.listen ⟨.client, .listener, down.packet, 0⟩ ⟨false, false, false⟩,
        .clientReceive ⟨.transfer 0, .client, down.packetOf file 0, 0⟩,
        .receive 0 ⟨.client, .transfer 0, ackPacket 0, 0⟩,
        .clientReceive ⟨.transfer 0, .client, down.packetOf file 1, 1⟩] (by decide +kernel)
  exact ⟨s, hs, ht, haccepted, (transfers_in_step.1 down file false none s hs).1 0 t ht hpeer⟩

end Zetta.Ztftp
