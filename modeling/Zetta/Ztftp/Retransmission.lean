import Zetta.Ztftp.Flights

/-!
# How often a block is transmitted

* **Downloads**: once, and once more for each time-out that expires at the server while the block
  is outstanding.
* **Uploads**: the client sends the outstanding block again for *every* packet that is not the one
  it waits for. A second acknowledgement, which a time-out before may have caused, makes it send
  the next block twice; the server acknowledges both, and so on to the end of the file
  (`data_sent_twice`). Without such packets it is as for downloads (`Upload.Awaited`).
-/

namespace Zetta.Ztftp

/-! ### Uploads -/

namespace Upload

/-- The block whose acknowledgement the client waits for. -/
def outstanding (c : Upload) : Option ℕ := if c.phase = .sending then some c.index else none

/-- **The client has counted**: no block was transmitted more often than once and once for each
time-out that expired meanwhile, and the outstanding one exactly so often. -/
structure Counted (c : Upload) (sent : List Datagram) (timeouts : ℕ → ℕ) : Prop where
  ahead : ∀ n, c.index < n → transmissions sent .client n = 0
  unexpired : ∀ n, c.index < n → timeouts n = 0
  bound : ∀ n, 1 ≤ n → transmissions sent .client n ≤ 1 + timeouts n
  peer : c.phase = .sending → ∃ peer, c.peer = some peer
  packet : c.phase = .sending → packetOpcode c.packet = some OP_DATA
  one_le : c.phase = .sending → 1 ≤ c.index
  exact : c.phase = .sending → transmissions sent .client c.index = 1 + timeouts c.index

variable {c : Upload} {sent : List Datagram} {timeouts timeouts' : ℕ → ℕ}

theorem transmissions_toPeer_of_ne {n : ℕ} (h : c.index ≠ n) :
    transmissions c.toPeer .client n = 0 := by
  rw [transmissions, List.countP_eq_zero]
  intro d hd
  obtain ⟨peer, -, rfl⟩ := List.mem_map.mp hd
  simp [h]

theorem transmissions_toPeer (hpeer : ∃ peer, c.peer = some peer)
    (hpacket : packetOpcode c.packet = some OP_DATA) :
    transmissions c.toPeer .client c.index = 1 := by
  obtain ⟨peer, hpeer⟩ := hpeer
  simp [transmissions, toPeer, hpeer, hpacket]

namespace Counted

/-- What others send is not counted. -/
theorem others (h : c.Counted sent timeouts) {more : List Datagram}
    (hmore : ∀ d ∈ more, d.source ≠ .client) : c.Counted (sent ++ more) timeouts := by
  have hsame : ∀ n, transmissions (sent ++ more) .client n = transmissions sent .client n := by
    intro n
    rw [transmissions_append, transmissions_eq_zero hmore, add_zero]
  exact ⟨fun n hn => (hsame n).trans (h.ahead n hn), h.unexpired,
    fun n hn => (hsame n).le.trans (h.bound n hn), h.peer, h.packet, h.one_le,
    fun hphase => (hsame _).trans (h.exact hphase)⟩

/-- The client waits for no acknowledgement; what it sends is about no block. -/
theorem idle (h : c.Counted sent timeouts) {c' : Upload} {more : List Datagram}
    (hphase : c'.phase ≠ .sending) (hindex : c'.index = c.index)
    (hmore : ∀ d ∈ more, d.index = 0) : c'.Counted (sent ++ more) timeouts := by
  have hsame : ∀ n, 1 ≤ n →
      transmissions (sent ++ more) .client n = transmissions sent .client n := by
    intro n hn
    have hzero : transmissions more .client n = 0 := by
      rw [transmissions, List.countP_eq_zero]
      intro d hd
      have hne : ¬0 = n := by omega
      simp [hmore d hd, hne]
    rw [transmissions_append, hzero, add_zero]
  refine ⟨fun n hn => ?_, fun n hn => h.unexpired n (hindex ▸ hn), fun n hn => ?_,
    fun hsending => ?_, fun hsending => ?_, fun hsending => ?_, fun hsending => ?_⟩
  · rw [hindex] at hn
    rw [hsame n (by omega), h.ahead n hn]
  · rw [hsame n hn]
    exact h.bound n hn
  all_goals exact absurd hsending hphase

/-- The client gives up. -/
theorem failed (h : c.Counted sent timeouts) (hle : ∀ n, timeouts n ≤ timeouts' n)
    (hahead : ∀ n, c.index < n → timeouts' n = timeouts n) :
    c.fail.Counted (sent ++ []) timeouts' := by
  rw [List.append_nil]
  refine ⟨h.ahead, fun n hn => ?_, fun n hn => ?_, fun hsending => ?_,
    fun hsending => ?_, fun hsending => ?_, fun hsending => ?_⟩
  · rw [hahead n hn]
    exact h.unexpired n hn
  · exact (h.bound n hn).trans (Nat.add_le_add_left (hle n) 1)
  all_goals exact absurd hsending (by simp [fail])

/-- **The next block** was not transmitted before. -/
theorem sendBlock (h : c.Counted sent timeouts) {c' : Upload} (hindex : c'.index = c.index)
    (hpeer : ∃ peer, c'.peer = some peer) (block : UInt16) :
    (c'.sendBlock block).1.Counted (sent ++ (c'.sendBlock block).2) timeouts := by
  have hnext : (c'.sendBlock block).1.index = c.index + 1 := congrArg (· + 1) hindex
  have hpacket : packetOpcode (c'.sendBlock block).1.packet = some OP_DATA :=
    packetOpcode_dataPacket _ _
  have hone : transmissions (c'.sendBlock block).2 .client (c.index + 1) = 1 :=
    hnext ▸ transmissions_toPeer (c := (c'.sendBlock block).1) hpeer hpacket
  have hother : ∀ n, c.index + 1 ≠ n → transmissions (c'.sendBlock block).2 .client n = 0 :=
    fun n hn => transmissions_toPeer_of_ne (c := (c'.sendBlock block).1) (hnext.trans_ne hn)
  refine ⟨fun n hn => ?_, fun n hn => ?_, fun n hn => ?_, fun _ => hpeer, fun _ => hpacket,
    fun _ => ?_, fun _ => ?_⟩
  · rw [hnext] at hn
    rw [transmissions_append, h.ahead n (by omega), hother n (by omega)]
  · rw [hnext] at hn
    exact h.unexpired n (by omega)
  · rw [transmissions_append]
    by_cases heq : c.index + 1 = n
    · subst heq
      rw [h.ahead _ (Nat.lt_succ_self _), hone]
      exact Nat.le_add_right 1 _
    · rw [hother n heq, add_zero]
      exact h.bound n hn
  · rw [hnext]
    exact Nat.le_add_left 1 _
  · rw [hnext, transmissions_append, h.ahead _ (Nat.lt_succ_self _), hone,
      h.unexpired _ (Nat.lt_succ_self _)]

/-- **A time-out** pays for another transmission of the outstanding block. -/
theorem resend (h : c.Counted sent timeouts) (hphase : c.phase = .sending)
    (hself : timeouts' c.index = timeouts c.index + 1)
    (hother : ∀ n, n ≠ c.index → timeouts' n = timeouts n) :
    (c.resend c.toPeer).1.Counted (sent ++ (c.resend c.toPeer).2) timeouts' := by
  have hahead : ∀ n, c.index < n → timeouts' n = timeouts n := fun n hn => hother n hn.ne'
  have hle : ∀ n, timeouts n ≤ timeouts' n := by
    intro n
    by_cases heq : n = c.index
    · rw [heq, hself]
      exact Nat.le_succ _
    · exact (hother n heq).ge
  unfold Upload.resend
  split_ifs
  · have hone := transmissions_toPeer (h.peer hphase) (h.packet hphase)
    have hexact : transmissions (sent ++ c.toPeer) .client c.index = 1 + timeouts' c.index := by
      rw [transmissions_append, hone, h.exact hphase, hself, add_assoc]
    refine ⟨fun n hn => ?_, fun n hn => (hahead n hn).trans (h.unexpired n hn), fun n hn => ?_,
      h.peer, h.packet, h.one_le, fun _ => hexact⟩
    · have hne : c.index ≠ n := Nat.ne_of_lt hn
      rw [transmissions_append, h.ahead n hn, transmissions_toPeer_of_ne hne]
    · by_cases heq : c.index = n
      · subst heq
        exact hexact.le
      · rw [transmissions_append, transmissions_toPeer_of_ne heq, add_zero]
        exact (h.bound n hn).trans (Nat.add_le_add_left (hle n) 1)
  · exact h.failed hle hahead

theorem timeout (h : c.Counted sent timeouts)
    (hexpired : ∀ n, timeouts' n = timeouts n + if c.outstanding = some n then 1 else 0) :
    c.timeout.1.Counted (sent ++ c.timeout.2) timeouts' := by
  have hquiet : c.phase ≠ .sending → timeouts' = timeouts := by
    intro hphase
    funext n
    rw [hexpired, outstanding, if_neg hphase]
    simp
  unfold Upload.timeout
  split
  · next hphase =>
    rw [hquiet (by simp [hphase])]
    unfold Upload.resend
    split_ifs
    · refine h.idle ?_ rfl (by simp)
      simp [hphase]
    · exact h.failed (fun _ => le_rfl) fun _ _ => rfl
  · next hphase =>
    rw [outstanding, if_pos hphase] at hexpired
    refine h.resend hphase ?_ fun n hn => ?_
    · rw [hexpired, if_pos rfl]
    · rw [hexpired, if_neg fun heq => hn (Option.some.inj heq).symm, add_zero]
  · next hphase =>
    rw [hquiet (by simp [hphase])]
    simpa using h
  · next hphase =>
    rw [hquiet (by simp [hphase])]
    simpa using h

theorem breakOff (h : c.Counted sent timeouts) : c.breakOff.Counted (sent ++ []) timeouts := by
  unfold Upload.breakOff
  split
  · simpa using h
  · exact h.failed (fun _ => le_rfl) fun _ _ => rfl

/-- **What the client waits for arrives**, or what it need not answer. -/
theorem receive (h : c.Counted sent timeouts) {source : Address} {packet : List UInt8}
    (hawaited : c.phase = .sending → c.peer = some source → isReply OP_ACK c.block packet = true) :
    (c.receive source packet).1.Counted (sent ++ (c.receive source packet).2) timeouts := by
  have hidle : ∀ {c' : Upload}, c'.phase ≠ .sending → c'.index = c.index →
      c'.Counted (sent ++ []) timeouts := fun hphase hindex => h.idle hphase hindex (by simp)
  unfold Upload.receive
  split
  · simp only
    split_ifs
    · exact hidle (by simp [fail]) rfl
    · exact h.sendBlock (by rfl) ⟨source, by rfl⟩ 1
    · exact h.sendBlock (by rfl) ⟨source, by rfl⟩ 1
    · exact hidle (by simp [fail]) rfl
  · next hphase =>
    split_ifs with hsource hreply
    · exact hidle (by simp [fail]) rfl
    · exact hidle (by simp) rfl
    · exact h.sendBlock rfl (h.peer hphase) _
    · exact absurd (hawaited hphase hsource) hreply
    · simpa using h
  · simpa using h
  · simpa using h

/-- Any other packet of the peer makes the client send the block again: it is transmitted once too
often. -/
theorem receive_unawaited (h : c.Counted sent timeouts) {source : Address} {packet : List UInt8}
    (hphase : c.phase = .sending) (hsource : c.peer = some source)
    (hreply : ¬isReply OP_ACK c.block packet = true) :
    transmissions (sent ++ (c.receive source packet).2) .client c.index =
      1 + timeouts c.index + 1 := by
  have hreceive : c.receive source packet = (c, c.toPeer) := by
    unfold Upload.receive
    rw [hphase]
    simp only
    rw [if_pos hsource, if_neg hreply]
  rw [hreceive, transmissions_append, h.exact hphase,
    transmissions_toPeer (h.peer hphase) (h.packet hphase)]

end Counted

end Upload

namespace Server

/-- What the server sends does not come from the client. -/
theorem source_of_answers {id : ℕ} {answers : List Answer} :
    ∀ d ∈ Server.answers id answers, d.source ≠ .client := by
  intro d hd
  obtain ⟨answer, -, rfl⟩ := List.mem_map.mp hd
  exact Address.noConfusion

theorem source_of_start (s : Server) (request : Request) (refused : Bool) :
    ∀ d ∈ (s.start request refused).2, d.source ≠ .client := by
  unfold start
  simp only
  split_ifs
  · exact source_of_answers
  · split
    · exact source_of_answers
    · simp
  · split
    · exact source_of_answers
    · simp

theorem source_of_listen (s : Server) (packet : List UInt8) (hindrance : Hindrance) :
    ∀ d ∈ (s.listen packet hindrance).2, d.source ≠ .client := by
  unfold listen
  split
  · simp [error]
  · split_ifs
    · simp [error]
    · simp
    · simp [error]
    · simp [error]
    · exact source_of_start s _ _

end Server

/-- What a step of the server sends does not come from the client. -/
theorem System.source_of_serverStep {γ : Type} {s : System γ} {label : Label}
    {r : Server × List Datagram} (hr : s.serverStep label = some r) :
    ∀ d ∈ r.2, d.source ≠ .client := by
  cases label with
  | listen d hindrance =>
    rw [serverStep] at hr
    split_ifs at hr
    cases hr
    exact s.server.source_of_listen _ _
  | receive id d =>
    rw [serverStep] at hr
    split_ifs at hr
    unfold Server.receive at hr
    split at hr
    · cases hr
      exact Server.source_of_answers
    · cases hr
      exact Server.source_of_answers
    · simp at hr
  | timeout id =>
    rw [serverStep] at hr
    unfold Server.timeout at hr
    split at hr
    · cases hr
      exact Server.source_of_answers
    · cases hr
      exact Server.source_of_answers
    · simp at hr
  | finish id =>
    rw [serverStep] at hr
    unfold Server.finish at hr
    split at hr
    · cases hr
      exact Server.source_of_answers
    · simp at hr
  | breakOff id =>
    rw [serverStep] at hr
    unfold Server.breakOff at hr
    split at hr
    · cases hr
      simp
    · cases hr
      exact Server.source_of_answers
    · simp at hr
  | report id message =>
    rw [serverStep] at hr
    unfold Server.report at hr
    split_ifs at hr
    split at hr
    · cases hr
      simp
    · cases hr
      simp [Server.error]
    · simp at hr
  | clientReceive d => simp [serverStep] at hr
  | clientTimeout => simp [serverStep] at hr
  | clientFail => simp [serverStep] at hr

namespace Upload

/-- While a block is outstanding, what arrives from the peer is its acknowledgement or an error. -/
def Awaited (s : Flight Upload) : FlightLabel → Prop
  | .act (.clientReceive d) =>
    s.system.client.phase = .sending → s.system.client.peer = some d.source →
      isReply OP_ACK s.system.client.block d.packet = true
  | _ => True

instance (s : Flight Upload) : DecidablePred (Awaited s)
  | .act (.clientReceive _) => inferInstanceAs (Decidable (_ → _ → _))
  | .act .clientTimeout | .act .clientFail | .act (.listen _ _) | .act (.receive _ _)
  | .act (.timeout _) | .act (.finish _) | .act (.breakOff _) | .act (.report _ _)
  | .lose _ => isTrue trivial

/-- The steps of an upload. -/
def Next (s : Flight Upload) (label : FlightLabel) (s' : Flight Upload) : Prop :=
  Flight.step program outstanding s label = some s'

/-- The client has counted what it transmitted. -/
def Accounted (s : Flight Upload) : Prop :=
  s.system.client.Counted s.system.sent (s.timeouts .client)

theorem expired_of_ne {s : System Upload} {act : Label} (h : act ≠ .clientTimeout) (n : ℕ) :
    Flight.expired outstanding s act ≠ some (.client, n) := by
  unfold Flight.expired
  split
  · exact absurd rfl h
  · split
    · simp
    · simp
  · simp

theorem Accounted.step {s s' : Flight Upload} {label : FlightLabel} (h : Accounted s)
    (hstep : Next s label s') (hawaited : Awaited s label) : Accounted s' := by
  rcases Flight.step_cases hstep with ⟨hsystem, htimeouts⟩ | ⟨act, rfl, hact, htimeouts⟩
  · rw [Accounted, hsystem, htimeouts]
    exact h
  by_cases htimeout : act = .clientTimeout
  · subst htimeout
    rw [Accounted, ← Option.some.inj hact]
    refine Counted.timeout h fun n => ?_
    rw [htimeouts, Flight.expired]
    cases s.system.client.outstanding with
    | none => simp
    | some index => simp
  have hsame : s'.timeouts .client = s.timeouts .client := by
    funext n
    rw [htimeouts, if_neg (expired_of_ne htimeout n), add_zero]
  have hserver : ∀ r, s.system.serverStep act = some r → s'.system = s.system.withServer r →
      Accounted s' := by
    intro r hr hsystem
    rw [Accounted, hsame, hsystem]
    exact Counted.others h (System.source_of_serverStep hr)
  cases act
  case clientTimeout => exact absurd rfl htimeout
  case clientReceive d =>
    rw [System.step] at hact
    split_ifs at hact
    rw [Accounted, hsame, ← Option.some.inj hact]
    exact Counted.receive h hawaited
  case clientFail =>
    rw [Accounted, hsame, ← Option.some.inj hact]
    exact Counted.breakOff h
  all_goals
    obtain ⟨r, hr, hsystem⟩ := Option.map_eq_some_iff.mp hact
    exact hserver r hr hsystem.symm

/-- **A packet that was not waited for** is one transmission too many. -/
theorem Accounted.step_unawaited {s s' : Flight Upload} {label : FlightLabel} (h : Accounted s)
    (hstep : Next s label s') (hnot : ¬Awaited s label) :
    ∃ n, 1 ≤ n ∧
      1 + s'.timeouts .client n < transmissions s'.system.sent .client n := by
  rcases label with (d | _) | _
  case act.clientReceive =>
    simp only [Awaited, Classical.not_imp] at hnot
    obtain ⟨hphase, hsource, hreply⟩ := hnot
    rw [Next, Flight.step] at hstep
    split_ifs at hstep
    obtain ⟨system, hact, rfl⟩ := Option.map_eq_some_iff.mp hstep
    rw [System.step] at hact
    split_ifs at hact
    cases hact
    refine ⟨s.system.client.index, Counted.one_le h hphase, ?_⟩
    have hcount := Counted.receive_unawaited h hphase hsource hreply
    simp only [System.withClient, program, Flight.expired] at hcount ⊢
    rw [hcount]
    simp
  all_goals exact absurd trivial hnot

theorem accounted_start {s : System Upload} (hphase : s.client.phase ≠ .sending)
    (hsent : ∀ d ∈ s.sent, d.index = 0) : Accounted (.start s) := by
  have hnew : s.client.Counted [] fun _ => 0 :=
    ⟨fun _ _ => rfl, fun _ _ => rfl, fun _ _ => Nat.zero_le _, fun h => absurd h hphase,
      fun h => absurd h hphase, fun h => absurd h hphase, fun h => absurd h hphase⟩
  exact hnew.idle hphase rfl hsent

end Upload

/-- A file of three blocks, as the client asks to upload it. -/
private def threeBlocks : UploadRequest :=
  ⟨[0x66], some REQUESTED_BLOCK_SIZE, some 2900, List.replicate 2900 0, by decide⟩

/-- An upload up to the first block, which is transmitted again before it arrives. -/
private def lateBlock : List FlightLabel :=
  [.act (.listen ⟨.client, .listener, threeBlocks.packet, 0⟩ ⟨false, false, false⟩),
    .act (.clientReceive ⟨.transfer 0, .client, threeBlocks.answerTo 0, 0⟩), .act .clientTimeout]

/-- A block and its acknowledgement arrive twice, as often as they were sent. -/
private def twice (n : ℕ) : List FlightLabel :=
  [.act (.receive 0 ⟨.client, .transfer 0, threeBlocks.packetOf n, n⟩),
    .act (.receive 0 ⟨.client, .transfer 0, threeBlocks.packetOf n, n⟩),
    .act (.clientReceive ⟨.transfer 0, .client, ackPacket (UInt16.ofNat n), n⟩),
    .act (.clientReceive ⟨.transfer 0, .client, ackPacket (UInt16.ofNat n), n⟩)]

/-- **One time-out too early**, and every later block is transmitted twice without another one. -/
theorem data_sent_twice :
    ∃ labels s, Run Upload.Next (.start (threeBlocks.initial true none)) labels s ∧
      (s.timeouts .client 2 = 0 ∧ transmissions s.system.sent .client 2 = 2) ∧
      (s.timeouts .client 3 = 0 ∧ transmissions s.system.sent .client 3 = 2) := by
  obtain ⟨s, hrun, h⟩ := exists_run_of_foldlM (f := Flight.step Upload.program Upload.outstanding)
    (P := fun s =>
      (s.timeouts .client 2 = 0 ∧ transmissions s.system.sent .client 2 = 2) ∧
      (s.timeouts .client 3 = 0 ∧ transmissions s.system.sent .client 3 = 2))
    (lateBlock ++ twice 1 ++ twice 2) (s := .start (threeBlocks.initial true none))
    (by decide +kernel)
  exact ⟨_, s, hrun, h⟩

/-- **No block is transmitted in vain**: in every run in which the network repeats nothing, a
download transmits a block at most once more than time-outs expired while it was outstanding. So
does an upload as long as only what it waits for arrives, and the first other packet from its peer
breaks that. -/
theorem transmissions_le (down : DownloadRequest) (file : List UInt8) (output : Option (List UInt8))
    (up : UploadRequest) (before : Option (List UInt8)) (writable : Bool) :
    (∀ labels s, Run (fun s label s' => Flight.step Download.program (fun _ => none) s label =
        some s') (.start (down.initial file writable output)) labels s →
      ∀ id n, 1 ≤ n →
        transmissions s.system.sent (.transfer id) n ≤ 1 + s.timeouts (.transfer id) n) ∧
    ∀ labels s, Run (Meeting Upload.Awaited Upload.Next) (.start (up.initial writable before))
        labels s →
      (∀ n, 1 ≤ n → transmissions s.system.sent .client n ≤ 1 + s.timeouts .client n) ∧
      ∀ label s', Upload.Next s label s' → ¬Upload.Awaited s label →
        ∃ n, 1 ≤ n ∧ 1 + s'.timeouts .client n < transmissions s'.system.sent .client n := by
  constructor
  · intro labels s hrun
    have hpaced : s.ServerPaced := by
      refine hrun.invariant ?_ fun s label t hs hstep =>
        hs.step Download.sendsAsClient hstep
      exact Flight.serverPaced_start rfl fun d hd => by rw [List.mem_singleton.mp hd]
    exact hpaced.bound
  · intro labels s hrun
    have haccounted : Upload.Accounted s := by
      refine hrun.invariant ?_ fun s label t hs hstep => hs.step hstep.2 hstep.1
      refine Upload.accounted_start ?_ fun d hd => by rw [List.mem_singleton.mp hd]
      simp [UploadRequest.initial, Upload.new]
    exact ⟨haccounted.bound, fun label s' hstep hnot => haccounted.step_unawaited hstep hnot⟩

/-- The first block is lost, and then all three and their acknowledgements arrive. -/
private def inTime : List FlightLabel :=
  lateBlock ++ [.lose ⟨.client, .transfer 0, threeBlocks.packetOf 1, 1⟩] ++ [1, 2, 3].flatMap
    fun n => [.act (.receive 0 ⟨.client, .transfer 0, threeBlocks.packetOf n, n⟩),
      .act (.clientReceive ⟨.transfer 0, .client, ackPacket (UInt16.ofNat n), n⟩)]

/-- The first block is lost and transmitted again, and the file arrives. -/
theorem transmissions_le_threeBlocks :
    ∃ s : Flight Upload, s.system.client.phase = .done ∧ s.timeouts .client 1 = 1 ∧
      transmissions s.system.sent .client 1 = 2 ∧
      transmissions s.system.sent .client 2 ≤ 1 + s.timeouts .client 2 := by
  have hrun := exists_run_of_foldlM
    (f := fun s label => if Upload.Awaited s label then
      Flight.step Upload.program Upload.outstanding s label else none)
    (P := fun s : Flight Upload => s.system.client.phase = .done ∧ s.timeouts .client 1 = 1 ∧
      transmissions s.system.sent .client 1 = 2)
    inTime (s := .start (threeBlocks.initial true none)) (by decide +kernel)
  obtain ⟨s, hrun, hdone, htimeouts, hone⟩ := hrun
  refine ⟨s, hdone, htimeouts, hone, ?_⟩
  have hmeets : Run (Meeting Upload.Awaited Upload.Next) (.start (threeBlocks.initial true none))
      inTime s := by
    refine hrun.mono fun s label t hstep => ?_
    split_ifs at hstep with hawaited
    exact ⟨hawaited, hstep⟩
  have hle := (transmissions_le ⟨[0x66], none, none, by decide⟩ [] none threeBlocks none true).2
  exact (hle _ s hmeets).1 2 (by decide)

end Zetta.Ztftp
