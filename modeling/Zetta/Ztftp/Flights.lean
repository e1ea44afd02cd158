import Zetta.Ztftp.Transfers

/-!
# Datagrams under way

A network that loses and delays datagrams but does not repeat them: a `Flight` has the datagrams
that are under way, each of which arrives once or is lost. It also counts the time-outs that expire
while a block is outstanding.

The server transmits a block once, and once more for each time-out that expires while it is
outstanding. Whatever else reaches it, it goes on waiting (`Paced`, `Flight.ServerPaced.step`).
-/

namespace Zetta.Ztftp

structure Flight (γ : Type) where
  system : System γ
  /-- The datagrams that are under way. -/
  inFlight : List Datagram
  /-- How many time-outs expired at a sender while a block of its was outstanding. -/
  timeouts : Address → ℕ → ℕ

inductive FlightLabel where
  | act (label : Label)
  | lose (d : Datagram)

/-- The datagram that arrives in a step. -/
def Label.delivered : Label → Option Datagram
  | .clientReceive d | .listen d _ | .receive _ d => some d
  | .clientTimeout | .clientFail | .timeout _ | .finish _ | .breakOff _ | .report _ _ => none

/-- How often a block was transmitted. -/
def transmissions (sent : List Datagram) (source : Address) (n : ℕ) : ℕ :=
  sent.countP fun d => d.source = source ∧ packetOpcode d.packet = some OP_DATA ∧ d.index = n

namespace Flight

variable {γ : Type}

/-- The sender whose time-out expires, and its outstanding block. -/
def expired (outstanding : γ → Option ℕ) (s : System γ) : Label → Option (Address × ℕ)
  | .clientTimeout => (outstanding s.client).map fun n => (.client, n)
  | .timeout id =>
    match s.server.transfers id with
    | some (.read t) => some (.transfer id, t.index)
    | _ => none
  | _ => none

def start (s : System γ) : Flight γ := ⟨s, s.sent, fun _ _ => 0⟩

/-- One step, if it can be taken. What arrives is no longer under way. -/
def step (P : ClientProgram γ) (outstanding : γ → Option ℕ) (s : Flight γ) :
    FlightLabel → Option (Flight γ)
  | .lose d => if d ∈ s.inFlight then some { s with inFlight := s.inFlight.erase d } else none
  | .act label =>
    if ∀ d ∈ label.delivered, d ∈ s.inFlight then
      (System.step P s.system label).map fun system =>
        { system
          inFlight := label.delivered.elim s.inFlight s.inFlight.erase ++
            system.sent.drop s.system.sent.length
          timeouts := fun source n =>
            s.timeouts source n +
              if expired outstanding s.system label = some (source, n) then 1 else 0 }
    else none

/-- What a step does, apart from what is under way. -/
theorem step_cases {P : ClientProgram γ} {outstanding : γ → Option ℕ} {s s' : Flight γ}
    {label : FlightLabel} (h : step P outstanding s label = some s') :
    (s'.system = s.system ∧ s'.timeouts = s.timeouts) ∨
      ∃ act, label = .act act ∧ System.step P s.system act = some s'.system ∧
        ∀ source n, s'.timeouts source n = s.timeouts source n +
          if expired outstanding s.system act = some (source, n) then 1 else 0 := by
  cases label with
  | lose d =>
    rw [step] at h
    split_ifs at h
    cases h
    exact .inl ⟨rfl, rfl⟩
  | act act =>
    rw [step] at h
    split_ifs at h
    obtain ⟨system, hstep, rfl⟩ := Option.map_eq_some_iff.mp h
    exact .inr ⟨act, rfl, hstep, fun _ _ => rfl⟩

end Flight

theorem transmissions_append (sent more : List Datagram) (source : Address) (n : ℕ) :
    transmissions (sent ++ more) source n =
      transmissions sent source n + transmissions more source n := List.countP_append

theorem transmissions_eq_zero {sent : List Datagram} {source : Address}
    (h : ∀ d ∈ sent, d.source ≠ source) (n : ℕ) : transmissions sent source n = 0 := by
  rw [transmissions, List.countP_eq_zero]
  intro d hd
  simp [h d hd]

/-! ### The server -/

/-- How many of the answers are a block. -/
def blocks (answers : List Answer) (n : ℕ) : ℕ :=
  answers.countP fun answer => packetOpcode answer.1 = some OP_DATA ∧ answer.2 = n

theorem transmissions_answers (id id' : ℕ) (answers : List Answer) (n : ℕ) :
    transmissions (Server.answers id answers) (.transfer id') n =
      if id = id' then blocks answers n else 0 := by
  rw [transmissions, Server.answers, List.countP_map]
  split_ifs with h
  · subst h
    exact List.countP_congr fun answer _ => by simp
  · rw [List.countP_eq_zero]
    intro answer _
    simp [h]

theorem blocks_singleton_le (answer : Answer) (n : ℕ) : blocks [answer] n ≤ 1 :=
  List.countP_le_length

theorem blocks_of_ne {answer : Answer} {n : ℕ} (h : answer.2 ≠ n) : blocks [answer] n = 0 := by
  simp [blocks, h]

theorem blocks_of_opcode {answers : List Answer}
    (h : ∀ answer ∈ answers, packetOpcode answer.1 ≠ some OP_DATA) (n : ℕ) :
    blocks answers n = 0 := by
  rw [blocks, List.countP_eq_zero]
  intro answer hanswer
  simp [h answer hanswer]

/-- **A server that keeps pace**: no block of a transfer was transmitted more often than once and
once for each time-out that expired meanwhile, and none after the outstanding one. -/
structure Paced (server : Server) (sent : List Datagram) (timeouts : ℕ → ℕ → ℕ) : Prop where
  fresh : ∀ id, server.next ≤ id → server.transfers id = none
  unused : ∀ id, server.transfers id = none → ∀ n, transmissions sent (.transfer id) n = 0
  ahead : ∀ id t, server.transfers id = some (.read t) →
    ∀ n, t.index < n → transmissions sent (.transfer id) n = 0
  /-- What a write sends is no block. -/
  response : ∀ id t, server.transfers id = some (.write t) →
    packetOpcode t.responsePacket ≠ some OP_DATA
  bound : ∀ id n, 1 ≤ n → transmissions sent (.transfer id) n ≤ 1 + timeouts id n

namespace Paced

variable {server : Server} {sent : List Datagram} {timeouts timeouts' : ℕ → ℕ → ℕ}
  (h : Paced server sent timeouts)

include h

/-- Datagrams of other senders change nothing. -/
theorem others {more : List Datagram} (hmore : ∀ d ∈ more, ∀ id, d.source ≠ .transfer id)
    (hle : ∀ id n, timeouts id n ≤ timeouts' id n) : Paced server (sent ++ more) timeouts' := by
  have hsame : ∀ id n, transmissions (sent ++ more) (.transfer id) n =
      transmissions sent (.transfer id) n := by
    intro id n
    rw [transmissions_append, transmissions_eq_zero fun d hd => hmore d hd id, add_zero]
  refine ⟨h.fresh, fun id hid n => ?_, fun id t ht n hn => ?_, h.response, fun id n hn => ?_⟩
  · rw [hsame]
    exact h.unused id hid n
  · rw [hsame]
    exact h.ahead id t ht n hn
  · rw [hsame]
    exact (h.bound id n hn).trans (Nat.add_le_add_left (hle id n) 1)

variable {id : ℕ} {t : Transfer}

/-- **A transfer goes on**: what it sends is accounted for by its new state. -/
theorem put (hid : id < server.next) (file : Option (List UInt8))
    {answers : List Answer} (hle : ∀ id n, timeouts id n ≤ timeouts' id n)
    (hahead : ∀ r, t = .read r → ∀ n, r.index < n →
      transmissions sent (.transfer id) n + blocks answers n = 0)
    (hresponse : ∀ w, t = .write w → packetOpcode w.responsePacket ≠ some OP_DATA)
    (hbound : ∀ n, 1 ≤ n →
      transmissions sent (.transfer id) n + blocks answers n ≤ 1 + timeouts' id n) :
    Paced (server.put id t file) (sent ++ Server.answers id answers) timeouts' := by
  have hsent : ∀ id' n, transmissions (sent ++ Server.answers id answers) (.transfer id') n =
      transmissions sent (.transfer id') n + if id = id' then blocks answers n else 0 := by
    intro id' n
    rw [transmissions_append, transmissions_answers]
  refine ⟨fun id' hid' => ?_, fun id' hid' n => ?_, fun id' r hr n hn => ?_, fun id' w hw => ?_,
    fun id' n hn => ?_⟩
  · have hne : id' ≠ id := fun heq => absurd hid' (not_le.mpr (heq ▸ hid))
    exact (Function.update_of_ne hne _ _).trans (h.fresh id' hid')
  · by_cases heq : id' = id
    · subst heq
      exact absurd hid' (by simp [Server.put])
    · rw [hsent, if_neg (Ne.symm heq), add_zero]
      exact h.unused id' ((Function.update_of_ne heq _ _).symm.trans hid') n
  · rcases transfers_update hr with ⟨rfl, heq⟩ | ⟨hne, hr⟩
    · rw [hsent, if_pos rfl]
      exact hahead r heq.symm n hn
    · rw [hsent, if_neg (Ne.symm hne), add_zero]
      exact h.ahead id' r hr n hn
  · rcases transfers_update hw with ⟨rfl, heq⟩ | ⟨-, hw⟩
    · exact hresponse w heq.symm
    · exact h.response id' w hw
  · by_cases heq : id' = id
    · subst heq
      rw [hsent, if_pos rfl]
      exact hbound n hn
    · rw [hsent, if_neg (Ne.symm heq), add_zero]
      exact (h.bound id' n hn).trans (Nat.add_le_add_left (hle id' n) 1)

/-- A transfer of a file goes on and sends nothing. -/
theorem put_silent (hid : id < server.next)
    (file : Option (List UInt8)) (hle : ∀ id n, timeouts id n ≤ timeouts' id n)
    (hahead : ∀ r, t = .read r → ∀ n, r.index < n → transmissions sent (.transfer id) n = 0)
    (hresponse : ∀ w, t = .write w → packetOpcode w.responsePacket ≠ some OP_DATA) :
    Paced (server.put id t file) (sent ++ Server.answers id []) timeouts' :=
  h.put hid file hle hahead hresponse fun n hn =>
    (h.bound id n hn).trans (Nat.add_le_add_left (hle id n) 1)

/-- A write goes on, and sends what is no block. -/
theorem put_written (hid : id < server.next) {w : Written}
    (hle : ∀ id n, timeouts id n ≤ timeouts' id n) (hread : ∀ r, w.transfer ≠ .read r)
    (hresponse : ∀ t, w.transfer = .write t → packetOpcode t.responsePacket ≠ some OP_DATA)
    (hanswers : ∀ answer ∈ w.answers, packetOpcode answer.1 ≠ some OP_DATA) :
    Paced (server.put id w.transfer w.file) (sent ++ Server.answers id w.answers) timeouts' := by
  refine h.put hid w.file hle (fun r hr => absurd hr (hread r)) hresponse fun n hn => ?_
  rw [blocks_of_opcode hanswers, add_zero]
  exact (h.bound id n hn).trans (Nat.add_le_add_left (hle id n) 1)

theorem lt_next (ht : server.transfers id = some t) : id < server.next := by
  by_contra hle
  rw [h.fresh id (not_lt.mp hle)] at ht
  exact absurd ht (by simp)

end Paced

/-- **What a write sends is no block.** -/
structure Acknowledging (w : Written) : Prop where
  read : ∀ r, w.transfer ≠ .read r
  response : ∀ t, w.transfer = .write t → packetOpcode t.responsePacket ≠ some OP_DATA
  answers : ∀ answer ∈ w.answers, packetOpcode answer.1 ≠ some OP_DATA

namespace WriteTransfer

theorem ack_ne_data (block : UInt16) : packetOpcode (ackPacket block) ≠ some OP_DATA := by
  rw [packetOpcode_ackPacket]
  decide

theorem error_ne_data (code : UInt16) (message : Field) :
    packetOpcode (errorPacket code message) ≠ some OP_DATA := by
  rw [packetOpcode_errorPacket]
  decide

variable {answers : List Answer}

theorem acknowledging_fail (h : ∀ answer ∈ answers, packetOpcode answer.1 ≠ some OP_DATA) :
    Acknowledging (fail answers) := ⟨by simp [fail], by simp [fail], h⟩

theorem acknowledging_error (code : UInt16) (message : Field) (n : ℕ) :
    Acknowledging (fail [(errorPacket code message, n)]) := by
  refine acknowledging_fail fun answer hanswer => ?_
  rw [List.mem_singleton.mp hanswer]
  exact error_ne_data code message

variable {t : WriteTransfer}

/-- A write that goes on with the response it has. -/
theorem acknowledging_again {file : Option (List UInt8)}
    (h : packetOpcode t.responsePacket ≠ some OP_DATA)
    (hanswers : ∀ answer ∈ answers, answer = (t.responsePacket, t.accepted)) :
    Acknowledging ⟨.write t, file, answers⟩ := by
  refine ⟨by simp, ?_, ?_⟩
  · intro t' ht'
    cases ht'
    exact h
  · intro answer hanswer
    rw [hanswers answer hanswer]
    exact h

theorem acknowledging_serve (request : Request) (file : Option (List UInt8)) (refused : Bool) :
    Acknowledging (serve request file refused) := by
  unfold serve
  split_ifs with hrefused
  · exact ⟨by simp, by simp, by simp⟩
  simp only
  split_ifs with hlarge hempty
  · exact acknowledging_error _ _ _
  · exact acknowledging_again (ack_ne_data 0) (by simp)
  · refine acknowledging_again ?_ (by simp)
    rw [packetOpcode_optionAckPacket]
    decide

theorem acknowledging_accept (t : WriteTransfer) (file : Option (List UInt8)) (data : List UInt8) :
    Acknowledging (t.accept file data) := by
  simp only [accept]
  split_ifs with hlarge hshort hsize
  · exact acknowledging_error _ _ _
  · exact acknowledging_error _ _ _
  · exact acknowledging_again (ack_ne_data _) (by simp)
  · exact acknowledging_again (ack_ne_data _) (by simp)

variable (file : Option (List UInt8))

theorem acknowledging_receive (packet : List UInt8)
    (h : packetOpcode t.responsePacket ≠ some OP_DATA) : Acknowledging (t.receive file packet) := by
  unfold receive
  split
  · split_ifs
    · exact acknowledging_accept t file _
    · exact acknowledging_fail (by simp)
    · exact acknowledging_again h (by simp)
  · exact acknowledging_again h (by simp)
  · split_ifs
    · exact acknowledging_again h (by simp)
    · exact acknowledging_again h (by simp)

theorem acknowledging_timeout (h : packetOpcode t.responsePacket ≠ some OP_DATA) :
    Acknowledging (t.timeout file) := by
  unfold timeout
  split
  · split_ifs
    · exact acknowledging_again (t := { t with attempts := t.attempts + 1 }) h (by simp)
    · exact acknowledging_fail (by simp)
  · exact acknowledging_again h (by simp)
  · exact ⟨by simp, by simp, by simp⟩

theorem acknowledging_finish (h : packetOpcode t.responsePacket ≠ some OP_DATA) :
    Acknowledging (t.finish file) := by
  unfold finish
  split
  · exact acknowledging_again (t := { t with phase := .dallying }) h (by simp)
  · exact acknowledging_again h (by simp)
  · exact acknowledging_again h (by simp)

theorem acknowledging_breakOff (t : WriteTransfer) (file : Option (List UInt8)) :
    Acknowledging (t.breakOff file) := by
  unfold breakOff
  split
  · exact acknowledging_fail (by simp)
  · exact acknowledging_fail (by simp)
  · exact ⟨by simp, by simp, by simp⟩

end WriteTransfer

namespace Paced

variable {server : Server} {sent : List Datagram} {timeouts timeouts' : ℕ → ℕ → ℕ} {id : ℕ}
  (h : Paced server sent timeouts)

include h

theorem put_acknowledging (hid : id < server.next) {w : Written}
    (hle : ∀ id n, timeouts id n ≤ timeouts' id n) (hw : Acknowledging w) :
    Paced (server.put id w.transfer w.file) (sent ++ Server.answers id w.answers) timeouts' :=
  h.put_written hid hle hw.read hw.response hw.answers

/-- The next block of a file is sent. -/
theorem put_sendBlock {t : ReadTransfer}
    (ht : server.transfers id = some (.read t)) (block : UInt16) :
    Paced (server.put id (.read (t.sendBlock block)) server.file)
      (sent ++ Server.answers id [((t.sendBlock block).packet, (t.sendBlock block).index)])
      timeouts := by
  refine h.put (h.lt_next ht) server.file (fun _ _ => le_rfl) ?_ (by simp) ?_
  · intro r hr n hn
    cases hr
    have hn' : t.index + 1 < n := hn
    rw [h.ahead id t ht n (by omega), blocks_of_ne (Nat.ne_of_lt hn')]
  · intro n hn
    by_cases heq : t.index + 1 = n
    · -- it was not transmitted before
      rw [h.ahead id t ht n (by omega), zero_add]
      exact (blocks_singleton_le _ n).trans (Nat.le_add_right 1 _)
    · rw [blocks_of_ne (show (t.sendBlock block).index ≠ n from heq), add_zero]
      exact h.bound id n hn

variable {r : Server × List Datagram}

theorem receive {packet : List UInt8} (hr : server.receive id packet = some r) :
    Paced r.1 (sent ++ r.2) timeouts := by
  unfold Server.receive at hr
  cases ht : server.transfers id with
  | none => simp [ht] at hr
  | some transfer =>
    have hid := h.lt_next ht
    cases transfer with
    | read t =>
      simp only [ht, ReadTransfer.receive] at hr
      split_ifs at hr
      · cases hr
        exact h.put_silent hid server.file (fun _ _ => le_rfl) (by simp) (by simp)
      · cases hr
        exact h.put_sendBlock ht _
      · cases hr
        exact h.put_silent hid server.file (fun _ _ => le_rfl) (by simp) (by simp)
      · cases hr
        refine h.put_silent hid server.file (fun _ _ => le_rfl) (fun r hr => ?_) (by simp)
        cases hr
        exact h.ahead id t ht
    | write t =>
      simp only [ht] at hr
      cases hr
      exact h.put_acknowledging hid (fun _ _ => le_rfl)
        (WriteTransfer.acknowledging_receive server.file packet (h.response id t ht))
    | done total => simp [ht] at hr
    | failed write => simp [ht] at hr

/-- **A time-out** pays for another transmission of the outstanding block. -/
theorem timeout (hr : server.timeout id = some r) (hle : ∀ id n, timeouts id n ≤ timeouts' id n)
    (hpaid : ∀ t, server.transfers id = some (.read t) →
      timeouts id t.index + 1 ≤ timeouts' id t.index) :
    Paced r.1 (sent ++ r.2) timeouts' := by
  unfold Server.timeout at hr
  cases ht : server.transfers id with
  | none => simp [ht] at hr
  | some transfer =>
    have hid := h.lt_next ht
    cases transfer with
    | read t =>
      simp only [ht, ReadTransfer.timeout] at hr
      split_ifs at hr
      · cases hr
        refine h.put hid server.file hle (fun r hr n hn => ?_) (by simp) fun n hn => ?_
        · cases hr
          rw [h.ahead id t ht n hn, blocks_of_ne (Nat.ne_of_lt hn)]
        · by_cases heq : t.index = n
          · subst heq
            have hpaid := hpaid t ht
            have hbound := h.bound id t.index hn
            have hone := blocks_singleton_le (t.packet, t.index) t.index
            simp only at hone ⊢
            omega
          · rw [blocks_of_ne (show (t.packet, t.index).2 ≠ n from heq), add_zero]
            exact (h.bound id n hn).trans (Nat.add_le_add_left (hle id n) 1)
      · cases hr
        exact h.put_silent hid server.file hle (by simp) (by simp)
    | write t =>
      simp only [ht] at hr
      cases hr
      exact h.put_acknowledging hid hle
        (WriteTransfer.acknowledging_timeout server.file (h.response id t ht))
    | done total => simp [ht] at hr
    | failed write => simp [ht] at hr

theorem mono (hle : ∀ id n, timeouts id n ≤ timeouts' id n) : Paced server sent timeouts' :=
  ⟨h.fresh, h.unused, h.ahead, h.response, fun id n hn =>
    (h.bound id n hn).trans (Nat.add_le_add_left (hle id n) 1)⟩

/-- The same transfers. -/
theorem renew {server' : Server}
    (htransfers : server'.transfers = server.transfers) (hnext : server.next ≤ server'.next) :
    Paced server' sent timeouts := by
  refine ⟨fun id hid => ?_, fun id hid => ?_, fun id t ht => ?_, fun id t ht => ?_, h.bound⟩
  · rw [htransfers]
    exact h.fresh id (hnext.trans hid)
  · rw [htransfers] at hid
    exact h.unused id hid
  · rw [htransfers] at ht
    exact h.ahead id t ht
  · rw [htransfers] at ht
    exact h.response id t ht

theorem start (request : Request) (refused : Bool) :
    Paced (server.start request refused).1 (sent ++ (server.start request refused).2) timeouts := by
  have hrenewed : Paced { server with next := server.next + 1, registered := some server.next }
      sent timeouts := h.renew rfl (Nat.le_succ _)
  have hid : server.next < server.next + 1 := Nat.lt_succ_self _
  have hzero : ∀ n, transmissions sent (.transfer server.next) n = 0 :=
    h.unused server.next (h.fresh server.next le_rfl)
  unfold Server.start
  by_cases hwrite : request.write = true
  · rw [if_pos hwrite]
    exact hrenewed.put_acknowledging hid (fun _ _ => le_rfl)
      (WriteTransfer.acknowledging_serve request server.file refused)
  rw [if_neg hwrite]
  cases ReadTransfer.serve request (if refused then none else server.file) with
  | none => exact hrenewed.put_silent hid server.file (fun _ _ => le_rfl) (by simp) (by simp)
  | some t =>
    refine hrenewed.put hid server.file (fun _ _ => le_rfl) (fun r hr n hn => ?_) (by simp)
      fun n _ => ?_
    · cases hr
      rw [hzero, blocks_of_ne (Nat.ne_of_lt hn)]
    · rw [hzero, zero_add]
      exact (blocks_singleton_le _ n).trans (Nat.le_add_right 1 _)

theorem listen (packet : List UInt8) (hindrance : Hindrance) :
    Paced (server.listen packet hindrance).1 (sent ++ (server.listen packet hindrance).2)
      timeouts := by
  have herror : ∀ (code : UInt16) (message : Field),
      Paced server (sent ++ [Server.error .listener code message]) timeouts := by
    intro code message
    refine h.others (fun d hd id => ?_) fun _ _ => le_rfl
    rw [List.mem_singleton.mp hd]
    exact Address.noConfusion
  unfold Server.listen
  cases parseRequest packet with
  | error message => exact herror _ _
  | ok request =>
    simp only
    split_ifs
    · exact herror _ _
    · simpa using h
    · exact herror _ _
    · exact herror _ _
    · exact h.start request hindrance.refused

theorem finish (hr : server.finish id = some r) : Paced r.1 (sent ++ r.2) timeouts := by
  unfold Server.finish at hr
  split at hr
  · next t ht =>
    cases hr
    exact h.put_acknowledging (h.lt_next ht) (fun _ _ => le_rfl)
      (WriteTransfer.acknowledging_finish server.file (h.response id t ht))
  · simp at hr

theorem breakOff (hr : server.breakOff id = some r) : Paced r.1 (sent ++ r.2) timeouts := by
  unfold Server.breakOff at hr
  split at hr
  · next t ht =>
    cases hr
    exact h.put_silent (h.lt_next ht) server.file (fun _ _ => le_rfl) (by simp) (by simp)
  · next t ht =>
    cases hr
    exact h.put_acknowledging (h.lt_next ht) (fun _ _ => le_rfl)
      (WriteTransfer.acknowledging_breakOff t server.file)
  · simp at hr

theorem report {message : Option Field} (hr : server.report id message = some r) :
    Paced r.1 (sent ++ r.2) timeouts := by
  have hrenewed : Paced { server with registered := none } sent timeouts := h.renew rfl le_rfl
  unfold Server.report at hr
  split_ifs at hr
  split at hr
  · cases hr
    simpa using hrenewed
  · cases hr
    refine hrenewed.others (fun d hd id => ?_) fun _ _ => le_rfl
    obtain ⟨text, -, rfl⟩ := List.mem_map.mp hd
    exact Address.noConfusion
  · simp at hr

omit h in
/-- **The server keeps pace** in each of its steps, if a time-out that expires is counted. -/
theorem serverStep {γ : Type} {s : System γ} (h : Paced s.server s.sent timeouts) {label : Label}
    (hr : s.serverStep label = some r) (hle : ∀ id n, timeouts id n ≤ timeouts' id n)
    (hpaid : ∀ id t, label = .timeout id → s.server.transfers id = some (.read t) →
      timeouts id t.index + 1 ≤ timeouts' id t.index) :
    Paced r.1 (s.sent ++ r.2) timeouts' := by
  cases label with
  | listen d hindrance =>
    rw [System.serverStep] at hr
    split_ifs at hr
    cases hr
    exact (h.listen d.packet hindrance).mono hle
  | receive id d =>
    rw [System.serverStep] at hr
    split_ifs at hr
    exact (h.receive hr).mono hle
  | timeout id => exact h.timeout hr hle fun t => hpaid id t rfl
  | finish id => exact (h.finish hr).mono hle
  | breakOff id => exact (h.breakOff hr).mono hle
  | report id message => exact (h.report hr).mono hle
  | clientReceive d => simp [System.serverStep] at hr
  | clientTimeout => simp [System.serverStep] at hr
  | clientFail => simp [System.serverStep] at hr

end Paced

/-! ### Downloads -/

/-- What a client sends comes from the client. -/
structure SendsAsClient {γ : Type} (P : ClientProgram γ) : Prop where
  receive : ∀ c source packet, ∀ d ∈ (P.receive c source packet).2, d.source = .client
  timeout : ∀ c, ∀ d ∈ (P.timeout c).2, d.source = .client

namespace Flight

variable {γ : Type} {P : ClientProgram γ} {outstanding : γ → Option ℕ} {s s' : Flight γ}

/-- The server keeps pace. -/
def ServerPaced (s : Flight γ) : Prop :=
  Paced s.system.server s.system.sent fun id n => s.timeouts (.transfer id) n

theorem ServerPaced.step (hP : SendsAsClient P) (h : s.ServerPaced) {label : FlightLabel}
    (hstep : step P outstanding s label = some s') : s'.ServerPaced := by
  rcases step_cases hstep with ⟨hsystem, htimeouts⟩ | ⟨act, -, hact, htimeouts⟩
  · rw [ServerPaced, hsystem, htimeouts]
    exact h
  have hle : ∀ id n, s.timeouts (.transfer id) n ≤ s'.timeouts (.transfer id) n := by
    intro id n
    rw [htimeouts]
    exact Nat.le_add_right _ _
  have hclient : ∀ {r : γ × List Datagram}, (∀ d ∈ r.2, d.source = .client) →
      Paced s.system.server (s.system.sent ++ r.2) fun id n => s'.timeouts (.transfer id) n := by
    intro r hr
    refine h.others (fun d hd id => ?_) hle
    rw [hr d hd]
    exact Address.noConfusion
  rcases System.step_cases hact with ⟨d, -, -, -, heq⟩ | heq | heq | ⟨r, hr, heq⟩
  · rw [ServerPaced, heq]
    exact hclient (hP.receive _ _ _)
  · rw [ServerPaced, heq]
    exact hclient (hP.timeout _)
  · rw [ServerPaced, heq]
    exact hclient fun d hd => absurd hd List.not_mem_nil
  · rw [ServerPaced, heq]
    refine h.serverStep hr hle fun id t hlabel ht => ?_
    subst hlabel
    rw [htimeouts, if_pos (by simp [expired, ht])]

theorem serverPaced_start {s : System γ} (htransfers : s.server.transfers = fun _ => none)
    (hsent : ∀ d ∈ s.sent, d.source = .client) : (start s).ServerPaced := by
  have hzero : ∀ id n, transmissions s.sent (.transfer id) n = 0 := by
    refine fun id n => transmissions_eq_zero (fun d hd => ?_) n
    rw [hsent d hd]
    exact Address.noConfusion
  refine ⟨fun id _ => congrFun htransfers id, fun id _ => hzero id, fun id t ht => ?_,
    fun id t ht => ?_, fun id n _ => ?_⟩
  · simp [start, htransfers] at ht
  · simp [start, htransfers] at ht
  · exact (hzero id n).le.trans (Nat.zero_le _)

end Flight

namespace Download

variable {c : Download} {packet : List UInt8}

theorem source_of_toPeer :
    ∀ d ∈ c.toPeer packet, d.source = .client := by
  intro d hd
  obtain ⟨peer, -, rfl⟩ := List.mem_map.mp hd
  rfl

theorem source_of_write {expected : UInt16} :
    ∀ d ∈ (c.write expected packet).2, d.source = .client := by
  simp only [write]
  split_ifs
  · simp
  · exact source_of_toPeer
  · exact source_of_toPeer

theorem source_of_start :
    ∀ d ∈ (c.start packet).2, d.source = .client := by
  unfold start
  split_ifs
  · simp
  · exact source_of_write

theorem source_of_resend {sent : List Datagram} (h : ∀ d ∈ sent, d.source = .client) :
    ∀ d ∈ (c.resend sent).2, d.source = .client := by
  unfold resend
  split_ifs
  · exact h
  · simp

theorem sendsAsClient : SendsAsClient program where
  receive c source packet := by
    simp only [program, receive]
    split
    · split_ifs
      · exact source_of_toPeer
      · exact source_of_start
    · split_ifs
      · exact source_of_start
      · exact source_of_toPeer
      · simp
    · split_ifs
      · exact source_of_write
      · exact source_of_toPeer
      · simp
    · simp
    · simp
  timeout c := by
    simp only [program, timeout]
    split
    · exact source_of_resend (by simp)
    · exact source_of_resend source_of_toPeer
    · exact source_of_resend source_of_toPeer
    · simp
    · simp

end Download

end Zetta.Ztftp
