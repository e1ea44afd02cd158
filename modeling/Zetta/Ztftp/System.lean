import Zetta.Lib.Run
import Zetta.Lib.StopAndWait
import Zetta.Ztftp.Server

/-!
# A client and the server

A client and the server exchange datagrams over a network that loses, delays, repeats and
reorders them: whatever was sent may arrive at any time, any number of times, or never. Reads,
writes and sockets may fail at any step.

`OnTime` is what is asked of the network: when a datagram of its peer reaches a side, the block it
awaits is fewer than 65536 blocks ahead of the one the datagram is about, so that sixteen bits tell
them apart.
-/

namespace Zetta.Ztftp

/-- The behaviour of a client. -/
structure ClientProgram (γ : Type) where
  /-- A packet arrives from an address. -/
  receive : γ → Address → List UInt8 → γ × List Datagram
  /-- No packet arrived in time. -/
  timeout : γ → γ × List Datagram
  /-- Something the client calls fails. -/
  fail : γ → γ
  /-- The address it listens to, once it has one. -/
  peer : γ → Option Address
  /-- The block it awaits, or awaits the acknowledgement of. -/
  awaited : γ → ℕ

structure System (γ : Type) where
  client : γ
  server : Server
  /-- What was sent so far. -/
  sent : List Datagram

inductive Label where
  | clientReceive (d : Datagram)
  | clientTimeout
  | clientFail
  | listen (d : Datagram) (hindrance : Hindrance)
  | receive (id : ℕ) (d : Datagram)
  | timeout (id : ℕ)
  | finish (id : ℕ)
  | breakOff (id : ℕ)
  | report (id : ℕ) (message : Option Field)
  deriving DecidableEq

/-- The block whose number a transfer awaits. -/
def Transfer.awaited : Transfer → ℕ
  | .read t => t.index
  | .write t => t.accepted + 1
  | .done _ | .failed _ => 0

namespace System

variable {γ : Type}

/-- The client did something. -/
def withClient (s : System γ) (r : γ × List Datagram) : System γ :=
  { s with client := r.1, sent := s.sent ++ r.2 }

/-- The server did something. -/
def withServer (s : System γ) (r : Server × List Datagram) : System γ :=
  { s with server := r.1, sent := s.sent ++ r.2 }

/-- What the server does at a step of its own. -/
def serverStep (s : System γ) : Label → Option (Server × List Datagram)
  | .listen d hindrance =>
    if d ∈ s.sent ∧ d.destination = .listener then some (s.server.listen d.packet hindrance)
    else none
  | .receive id d =>
    if d ∈ s.sent ∧ d.destination = .transfer id then s.server.receive id d.packet else none
  | .timeout id => s.server.timeout id
  | .finish id => s.server.finish id
  | .breakOff id => s.server.breakOff id
  | .report id message => s.server.report id message
  | .clientReceive _ | .clientTimeout | .clientFail => none

/-- One step, if it can be taken. -/
def step (P : ClientProgram γ) (s : System γ) : Label → Option (System γ)
  | .clientReceive d =>
    if d ∈ s.sent ∧ d.destination = .client then
      some (s.withClient (P.receive s.client d.source d.packet))
    else none
  | .clientTimeout => some (s.withClient (P.timeout s.client))
  | .clientFail => some (s.withClient (P.fail s.client, []))
  | label => (s.serverStep label).map s.withServer

/-- What arrives is not too late to be told apart by its number. -/
def OnTime (P : ClientProgram γ) (s : System γ) : Label → Prop
  | .clientReceive d => P.peer s.client = some d.source → P.awaited s.client < d.index + 2 ^ 16
  | .receive id d => ∀ t ∈ s.server.transfers id, t.awaited < d.index + 2 ^ 16
  | _ => True

/-- A run from the client's request, on time at every step. -/
def Reaches (P : ClientProgram γ) (start s : System γ) : Prop :=
  ∃ labels, Run (Meeting (OnTime P) fun s label t => step P s label = some t) start labels s

instance (P : ClientProgram γ) (s : System γ) : DecidablePred (OnTime P s)
  | .clientReceive _ => inferInstanceAs (Decidable (_ → _))
  | .receive id d =>
    match h : s.server.transfers id with
    | some t => decidable_of_iff (t.awaited < d.index + 2 ^ 16) (by simp [OnTime, h])
    | none => isTrue (by simp [OnTime, h])
  | .clientTimeout | .clientFail | .listen _ _ | .timeout _ | .finish _ | .breakOff _
  | .report _ _ => isTrue trivial

variable {P : ClientProgram γ}

/-- A run on fixed labels, computed. -/
theorem exists_reaches_of_foldlM {Q : System γ → Prop} [DecidablePred Q] (labels : List Label)
    {s : System γ}
    (h : ((labels.foldlM (fun s label => if OnTime P s label then step P s label else none) s).any
      fun t => decide (Q t)) = true) : ∃ t, Reaches P s t ∧ Q t := by
  obtain ⟨t, hrun, hQ⟩ := exists_run_of_foldlM labels h
  refine ⟨t, ⟨labels, hrun.mono fun s label t hstep => ?_⟩, hQ⟩
  split_ifs at hstep with htime
  exact ⟨htime, hstep⟩

/-- The two kinds of steps. -/
theorem step_cases {s s' : System γ} {label : Label} (h : step P s label = some s') :
    (∃ d ∈ s.sent, d.destination = .client ∧ label = .clientReceive d ∧
      s' = s.withClient (P.receive s.client d.source d.packet)) ∨
    s' = s.withClient (P.timeout s.client) ∨
    s' = s.withClient (P.fail s.client, []) ∨
    ∃ r, s.serverStep label = some r ∧ s' = s.withServer r := by
  cases label
  case clientReceive d =>
    rw [step] at h
    split_ifs at h with hd
    exact Or.inl ⟨d, hd.1, hd.2, rfl, (Option.some.inj h).symm⟩
  case clientTimeout => exact Or.inr (Or.inl (Option.some.inj h).symm)
  case clientFail => exact Or.inr (Or.inr (Or.inl (Option.some.inj h).symm))
  all_goals
    obtain ⟨r, hr, rfl⟩ := Option.map_eq_some_iff.mp h
    exact Or.inr (Or.inr (Or.inr ⟨r, hr, rfl⟩))

end System

/-! ### What both clients use -/

/-- The answer that `receive_from_peer` returns: an error, or the one that was waited for. -/
def isReply (opcode block : UInt16) (packet : List UInt8) : Bool :=
  packetOpcode packet = some OP_ERROR ||
    (packetOpcode packet = some opcode && packetBlock packet = some block)

theorem isReply_iff {opcode number : UInt16} {packet : List UInt8} :
    isReply opcode number packet = true ↔ packetOpcode packet = some OP_ERROR ∨
      packetOpcode packet = some opcode ∧ packetBlock packet = some number := by
  simp [isReply]

/-- An error from the listener or about a transfer that failed. -/
structure IsError (d : Datagram) : Prop where
  source : d.source = .listener ∨ d.source = .reporter
  destination : d.destination = .client
  packet : packetOpcode d.packet = some OP_ERROR

theorem isError_error {source : Address} (h : source = .listener ∨ source = .reporter)
    (code : UInt16) (message : Field) : IsError (Server.error source code message) :=
  ⟨h, rfl, packetOpcode_errorPacket _ _⟩

/-- Sixteen bits of a number. -/
theorem mod_eq_of_ofNat_eq {m n : ℕ} (h : UInt16.ofNat m = UInt16.ofNat n) :
    m % 2 ^ 16 = n % 2 ^ 16 := by
  have := congrArg UInt16.toNat h
  rwa [UInt16.toNat_ofNat', UInt16.toNat_ofNat'] at this

/-- The transfers after one of them has a new state. -/
theorem transfers_update {f : ℕ → Option Transfer} {id id' : ℕ} {t t' : Transfer}
    (h : Function.update f id (some t) id' = some t') :
    id' = id ∧ t' = t ∨ id' ≠ id ∧ f id' = some t' := by
  by_cases hid : id' = id
  · subst hid
    rw [Function.update_self] at h
    exact Or.inl ⟨rfl, (Option.some.inj h).symm⟩
  · rw [Function.update_of_ne hid] at h
    exact Or.inr ⟨hid, h⟩

end Zetta.Ztftp
