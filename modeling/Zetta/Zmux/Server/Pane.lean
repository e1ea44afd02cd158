import Mathlib

/-!
# A pane of the session daemon

A pane's terminal is read either by the daemon, which relays the output to the viewers in the
pane's shared set, or by the one client that has been handed the descriptor. The handlers of the
daemon are compositions of the functions of this file: the size a shared pane runs at, the queue
of each viewer, and the ways in which a pane becomes unheld again.
-/

namespace Zetta.Zmux.Server

/-- How many bytes are kept for a client that is mid-handover. -/
def HANDOVER_OUTPUT_LIMIT : ℕ := 1024 * 1024

/-- What is queued for a shared client: a piece of the pane's output, or a size. -/
inductive Frame
  | output (paneId : ℕ) (bytes : List UInt8)
  | size (sessionId paneId revision columns lines : ℕ)
  deriving DecidableEq

/-- One shared client's relay: the frames queued on it so far, in order, how many of them its
thread has written, and whether the thread has ended, so that nothing can be queued any more. -/
structure Relay where
  frames : List Frame
  written : ℕ
  closed : Bool
  deriving DecidableEq

structure SharedClient where
  processId : ℕ
  /-- The process the transport vouched for. -/
  peerProcessId : Option ℕ
  clientId : String
  /-- This attachment, and no other: identities are never reused. -/
  attachment : ℕ
  streamOnly : Bool
  /-- Set for a relay, which reports the size of a real terminal. -/
  relayingFor : Option String
  relay : Relay
  /-- Columns and lines of its last accepted report; none while it is unmeasured. -/
  size : Option (ℕ × ℕ)
  /-- How many frames had been queued when that report was accepted (not in the source). -/
  reportedAt : ℕ
  deriving DecidableEq

inductive Attachment
  | none
  | exclusive (holder : ℕ)
  | revoking (holder : ℕ)
  | shared (clients : List SharedClient)
  | granting (holder : ℕ)
  deriving DecidableEq

/-- The client that handed a pane over to sharing, and what has been read since. -/
structure RevokeHandover where
  clientProcessId : ℕ
  output : List UInt8

structure Pane where
  sessionId : ℕ
  id : ℕ
  exited : Bool
  attachment : Attachment
  /-- The request that acquired the present exclusive attachment. -/
  attachmentClientId : Option String
  /-- The size the daemon last applied. -/
  size : ℕ × ℕ
  /-- The visible bytes the retained screen renders. -/
  retained : List UInt8
  handedOver : Option RevokeHandover
  handoverWaiters : ℕ
  /-- Windows: the thread that reads the terminal for the daemon has not been paused. -/
  readerRunning : Bool

/-- The viewers of a pane. -/
def Pane.viewers (pane : Pane) : List SharedClient :=
  match pane.attachment with
  | .shared clients => clients
  | _ => []

/-- The sizes of the measured viewers. -/
def reports (clients : List SharedClient) : List (ℕ × ℕ) := clients.filterMap (·.size)

/-- The viewers whose queues still take frames. -/
def living (clients : List SharedClient) : List SharedClient :=
  clients.filter fun client => !client.relay.closed

/-- The pane is unheld. -/
def Pane.unhold (pane : Pane) : Pane :=
  { pane with attachment := .none, attachmentClientId := none }

def Pane.resumeReader (pane : Pane) : Pane := { pane with readerRunning := true }

/-- On Windows the thread that reads for the daemon is stopped. -/
def pausePaneReader (windows : Bool) (pane : Pane) : Pane :=
  { pane with readerRunning := pane.readerRunning && !windows }

/-- Whether the daemon is the one to read a pane's terminal. -/
def drainReads : Attachment → Bool
  | .none => true
  | .shared _ => true
  | _ => false

/-- A client that does not identify itself is recorded as holding nothing. -/
def exclusiveAttachment : ℕ → Attachment
  | 0 => .none
  | processId => .exclusive processId

theorem exclusiveAttachment_of_ne_zero {processId : ℕ} (h : processId ≠ 0) :
    exclusiveAttachment processId = .exclusive processId := by
  obtain ⟨n, rfl⟩ := Nat.exists_eq_succ_of_ne_zero h
  rfl

/-! ### Sizes -/

/-- The smallest of the sizes asked for, independently per axis, or `fallback` when none were. -/
def smallestSize (sizes : List (ℕ × ℕ)) (fallback : ℕ × ℕ) : ℕ × ℕ :=
  (sizes.foldl (fun smallest size =>
    match smallest with
    | some best => some (min best.1 size.1, min best.2 size.2)
    | none => some size) none).getD fallback

/-- The size every shared client must show the pane at. -/
def effectiveSize (pane : Pane) : ℕ × ℕ :=
  match pane.attachment with
  | .shared clients => smallestSize (clients.filterMap (·.size)) pane.size
  | _ => pane.size

/-- Whether a size event is needed after one client reports. -/
def shouldBroadcastSize (reported effective applied : ℕ × ℕ) : Bool :=
  effective ≠ applied || reported ≠ effective

/-- `size` is the per-axis minimum of `sizes`. -/
structure Smallest (sizes : List (ℕ × ℕ)) (size : ℕ × ℕ) : Prop where
  columns_le : ∀ s ∈ sizes, size.1 ≤ s.1
  lines_le : ∀ s ∈ sizes, size.2 ≤ s.2
  columns_mem : ∃ s ∈ sizes, s.1 = size.1
  lines_mem : ∃ s ∈ sizes, s.2 = size.2

variable {sizes : List (ℕ × ℕ)}

theorem Smallest.unique {a b : ℕ × ℕ} (ha : Smallest sizes a) (hb : Smallest sizes b) : a = b := by
  obtain ⟨s, hs, hsa⟩ := ha.columns_mem
  obtain ⟨t, ht, htb⟩ := hb.columns_mem
  obtain ⟨u, hu, hua⟩ := ha.lines_mem
  obtain ⟨v, hv, hvb⟩ := hb.lines_mem
  refine Prod.ext ?_ ?_
  · exact le_antisymm (htb ▸ ha.columns_le t ht) (hsa ▸ hb.columns_le s hs)
  · exact le_antisymm (hvb ▸ ha.lines_le v hv) (hua ▸ hb.lines_le u hu)

/-- Adding one size to sizes whose minimum is known. -/
theorem Smallest.concat {a : ℕ × ℕ} (ha : Smallest sizes a) (s : ℕ × ℕ) :
    Smallest (sizes ++ [s]) (min a.1 s.1, min a.2 s.2) := by
  refine ⟨fun t ht => ?_, fun t ht => ?_, ?_, ?_⟩
  · rcases List.mem_append.mp ht with ht | ht
    · exact (min_le_left _ _).trans (ha.columns_le t ht)
    · rw [List.mem_singleton.mp ht]
      exact min_le_right _ _
  · rcases List.mem_append.mp ht with ht | ht
    · exact (min_le_left _ _).trans (ha.lines_le t ht)
    · rw [List.mem_singleton.mp ht]
      exact min_le_right _ _
  · obtain ⟨t, ht, heq⟩ := ha.columns_mem
    rcases min_choice a.1 s.1 with hmin | hmin
    · exact ⟨t, List.mem_append_left _ ht, heq.trans hmin.symm⟩
    · exact ⟨s, by simp, hmin.symm⟩
  · obtain ⟨t, ht, heq⟩ := ha.lines_mem
    rcases min_choice a.2 s.2 with hmin | hmin
    · exact ⟨t, List.mem_append_left _ ht, heq.trans hmin.symm⟩
    · exact ⟨s, by simp, hmin.symm⟩

/-- The arbitration takes the per-axis minimum. -/
theorem smallest_smallestSize (hsizes : sizes ≠ []) (fallback : ℕ × ℕ) :
    Smallest sizes (smallestSize sizes fallback) := by
  suffices h : ∃ a, sizes.foldl (fun smallest size =>
      match smallest with
      | some best => some (min best.1 size.1, min best.2 size.2)
      | none => some size) none = some a ∧ Smallest sizes a by
    obtain ⟨a, ha, hleast⟩ := h
    rwa [smallestSize, ha, Option.getD_some]
  -- The fold has seen a prefix, of which it holds the minimum.
  induction sizes using List.reverseRecOn with
  | nil => exact absurd rfl hsizes
  | append_singleton init s ih =>
    rcases eq_or_ne init [] with rfl | hinit
    · exact ⟨s, rfl, by simp, by simp, by simp, by simp⟩
    · obtain ⟨a, ha, hleast⟩ := ih hinit
      exact ⟨_, by rw [List.foldl_append, ha]; rfl, hleast.concat s⟩

theorem smallest_iff (hsizes : sizes ≠ []) {fallback size : ℕ × ℕ} :
    Smallest sizes size ↔ smallestSize sizes fallback = size :=
  ⟨fun h => (smallest_smallestSize hsizes fallback).unique h,
    fun h => h ▸ smallest_smallestSize hsizes fallback⟩

/-! ### The viewers' queues -/

/-- Returns a pane whose last shared client has gone to being unheld. -/
def collapseEmptyShared (attachment : Attachment) (handoverWaiters : ℕ) : Attachment :=
  if handoverWaiters = 0 ∧ attachment = .shared [] then .none else attachment

def Relay.push (relay : Relay) (frame : Frame) : Relay :=
  { relay with frames := relay.frames ++ [frame] }

def SharedClient.queue (client : SharedClient) (frame : Frame) : SharedClient :=
  { client with relay := client.relay.push frame }

/-- Hands one framed message to every shared client, dropping those whose queue is closed.
Returns whether any viewer was dropped. -/
def queueForSharedClients (attachment : Attachment) (handoverWaiters : ℕ) (frame : Frame) :
    Attachment × Bool :=
  match attachment with
  | .shared clients =>
    let kept := (clients.filter fun client => !client.relay.closed).map (·.queue frame)
    if clients.any (·.relay.closed) then
      (collapseEmptyShared (.shared kept) handoverWaiters, true)
    else
      (.shared kept, false)
  | _ => (attachment, false)

/-- Tells every shared client the size the pane is now shown at. -/
def broadcastSize (pane : Pane) (revision : ℕ) (size : ℕ × ℕ) : Pane :=
  { pane with
    attachment := (queueForSharedClients pane.attachment pane.handoverWaiters
      (.size pane.sessionId pane.id revision size.1 size.2)).1 }

/-- Sends a pane's output to every shared client. Returns whether that dropped a viewer. -/
def relayOutput (pane : Pane) (bytes : List UInt8) : Pane × Bool :=
  let queued := queueForSharedClients pane.attachment pane.handoverWaiters (.output pane.id bytes)
  ({ pane with attachment := queued.1 }, queued.2)

/-- Settles a shared pane after viewers were taken out of its set. -/
def settleSharedDeparture (pane : Pane) (revision : ℕ) (removed : Bool) : Pane :=
  match pane.attachment with
  | .shared clients =>
    if clients = [] ∧ pane.handoverWaiters = 0 then
      { pane with attachment := .none, attachmentClientId := none, handedOver := none }
    else if removed then
      -- A smaller set may want a bigger pane.
      let size := effectiveSize pane
      if size ≠ pane.size then broadcastSize { pane with size } revision size else pane
    else
      pane
  | _ => pane

/-- Takes some viewers out of a pane's shared set. Returns whether there were any. -/
def Pane.retainClients (pane : Pane) (keep : SharedClient → Bool) : Pane × Bool :=
  match pane.attachment with
  | .shared clients =>
    ({ pane with attachment := .shared (clients.filter keep) }, clients.any (!keep ·))
  | _ => (pane, false)

/-- Drops one attachment from a pane's shared set. -/
def removeSharedAttachment (pane : Pane) (revision attachment : ℕ) : Pane :=
  let retained := pane.retainClients (·.attachment ≠ attachment)
  settleSharedDeparture retained.1 revision retained.2

/-- A client leaves explicitly, with every attachment it has. -/
def leaveShared (pane : Pane) (revision : ℕ) (clientId : String) : Pane :=
  let retained := pane.retainClients (·.clientId ≠ clientId)
  settleSharedDeparture retained.1 revision retained.2

/-- Drops the viewers that have stalled, and says whether there were any. -/
def relayBackpressure (pane : Pane) (stalled : List ℕ) : Pane × Bool :=
  let retained := pane.retainClients fun client => !stalled.contains client.attachment
  if retained.2 then
    ({ retained.1 with
      attachment := collapseEmptyShared retained.1.attachment pane.handoverWaiters }, true)
  else
    (pane, false)

/-- Releases one attach request waiting for a revoke. -/
def finishHandoverWaiter (pane : Pane) (collapse : Bool) : Pane :=
  let pane := { pane with handoverWaiters := pane.handoverWaiters - 1 }
  if collapse ∧ pane.handoverWaiters = 0 ∧ pane.attachment = .shared [] then
    { pane with attachment := .none, attachmentClientId := none, handedOver := none }
  else
    pane

/-- Keeps a copy of `chunk` for a client that is mid-handover, the newest bytes of it. -/
def recordHandoverOutput (pane : Pane) (chunk : List UInt8) : Pane :=
  { pane with
    handedOver := pane.handedOver.map fun handover =>
      let output := handover.output ++ chunk
      { handover with output := output.drop (output.length - HANDOVER_OUTPUT_LIMIT) } }

end Zetta.Zmux.Server
