import Mathlib
import Zetta.Moshcatty.Transport
import Zetta.Vt100.LineEmulator
import Zetta.Zosh.Server.Frames
import Zetta.Zosh.Server.SentStates

/-!
# What an acknowledgement settles

The terminal state keeps the last `MAX_SNAPSHOTS` snapshots; the transport below it keeps the
*oldest* states it has sent and removes from the middle of its list. The two agree on what an
acknowledgement names only while fewer than `MAX_SNAPSHOTS` states have been sent after the one
acknowledged (`Traced.AckHeld`).

* **Accounts**: over every sequence of operations the byte counts are right, within budget,
  and no subtraction underflows; where acknowledgements are held, the pending queries are
  exactly those the newest acknowledged state did not carry (`accounting_of_run`).
* **Bases**: where acknowledgements are held, the base is the terminal of the newest
  acknowledged state, and a frame built from it turns a terminal that shows that state into
  one that shows the server's (`base_of_run`).
* Both fail once an acknowledgement names a state whose snapshot is gone
  (`queries_kept_after_lost_snapshot`, `base_kept_after_lost_snapshot`).
-/

namespace Zetta.Zosh.Server

open Vt100 NumberedLog Moshcatty

universe u v

variable {Screen : Type u} {View : Type v} {em : Emulator Screen}

/-! ### Accounts and deliveries -/

/-- **The accounts of a terminal state.** Over every sequence of operations no subtraction
underflows, and where none exhausts the query ids the counts are the sums they stand for,
within their budgets, with no snapshot carrying more queries than are pending. In a run whose
states are numbered in increasing order and whose acknowledgements are held, the queries still
pending are those accepted after the ones the newest acknowledged state carried: each
delivered query is removed, once, and no other. -/
theorem accounting_of_run (em : Emulator Screen) (rows cols : ℕ) (ops : List TerminalOp) :
    ops.foldlM (TerminalState.step em) (.new em rows cols) ≠ .error .underflow ∧
    (∀ s, ops.foldlM (TerminalState.step em) (.new em rows cols) = .ok s →
      s.Accounts ∧ s.pendingScrollback.total ≤ s.scrollbackBudget) ∧
    ∀ t, Run (Meeting Traced.AckHeld (Traced.orderedStep em)) (.new em rows cols) ops t →
      t.state.pendingQueries.items = t.registered.drop (t.carried t.state.baseNum) := by
  refine ⟨fun herr => ?_, fun s hs => ?_, fun t hrun => ?_⟩
  · obtain ⟨bs, t, op, hrun, hfail⟩ := exists_run_of_foldlM_error herr
    rcases TerminalState.step_accounts em ((TerminalState.accounts_new rows cols).of_run hrun) op with
      ⟨s', heq, -⟩ | heq <;> rw [heq] at hfail <;> cases hfail
  · have hinv : s.Accounts ∧ s.scrollbackAnnounced = false := by
      refine (run_of_foldlM_ok hs).invariant
        (I := fun s => s.Accounts ∧ s.scrollbackAnnounced = false)
        ⟨TerminalState.accounts_new rows cols, rfl⟩ ?_
      rintro s op s' ⟨hacc, hun⟩ hstep
      exact ⟨hacc.of_run (.cons hstep (.nil s')), (TerminalState.step_frame hacc hstep).1.trans hun⟩
    exact ⟨hinv.1, hinv.1.scrollback_le hinv.2⟩
  · obtain ⟨htracks, hdelivered, -⟩ := Traced.run_of_ackHeld hrun
    rw [htracks.pending_eq, hdelivered]

/-- A query, the state that carries it, an acknowledgement of that state. -/
def ackedQueryOps : List TerminalOp :=
  [.addQuery [0x63], .snapshotForState 1, .addQuery [0x64], .acknowledge 1]

theorem accounting_of_ackedQueryOps :
    ∃ t, Run (Meeting Traced.AckHeld (Traced.orderedStep lineEmulator))
        (.new lineEmulator 1 80) ackedQueryOps t ∧
      t.state.pendingQueries.items = t.registered.drop 1 := by
  obtain ⟨t, hrun, hcarried⟩ := exists_run_of_guarded ackedQueryOps
    (C := fun t op => Traced.AckHeld t op ∧ Traced.Ordered t op) (f := Traced.step lineEmulator)
    (P := fun t => t.carried t.state.baseNum = 1) (s := .new lineEmulator 1 80)
    (by decide +kernel)
  have hrun' := hrun.mono fun _ _ _ h => (⟨h.1.1, h.1.2, h.2⟩ :
    Meeting Traced.AckHeld (Traced.orderedStep lineEmulator) _ _ _)
  exact ⟨t, hrun', hcarried ▸ (accounting_of_run lineEmulator 1 80 ackedQueryOps).2.2 t hrun'⟩

/-- A query, `MAX_SNAPSHOTS + 1` states that carry it, an acknowledgement of the first. -/
def lostQueryOps : List TerminalOp :=
  [.addQuery [0x63]] ++ (List.range (MAX_SNAPSHOTS + 1)).map (.snapshotForState <| · + 1) ++
    [.acknowledge 1]

/-- A delivered query stays pending when the snapshot of the state that carried it is gone. -/
theorem queries_kept_after_lost_snapshot :
    ∃ t, Run (Traced.orderedStep lineEmulator) (.new lineEmulator 1 80) lostQueryOps t ∧
      t.state.baseNum = 1 ∧ t.carried 1 = 1 ∧ t.registered.length = 1 ∧
      t.state.pendingQueries.items = t.registered :=
  exists_run_of_guarded lostQueryOps (by decide +kernel)

/-! ### Bases -/

/-- The titles of a reachable state hold no control byte. -/
theorem Traced.clean_of_run {t t' : Traced Screen} {ops : List TerminalOp} (h : t.Tracks)
    (hclean : t.state.titleScanner.Clean) (hrun : Run (Traced.orderedStep em) t ops t') :
    t'.state.titleScanner.Clean := by
  refine (hrun.invariant (I := fun t => t.Tracks ∧ t.state.titleScanner.Clean) ⟨h, hclean⟩
    ?_).2
  rintro t op t' ⟨h, hclean⟩ hstep
  obtain ⟨bytes, hbytes⟩ := (TerminalState.step_frame h.accounts (step_eq_ok hstep.2).1).2.2
  exact ⟨h.step hstep.1 hstep.2, hbytes ▸ hclean.feed bytes⟩

/-- **The acknowledged base is the acknowledged snapshot.** In every run whose states are
numbered in increasing order and whose acknowledgements are held:

* where the number of the base is that of a state that was snapshotted, the base is what that
  snapshot recorded, and the frame built from it makes a terminal that shows that state show
  the server's;
* an acknowledgement of a snapshotted state past the base, with fewer than `MAX_SNAPSHOTS`
  snapshotted after it, is such a step and makes its number that of the base. -/
theorem base_of_run [Base64] (law : Lawful em View) {rows cols : ℕ} {ops : List TerminalOp}
    {t : Traced Screen}
    (hrun : Run (Meeting Traced.AckHeld (Traced.orderedStep em)) (.new em rows cols) ops t) :
    (∀ e, (t.state.baseNum, e) ∈ t.sent →
      t.state.base none = some (Traced.baseOf e.snapshot) ∧
      ∃ frame, t.state.frameFrom em none = some frame ∧
        ∀ c, law.ground c → law.view c = law.view e.snapshot.screen →
          law.view (frame.applyTo em c) = law.view t.state.parser.screen) ∧
    ∀ m e, (m, e) ∈ t.sent → t.state.baseNum < m → (after t.sent m).length < MAX_SNAPSHOTS →
      ∃ t', Meeting Traced.AckHeld (Traced.orderedStep em) t (.acknowledge m) t' ∧
        t'.state.baseNum = m ∧ t'.sent = t.sent := by
  obtain ⟨htracks, -, hbase⟩ := Traced.run_of_ackHeld hrun
  have hclean : t.state.titleScanner.Clean :=
    Traced.clean_of_run (Traced.tracks_new rows cols) TitleScanner.clean_new
      (hrun.mono fun _ _ _ h => h.2)
  refine ⟨fun e he => ?_, fun m e he hm hnewer => ?_⟩
  · have heq : t.state.base none = some (Traced.baseOf e.snapshot) := by
      rw [Traced.BaseAcked, htracks.increasing.newest?_of_mem he] at hbase
      exact hbase
    refine ⟨heq, t.state.frameOf em (Traced.baseOf e.snapshot), ?_, fun c hc hview => ?_⟩
    · rw [TerminalState.frameFrom, heq]
      rfl
    · exact (TerminalState.frameOf_applyTo law hclean (b := Traced.baseOf e.snapshot) hc hview).2
  · obtain ⟨s', heq, -⟩ := htracks.accounts.acknowledge m
    refine ⟨⟨s', t.sent, t.registered⟩, ⟨fun _ => .inr hnewer, trivial, ?_⟩,
      (htracks.acknowledge hm heq).2.1, rfl⟩
    show Traced.step em t (.acknowledge m) = _
    rw [Traced.step, TerminalState.step, heq]
    rfl

/-- Two states with different screens, an acknowledgement of the first. -/
def ackedStateOps : List TerminalOp :=
  [.process [0x61], .snapshotForState 1, .process [0x62], .snapshotForState 2, .acknowledge 1]

open scoped Base64.Standard in
theorem base_of_ackedStateOps :
    ∃ t, Run (Meeting Traced.AckHeld (Traced.orderedStep lineEmulator))
        (.new lineEmulator 1 80) ackedStateOps t ∧
      ∃ e, (1, e) ∈ t.sent ∧ t.state.base none = some (Traced.baseOf e.snapshot) := by
  obtain ⟨t, hrun, hbase, hsent⟩ := exists_run_of_guarded ackedStateOps
    (C := fun t op => Traced.AckHeld t op ∧ Traced.Ordered t op) (f := Traced.step lineEmulator)
    (P := fun t => t.state.baseNum = 1 ∧ ∃ x ∈ t.sent, x.1 = 1) (s := .new lineEmulator 1 80)
    (by decide +kernel)
  have hrun' := hrun.mono fun _ _ _ h => (⟨h.1.1, h.1.2, h.2⟩ :
    Meeting Traced.AckHeld (Traced.orderedStep lineEmulator) _ _ _)
  obtain ⟨⟨n, e⟩, he, rfl⟩ := hsent
  exact ⟨t, hrun', e, he, ((base_of_run lineLawful hrun').1 e (hbase ▸ he)).1⟩

/-- The transport after `n` frames have been queued on the acknowledged state, sent, and not
acknowledged. -/
def sendUnacked (n : ℕ) : Transport :=
  (List.range n).foldl
    (fun t i => ((t.setPendingOn 0 [0x61]).map fun queued =>
      (queued.2.tick ⟨fun _ => false, fun _ => false⟩ (seconds (i + 1))).2).getD t)
    (.newServer 0)

/-- A state on the screen, `MAX_SNAPSHOTS` more after another output, an acknowledgement of the
first. -/
def lostStateOps : List TerminalOp :=
  [.process [0x61], .snapshotForState 1, .process [0x62]] ++
    (List.range MAX_SNAPSHOTS).map (.snapshotForState <| · + 2) ++ [.acknowledge 1]

/-- The transport still holds the first of `MAX_SNAPSHOTS + 1` states sent, and takes its
acknowledgement; the terminal state has lost its snapshot and keeps the old base. -/
theorem base_kept_after_lost_snapshot :
    (sendUnacked (MAX_SNAPSHOTS + 1)).sentNum = MAX_SNAPSHOTS + 1 ∧
    (∃ state ∈ (sendUnacked (MAX_SNAPSHOTS + 1)).outboundStates, state.newNum = 1) ∧
    ((sendUnacked (MAX_SNAPSHOTS + 1)).processAck 1).ackedByRemote = 1 ∧
    ∃ t, Run (Traced.orderedStep lineEmulator) (.new lineEmulator 1 80) lostStateOps t ∧
      t.state.baseNum = 1 ∧
      ∃ x ∈ t.sent, x.1 = 1 ∧ t.state.base none ≠ some (Traced.baseOf x.2.snapshot) := by
  refine ⟨by decide +kernel, by decide +kernel, by decide +kernel, ?_⟩
  exact exists_run_of_guarded lostStateOps (by decide +kernel)

end Zetta.Zosh.Server
