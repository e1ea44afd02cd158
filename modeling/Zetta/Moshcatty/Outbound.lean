import Mathlib
import Zetta.Moshcatty.Transport

/-!
# What each operation does to the states queued for the peer

A queued state is known by its numbers and its diff (`Transport.queued`); when it was last sent
is left aside. For each operation, one lemma says which states may be queued after it, what the
numbering and the acknowledged state are, and, for `tick`, which states are put on the wire:
a queued one, or one that has no frame of its own (`Transport.SendsOwn`).
-/

namespace Zetta.Moshcatty

open List

/-- The numbers and the diff of a state. -/
abbrev StateDiff : Type := ℕ × ℕ × List UInt8

namespace OutboundState

/-- A queued state, without when it was sent. -/
def state (s : OutboundState) : StateDiff := (s.oldNum, s.newNum, s.diff)

end OutboundState

/-- The state an instruction brings. -/
def Instruction.state (ti : Instruction) : StateDiff := (ti.oldNum, ti.newNum, ti.diff)

namespace Transport

/-- The states queued. -/
def queued (t : Transport) : List StateDiff := t.outboundStates.map OutboundState.state

/-- The state that an empty state is built on: the newest one queued, or the acknowledged
one. -/
def newestNum (t : Transport) : ℕ :=
  (t.outboundStates.getLast?.map OutboundState.newNum).getD t.ackedByRemote

/-- Now `tick` sends a state that is not a queued one: an acknowledgement, a heartbeat or the
announcement of a shutdown. -/
def SendsOwn (t : Transport) (now : ℕ) : Prop :=
  t.dropStaleUnsent.tickDue now = true ∧
    (t.shutdownInProgress = true ∨ t.dropStaleUnsent.sendIndex now = none)

instance (t : Transport) (now : ℕ) : Decidable (t.SendsOwn now) :=
  inferInstanceAs (Decidable (_ ∧ _))

/-- What an operation leaves as it is. -/
structure Keeps (t t' : Transport) : Prop where
  queued : t'.queued ⊆ t.queued
  sentNum : t'.sentNum = t.sentNum
  ackedByRemote : t'.ackedByRemote = t.ackedByRemote
  shutdownInProgress : t'.shutdownInProgress = t.shutdownInProgress

/-! ### Queueing -/

theorem pushCapped_subset {α : Type} (xs : List α) (x : α) : pushCapped xs x ⊆ xs ++ [x] := by
  rw [pushCapped]
  split_ifs
  · exact eraseIdx_subset
  · exact List.Subset.refl _

/-- A diff that is queued on a base is a new state on that base. -/
theorem setPendingOn_spec {t t' : Transport} {oldNum n : ℕ} {diff : List UInt8}
    (h : t.setPendingOn oldNum diff = some (n, t')) :
    t.shutdownInProgress = false ∧ n = nextNum t.sentNum ∧
      (oldNum = t.ackedByRemote ∨ ∃ x ∈ t.queued, x.2.1 = oldNum) ∧
      (∀ x ∈ t'.queued, x ∈ t.queued ∨ x = (oldNum, n, diff)) ∧
      t'.sentNum = n ∧ t'.ackedByRemote = t.ackedByRemote ∧ t'.shutdownInProgress = false := by
  rw [setPendingOn] at h
  split_ifs at h with hok
  obtain ⟨hknown, hshutdown⟩ : t.baseKnown oldNum = true ∧ t.shutdownInProgress = false := by
    simpa using hok
  have hbase : oldNum = t.ackedByRemote ∨ ∃ state ∈ t.outboundStates, state.newNum = oldNum := by
    rcases Bool.or_eq_true_iff.mp hknown with hacked | hany
    · exact .inl (of_decide_eq_true hacked)
    · obtain ⟨state, hmem, hstate⟩ := any_eq_true.mp hany
      exact .inr ⟨state, hmem, of_decide_eq_true (Bool.and_eq_true_iff.mp hstate).1⟩
  have hqueue : t.queueBase oldNum = oldNum := if_pos hbase
  rw [setPendingFrom, if_neg (by simp [hshutdown]), hqueue] at h
  cases h
  refine ⟨hshutdown, rfl, hbase.imp_right ?_, fun x hx => ?_, rfl, rfl, hshutdown⟩
  · rintro ⟨state, hmem, hstate⟩
    exact ⟨state.state, mem_map_of_mem hmem, hstate⟩
  · obtain ⟨state, hmem, rfl⟩ := mem_map.mp hx
    rcases mem_append.mp (pushCapped_subset _ _ hmem) with hold | hnew
    · exact .inl (mem_map_of_mem hold)
    · exact .inr (by rw [mem_singleton.mp hnew]; rfl)

/-! ### Sending -/

variable (t : Transport)

theorem dropStaleUnsent_subset :
    t.dropStaleUnsent.outboundStates ⊆ t.outboundStates := by
  rw [dropStaleUnsent]
  split
  · exact List.Subset.refl _
  · exact filter_subset_self _

theorem keeps_dropStaleUnsent : Keeps t t.dropStaleUnsent := by
  refine ⟨map_subset _ t.dropStaleUnsent_subset, ?_, ?_, ?_⟩ <;>
    · rw [dropStaleUnsent]
      split <;> rfl

theorem sendIndex_lt {t : Transport} {now index : ℕ} (h : t.sendIndex now = some index) :
    index < t.outboundStates.length := by
  rw [sendIndex, Option.or_eq_some_iff] at h
  rcases h with h | ⟨-, h⟩
  · split_ifs at h
    exact (findIdx?_eq_some_iff_findIdx_eq.mp h).1
  · obtain ⟨i, hi, rfl⟩ := Option.map_eq_some_iff.mp h
    have hlt := (findIdx?_eq_some_iff_findIdx_eq.mp hi).1
    rw [length_reverse] at hlt
    omega

/-- A state that was modified in its time only is the same state. -/
private theorem queued_markSent (now index : ℕ) :
    (t.markSent now index).queued = t.queued := by
  simp only [queued, markSent]
  refine ext_getElem? fun i => ?_
  simp only [getElem?_map, getElem?_modify]
  cases t.outboundStates[i]? with
  | none => rfl
  | some s => by_cases hi : index = i <;> simp [hi, OutboundState.state]

/-- What `tick` chooses: the announcement of a shutdown, a queued state, or an empty one. -/
inductive Chosen (t : Transport) (now : ℕ) : StateDiff → ℕ → Prop
  | shutdown {x : StateDiff} : t.shutdownInProgress = true → x ∈ t.queued →
      x.2.1 = t.newestNum → Chosen t now (x.1, MAX, x.2.2) MAX
  | shutdownEmpty : t.shutdownInProgress = true → t.newestNum = t.ackedByRemote →
      Chosen t now (t.ackedByRemote, MAX, []) MAX
  | queued {x : StateDiff} : t.shutdownInProgress = false → x ∈ t.queued →
      Chosen t now x t.sentNum
  | empty : t.shutdownInProgress = false → t.sendIndex now = none →
      Chosen t now (t.newestNum, nextNum t.sentNum, []) (nextNum t.sentNum)

theorem chooseSend_spec (now : ℕ) :
    Chosen t now (t.chooseSend now).1 (t.chooseSend now).2.sentNum ∧
      (t.chooseSend now).2.queued = t.queued ∧
      (t.chooseSend now).2.ackedByRemote = t.ackedByRemote ∧
      (t.chooseSend now).2.shutdownInProgress = t.shutdownInProgress := by
  rw [chooseSend]
  split_ifs with hshutdown
  · refine ⟨?_, rfl, rfl, rfl⟩
    cases hlast : t.outboundStates.getLast? with
    | none => exact .shutdownEmpty hshutdown (by simp [newestNum, hlast])
    | some s =>
      exact .shutdown (x := s.state) hshutdown
        (mem_map_of_mem (mem_of_getLast? hlast)) (by simp [newestNum, hlast, OutboundState.state])
  · have hrun : t.shutdownInProgress = false := by simpa using hshutdown
    split
    · next index s hs =>
      obtain ⟨i, -, hi⟩ := Option.bind_eq_some_iff.mp hs
      obtain ⟨s', hs', heq⟩ := Option.map_eq_some_iff.mp hi
      obtain ⟨rfl, rfl⟩ := Prod.mk.inj heq
      exact ⟨.queued (x := s'.state) hrun (mem_map_of_mem (mem_of_getElem? hs')),
        t.queued_markSent now i, rfl, rfl⟩
    · next hnone =>
      refine ⟨.empty hrun ?_, rfl, rfl, rfl⟩
      by_contra hne
      obtain ⟨i, hi⟩ := Option.ne_none_iff_exists'.mp hne
      rw [hi, Option.bind_some, Option.map_eq_none_iff,
        getElem?_eq_none_iff] at hnone
      exact absurd (sendIndex_lt hi) (by omega)

/-- The part of `tick` after the choice: acknowledge with it and send it. -/
def emit (t : Transport) (wire : Wire) (now : ℕ) (choice : StateDiff) :
    TickResult × Transport :=
  ({ t with forceSend := false }.instruct choice).2.transmit wire now
    ({ t with forceSend := false }.instruct choice).1

variable (wire : Wire)

theorem tick_eq (now : ℕ) :
    t.tick wire now =
      if t.dropStaleUnsent.tickDue now then
        (t.dropStaleUnsent.chooseSend now).2.emit wire now (t.dropStaleUnsent.chooseSend now).1
      else (.idle, t.dropStaleUnsent) :=
  rfl

theorem emit_spec (now : ℕ) (choice : StateDiff) :
    (t.emit wire now choice).2.queued = t.queued ∧
      (t.emit wire now choice).2.sentNum = t.sentNum ∧
      (t.emit wire now choice).2.ackedByRemote = t.ackedByRemote ∧
      (t.emit wire now choice).2.shutdownInProgress = t.shutdownInProgress ∧
      (∀ ti, (t.emit wire now choice).1 = .sent ti → ti.state = choice) ∧
      (t.emit wire now choice).1 ≠ .idle := by
  have hstate : ∀ t : Transport, (t.instruct choice).1.state = choice := fun _ => rfl
  rw [emit, transmit]
  split
  · exact ⟨rfl, rfl, rfl, rfl, (fun _ h => nomatch h), fun h => nomatch h⟩
  split
  · exact ⟨rfl, rfl, rfl, rfl, (fun _ h => nomatch h), fun h => nomatch h⟩
  · refine ⟨rfl, rfl, rfl, rfl, fun ti h => ?_, fun h => nomatch h⟩
    rw [← TickResult.sent.inj h]
    exact hstate _

/-- **One `tick`**: nothing was due, or one state was chosen and, unless something kept it off
the wire, sent. -/
theorem tick_cases (now : ℕ) :
    t.dropStaleUnsent.tickDue now = false ∧ t.tick wire now = (.idle, t.dropStaleUnsent) ∨
    t.dropStaleUnsent.tickDue now = true ∧ (t.tick wire now).1 ≠ .idle ∧
      ∃ x, Chosen t.dropStaleUnsent now x (t.tick wire now).2.sentNum ∧
        (∀ ti, (t.tick wire now).1 = .sent ti → ti.state = x) ∧
        (t.tick wire now).2.queued = t.dropStaleUnsent.queued ∧
        (t.tick wire now).2.ackedByRemote = t.ackedByRemote ∧
        (t.tick wire now).2.shutdownInProgress = t.shutdownInProgress := by
  rw [tick_eq]
  by_cases hdue : t.dropStaleUnsent.tickDue now = true
  · rw [if_pos hdue]
    obtain ⟨hchosen, hqueued, hacked, hshutdown⟩ := t.dropStaleUnsent.chooseSend_spec now
    obtain ⟨hq, hnum, ha, hs, hsent, hidle⟩ := (t.dropStaleUnsent.chooseSend now).2.emit_spec
      wire now (t.dropStaleUnsent.chooseSend now).1
    have hkeeps := t.keeps_dropStaleUnsent
    exact .inr ⟨hdue, hidle, _, hnum ▸ hchosen, hsent, hq.trans hqueued,
      ha.trans (hacked.trans hkeeps.ackedByRemote),
      hs.trans (hshutdown.trans hkeeps.shutdownInProgress)⟩
  · rw [if_neg hdue]
    exact .inl ⟨by simpa using hdue, rfl⟩

/-! ### Receiving and shutting down -/

theorem keeps_startShutdown (now : ℕ) :
    (t.startShutdown now).queued = t.queued ∧ (t.startShutdown now).sentNum = t.sentNum ∧
      (t.startShutdown now).ackedByRemote = t.ackedByRemote := by
  rw [startShutdown]
  split_ifs <;> exact ⟨rfl, rfl, rfl⟩

/-- An acknowledgement moves the acknowledged state to the one it names, or does not. -/
theorem processAck_spec (ackNum : ℕ) :
    (t.processAck ackNum).queued ⊆ t.queued ∧ (t.processAck ackNum).sentNum = t.sentNum ∧
      (t.processAck ackNum).shutdownInProgress = t.shutdownInProgress ∧
      ((t.processAck ackNum).ackedByRemote = t.ackedByRemote ∨
        (t.processAck ackNum).ackedByRemote = ackNum ∧ t.ackedByRemote < ackNum ∧
          ackNum ≤ t.sentNum) := by
  have hadvance : ∀ t : Transport, (t.advanceAck ackNum).queued ⊆ t.queued ∧
      (t.advanceAck ackNum).sentNum = t.sentNum ∧
      (t.advanceAck ackNum).shutdownInProgress = t.shutdownInProgress ∧
      (t.advanceAck ackNum).ackedByRemote = ackNum := by
    intro t
    simp only [advanceAck]
    split_ifs
    · exact ⟨map_subset _ fun x hx => mem_of_mem_filter (mem_of_mem_filter hx),
        rfl, rfl, rfl⟩
    · exact ⟨map_subset _ fun x hx => mem_of_mem_filter hx, rfl, rfl, rfl⟩
  rw [processAck]
  dsimp only
  split
  · next hack =>
    obtain ⟨hq, hn, hs, ha⟩ := hadvance (t.processRoundtripAck ackNum).2
    simp only [Bool.and_eq_true, decide_eq_true_eq] at hack
    exact ⟨hq, hn, hs, .inr ⟨ha, hack.1.2, hack.2⟩⟩
  · exact ⟨List.Subset.refl _, rfl, rfl, .inl rfl⟩

/-- Whatever an instruction from the peer brings, only its acknowledgement touches the states
queued. -/
theorem receive_spec (now : ℕ) (ti : Instruction) :
    (t.receive now ti).2.queued = (t.processAck ti.ackNum).queued ∧
      (t.receive now ti).2.sentNum = t.sentNum ∧
      (t.receive now ti).2.shutdownInProgress = t.shutdownInProgress ∧
      (t.receive now ti).2.ackedByRemote = (t.processAck ti.ackNum).ackedByRemote := by
  obtain ⟨-, hnum, hshutdown, -⟩ := t.processAck_spec ti.ackNum
  have hthrow : ∀ t : Transport, (t.processThrowaway ti.throwawayNum).queued = t.queued ∧
      (t.processThrowaway ti.throwawayNum).sentNum = t.sentNum ∧
      (t.processThrowaway ti.throwawayNum).shutdownInProgress = t.shutdownInProgress ∧
      (t.processThrowaway ti.throwawayNum).ackedByRemote = t.ackedByRemote := by
    intro t
    rw [processThrowaway]
    split_ifs <;> exact ⟨rfl, rfl, rfl, rfl⟩
  obtain ⟨hq, hn, hs, ha⟩ := hthrow (t.processAck ti.ackNum)
  rw [receive]
  dsimp only
  split_ifs
  · exact ⟨rfl, hnum, hshutdown, rfl⟩
  all_goals first | exact ⟨rfl, hnum, hshutdown, rfl⟩ |
    exact ⟨hq, hn.trans hnum, hs.trans hshutdown, ha⟩

end Transport

end Zetta.Moshcatty
