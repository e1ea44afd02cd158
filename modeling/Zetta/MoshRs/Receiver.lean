import Zetta.MoshRs.HostMessage
import Zetta.Moshcatty.Transport

/-!
# The client's receiving half

`TransportReceiver` keeps the numbers of the states the client holds, so that it can tell a
state it can build (its base is held) from a repeated and from an unresolvable one. What a new
state brings are the events of its diff; queries and agent records travel in overlapping diffs,
and an event with an id handed out before is dropped (`deduplicate`).
-/

namespace Zetta.MoshRs

open Moshcatty (Instruction)

def MAX_RECEIVED_STATES : ℕ := 1024
def RECEIVER_QUENCH_MS : ℕ := 15000

/-- The states the client holds, in increasing order. -/
structure TransportReceiver where
  received : List ℕ
  quenchUntil : ℕ

/-- What a received instruction turned out to be. -/
inductive Received where
  | apply (num : ℕ) (diff : List UInt8)
  | applyOutOfOrder (num : ℕ) (diff : List UInt8)
  | duplicate
  | unresolvable

namespace TransportReceiver

/-- A receiver holding only state 0. -/
def new : TransportReceiver := ⟨[0], 0⟩

/-- The highest state held. -/
def latest (r : TransportReceiver) : ℕ := r.received.getLast?.getD 0

/-- Forgets the states below a watermark, but keeps one. -/
def forget (r : TransportReceiver) (oldNum throwawayNum : ℕ) : TransportReceiver :=
  let kept := r.received.filter fun n => throwawayNum ≤ n
  { r with received := if kept = [] then [oldNum] else kept }

/-- Adds a state. -/
def push (r : TransportReceiver) (num : ℕ) : TransportReceiver :=
  { r with received := r.received.takeWhile (· < num) ++ num :: r.received.dropWhile (· < num) }

/-- What an arriving instruction turns out to be. -/
def process (r : TransportReceiver) (now : ℕ) (ti : Instruction) :
    Received × TransportReceiver :=
  if ti.newNum ∈ r.received then (.duplicate, r)
  else if ti.oldNum ∉ r.received then (.unresolvable, r)
  else
    let r := r.forget ti.oldNum ti.throwawayNum
    if MAX_RECEIVED_STATES < r.received.length ∧ now < r.quenchUntil then (.unresolvable, r)
    else
      let r := if MAX_RECEIVED_STATES < r.received.length then
          { r with quenchUntil := now + RECEIVER_QUENCH_MS } else r
      (if r.latest < ti.newNum then .apply ti.newNum ti.diff
        else .applyOutOfOrder ti.newNum ti.diff, r.push ti.newNum)

end TransportReceiver

/-- The number and the diff of a state that is new. -/
def Received.state : Received → Option (ℕ × List UInt8)
  | apply num diff => some (num, diff)
  | applyOutOfOrder num diff => some (num, diff)
  | duplicate => none
  | unresolvable => none

/-! ### Records handed out once -/

/-- The id of a request or a close notice of the agent extension. -/
def HostEvent.agentRecordId : HostEvent → Option ℕ
  | agentRequest id _ _ => some id
  | agentClose id _ _ => some id
  | _ => none

/-- Keeps the events whose id has not been seen, and the ids seen after them. -/
def deduplicate (idOf : HostEvent → Option ℕ) :
    List ℕ → List HostEvent → List HostEvent × List ℕ
  | seen, [] => ([], seen)
  | seen, event :: events =>
    match idOf event with
    | none => ((event :: (deduplicate idOf seen events).1), (deduplicate idOf seen events).2)
    | some id =>
      if id ∈ seen then deduplicate idOf seen events
      else
        (event :: (deduplicate idOf (id :: seen) events).1,
          (deduplicate idOf (id :: seen) events).2)

/-! ### What a new state does -/

namespace TransportReceiver

variable {r : TransportReceiver}

theorem mem_push {num n : ℕ} : n ∈ (r.push num).received ↔ n = num ∨ n ∈ r.received := by
  conv_rhs => rw [← List.takeWhile_append_dropWhile (p := (· < num)) (l := r.received)]
  simp only [push, List.mem_append, List.mem_cons]
  tauto

theorem mem_forget {oldNum throwawayNum n : ℕ} (hold : oldNum ∈ r.received)
    (h : n ∈ (r.forget oldNum throwawayNum).received) : n ∈ r.received := by
  simp only [forget] at h
  split_ifs at h
  · rwa [List.mem_singleton.mp h]
  · exact List.mem_of_mem_filter h

/-- A state is taken only if its base is held, and becomes one of those held. -/
theorem process_cases (r : TransportReceiver) (now : ℕ) (ti : Instruction) :
    ((r.process now ti).1.state = none ∧
        ∀ n ∈ (r.process now ti).2.received, n ∈ r.received) ∨
      ((r.process now ti).1.state = some (ti.newNum, ti.diff) ∧ ti.oldNum ∈ r.received ∧
        ∀ n ∈ (r.process now ti).2.received, n = ti.newNum ∨ n ∈ r.received) := by
  rw [process]
  split_ifs with hdup hold
  · exact .inl ⟨rfl, fun n hn => hn⟩
  · dsimp only
    split_ifs with hquench hfull hlatest hlatest
    · exact .inl ⟨rfl, fun n hn => mem_forget hold hn⟩
    all_goals
      refine .inr ⟨rfl, hold, fun n hn => ?_⟩
      exact (mem_push.mp hn).imp_right fun hn => mem_forget hold hn
  · exact .inl ⟨rfl, fun n hn => hn⟩

end TransportReceiver

section Deduplicate

variable {idOf : HostEvent → Option ℕ}

theorem deduplicate_sublist (seen : List ℕ) (events : List HostEvent) :
    (deduplicate idOf seen events).1.Sublist events := by
  induction events generalizing seen with
  | nil => exact List.nil_sublist []
  | cons e events ih =>
    rw [deduplicate]
    split
    · exact (ih seen).cons_cons e
    · split
      · exact (ih seen).cons e
      · exact (ih _).cons_cons e

variable {seen : List ℕ} {events : List HostEvent}

/-- The ids seen are those seen before and those handed out. -/
theorem mem_seen_deduplicate {id : ℕ} :
    id ∈ (deduplicate idOf seen events).2 ↔
      id ∈ seen ∨ id ∈ (deduplicate idOf seen events).1.filterMap idOf := by
  induction events generalizing seen with
  | nil => simp [deduplicate]
  | cons e events ih =>
    rw [deduplicate]
    split
    · next hnone => simp [hnone, ih]
    · next id' hsome =>
      split
      · exact ih
      · simp only [List.filterMap_cons, hsome, ih, List.mem_cons]
        tauto

/-- No id is handed out that was seen, and none twice. -/
theorem nodup_deduplicate (idOf : HostEvent → Option ℕ) (seen : List ℕ) (events : List HostEvent) :
    ((deduplicate idOf seen events).1.filterMap idOf).Nodup ∧
      ∀ id ∈ (deduplicate idOf seen events).1.filterMap idOf, id ∉ seen := by
  induction events generalizing seen with
  | nil => simp [deduplicate]
  | cons e events ih =>
    rw [deduplicate]
    split
    · next hnone => simpa [List.filterMap_cons, hnone] using ih seen
    · next id' hsome =>
      split
      · exact ih seen
      · next hnew =>
        obtain ⟨hnodup, hseen⟩ := ih (id' :: seen)
        simp only [List.filterMap_cons, hsome, List.nodup_cons]
        refine ⟨⟨fun hmem => hseen id' hmem List.mem_cons_self, hnodup⟩, fun id hid => ?_⟩
        rcases List.mem_cons.mp hid with rfl | hid
        · exact hnew
        · exact fun hmem => hseen id hid (List.mem_cons_of_mem id' hmem)

/-- The id of every event is seen then. -/
theorem mem_seen_of_mem {e : HostEvent} {id : ℕ} (h : e ∈ events) (hid : idOf e = some id) :
    id ∈ (deduplicate idOf seen events).2 := by
  induction events generalizing seen with
  | nil => simp at h
  | cons e' events ih =>
    rw [deduplicate]
    rcases List.mem_cons.mp h with rfl | h
    · simp only [hid]
      split
      · next hseen => exact mem_seen_deduplicate.mpr (.inl hseen)
      · exact mem_seen_deduplicate.mpr (.inl List.mem_cons_self)
    · split
      · exact ih h
      · split
        · exact ih h
        · exact ih h

/-- An event without an id is always handed out. -/
theorem mem_deduplicate_of_none {e : HostEvent} (h : e ∈ events) (hid : idOf e = none) :
    e ∈ (deduplicate idOf seen events).1 := by
  induction events generalizing seen with
  | nil => simp at h
  | cons e' events ih =>
    rw [deduplicate]
    rcases List.mem_cons.mp h with rfl | h
    · simp [hid]
    · split
      · exact List.mem_cons_of_mem e' (ih h)
      · split
        · exact ih h
        · exact List.mem_cons_of_mem e' (ih h)

end Deduplicate

end Zetta.MoshRs
