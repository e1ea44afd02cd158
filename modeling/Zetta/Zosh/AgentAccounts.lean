import Mathlib
import Zetta.Zosh.AgentBridge

/-!
# The accounts of the agent bridge

The bridge counts the requests it has sent to workers and not seen a result for. Two things
take a request off the count: the result of its worker and the end of its connection.

* **Where they do not overlap** the count is right: as long as no connection is dropped that
  has requests outstanding (`AgentSystem.KeepsUnanswered`), the count is the sum over the
  connections and the number of requests in workers and in the results channel, no
  subtraction goes below zero, and no more than `MAX_OUTSTANDING` requests are in workers
  (`accounts_of_run`).
* **Where they do**, the worker of the dropped connection still reports, and its requests are
  taken off twice (`counted_twice_after_close`).
-/

namespace Zetta.Zosh

open List

universe u

/-! ### Sums over a list with one element changed -/

private theorem getElem?_set_worker {α : Type u} {l : List α} {i : ℕ} {a b : α}
    (h : l[i]? = some a) (j : ℕ) : (l.set i b)[j]? = if i = j then some b else l[j]? := by
  obtain ⟨hi, -⟩ := List.getElem?_eq_some_iff.mp h
  rw [getElem?_set]
  simp [hi]

private theorem sum_map_set {α : Type u} (f : α → ℕ) {l : List α} {i : ℕ} {a b : α}
    (h : l[i]? = some a) : ((l.set i b).map f).sum + f a = (l.map f).sum + f b := by
  induction l generalizing i with
  | nil => simp at h
  | cons c l ih =>
    cases i with
    | zero =>
      obtain rfl : c = a := by simpa using h
      simp only [set_cons_zero, map_cons, sum_cons]
      omega
    | succ i =>
      have := ih (i := i) (by simpa using h)
      simp only [set_cons_succ, map_cons, sum_cons]
      omega

/-! ### What is counted -/

namespace Outcome

/-- The connection a result is for. -/
def connectionId (o : Outcome) : ℕ :=
  match o.result with
  | .response c _ _ => c
  | .closed c _ _ => c

/-- The result says that the worker has failed. -/
def IsClosed (o : Outcome) : Prop :=
  match o.result with
  | .response .. => False
  | .closed .. => True

/-- How many requests a result settles: its own, and those lost with its worker. -/
def weight (o : Outcome) : ℕ :=
  match o.result with
  | .response .. => 1
  | .closed .. => 1 + o.lost.length

theorem weight_pos (o : Outcome) : 0 < o.weight := by
  unfold weight
  split <;> omega

end Outcome

namespace AgentSystem

/-- The requests in the workers. -/
def inFlight (s : AgentSystem) : ℕ := (s.workers.map Worker.inFlight).sum

/-- The requests settled by the results in the channel. -/
def unseen (s : AgentSystem) : ℕ := (s.results.map Outcome.weight).sum

/-- The requests of one connection settled by the results in the channel. -/
def unseenOf (s : AgentSystem) (c : ℕ) : ℕ :=
  ((s.results.filter (·.connectionId = c)).map Outcome.weight).sum

/-- The count the bridge keeps of a connection. -/
def outstandingOf (s : AgentSystem) (c : ℕ) : ℕ :=
  ((s.bridge.connections.get? c).map Connection.outstanding).getD 0

/-- The worker takes another request. -/
def Accepts (s : AgentSystem) (worker : ℕ) : Prop :=
  ∃ w ∈ s.workers[worker]?, ∃ current queue,
    w.state = .running current queue ∧ queue.length < WORK_QUEUE_DEPTH

instance (s : AgentSystem) (worker : ℕ) : Decidable (s.Accepts worker) :=
  decidable_of_iff
    ((s.workers[worker]?.any fun w => match w.state with
      | .running _ queue => queue.length < WORK_QUEUE_DEPTH
      | .stopped => false) = true) (by
    unfold Accepts
    cases s.workers[worker]? with
    | none => simp
    | some w => cases hstate : w.state <;> simp [hstate])

/-- **The step drops no connection with requests outstanding**: it does not close one, and
sends no request to one whose worker has stopped or has a full queue. -/
def KeepsUnanswered (s : AgentSystem) : AgentAction → Prop
  | .event (.agentClose _ c _) _ => s.bridge.enabled → s.outstandingOf c = 0
  | .event (.agentRequest _ c frame) _ =>
    s.bridge.enabled ∧ s.bridge.negotiated ∧ validFrame frame ∧
        s.bridge.outstanding < MAX_OUTSTANDING →
      ∀ k ∈ s.bridge.connections.get? c, k.outstanding = 0 ∨ s.Accepts k.worker
  | _ => True

instance (s : AgentSystem) : (a : AgentAction) → Decidable (s.KeepsUnanswered a)
  | .event (.agentClose _ c _) _ =>
    inferInstanceAs (Decidable (s.bridge.enabled → s.outstandingOf c = 0))
  | .event (.agentRequest _ c frame) _ =>
    inferInstanceAs (Decidable (s.bridge.enabled ∧ s.bridge.negotiated ∧ validFrame frame ∧
        s.bridge.outstanding < MAX_OUTSTANDING →
      ∀ k ∈ s.bridge.connections.get? c, k.outstanding = 0 ∨ s.Accepts k.worker))
  | .event (.agentReady ..) _ => isTrue trivial
  | .clock _ => isTrue trivial
  | .drain => isTrue trivial
  | .take _ => isTrue trivial
  | .reply .. => isTrue trivial
  | .fail .. => isTrue trivial

/-- **The books of the bridge**: its count in all, against the connections and against the
requests without a result; and what ties a connection to its worker and its results. -/
structure Books (s : AgentSystem) : Prop where
  total : s.bridge.outstanding = s.bridge.connections.sumBy Connection.outstanding
  unanswered : s.bridge.outstanding = s.inFlight + s.unseen
  bound : s.bridge.outstanding ≤ MAX_OUTSTANDING
  connection : ∀ c k, s.bridge.connections.get? c = some k →
    ∃ w, s.workers[k.worker]? = some w ∧ w.connectionId = c ∧
      k.outstanding = w.inFlight + s.unseenOf c
  worker : ∀ i w, s.workers[i]? = some w → 0 < w.inFlight →
    ∃ k, s.bridge.connections.get? w.connectionId = some k ∧ k.worker = i
  result : ∀ o ∈ s.results, ∃ k, s.bridge.connections.get? o.connectionId = some k
  last : s.results.Pairwise fun o p => o.IsClosed → p.connectionId ≠ o.connectionId
  stopped : ∀ o ∈ s.results, o.IsClosed →
    ∀ k w, s.bridge.connections.get? o.connectionId = some k → s.workers[k.worker]? = some w →
      w.state = .stopped

theorem weight_le_unseenOf {s : AgentSystem} {o : Outcome} (h : o ∈ s.results) :
    o.weight ≤ s.unseenOf o.connectionId :=
  le_sum_of_mem (mem_map_of_mem (mem_filter.mpr ⟨h, by simp⟩))

theorem inFlight_of_stopped {w : Worker} (h : w.state = .stopped) : w.inFlight = 0 := by
  simp [Worker.inFlight, h]

namespace Books

variable {s s' : AgentSystem}

theorem new (b : AgentBridge) (hc : b.connections = .empty) (ho : b.outstanding = 0) :
    (AgentSystem.new b).Books where
  total := by simp [AgentSystem.new, hc, ho, OrdMap.sumBy]
  unanswered := by simp [AgentSystem.new, ho, inFlight, unseen]
  bound := by simp [AgentSystem.new, ho]
  connection c k h := by simp [AgentSystem.new, hc, OrdMap.get?] at h
  worker i w h := by simp [AgentSystem.new] at h
  result o h := by simp [AgentSystem.new] at h
  last := .nil
  stopped o h := by simp [AgentSystem.new] at h

/-- The books are about the connections, the count, the workers and the results only. -/
theorem congr (h : s.Books) (hc : s'.bridge.connections = s.bridge.connections)
    (ho : s'.bridge.outstanding = s.bridge.outstanding) (hw : s'.workers = s.workers)
    (hr : s'.results = s.results) : s'.Books := by
  obtain ⟨h₁, h₂, h₃, h₄, h₅, h₆, h₇, h₈⟩ := h
  constructor <;> simp only [inFlight, unseen, unseenOf, hc, ho, hw, hr] at * <;> assumption

theorem refuse (h : s.Books) (c id : ℕ) (message : Option String) :
    (s.refuse c id message).Books := by
  cases message <;> exact h.congr rfl rfl rfl rfl

variable {c : ℕ}

/-- Dropping a connection without requests outstanding. -/
theorem abort (h : s.Books) (h₀ : s.outstandingOf c = 0) :
    { s with bridge := s.bridge.abortConnection c }.Books := by
  cases hk : s.bridge.connections.get? c with
  | none =>
    rw [show s.bridge.abortConnection c = s.bridge by simp [AgentBridge.abortConnection, hk]]
    exact h
  | some k =>
    have hk₀ : k.outstanding = 0 := by simpa [outstandingOf, hk] using h₀
    obtain ⟨w, hw, rfl, hcount⟩ := h.connection c k hk
    have hbridge : s.bridge.abortConnection w.connectionId =
        { s.bridge with connections := s.bridge.connections.erase w.connectionId } := by
      simp [AgentBridge.abortConnection, hk, hk₀]
    rw [hbridge]
    have hres : ∀ o ∈ s.results, o.connectionId ≠ w.connectionId := by
      intro o ho heq
      have := weight_le_unseenOf ho
      have := o.weight_pos
      rw [heq] at *
      omega
    constructor
    · rw [h.total, OrdMap.sumBy_eq_of_get? _ hk, hk₀]
      rfl
    · exact h.unanswered
    · exact h.bound
    · intro c' k' hk'
      rw [OrdMap.get?_erase] at hk'
      split_ifs at hk'
      exact h.connection c' k' hk'
    · intro i v hv hpos
      obtain ⟨k', hk', hi⟩ := h.worker i v hv hpos
      refine ⟨k', ?_, hi⟩
      rw [OrdMap.get?_erase, if_neg, hk']
      intro heq
      -- the worker in flight would be the one of the dropped connection
      rw [heq, hk] at hk'
      cases hk'
      rw [← hi, hw] at hv
      cases hv
      omega
    · intro o ho
      obtain ⟨k', hk'⟩ := h.result o ho
      exact ⟨k', by rw [OrdMap.get?_erase, if_neg (hres o ho), hk']⟩
    · exact h.last
    · intro o ho hclosed k' v hk' hv
      rw [OrdMap.get?_erase, if_neg (hres o ho)] at hk'
      exact h.stopped o ho hclosed k' v hk' hv

/-- A connection that is new, with a worker that has no request yet. -/
theorem connect (h : s.Books) (hc : s.bridge.connections.get? c = none) (spawned : Bool) :
    (s.connect c spawned).Books := by
  have hres : ∀ o ∈ s.results, o.connectionId ≠ c := by
    intro o ho heq
    obtain ⟨k, hk⟩ := h.result o ho
    simp [heq, hc] at hk
  have hunseen : s.unseenOf c = 0 := by
    rw [unseenOf, filter_eq_nil_iff.mpr (by simpa using hres)]
    rfl
  have hnew : (Worker.mk c (if spawned then .running none [] else .stopped)).inFlight = 0 := by
    cases spawned <;> rfl
  have hget : ∀ (i : ℕ) (w : Worker), s.workers[i]? = some w →
      (s.connect c spawned).workers[i]? = some w := by
    intro i w hw
    obtain ⟨hi, -⟩ := List.getElem?_eq_some_iff.mp hw
    rw [← hw]
    exact getElem?_append_left hi
  constructor
  · show s.bridge.outstanding = (s.bridge.connections.insert c _).sumBy _
    rw [OrdMap.sumBy_insert, OrdMap.erase_of_get?_eq_none hc, h.total]
    rfl
  · rw [show (s.connect c spawned).inFlight = s.inFlight by
      simp only [inFlight, AgentSystem.connect, map_append, map_cons, map_nil,
        sum_append, sum_cons, sum_nil, hnew, Nat.add_zero]]
    exact h.unanswered
  · exact h.bound
  · intro c' k hk
    change (s.bridge.connections.insert c _).get? c' = some k at hk
    rw [OrdMap.get?_insert] at hk
    split_ifs at hk with heq
    · cases hk
      refine ⟨⟨c, if spawned then .running none [] else .stopped⟩, ?_, heq.symm, ?_⟩
      · exact getElem?_concat_length
      · rw [hnew, heq, Nat.zero_add]
        exact hunseen.symm
    · obtain ⟨w, hw, hwc, hcount⟩ := h.connection c' k hk
      exact ⟨w, hget _ _ hw, hwc, hcount⟩
  · intro i w hw hpos
    rcases Nat.lt_or_ge i s.workers.length with hi | hi
    · have hw' : s.workers[i]? = some w := (getElem?_append_left hi).symm.trans hw
      obtain ⟨k, hk, rfl⟩ := h.worker i w hw' hpos
      refine ⟨k, ?_, rfl⟩
      show (s.bridge.connections.insert c _).get? w.connectionId = some k
      rw [OrdMap.get?_insert, if_neg, hk]
      intro heq
      simp [heq, hc] at hk
    · have hw' := (getElem?_append_right hi).symm.trans hw
      obtain rfl : w = _ := (mem_singleton.mp (mem_of_getElem? hw'))
      omega
  · intro o ho
    obtain ⟨k, hk⟩ := h.result o ho
    refine ⟨k, ?_⟩
    show (s.bridge.connections.insert c _).get? o.connectionId = some k
    rw [OrdMap.get?_insert, if_neg (hres o ho), hk]
  · exact h.last
  · intro o ho hclosed k w hk hw
    change (s.bridge.connections.insert c _).get? o.connectionId = some k at hk
    rw [OrdMap.get?_insert, if_neg (hres o ho)] at hk
    obtain ⟨v, hv, -, -⟩ := h.connection _ k hk
    obtain rfl := Option.some.inj ((hget _ _ hv).symm.trans hw)
    exact h.stopped o ho hclosed k v hk hv

/-- A request that goes to the worker of its connection. -/
theorem queue (h : s.Books) {k : Connection} {w : Worker} {current : Option Work}
    {queue : List Work} (work : Work) (hk : s.bridge.connections.get? c = some k)
    (hw : s.workers[k.worker]? = some w) (hstate : w.state = .running current queue)
    (hlt : s.bridge.outstanding < MAX_OUTSTANDING) :
    { s with
      bridge := s.bridge.queued c
      workers := s.workers.set k.worker { w with state := .running current (queue ++ [work]) }
    }.Books := by
  obtain ⟨v, hv, rfl, hcount⟩ := h.connection c k hk
  obtain rfl := Option.some.inj (hv.symm.trans hw)
  have hbridge : s.bridge.queued v.connectionId =
      { s.bridge with
        connections := s.bridge.connections.insert v.connectionId
          { k with outstanding := k.outstanding + 1 }
        outstanding := s.bridge.outstanding + 1 } := by
    simp [AgentBridge.queued, hk]
  set v' : Worker := { v with state := .running current (queue ++ [work]) } with hv'
  have hflight : v'.inFlight = v.inFlight + 1 := by
    simp only [Worker.inFlight, hstate, hv', length_append, length_singleton]
    omega
  rw [hbridge]
  constructor
  · show s.bridge.outstanding + 1 = (s.bridge.connections.insert _ _).sumBy _
    rw [OrdMap.sumBy_insert, h.total, OrdMap.sumBy_eq_of_get? _ hk]
    simp only
    omega
  · show s.bridge.outstanding + 1 = ((s.workers.set k.worker v').map Worker.inFlight).sum + s.unseen
    have hsum := sum_map_set Worker.inFlight (b := v') hv
    have := h.unanswered
    simp only [inFlight] at this
    omega
  · exact hlt
  · intro c' k' hk'
    simp only [OrdMap.get?_insert] at hk'
    simp only [getElem?_set_worker hv]
    split_ifs at hk' with heq
    · cases hk'
      refine ⟨v', by simp, heq.symm, ?_⟩
      show k.outstanding + 1 = v'.inFlight + s.unseenOf c'
      rw [heq]
      omega
    · obtain ⟨u, hu, huc, hcount'⟩ := h.connection c' k' hk'
      refine ⟨u, ?_, huc, hcount'⟩
      rw [if_neg, hu]
      intro hsame
      rw [← hsame, hv] at hu
      cases hu
      exact heq huc.symm
  · intro i u hu hpos
    simp only [getElem?_set_worker hv] at hu
    simp only [OrdMap.get?_insert]
    split_ifs at hu with hi
    · cases hu
      exact ⟨{ k with outstanding := k.outstanding + 1 }, by simp [hv'], hi⟩
    · obtain ⟨k', hk', hi'⟩ := h.worker i u hu hpos
      refine ⟨k', ?_, hi'⟩
      rw [if_neg, hk']
      intro heq
      rw [heq, hk] at hk'
      cases hk'
      exact hi hi'
  · intro o ho
    obtain ⟨k', hk'⟩ := h.result o ho
    simp only [OrdMap.get?_insert]
    split_ifs
    · exact ⟨_, rfl⟩
    · exact ⟨k', hk'⟩
  · exact h.last
  · intro o ho hclosed k' u hk' hu
    simp only [OrdMap.get?_insert] at hk'
    simp only [getElem?_set_worker hv] at hu
    split_ifs at hk' with heq
    · have := h.stopped o ho hclosed k v (heq ▸ hk) hv
      simp [hstate] at this
    · obtain ⟨u', hu', huc, -⟩ := h.connection _ k' hk'
      split_ifs at hu with hi
      · rw [← hi, hv] at hu'
        cases hu'
        exact absurd huc.symm heq
      · exact h.stopped o ho hclosed k' u hk' hu

/-- A worker with requests goes on in another state, with what it reports. -/
theorem setWorker (h : s.Books) {i : ℕ} {w w' : Worker} {reports : List Outcome}
    (hw : s.workers[i]? = some w) (hpos : 0 < w.inFlight)
    (hid : w'.connectionId = w.connectionId)
    (hcount : w'.inFlight + (reports.map Outcome.weight).sum = w.inFlight)
    (hreports : reports.length ≤ 1) (hids : ∀ o ∈ reports, o.connectionId = w.connectionId)
    (hclosed : ∀ o ∈ reports, o.IsClosed → w'.state = .stopped) :
    { s with workers := s.workers.set i w', results := s.results ++ reports }.Books := by
  obtain ⟨k, hk, rfl⟩ := h.worker i w hw hpos
  have hopen : ∀ o ∈ s.results, o.IsClosed → o.connectionId ≠ w.connectionId := by
    intro o ho hoc heq
    have := inFlight_of_stopped (h.stopped o ho hoc k w (heq ▸ hk) hw)
    omega
  have hunseen : ∀ c, AgentSystem.unseenOf
      { s with workers := s.workers.set k.worker w', results := s.results ++ reports } c =
        s.unseenOf c + if c = w.connectionId then (reports.map Outcome.weight).sum else 0 := by
    intro c
    simp only [unseenOf, filter_append, map_append, sum_append]
    congr 1
    split_ifs with heq
    · rw [filter_eq_self.mpr fun o ho => by simp [hids o ho, heq]]
    · rw [filter_eq_nil_iff.mpr fun o ho => by simpa [hids o ho] using Ne.symm heq]
      rfl
  constructor
  · exact h.total
  · have hsum := sum_map_set Worker.inFlight (b := w') hw
    have := h.unanswered
    simp only [inFlight, unseen, map_append, sum_append] at this ⊢
    omega
  · exact h.bound
  · intro c k' hk'
    rw [hunseen c]
    simp only [getElem?_set_worker hw]
    obtain ⟨u, hu, huc, hcount'⟩ := h.connection c k' hk'
    by_cases heq : c = w.connectionId
    · rw [heq] at hk'
      cases hk.symm.trans hk'
      cases hw.symm.trans hu
      exact ⟨w', by simp, hid.trans huc, by rw [if_pos heq]; omega⟩
    · refine ⟨u, ?_, huc, by rw [if_neg heq]; exact hcount'⟩
      rw [if_neg, hu]
      intro hsame
      rw [← hsame, hw] at hu
      cases hu
      exact heq huc.symm
  · intro j u hu hupos
    simp only [getElem?_set_worker hw] at hu
    split_ifs at hu with hj
    · cases hu
      exact ⟨k, by rw [hid]; exact hk, hj⟩
    · exact h.worker j u hu hupos
  · intro o ho
    rcases mem_append.mp ho with ho | ho
    · exact h.result o ho
    · exact ⟨k, by rw [hids o ho]; exact hk⟩
  · refine pairwise_append.mpr ⟨h.last, ?_, ?_⟩
    · match reports, hreports with
      | [], _ => exact .nil
      | [o], _ => exact pairwise_singleton _ o
    · intro o ho p hp hoc
      rw [hids p hp]
      exact (hopen o ho hoc).symm
  · intro o ho hoc k' u hk' hu
    simp only [getElem?_set_worker hw] at hu
    rcases mem_append.mp ho with ho | ho
    · split_ifs at hu with hi
      · -- the worker that goes on is not that of a connection closed before
        obtain ⟨u', hu', huc, -⟩ := h.connection _ k' hk'
        rw [← hi, hw] at hu'
        cases hu'
        exact absurd huc.symm (hopen o ho hoc)
      · exact h.stopped o ho hoc k' u hk' hu
    · rw [hids o ho] at hk'
      cases hk.symm.trans hk'
      rw [if_pos rfl] at hu
      cases hu
      exact hclosed o ho hoc

variable {rest : List Outcome} {o : Outcome}

/-- A reply that the bridge takes from the channel. -/
theorem answer (h : s.Books) (hr : s.results = o :: rest) (hopen : ¬ o.IsClosed) :
    { s with results := rest, bridge := s.bridge.answered o.connectionId }.Books := by
  obtain ⟨k, hk⟩ := h.result o (by simp [hr])
  obtain ⟨w, hw, hwc, hcount⟩ := h.connection _ k hk
  have hweight : o.weight = 1 := by
    unfold Outcome.IsClosed at hopen
    unfold Outcome.weight
    split <;> simp_all
  have hbridge : s.bridge.answered o.connectionId =
      { s.bridge with
        connections := s.bridge.connections.insert o.connectionId
          { k with outstanding := k.outstanding - 1 }
        outstanding := s.bridge.outstanding - 1 } := by
    simp [AgentBridge.answered, hk]
  rw [hbridge]
  have hunseen : ∀ c, s.unseenOf c =
      (if c = o.connectionId then 1 else 0) +
        ((rest.filter (·.connectionId = c)).map Outcome.weight).sum := by
    intro c
    rw [unseenOf, hr, filter_cons]
    by_cases heq : c = o.connectionId
    · simp [heq, hweight]
    · simp [heq, Ne.symm heq]
  have hself := hunseen o.connectionId
  rw [if_pos rfl] at hself
  have hle := OrdMap.le_sumBy Connection.outstanding hk
  constructor
  · show s.bridge.outstanding - 1 = (s.bridge.connections.insert _ _).sumBy _
    rw [OrdMap.sumBy_insert, h.total, OrdMap.sumBy_eq_of_get? _ hk]
    simp only
    omega
  · show s.bridge.outstanding - 1 = s.inFlight + (rest.map Outcome.weight).sum
    have := h.unanswered
    simp only [unseen, hr, map_cons, sum_cons, hweight] at this
    omega
  · exact (Nat.sub_le _ _).trans h.bound
  · intro c k' hk'
    simp only [OrdMap.get?_insert] at hk'
    split_ifs at hk' with heq
    · cases hk'
      refine ⟨w, hw, hwc.trans heq.symm, ?_⟩
      show k.outstanding - 1 = w.inFlight + ((rest.filter (·.connectionId = c)).map _).sum
      rw [heq]
      omega
    · obtain ⟨u, hu, huc, hcount'⟩ := h.connection c k' hk'
      rw [hunseen c, if_neg heq, Nat.zero_add] at hcount'
      exact ⟨u, hu, huc, hcount'⟩
  · intro i u hu hpos
    obtain ⟨k', hk', rfl⟩ := h.worker i u hu hpos
    simp only [OrdMap.get?_insert]
    split_ifs with heq
    · rw [heq] at hk'
      cases hk.symm.trans hk'
      exact ⟨_, rfl, rfl⟩
    · exact ⟨k', hk', rfl⟩
  · intro p hp
    obtain ⟨k', hk'⟩ := h.result p (by simp [hr, show p ∈ rest from hp])
    simp only [OrdMap.get?_insert]
    split_ifs
    · exact ⟨_, rfl⟩
    · exact ⟨k', hk'⟩
  · exact (pairwise_cons.mp (hr ▸ h.last)).2
  · intro p hp hclosed k' u hk' hu
    have hp' : p ∈ s.results := by simp [hr, show p ∈ rest from hp]
    simp only [OrdMap.get?_insert] at hk'
    split_ifs at hk' with heq
    · cases hk'
      exact h.stopped p hp' hclosed k u (heq ▸ hk) hu
    · exact h.stopped p hp' hclosed k' u hk' hu

/-- The report of a failure that the bridge takes from the channel: it is all that the
connection still had outstanding. -/
theorem close (h : s.Books) (hr : s.results = o :: rest) (hclosed : o.IsClosed) (error : String) :
    { s with results := rest, bridge := s.bridge.closed o.connectionId error }.Books := by
  obtain ⟨k, hk⟩ := h.result o (by simp [hr])
  obtain ⟨w, hw, hwc, hcount⟩ := h.connection _ k hk
  have hlast := pairwise_cons.mp (hr ▸ h.last)
  have hothers : ∀ p ∈ rest, p.connectionId ≠ o.connectionId := fun p hp => hlast.1 p hp hclosed
  have hw₀ := inFlight_of_stopped (h.stopped o (by simp [hr]) hclosed k w hk hw)
  have hunseen : s.unseenOf o.connectionId = o.weight := by
    rw [unseenOf, hr, filter_cons, if_pos (by simp),
      filter_eq_nil_iff.mpr (by simpa using hothers)]
    simp
  have hpos := o.weight_pos
  have hle := OrdMap.le_sumBy Connection.outstanding hk
  have hconn : (s.bridge.closed o.connectionId error).connections =
      s.bridge.connections.erase o.connectionId := rfl
  have hout : (s.bridge.closed o.connectionId error).outstanding =
      s.bridge.outstanding - o.weight := by
    show s.bridge.outstanding - 1 - ((s.bridge.connections.get? _).map _).getD 0 = _
    rw [hk]
    simp only [Option.map_some, Option.getD_some]
    omega
  have htotal := h.total
  have hunanswered := h.unanswered
  constructor
  · rw [hout, hconn, h.total, OrdMap.sumBy_eq_of_get? _ hk]
    omega
  · rw [hout]
    show s.bridge.outstanding - o.weight = s.inFlight + (rest.map Outcome.weight).sum
    simp only [unseen, hr, map_cons, sum_cons] at hunanswered
    omega
  · rw [hout]
    exact (Nat.sub_le _ _).trans h.bound
  · intro c k' hk'
    rw [hconn, OrdMap.get?_erase] at hk'
    split_ifs at hk' with heq
    obtain ⟨u, hu, huc, hcount'⟩ := h.connection c k' hk'
    refine ⟨u, hu, huc, ?_⟩
    rwa [unseenOf, hr, filter_cons, if_neg (by simpa using Ne.symm heq)] at hcount'
  · intro i u hu hupos
    obtain ⟨k', hk', rfl⟩ := h.worker i u hu hupos
    refine ⟨k', ?_, rfl⟩
    rw [hconn, OrdMap.get?_erase, if_neg, hk']
    intro heq
    rw [heq, hk] at hk'
    cases hk'
    cases hw.symm.trans hu
    omega
  · intro p hp
    obtain ⟨k', hk'⟩ := h.result p (by simp [hr, show p ∈ rest from hp])
    exact ⟨k', by rw [hconn, OrdMap.get?_erase, if_neg (hothers p hp), hk']⟩
  · exact hlast.2
  · intro p hp hpc k' u hk' hu
    rw [hconn, OrdMap.get?_erase, if_neg (hothers p hp)] at hk'
    exact h.stopped p (by simp [hr, show p ∈ rest from hp]) hpc k' u hk' hu

/-! ### One step -/

/-- A request sent to its worker, or the connection dropped where nothing is outstanding. -/
theorem send (h : s.Books) {k : Connection} (work : Work)
    (hk : s.bridge.connections.get? c = some k) (hkeep : k.outstanding = 0 ∨ s.Accepts k.worker)
    (hlt : s.bridge.outstanding < MAX_OUTSTANDING) : (s.send c k.worker work).Books := by
  have hdrop : k.outstanding = 0 →
      { s with bridge := s.bridge.abortConnection c }.Books := fun h₀ =>
    h.abort (by simp [outstandingOf, hk, h₀])
  obtain ⟨w, hw, -, -⟩ := h.connection c k hk
  unfold AgentSystem.send
  cases hstate : w.state with
  | stopped =>
    have h₀ : k.outstanding = 0 := hkeep.resolve_right (by
      rintro ⟨w', hw', current, queue, hw'state, -⟩
      cases hw.symm.trans hw'
      simp [hstate] at hw'state)
    rw [show s.workers[k.worker]?.bind (Worker.trySend · work) = none by
      simp [hw, Worker.trySend, hstate]]
    exact (hdrop h₀).refuse c work.requestId none
  | running current queue =>
    by_cases hfull : queue.length < WORK_QUEUE_DEPTH
    · rw [show s.workers[k.worker]?.bind (Worker.trySend · work) =
          some (some { w with state := .running current (queue ++ [work]) }) by
        simp [hw, Worker.trySend, hstate, hfull]]
      exact h.queue work hk hw hstate hlt
    · have h₀ : k.outstanding = 0 := hkeep.resolve_right (by
        rintro ⟨w', hw', current', queue', hw'state, hlen⟩
        cases hw.symm.trans hw'
        rw [hstate] at hw'state
        cases hw'state
        exact hfull hlen)
      rw [show s.workers[k.worker]?.bind (Worker.trySend · work) = some none by
        simp [hw, Worker.trySend, hstate, hfull]]
      exact (hdrop h₀).refuse c work.requestId _

variable {spawned : Bool}

theorem agentRequest (h : s.Books) {id : ℕ} {frame : List UInt8} (henabled : s.bridge.enabled)
    (hkeep : s.KeepsUnanswered (.event (.agentRequest id c frame) spawned)) :
    (s.agentRequest id c frame spawned).Books := by
  have hkeep' : ¬ s.bridge.negotiated = false → ¬ validFrame frame = false →
      ¬ MAX_OUTSTANDING ≤ s.bridge.outstanding →
      ∀ k ∈ s.bridge.connections.get? c, k.outstanding = 0 ∨ s.Accepts k.worker :=
    fun hneg hvalid hmax => hkeep ⟨henabled, by simpa using hneg, by simpa using hvalid,
      not_le.mp hmax⟩
  unfold AgentSystem.agentRequest
  cases hk : s.bridge.connections.get? c with
  | some k =>
    simp only
    split_ifs with hneg hvalid hmax
    · exact h
    · exact h.refuse c id _
    · exact h.refuse c id _
    · exact h.send ⟨id, frame⟩ hk (hkeep' hneg hvalid hmax k hk) (not_le.mp hmax)
  | none =>
    simp only
    split_ifs with hneg hvalid hmax
    · exact h
    · exact h.refuse c id _
    · exact h.refuse c id _
    · exact h.refuse c id _
    · exact h.refuse c id _
    · refine (h.connect hk spawned).send (k := ⟨s.workers.length, 0⟩) ⟨id, frame⟩ ?_ (.inl rfl)
        (not_le.mp hmax)
      exact (OrdMap.get?_insert ..).trans (if_pos rfl)

theorem processEvent (h : s.Books) {event : HostEvent} (henabled : s.bridge.enabled)
    (hkeep : s.KeepsUnanswered (.event event spawned)) : (s.processEvent spawned event).Books := by
  cases event with
  | agentReady supported error =>
    cases supported <;> cases error <;> exact h.congr rfl rfl rfl rfl
  | agentRequest id c frame => exact h.agentRequest henabled hkeep
  | agentClose id c error => exact h.abort (hkeep henabled)

theorem drain (h : s.Books) (hr : s.results = o :: rest) :
    ({ s with results := rest }.receive o.result).Books := by
  cases ho : o.result with
  | response c id frame =>
    have := h.answer hr (by simp [Outcome.IsClosed, ho])
    rw [show o.connectionId = c by simp [Outcome.connectionId, ho]] at this
    exact this.congr rfl rfl rfl rfl
  | closed c id error =>
    have := h.close hr (by simp [Outcome.IsClosed, ho]) error
    rw [show o.connectionId = c by simp [Outcome.connectionId, ho]] at this
    exact this.congr rfl rfl rfl rfl

theorem report (h : s.Books) {i : ℕ} {w w' : Worker} (hstep : s.report i w' o = .ok s')
    (hw : s.workers[i]? = some w) (hcount : w'.inFlight + o.weight = w.inFlight)
    (hid : w'.connectionId = w.connectionId) (ho : o.connectionId = w.connectionId)
    (hclosed : o.IsClosed → w'.state = .stopped) : s'.Books := by
  unfold AgentSystem.report at hstep
  split_ifs at hstep
  cases hstep
  have hpos := o.weight_pos
  exact h.setWorker hw (by omega) hid (by simpa using hcount) le_rfl (by simpa using ho)
    (by simpa using hclosed)

/-- **The books balance after every step** that drops no connection with requests
outstanding. -/
theorem step (h : s.Books) {a : AgentAction} (hkeep : s.KeepsUnanswered a)
    (hstep : s.step a = .ok s') : s'.Books := by
  cases a with
  | event event spawned =>
    cases hstep
    split_ifs with henabled
    · exact h.processEvent henabled hkeep
    · exact h
  | clock now =>
    cases hstep
    refine h.congr ?_ ?_ rfl rfl <;>
    · unfold AgentBridge.negotiationTimedOut
      split
      · split_ifs <;> rfl
      · rfl
  | drain =>
    simp only [AgentSystem.step] at hstep
    split at hstep
    · cases hstep
    · next o rest hr =>
      cases hstep
      exact h.drain hr
  | take i =>
    simp only [AgentSystem.step] at hstep
    split at hstep
    · next c work queue hw =>
      cases hstep
      have hflight : ∀ q, (Worker.mk c (.running none (work :: q))).inFlight =
          (Worker.mk c (.running (some work) q)).inFlight := fun q => by
        simp only [Worker.inFlight, Option.toList, length_cons, length_nil]
        omega
      have := @setWorker s h i _ ⟨c, .running (some work) queue⟩ [] hw
        (by simp [Worker.inFlight]) rfl (by simp [hflight]) (by simp) (by simp)
        (by simp)
      exact this.congr rfl rfl rfl (by simp)
    · cases hstep
  | reply i frame =>
    simp only [AgentSystem.step] at hstep
    split at hstep
    · next c work queue hw =>
      refine h.report hstep hw ?_ rfl rfl (fun hclosed => hclosed.elim)
      simp only [Worker.inFlight, Outcome.weight, Option.toList, length_cons, length_nil]
      omega
    · cases hstep
  | fail i error =>
    simp only [AgentSystem.step] at hstep
    split at hstep
    · next c work queue hw =>
      refine h.report hstep hw ?_ rfl rfl fun _ => rfl
      simp only [Worker.inFlight, Outcome.weight, Option.toList, length_cons, length_nil]
      omega
    · cases hstep

end Books

/-! ### Whole runs -/

/-- No subtraction that the next event or result can ask for goes below zero: each connection
has no more outstanding than there is in all, and every result in the channel belongs to a
connection with something outstanding. -/
def Covered (s : AgentSystem) : Prop :=
  (∀ c k, s.bridge.connections.get? c = some k → k.outstanding ≤ s.bridge.outstanding) ∧
  ∀ o ∈ s.results, ∃ k, s.bridge.connections.get? o.connectionId = some k ∧ 1 ≤ k.outstanding

theorem Books.covered {s : AgentSystem} (h : s.Books) : s.Covered := by
  refine ⟨fun c k hk => ?_, fun o ho => ?_⟩
  · rw [h.total]
    exact OrdMap.le_sumBy _ hk
  · obtain ⟨k, hk⟩ := h.result o ho
    obtain ⟨w, -, -, hcount⟩ := h.connection _ k hk
    have := weight_le_unseenOf ho
    have := o.weight_pos
    exact ⟨k, hk, by omega⟩

/-- **The accounts of the bridge.** In every run that drops no connection with requests
outstanding, in every state it reaches: the count is the sum of the counts of the connections;
it is the number of requests in workers and of those settled by a result in the channel, so
that it is zero when every request is answered; no subtraction goes below zero; and no more
than `MAX_OUTSTANDING` requests are in workers. -/
theorem accounts_of_run {requested : Bool} {path : Option String} {now : ℕ}
    {actions : List AgentAction} {s : AgentSystem}
    (hrun : Run (Meeting KeepsUnanswered (Succeeds step)) (.new (.withAgent requested path now))
      actions s) :
    s.bridge.outstanding = s.bridge.connections.sumBy Connection.outstanding ∧
    s.bridge.outstanding = s.inFlight + s.unseen ∧ s.Covered ∧ s.inFlight ≤ MAX_OUTSTANDING := by
  have hbooks : s.Books :=
    hrun.invariant (Books.new _ rfl rfl) fun _ _ _ h hn => h.step hn.1 hn.2
  have hbound := hbooks.bound
  have hunanswered := hbooks.unanswered
  exact ⟨hbooks.total, hunanswered, hbooks.covered, by omega⟩

/-- The empty agent frame. -/
def emptyFrame : List UInt8 := [0, 0, 0, 0]

/-- A request that its worker answers, one that fails, and another after it. -/
def answeredActions : List AgentAction :=
  [.event (.agentReady true none) true, .event (.agentRequest 1 7 emptyFrame) true,
    .event (.agentRequest 2 7 emptyFrame) true, .take 0, .reply 0 emptyFrame, .drain, .take 0,
    .event (.agentRequest 3 8 emptyFrame) true, .fail 0 "gone", .drain]

theorem accounts_of_answeredActions :
    ∃ s, Run (Meeting KeepsUnanswered (Succeeds step))
        (.new (.withAgent true (some "/agent") 0)) answeredActions s ∧
      s.bridge.outstanding = 1 ∧ s.inFlight = 1 ∧
      s.bridge.outstanding = s.bridge.connections.sumBy Connection.outstanding := by
  obtain ⟨s, hrun, hone, hflight⟩ := exists_run_of_guarded answeredActions
    (C := KeepsUnanswered) (f := step) (P := fun s => s.bridge.outstanding = 1 ∧ s.inFlight = 1)
    (s := .new (.withAgent true (some "/agent") 0)) (by decide +kernel)
  exact ⟨s, hrun, hone, hflight, (accounts_of_run hrun).1⟩

/-- Two connections with a request each; the first is closed while its worker has the request,
and the worker replies. -/
def closedActions : List AgentAction :=
  [.event (.agentReady true none) true, .event (.agentRequest 1 7 emptyFrame) true,
    .event (.agentRequest 2 8 emptyFrame) true, .take 0, .event (.agentClose 3 7 none) true,
    .reply 0 emptyFrame, .drain]

/-- As many requests as may be outstanding, over four connections; one of these is closed, and
another connection opens. -/
def overfullActions : List AgentAction :=
  .event (.agentReady true none) true ::
    (List.range MAX_OUTSTANDING).map (fun i => .event (.agentRequest i (i % 4) emptyFrame) true) ++
    [.event (.agentClose 64 0 none) true, .event (.agentRequest 65 4 emptyFrame) true]

/-- A late reply takes the request of a closed connection off the count a second time, and the
requests left in its worker are not counted against the limit. -/
theorem counted_twice_after_close :
    (∃ s, Run (Succeeds step) (.new (.withAgent true (some "/agent") 0)) closedActions s ∧
      s.bridge.outstanding = 0 ∧ s.inFlight = 1 ∧
      s.bridge.connections.sumBy Connection.outstanding = 1) ∧
    ∃ s, Run (Succeeds step) (.new (.withAgent true (some "/agent") 0)) overfullActions s ∧
      MAX_OUTSTANDING < s.inFlight := by
  have hrun : ∀ (actions : List AgentAction) (P : AgentSystem → Prop) [DecidablePred P],
      ((actions.foldlM (guarded (fun _ _ => True) step)
        (.new (.withAgent true (some "/agent") 0))).any fun t => decide (P t)) = true →
      ∃ s, Run (Succeeds step) (.new (.withAgent true (some "/agent") 0)) actions s ∧ P s := by
    intro actions P _ h
    obtain ⟨s, hs, hP⟩ := exists_run_of_guarded actions h
    exact ⟨s, hs.of_meeting, hP⟩
  exact ⟨hrun _ _ (by decide +kernel), hrun _ _ (by decide +kernel)⟩

end AgentSystem

end Zetta.Zosh
