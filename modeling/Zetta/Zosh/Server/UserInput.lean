import Zetta.Lib.Run
import Zetta.Zosh.Server.UserStreamRoundTrip

/-!
# User input, exactly once

The client's log only grows and its states are numbered as it does, so that the log of an older
state is a prefix of that of a newer one (`StateGraph`). An instruction is honest if it carries
the client's diff between the two states it names (`StateGraph.Honest`).

* Whatever honest instructions arrive, however often and in whatever order, the server's tracker
  knows the base of every state that the transport accepts, and what it has handed out is the
  decoded log of the newest state it was given (`input_of_run`).
* The announcement of a shutdown is a state with a number of its own, and is given to the
  tracker without its events being handed out (`shutdown_hands_out_nothing`).
-/

namespace Zetta.Zosh.Server

open List Moshcatty MoshRs

/-! ### The client's states -/

/-- The states of a client: the log of each. -/
structure StateGraph where
  log : ℕ → List MoshRs.UserEvent
  /-- Both ends start with the empty log. -/
  initial : log 0 = []
  /-- The log grows with the number of the state. -/
  grows : ∀ m n, m ≤ n → log m <+: log n
  /-- The events are such as the server takes. -/
  fits : ∀ n, ∀ e ∈ log n, Fits e
  /-- A diff is shorter than `2 ^ 64` bytes. -/
  sized : ∀ m n diff, diffFrom (log n) (log m) = some diff → diff.length < 2 ^ 64

namespace StateGraph

variable (G : StateGraph)

/-- The decoded log of a state. -/
def decoded (n : ℕ) : List UserEvent := decodedEvents (G.log n)

/-- An instruction that leads from a state to a newer one, with the diff between the two, and
does not ask to forget the state it makes. -/
structure Honest (ti : Instruction) : Prop where
  newer : ti.oldNum < ti.newNum
  le_max : ti.newNum ≤ MAX
  kept : ti.throwawayNum ≤ ti.newNum
  diff : diffFrom (G.log ti.newNum) (G.log ti.oldNum) = some ti.diff

theorem decoded_zero : G.decoded 0 = [] := by
  rw [decoded, G.initial]
  rfl

theorem decoded_prefix {m n : ℕ} (h : m ≤ n) : G.decoded m <+: G.decoded n := by
  obtain ⟨suffix, hsuffix⟩ := G.grows m n h
  exact ⟨decodedEvents suffix, by rw [decoded, decoded, ← hsuffix]; simp [decodedEvents]⟩

theorem length_decoded_le {m n : ℕ} (h : m ≤ n) : (G.decoded m).length ≤ (G.decoded n).length :=
  (G.decoded_prefix h).length_le

theorem length_decoded_lt (n : ℕ) : (G.decoded n).length < 2 ^ 64 := by
  have hdiff : diffFrom (G.log n) (G.log 0) = some (encodeEvents (G.log n)) := by
    rw [diffFrom, G.initial, if_pos (List.nil_prefix)]
    rfl
  exact lt_of_le_of_lt (length_decodedEvents_le _) (G.sized 0 n _ hdiff)

/-- The diff of an honest instruction is decoded to the decoded log beyond the base's. -/
theorem Honest.decodeEvents {G : StateGraph} {ti : Instruction} (h : G.Honest ti) :
    Server.decodeEvents ti.diff =
      .ok ((G.decoded ti.newNum).drop (G.decoded ti.oldNum).length) := by
  have hdiff := h.diff
  rw [diffFrom, if_pos (G.grows _ _ h.newer.le)] at hdiff
  obtain ⟨suffix, hsuffix⟩ := G.grows _ _ h.newer.le
  have hdrop : (G.log ti.newNum).drop (G.log ti.oldNum).length = suffix := by
    rw [← hsuffix, drop_left]
  rw [hdrop, Option.some.injEq] at hdiff
  have hlen := G.sized _ _ _ h.diff
  rw [← hdiff] at hlen ⊢
  rw [decodeEvents_encodeEvents (fun e he => G.fits ti.newNum e ?_) hlen, decoded, decoded,
    ← hsuffix]
  · simp [decodedEvents]
  · rw [← hsuffix]
    exact mem_append_right _ he

end StateGraph

/-! ### The server's end -/

/-- The transport and the tracker of the server, what the tracker has handed out, and which
states it was given. -/
structure UserInput where
  transport : Transport
  tracker : UserStreamTracker
  delivered : List UserEvent
  accepted : List ℕ

namespace UserInput

def new (now : ℕ) : UserInput := ⟨.newServer now, .new, [], []⟩

/-- An instruction arrives: a state that the transport accepts goes to the tracker. -/
def receive (s : UserInput) (now : ℕ) (ti : Instruction) : Except String UserInput :=
  match s.transport.receive now ti with
  | (none, transport) => .ok { s with transport }
  | (some state, transport) =>
    (s.tracker.accept state).map fun x =>
      ⟨transport, x.2, s.delivered ++ x.1.events, s.accepted ++ [state.newNum]⟩

/-- One arrival, as a step. -/
def step (s : UserInput) (arrival : ℕ × Instruction) : Except String UserInput :=
  s.receive arrival.1 arrival.2

/-- The arrival is an honest instruction. -/
def Honest (G : StateGraph) (_ : UserInput) (arrival : ℕ × Instruction) : Prop :=
  G.Honest arrival.2

/-- **The tracker follows the log**: what is handed out is the decoded log of the newest state;
every state remembered is no newer, with nothing of it pending; and every state that the
transport may take as a base is remembered. -/
structure Follows (G : StateGraph) (s : UserInput) : Prop where
  delivered : s.delivered = G.decoded s.tracker.latestState
  committed : s.tracker.committedEvents = s.delivered.length
  state : ∀ n entry, s.tracker.states.get? n = some entry →
    n ≤ s.tracker.latestState ∧ entry = ⟨(G.decoded n).length, []⟩
  known : ∀ n ∈ s.transport.receivedNums, n ≠ MAX →
    ∃ entry, s.tracker.states.get? n = some entry
  kept : ∀ n ∈ s.transport.receivedNums, s.transport.throwawayNum ≤ n
  newest : s.tracker.latestState ∈ s.accepted ∨ s.tracker.latestState = 0
  older : ∀ n ∈ s.accepted, n = MAX ∨ n ≤ s.tracker.latestState
  lt_max : s.tracker.latestState < MAX

theorem follows_new (G : StateGraph) (now : ℕ) : (new now).Follows G where
  delivered := G.decoded_zero.symm
  committed := rfl
  state n entry h := by
    have hmem := OrdMap.get?_eq_some_iff.mp h
    simp only [new, UserStreamTracker.new, OrdMap.mem_insert, OrdMap.entries_empty,
      not_mem_nil, false_and, or_false, Prod.mk.injEq] at hmem
    obtain ⟨rfl, rfl⟩ := hmem
    exact ⟨Nat.le_refl _, by rw [G.decoded_zero]; rfl⟩
  known n h _ := by
    obtain rfl : n = 0 := by simpa [new, Transport.newServer, Transport.new] using h
    exact ⟨⟨0, []⟩, (OrdMap.get?_insert ..).trans (if_pos rfl)⟩
  kept n _ := Nat.zero_le _
  newest := .inr rfl
  older n h := by simp [new] at h
  lt_max := show 0 < MAX by decide

/-! ### One instruction -/

variable {G : StateGraph} {s : UserInput} {ti : Instruction}

/-- The tracker on the state an honest instruction brings. -/
theorem Follows.accept (h : s.Follows G) (hti : G.Honest ti)
    (hold : ti.oldNum ∈ s.transport.receivedNums) (throwaway ackNum : ℕ) (hmax : ti.newNum ≠ MAX) :
    ∃ input tracker,
      s.tracker.accept ⟨ti.oldNum, ti.newNum, ackNum, throwaway, ti.diff⟩ = .ok (input, tracker) ∧
      tracker.latestState = max s.tracker.latestState ti.newNum ∧
      s.delivered ++ input.events = G.decoded tracker.latestState ∧
      tracker.committedEvents = (G.decoded tracker.latestState).length ∧
      ∀ n, tracker.states.get? n =
        if throwaway ≤ n ∨ n = ti.newNum then
          if n = ti.newNum then some ⟨(G.decoded n).length, []⟩ else s.tracker.states.get? n
        else none := by
  have hlt : ti.oldNum ≠ MAX := by have := hti.newer; have := hti.le_max; omega
  obtain ⟨entry, hentry⟩ := h.known _ hold hlt
  obtain ⟨hle, rfl⟩ := h.state _ _ hentry
  have hcommitted := h.committed
  rw [h.delivered] at hcommitted
  have hgrow := G.length_decoded_le hti.newer.le
  have hlatest := G.length_decoded_le hle
  have htotal : (G.decoded ti.oldNum).length +
      ((G.decoded ti.newNum).drop (G.decoded ti.oldNum).length).length =
        (G.decoded ti.newNum).length := by
    rw [length_drop]
    omega
  -- what the base has beyond the committed prefix is nothing
  have huncommitted : s.tracker.uncommitted ⟨(G.decoded ti.oldNum).length, []⟩
      ((G.decoded ti.newNum).drop (G.decoded ti.oldNum).length) =
        .ok ((G.decoded ti.newNum).drop s.tracker.committedEvents) := by
    unfold UserStreamTracker.uncommitted
    split
    · next hbase =>
      have heq : (G.decoded ti.oldNum).length = s.tracker.committedEvents := by
        simp only at hbase
        omega
      rw [if_pos (by simp [heq])]
      simp [heq]
    · next hbase =>
      simp only at hbase ⊢
      rw [drop_drop]
      congr 2
      omega
  have hremember : ∀ pending n, (s.tracker.remember ti.newNum throwaway
      ⟨(G.decoded ti.newNum).length, pending⟩).states.get? n =
        if throwaway ≤ n ∨ n = ti.newNum then
          if n = ti.newNum then some ⟨(G.decoded n).length, pending⟩ else s.tracker.states.get? n
        else none := by
    intro pending n
    simp only [UserStreamTracker.remember, OrdMap.get?_retain, OrdMap.get?_insert,
      Bool.or_eq_true, decide_eq_true_eq]
    split_ifs with h₁ h₂
    · rw [h₂]
    · rfl
    · rfl
  have haccept : s.tracker.accept ⟨ti.oldNum, ti.newNum, ackNum, throwaway, ti.diff⟩ =
      if ti.newNum ≤ s.tracker.latestState then
        .ok (⟨ti.newNum, [], announcements ti.diff⟩, s.tracker.remember ti.newNum throwaway
          ⟨(G.decoded ti.newNum).length, (G.decoded ti.newNum).drop s.tracker.committedEvents⟩)
      else if (G.decoded ti.newNum).length < s.tracker.committedEvents then
        .error (s!"newer Mosh UserStream state {ti.newNum} regressed from " ++
          s!"{s.tracker.committedEvents} committed events to {(G.decoded ti.newNum).length}")
      else
        .ok (⟨ti.newNum, (G.decoded ti.newNum).drop s.tracker.committedEvents,
          announcements ti.diff⟩, (s.tracker.remember ti.newNum throwaway
            ⟨(G.decoded ti.newNum).length, (G.decoded ti.newNum).drop s.tracker.committedEvents⟩
          ).commit ti.newNum (G.decoded ti.newNum).length) := by
    have hsize := G.length_decoded_lt ti.newNum
    simp only [UserStreamTracker.accept, hmax, if_false, hentry, hti.decodeEvents, htotal, bind,
      Except.bind, Except.mapError, huncommitted, not_le.mpr hsize]
  rw [haccept]
  split_ifs with hnew hregress
  · have hdrop : (G.decoded ti.newNum).drop s.tracker.committedEvents = [] := by
      have := G.length_decoded_le hnew
      exact drop_eq_nil_of_le (by omega)
    refine ⟨_, _, rfl, (max_eq_left hnew).symm, ?_, ?_, ?_⟩
    · rw [append_nil]
      exact h.delivered
    · exact hcommitted
    · rw [hdrop]
      exact hremember []
  · have := G.length_decoded_le (not_le.mp hnew).le
    omega
  · have hgrows := G.decoded_prefix (not_le.mp hnew).le
    have hlen := hgrows.length_le
    refine ⟨_, _, rfl, (max_eq_right (not_le.mp hnew).le).symm, ?_, rfl, fun n => ?_⟩
    · show s.delivered ++ (G.decoded ti.newNum).drop s.tracker.committedEvents = G.decoded ti.newNum
      rw [h.delivered, hcommitted]
      exact (prefix_iff_eq_append.mp hgrows)
    · show (OrdMap.mapValues _ _).get? n = _
      rw [OrdMap.get?_mapValues, hremember]
      split_ifs with h₁ h₂
      · simp [h₂]
      · cases hn : s.tracker.states.get? n with
        | none => rfl
        | some entry =>
          obtain ⟨hn', rfl⟩ := h.state n entry hn
          have := G.length_decoded_le hn'
          simp only [Option.map_some]
          rw [if_pos (by omega)]
      · rfl

/-- **One arrival.** The tracker refuses nothing and goes on following the log. -/
theorem Follows.receive (h : s.Follows G) (hti : G.Honest ti) (now : ℕ) :
    ∃ s', s.receive now ti = .ok s' ∧ s'.Follows G := by
  have hkept : ∀ n ∈ (s.transport.processAck ti.ackNum).receivedNums,
      (s.transport.processAck ti.ackNum).throwawayNum ≤ n := by simpa using h.kept
  unfold UserInput.receive
  rcases s.transport.receive_cases now ti with heq | heq | ⟨t', hold, heq, hnums, hthrow⟩ <;>
    rw [heq]
  · exact ⟨_, rfl, { h with known := by simpa using h.known, kept := hkept }⟩
  · refine ⟨_, rfl, { h with known := fun n hn => ?_, kept := fun n hn => ?_ }⟩
    · exact h.known n (by simpa using Transport.mem_processThrowaway hn)
    · exact Transport.le_of_mem_processThrowaway hkept hn
  · have hthrow' : t'.throwawayNum = max s.transport.throwawayNum ti.throwawayNum := by
      rw [hthrow, Transport.processThrowaway_throwawayNum, Transport.processAck_throwawayNum]
    have hnew : t'.throwawayNum ≤ ti.newNum := by
      rw [hthrow']
      exact Nat.max_le.mpr ⟨(h.kept _ hold).trans hti.newer.le, hti.kept⟩
    have hold' : ∀ n ∈ t'.receivedNums, n = ti.newNum ∨
        n ∈ s.transport.receivedNums ∧ t'.throwawayNum ≤ n := by
      intro n hn
      rw [hnums] at hn
      rcases mem_append.mp hn with hn | hn
      · refine .inr ⟨by simpa using Transport.mem_processThrowaway hn, ?_⟩
        rw [hthrow]
        exact Transport.le_of_mem_processThrowaway hkept hn
      · exact .inl (mem_singleton.mp hn)
    have hkept' : ∀ n ∈ t'.receivedNums, t'.throwawayNum ≤ n := fun n hn =>
      (hold' n hn).elim (fun heq => heq ▸ hnew) And.right
    by_cases hmax : ti.newNum = MAX
    · -- the announcement of a shutdown leaves the tracker alone
      refine ⟨⟨t', s.tracker, s.delivered ++ [], s.accepted ++ [ti.newNum]⟩, ?_, ?_⟩
      · simp only [UserStreamTracker.accept, hmax, if_true]
        rfl
      · rw [append_nil]
        refine { h with known := fun n hn hne => ?_, kept := hkept', newest := ?_, older := ?_ }
        · exact h.known n ((hold' n hn).resolve_left fun heq => hne (heq.trans hmax)).1 hne
        · exact h.newest.imp_left fun hmem => mem_append_left _ hmem
        · intro n hn
          rcases mem_append.mp hn with hn | hn
          · exact h.older n hn
          · exact .inl ((mem_singleton.mp hn).trans hmax)
    · obtain ⟨input, tracker, haccept, hlatest, hdelivered, hcommitted, hstates⟩ :=
        h.accept hti hold t'.throwawayNum ti.ackNum hmax
      refine ⟨⟨t', tracker, s.delivered ++ input.events, s.accepted ++ [ti.newNum]⟩, ?_, ?_⟩
      · simp only [haccept]
        rfl
      · have hltmax : ti.newNum < MAX := lt_of_le_of_ne hti.le_max hmax
        refine ⟨hdelivered, ?_, ?_, ?_, hkept', ?_, ?_, ?_⟩
        · rw [hdelivered]
          exact hcommitted
        · intro n entry hn
          rw [hstates] at hn
          rw [hlatest]
          split_ifs at hn with h₁ h₂
          · cases hn
            exact ⟨h₂ ▸ le_max_right _ _, rfl⟩
          · obtain ⟨hle, heq⟩ := h.state n entry hn
            exact ⟨hle.trans (le_max_left _ _), heq⟩
        · intro n hn hne
          rw [hstates]
          rcases hold' n hn with rfl | ⟨hmem, hle⟩
          · rw [if_pos (.inr rfl), if_pos rfl]
            exact ⟨_, rfl⟩
          · rw [if_pos (.inl hle)]
            split_ifs
            · exact ⟨_, rfl⟩
            · exact h.known n hmem hne
        · rw [hlatest]
          rcases le_total s.tracker.latestState ti.newNum with hle | hle
          · rw [max_eq_right hle]
            exact .inl (by simp)
          · rw [max_eq_left hle]
            exact h.newest.imp_left fun hmem => mem_append_left _ hmem
        · intro n hn
          rw [hlatest]
          rcases mem_append.mp hn with hn | hn
          · exact (h.older n hn).imp_right fun hle => hle.trans (le_max_left _ _)
          · exact .inr ((mem_singleton.mp hn).le.trans (le_max_right _ _))
        · rw [hlatest]
          exact max_lt h.lt_max hltmax

/-! ### Whole runs -/

/-- **User input, exactly once.** Whatever honest instructions have arrived: the tracker refuses
no state that the transport accepts next, and what it has handed out is the decoded log of the
newest state it was given other than the announcement of a shutdown. -/
theorem input_of_run (G : StateGraph) {now : ℕ} {arrivals : List (ℕ × Instruction)}
    {s : UserInput} (hrun : Run (Meeting (Honest G) (Succeeds step)) (new now) arrivals s) :
    s.delivered = G.decoded s.tracker.latestState ∧
    (∀ n ∈ s.accepted, n = MAX ∨ n ≤ s.tracker.latestState) ∧
    (s.tracker.latestState ∈ s.accepted ∨ s.tracker.latestState = 0) ∧
    ∀ ti, G.Honest ti → ∀ later, ∃ s', s.receive later ti = .ok s' := by
  have hfollows : s.Follows G := by
    refine hrun.invariant (follows_new G now) fun s arrival s' h hstep => ?_
    obtain ⟨s'', heq, hs''⟩ := h.receive hstep.1 arrival.1
    obtain rfl : s'' = s' := Except.ok.inj (heq.symm.trans hstep.2)
    exact hs''
  refine ⟨hfollows.delivered, hfollows.older, hfollows.newest, fun ti hti later => ?_⟩
  obtain ⟨s', heq, -⟩ := hfollows.receive hti later
  exact ⟨s', heq⟩

/-- Two keys and a resize. -/
def typed : List MoshRs.UserEvent := [.byte 0x6c, .byte 0x73, .resize 100 40]

private theorem take_typed (n : ℕ) : ∃ i : Fin 4, typed.take n = typed.take i :=
  ⟨⟨min n 3, by omega⟩, by
    rcases le_total n 3 with hn | hn
    · simp [hn]
    · rw [take_of_length_le hn]
      simp [hn, typed]⟩

/-- A client whose state `n` has the first `n` of them. -/
def typedGraph : StateGraph where
  log n := typed.take n
  initial := rfl
  grows m n h := take_prefix_take_left h
  fits n e he := by
    have hmem : e ∈ typed := mem_of_mem_take he
    simp only [typed, mem_cons, not_mem_nil, or_false] at hmem
    rcases hmem with rfl | rfl | rfl <;> simp [Fits]
  sized m n diff h := by
    obtain ⟨i, hi⟩ := take_typed n
    obtain ⟨j, hj⟩ := take_typed m
    rw [hi, hj] at h
    have hall : ∀ i j : Fin 4, ∀ diff ∈ diffFrom (typed.take i) (typed.take j),
        diff.length < 100 := by decide +kernel
    exact (hall i j diff h).trans (by decide)

/-- The instruction of `typedGraph` between two states. -/
def typedInstruction (oldNum newNum : ℕ) : Instruction :=
  ⟨oldNum, newNum, 0, 0, (diffFrom (typed.take newNum) (typed.take oldNum)).getD []⟩

private theorem honest_typedInstruction {oldNum newNum : ℕ} (h : oldNum < newNum)
    (hmax : newNum ≤ MAX) : typedGraph.Honest (typedInstruction oldNum newNum) where
  newer := h
  le_max := hmax
  kept := Nat.zero_le _
  diff := by
    have hdiff : diffFrom (typed.take newNum) (typed.take oldNum) =
        some (encodeEvents ((typed.take newNum).drop (typed.take oldNum).length)) :=
      if_pos (take_prefix_take_left h.le)
    show diffFrom (typed.take newNum) (typed.take oldNum) = some (Option.getD _ [])
    rw [hdiff]
    rfl

private theorem run_of_foldlM {arrivals : List (ℕ × Instruction)} {t : UserInput}
    (hhonest : ∀ a ∈ arrivals, G.Honest a.2) (h : arrivals.foldlM step s = .ok t) :
    Run (Meeting (Honest G) (Succeeds step)) s arrivals t := by
  induction arrivals generalizing s with
  | nil =>
    obtain rfl : s = t := Except.ok.inj h
    exact .nil s
  | cons a arrivals ih =>
    rw [foldlM_cons] at h
    cases hs : step s a with
    | error e => simp [hs, bind, Except.bind] at h
    | ok s' =>
      simp only [hs, bind, Except.bind] at h
      exact .cons ⟨hhonest a (by simp), hs⟩ (ih (fun b hb => hhonest b (by simp [hb])) h)

/-- A newer state before an older one, one of them twice, and the last from an old base. -/
def typedArrivals : List (ℕ × Instruction) :=
  [(0, typedInstruction 0 2), (1, typedInstruction 0 1), (2, typedInstruction 0 2),
    (3, typedInstruction 1 3)]

theorem input_of_typedArrivals :
    ∃ s, Run (Meeting (Honest typedGraph) (Succeeds step)) (new 0) typedArrivals s ∧
      s.delivered = [.byte 0x6c, .byte 0x73, .resize 100 40] := by
  have hhonest : ∀ a ∈ typedArrivals, typedGraph.Honest a.2 := by
    simp only [typedArrivals, mem_cons, not_mem_nil, or_false, forall_eq_or_imp,
      forall_eq]
    refine ⟨?_, ?_, ?_, ?_⟩ <;> exact honest_typedInstruction (by decide) (by decide)
  have hlatest : ((typedArrivals.foldlM step (new 0)).toOption.any fun s =>
      decide (s.tracker.latestState = 3)) = true := by decide +kernel
  cases hs : typedArrivals.foldlM step (new 0) with
  | error e => simp [hs, Except.toOption] at hlatest
  | ok s =>
    have hrun := run_of_foldlM hhonest hs
    have hthree : s.tracker.latestState = 3 := by simpa [hs, Except.toOption] using hlatest
    refine ⟨s, hrun, ?_⟩
    rw [(input_of_run typedGraph hrun).1, hthree]
    decide +kernel

/-- A state that announces a shutdown is accepted, and none of its events is handed out. -/
theorem shutdown_hands_out_nothing :
    ∃ s, Run (Meeting (Honest typedGraph) (Succeeds step)) (new 0) [(0, typedInstruction 0 MAX)] s ∧
      s.accepted = [MAX] ∧ s.delivered = [] ∧
      typedGraph.decoded MAX = [.byte 0x6c, .byte 0x73, .resize 100 40] := by
  refine ⟨_, run_of_foldlM (by simpa using honest_typedInstruction (by decide) (by decide)) rfl,
    rfl, rfl, ?_⟩
  decide +kernel

end UserInput

end Zetta.Zosh.Server
