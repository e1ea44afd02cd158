import Zetta.Lib.BigEndian
import Zetta.Lib.RingBits

/-!
# The replay filter

Which sequence numbers have been opened: the highest one, and one bit for each of the
`REPLAY_WINDOW` numbers up to it, in a ring.

`ReplayWindow` is the filter of the program, on `u64` numbers and an array of words. `Reference`
remembers all numbers that have been committed. Both give the same answers in every sequence of
calls (`answers_eq`), and so no datagram is opened twice (`opened_once`).
-/

namespace Zetta.Moshcatty

open Zetta.RingBits

def REPLAY_WINDOW : UInt64 := 1024

def WORDS : ℕ := 16

inductive Freshness where
  | inOrder
  | outOfOrder
  | replay
  deriving DecidableEq

def Freshness.accepted (f : Freshness) : Bool := f ≠ .replay

structure ReplayWindow where
  highest : Option UInt64
  bits : Vector (BitVec 64) WORDS

namespace ReplayWindow

def new : ReplayWindow := ⟨none, .replicate WORDS 0⟩

/-- The word of a number and its bit there. -/
def slot (seq : UInt64) : ℕ × BitVec 64 :=
  let index := seq % REPLAY_WINDOW
  ((index / 64).toNat, 1#64 <<< (index % 64).toNat)

theorem slot_lt (seq : UInt64) : (slot seq).1 < WORDS := by
  have hmod : (seq % REPLAY_WINDOW).toNat = seq.toNat % 1024 := UInt64.toNat_mod _ _
  have hdiv : (seq % REPLAY_WINDOW / 64).toNat = (seq % REPLAY_WINDOW).toNat / 64 :=
    UInt64.toNat_div _ _
  show (seq % REPLAY_WINDOW / 64).toNat < 16
  omega

variable (w : ReplayWindow)

def isSet (seq : UInt64) : Bool :=
  have h := slot_lt seq
  w.bits[(slot seq).1] &&& (slot seq).2 ≠ 0

def set (seq : UInt64) : ReplayWindow :=
  have h := slot_lt seq
  { w with bits := w.bits.set (slot seq).1 (w.bits[(slot seq).1] ||| (slot seq).2) }

def clear (seq : UInt64) : ReplayWindow :=
  have h := slot_lt seq
  { w with bits := w.bits.set (slot seq).1 (w.bits[(slot seq).1] &&& ~~~(slot seq).2) }

def check (seq : UInt64) : Freshness :=
  match w.highest with
  | none => .inOrder
  | some highest =>
    if highest < seq then .inOrder
    else if REPLAY_WINDOW ≤ highest - seq ∨ w.isSet seq then .replay
    else .outOfOrder

/-- The numbers from one up to another are forgotten. -/
def clearRange (start stop : ℕ) : ReplayWindow :=
  (List.range' start (stop - start)).foldl (fun w stale => w.clear (UInt64.ofNat stale)) w

/-- The window moves up to a number. -/
def moveTo (seq : UInt64) : ReplayWindow :=
  match w.highest with
  | some highest =>
    if seq - highest < REPLAY_WINDOW then w.clearRange (highest.toNat + 1) seq.toNat
    else { w with bits := .replicate WORDS 0 }
  | none => { w with bits := .replicate WORDS 0 }

def commit (seq : UInt64) : ReplayWindow × Freshness :=
  match w.check seq with
  | .replay => (w, .replay)
  | .outOfOrder => (w.set seq, .outOfOrder)
  | .inOrder => (({ w.moveTo seq with highest := some seq }).set seq, .inOrder)

/-! ### The ring -/

/-- The bit at a place of the ring is set. -/
def ring (k : ℕ) : Prop := (w.bits[k / 64]?).any fun word => word.getLsbD (k % 64)

theorem slot_eq (seq : UInt64) :
    slot seq = (seq.toNat % 1024 / 64, BitVec.twoPow 64 (seq.toNat % 1024 % 64)) := by
  have hmod : (seq % REPLAY_WINDOW).toNat = seq.toNat % 1024 := UInt64.toNat_mod _ _
  have hdiv : (seq % REPLAY_WINDOW / 64).toNat = (seq % REPLAY_WINDOW).toNat / 64 :=
    UInt64.toNat_div _ _
  have hrem : (seq % REPLAY_WINDOW % 64).toNat = (seq % REPLAY_WINDOW).toNat % 64 :=
    UInt64.toNat_mod _ _
  rw [slot, BitVec.twoPow_eq]
  rw [hdiv, hrem, hmod]

theorem isSet_iff (seq : UInt64) : w.isSet seq = true ↔ w.ring (seq.toNat % 1024) := by
  have hlt := slot_lt seq
  rw [slot_eq] at hlt
  simp only [isSet, ring, slot_eq, BitVec.and_twoPow, Vector.getElem?_eq_getElem hlt,
    Option.any_some, decide_eq_true_eq]
  split_ifs with hbit
  · simp only [hbit, iff_true]
    intro hzero
    have := congrArg (fun b => b.getLsbD (seq.toNat % 1024 % 64)) hzero
    simp [Nat.mod_lt] at this
  · simpa using hbit

theorem ring_set (seq : UInt64) (k : ℕ) : (w.set seq).ring k ↔ k = seq.toNat % 1024 ∨ w.ring k := by
  have hlt := slot_lt seq
  rw [slot_eq] at hlt
  simp only [set, ring, slot_eq, Vector.getElem?_set hlt]
  by_cases hword : seq.toNat % 1024 / 64 = k / 64
  · rw [if_pos hword]
    simp only [hword] at hlt
    simp only [Option.any_some, BitVec.getLsbD_or, BitVec.getLsbD_twoPow, hword,
      Vector.getElem?_eq_getElem hlt, Bool.or_eq_true, Bool.and_eq_true, decide_eq_true_eq]
    have : seq.toNat % 1024 % 64 = k % 64 ↔ k = seq.toNat % 1024 := by omega
    have hpos : seq.toNat % 1024 % 64 < 64 := Nat.mod_lt _ (by decide)
    tauto
  · rw [if_neg hword]
    have : k ≠ seq.toNat % 1024 := fun h => hword (by rw [h])
    tauto

theorem ring_clear (seq : UInt64) (k : ℕ) :
    (w.clear seq).ring k ↔ w.ring k ∧ k ≠ seq.toNat % 1024 := by
  have hlt := slot_lt seq
  rw [slot_eq] at hlt
  simp only [clear, ring, slot_eq, Vector.getElem?_set hlt]
  by_cases hword : seq.toNat % 1024 / 64 = k / 64
  · rw [if_pos hword]
    simp only [hword] at hlt
    have hk : k % 64 < 64 := Nat.mod_lt _ (by decide)
    simp only [Option.any_some, BitVec.getLsbD_and, BitVec.getLsbD_not, BitVec.getLsbD_twoPow, hword,
      Vector.getElem?_eq_getElem hlt, Bool.and_eq_true, Bool.not_eq_true', Bool.and_eq_false_iff,
      decide_eq_true_eq, decide_eq_false_iff_not]
    have : seq.toNat % 1024 % 64 = k % 64 ↔ k = seq.toNat % 1024 := by omega
    have hpos : seq.toNat % 1024 % 64 < 64 := Nat.mod_lt _ (by decide)
    tauto
  · rw [if_neg hword]
    have : k ≠ seq.toNat % 1024 := fun h => hword (by rw [h])
    tauto

theorem ring_zero (highest : Option UInt64) (k : ℕ) :
    ¬(ReplayWindow.mk highest (.replicate WORDS 0)).ring k := by
  rw [ring, Vector.getElem?_replicate]
  split_ifs <;> simp

theorem ring_clearRange {start stop : ℕ} (hle : start ≤ stop) (hstop : stop ≤ 2 ^ 64) (k : ℕ) :
    (w.clearRange start stop).ring k ↔
      w.ring k ∧ ∀ stale, start ≤ stale → stale < stop → k ≠ stale % 1024 := by
  obtain ⟨n, rfl⟩ := Nat.exists_eq_add_of_le hle
  rw [clearRange, Nat.add_sub_cancel_left]
  induction n with
  | zero => simpa using fun _ stale hge hlt => absurd hlt (by omega)
  | succ n ih =>
    rw [List.range'_concat, List.foldl_append, List.foldl_cons, List.foldl_nil, ring_clear,
      ih (by omega) (by omega), Nat.one_mul,
      UInt64.toNat_ofNat_of_lt' (show start + n < 2 ^ 64 by omega)]
    constructor
    · rintro ⟨⟨hring, hfresh⟩, hlast⟩
      refine ⟨hring, fun stale hge hlt => ?_⟩
      rcases Nat.lt_succ_iff_lt_or_eq.1 (show stale < (start + n) + 1 by omega) with hlt | rfl
      · exact hfresh stale hge hlt
      · exact hlast
    · rintro ⟨hring, hfresh⟩
      exact ⟨⟨hring, fun stale hge hlt => hfresh stale hge (by omega)⟩,
        hfresh _ (by omega) (by omega)⟩

end ReplayWindow

/-! ### The reference -/

/-- A call of the filter. -/
inductive Call where
  | check (seq : UInt64)
  | commit (seq : UInt64)

/-- The numbers that calls commit. -/
def committed (calls : List Call) : List UInt64 :=
  calls.filterMap fun
    | .check _ => none
    | .commit seq => some seq

/-- A filter that remembers all numbers that have been committed. -/
structure Reference where
  committed : List UInt64

namespace Reference

/-- New if it is above all others; a replay if it has been committed, or is `REPLAY_WINDOW` or more
below another. -/
def check (r : Reference) (seq : UInt64) : Freshness :=
  if ∀ c ∈ r.committed, c < seq then .inOrder
  else if seq ∈ r.committed ∨ ∃ c ∈ r.committed, seq.toNat + REPLAY_WINDOW.toNat ≤ c.toNat then
    .replay
  else .outOfOrder

def commit (r : Reference) (seq : UInt64) : Reference × Freshness :=
  (⟨r.committed ++ [seq]⟩, r.check seq)

def call (r : Reference) : Call → Reference × Freshness
  | .check seq => (r, r.check seq)
  | .commit seq => r.commit seq

/-- The answers to a sequence of calls. -/
def answers (r : Reference) : List Call → List Freshness
  | [] => []
  | c :: calls => (r.call c).2 :: (r.call c).1.answers calls

end Reference

namespace ReplayWindow

def call (w : ReplayWindow) : Call → ReplayWindow × Freshness
  | .check seq => (w, w.check seq)
  | .commit seq => w.commit seq

def run (w : ReplayWindow) (calls : List Call) : ReplayWindow :=
  calls.foldl (fun w c => (w.call c).1) w

/-- The answers to a sequence of calls. -/
def answers (w : ReplayWindow) : List Call → List Freshness
  | [] => []
  | c :: calls => (w.call c).2 :: (w.call c).1.answers calls

/-- The numbers, as natural numbers. -/
def numbers (committed : List UInt64) : Set ℕ := {n | ∃ c ∈ committed, c.toNat = n}

/-- The filter knows the highest number that has been committed, and which of those near it. -/
structure Knows (w : ReplayWindow) (r : Reference) : Prop where
  of_none : w.highest = none → r.committed = []
  of_some : ∀ highest, w.highest = some highest → highest ∈ r.committed ∧
    (∀ c ∈ r.committed, c ≤ highest) ∧
    Remembers 1024 w.ring highest.toNat (numbers r.committed)

theorem knows_new : new.Knows ⟨[]⟩ := ⟨fun _ => rfl, fun _ h => nomatch h⟩

theorem mem_numbers {seq : UInt64} {committed : List UInt64} :
    seq.toNat ∈ numbers committed ↔ seq ∈ committed := by
  constructor
  · rintro ⟨c, hc, heq⟩
    rwa [← UInt64.toNat_inj.1 heq]
  · intro h
    exact ⟨seq, h, rfl⟩

theorem numbers_append (committed : List UInt64) (seq : UInt64) :
    numbers (committed ++ [seq]) = insert seq.toNat (numbers committed) := by
  ext n
  simp only [numbers, List.mem_append, List.mem_singleton, Set.mem_ofPred_eq, Set.mem_insert_iff]
  constructor
  · rintro ⟨c, hc | rfl, rfl⟩
    · exact .inr ⟨c, hc, rfl⟩
    · exact .inl rfl
  · rintro (rfl | ⟨c, hc, rfl⟩)
    · exact ⟨seq, .inr rfl, rfl⟩
    · exact ⟨c, .inl hc, rfl⟩

variable {w : ReplayWindow} {r : Reference}

/-- Both classify a number alike. -/
theorem Knows.check_eq (h : w.Knows r) (seq : UInt64) : w.check seq = r.check seq := by
  rw [check, Reference.check]
  cases hhighest : w.highest with
  | none =>
    rw [h.of_none hhighest]
    exact (if_pos fun _ hc => absurd hc List.not_mem_nil).symm
  | some highest =>
    obtain ⟨hmem, hle, hring⟩ := h.of_some highest hhighest
    dsimp only
    by_cases hlt : highest < seq
    · have hall : ∀ c ∈ r.committed, c < seq := fun c hc => UInt64.lt_of_le_of_lt (hle c hc) hlt
      rw [if_pos hlt, if_pos hall]
    have hnot : ¬∀ c ∈ r.committed, c < seq := fun hall => hlt (hall highest hmem)
    rw [if_neg hlt, if_neg hnot]
    rw [UInt64.not_lt] at hlt
    have hsub : (highest - seq).toNat = highest.toNat - seq.toNat :=
      UInt64.toNat_sub_of_le _ _ hlt
    have hwindow : REPLAY_WINDOW ≤ highest - seq ↔ seq.toNat + 1024 ≤ highest.toNat := by
      have hnat : seq.toNat ≤ highest.toNat := hlt
      show (1024 : ℕ) ≤ (highest - seq).toNat ↔ _
      omega
    have hfar : (∃ c ∈ r.committed, seq.toNat + REPLAY_WINDOW.toNat ≤ c.toNat) ↔
        seq.toNat + 1024 ≤ highest.toNat := by
      constructor
      · rintro ⟨c, hc, hfar⟩
        exact hfar.trans (UInt64.le_iff_toNat_le.1 (hle c hc))
      · intro hfar
        exact ⟨highest, hmem, hfar⟩
    simp only [hwindow, hfar]
    by_cases hold : seq.toNat + 1024 ≤ highest.toNat
    · rw [if_pos (.inl hold), if_pos (.inr hold)]
    · -- the number is near enough for its bit to tell
      have hbit : w.isSet seq = true ↔ seq ∈ r.committed := by
        rw [isSet_iff, hring seq.toNat hlt (by omega), mem_numbers]
      simp only [hold, hbit, false_or, or_false]

/-- A window whose highest number is this one knows as much, if the ring remembers it. -/
theorem knows_highest {highest : UInt64} {S : List UInt64} (hw : w.highest = some highest)
    (hmem : highest ∈ S) (hle : ∀ c ∈ S, c ≤ highest)
    (hring : Remembers 1024 w.ring highest.toNat (numbers S)) : w.Knows ⟨S⟩ := by
  refine ⟨fun h => ?_, fun highest' h => ?_⟩
  · rw [hw] at h
    exact nomatch h
  · rw [hw, Option.some.injEq] at h
    subst h
    exact ⟨hmem, hle, hring⟩

theorem numbers_le {S : List UInt64} {highest : UInt64} (h : ∀ c ∈ S, c ≤ highest) :
    ∀ n ∈ numbers S, n ≤ highest.toNat := by
  rintro n ⟨c, hc, rfl⟩
  exact UInt64.le_iff_toNat_le.1 (h c hc)

/-- The ring behind a move up to a number above all others. -/
theorem remembers_moveTo (h : w.Knows r) {seq : UInt64} (hnew : ∀ c ∈ r.committed, c < seq) :
    Remembers 1024 (({ w.moveTo seq with highest := some seq }).set seq).ring seq.toNat
      (insert seq.toNat (numbers r.committed)) := by
  have hlow : ∀ n ∈ numbers r.committed, n < seq.toNat := by
    rintro n ⟨c, hc, rfl⟩
    exact UInt64.lt_iff_toNat_lt.1 (hnew c hc)
  -- all bits are cleared
  have hzero : (∀ n ∈ numbers r.committed, n + 1024 ≤ seq.toNat) →
      w.moveTo seq = { w with bits := .replicate WORDS 0 } →
      Remembers 1024 (({ w.moveTo seq with highest := some seq }).set seq).ring seq.toNat
        (insert seq.toNat (numbers r.committed)) := by
    intro hfar hmove
    refine Remembers.jump hfar fun k => ?_
    rw [ring_set, hmove]
    exact or_iff_left (ring_zero _ k)
  cases hhighest : w.highest with
  | none =>
    refine hzero ?_ (by rw [moveTo, hhighest])
    rintro n ⟨c, hc, -⟩
    rw [h.of_none hhighest] at hc
    exact absurd hc List.not_mem_nil
  | some highest =>
    obtain ⟨hmem, hle, hring⟩ := h.of_some highest hhighest
    have hlt := hlow _ (mem_numbers.2 hmem)
    have hsub : (seq - highest).toNat = seq.toNat - highest.toNat :=
      UInt64.toNat_sub_of_le _ _ (UInt64.le_iff_toNat_le.2 hlt.le)
    have hsmall : seq - highest < REPLAY_WINDOW ↔ seq.toNat < highest.toNat + 1024 := by
      show (seq - highest).toNat < 1024 ↔ _
      omega
    by_cases hnear : seq.toNat < highest.toNat + 1024
    · refine hring.advance (numbers_le hle) hlt hnear fun k => ?_
      have hmove : w.moveTo seq = w.clearRange (highest.toNat + 1) seq.toNat := by
        rw [moveTo, hhighest]
        exact if_pos (hsmall.2 hnear)
      rw [ring_set, hmove]
      exact or_congr_right (ring_clearRange w hlt seq.toNat_lt.le k)
    · refine hzero ?_ ?_
      · intro n hn
        have := numbers_le hle n hn
        omega
      · rw [moveTo, hhighest]
        exact if_neg (mt hsmall.1 hnear)

theorem Knows.commit (h : w.Knows r) (seq : UInt64) :
    (w.commit seq).1.Knows (r.commit seq).1 := by
  have hcheck := h.check_eq seq
  rw [Reference.check] at hcheck
  rw [ReplayWindow.commit, Reference.commit]
  by_cases hnew : ∀ c ∈ r.committed, c < seq
  · rw [if_pos hnew] at hcheck
    rw [hcheck]
    refine knows_highest rfl (List.mem_append_right _ List.mem_cons_self) ?_ ?_
    · intro c hc
      rcases List.mem_append.1 hc with hc | hc
      · exact UInt64.le_of_lt (hnew c hc)
      · rw [List.mem_singleton.1 hc]
        exact UInt64.le_refl _
    · rw [numbers_append]
      exact remembers_moveTo h hnew
  rw [if_neg hnew] at hcheck
  -- the highest number stays
  obtain ⟨highest, hhighest⟩ : ∃ highest, w.highest = some highest := by
    cases hhighest : w.highest with
    | none =>
      rw [h.of_none hhighest] at hnew
      exact absurd (fun _ hc => absurd hc List.not_mem_nil) hnew
    | some highest => exact ⟨highest, rfl⟩
  obtain ⟨hmem, hle, hring⟩ := h.of_some highest hhighest
  have hseq : seq ≤ highest := by
    rw [← UInt64.not_lt]
    exact fun hlt => hnew fun c hc => UInt64.lt_of_le_of_lt (hle c hc) hlt
  have hle' : ∀ c ∈ r.committed ++ [seq], c ≤ highest := by
    intro c hc
    rcases List.mem_append.1 hc with hc | hc
    · exact hle c hc
    · rw [List.mem_singleton.1 hc]
      exact hseq
  by_cases hold : seq ∈ r.committed ∨
      ∃ c ∈ r.committed, seq.toNat + REPLAY_WINDOW.toNat ≤ c.toNat
  · rw [if_pos hold] at hcheck
    rw [hcheck]
    refine knows_highest hhighest (List.mem_append_left _ hmem) hle' ?_
    intro n hn hnear
    rw [hring n hn hnear, numbers_append, Set.mem_insert_iff]
    refine ⟨.inr, fun hmem => hmem.elim (fun heq => ?_) id⟩
    rcases hold with hold | ⟨c, hc, hfar⟩
    · rw [heq]
      exact mem_numbers.2 hold
    · -- a number that is too old is not asked for
      have hfar' : seq.toNat + 1024 ≤ c.toNat := hfar
      have := UInt64.le_iff_toNat_le.1 (hle c hc)
      omega
  · rw [if_neg hold] at hcheck
    rw [hcheck]
    refine knows_highest hhighest (List.mem_append_left _ hmem) hle' ?_
    rw [numbers_append]
    refine hring.add (UInt64.le_iff_toNat_le.1 hseq) ?_ (ring_set w seq)
    by_contra hfar
    exact hold (.inr ⟨highest, hmem, not_lt.1 hfar⟩)

theorem commit_answer (w : ReplayWindow) (seq : UInt64) : (w.commit seq).2 = w.check seq := by
  rw [commit]
  cases w.check seq with
  | inOrder => rfl
  | outOfOrder => rfl
  | replay => rfl

theorem Knows.call (h : w.Knows r) (c : Call) :
    (w.call c).1.Knows (r.call c).1 ∧ (w.call c).2 = (r.call c).2 := by
  cases c with
  | check seq =>
    have hanswer := h.check_eq seq
    simp only [ReplayWindow.call, Reference.call]
    exact ⟨h, hanswer⟩
  | commit seq =>
    have hanswer := (commit_answer w seq).trans (h.check_eq seq)
    have hknows := h.commit seq
    simp only [ReplayWindow.call, Reference.call]
    refine ⟨hknows, ?_⟩
    rw [hanswer, Reference.commit]

/-- In every sequence of calls both answer alike. -/
theorem Knows.answers_eq (h : w.Knows r) (calls : List Call) : w.answers calls = r.answers calls := by
  induction calls generalizing w r with
  | nil => rfl
  | cons c calls ih =>
    obtain ⟨hknows, hanswer⟩ := h.call c
    rw [answers, Reference.answers, hanswer, ih hknows]

theorem Knows.run (h : w.Knows r) (calls : List Call) :
    (w.run calls).Knows ⟨r.committed ++ committed calls⟩ := by
  induction calls generalizing w r with
  | nil =>
    rw [committed, List.filterMap_nil, List.append_nil]
    exact h
  | cons c calls ih =>
    have hrun : w.run (c :: calls) = (w.call c).1.run calls := List.foldl_cons ..
    have hrest := ih (h.call c).1
    rw [hrun]
    cases c with
    | check seq =>
      have hnone : committed (.check seq :: calls) = committed calls := List.filterMap_cons_none rfl
      rw [hnone]
      exact hrest
    | commit seq =>
      have hsome : committed (.commit seq :: calls) = seq :: committed calls :=
        List.filterMap_cons_some rfl
      rw [hsome, List.append_cons]
      exact hrest

/-- The filter gives the answers of the one that remembers everything: what it makes of a number is
decided by the numbers that have been committed; none of them is accepted again, and all others
within the window are. -/
theorem window_eq_reference (calls : List Call) :
    new.answers calls = (Reference.mk []).answers calls ∧
    ∀ seq : UInt64,
      ((new.run calls).check seq = .inOrder ↔ ∀ c ∈ committed calls, c < seq) ∧
      ((new.run calls).check seq = .replay ↔ seq ∈ committed calls ∨
        ∃ c ∈ committed calls, seq.toNat + REPLAY_WINDOW.toNat ≤ c.toNat) ∧
      ((new.run calls).commit seq).2 = (new.run calls).check seq ∧
      (seq ∈ committed calls → ((new.run calls).check seq).accepted = false) ∧
      (seq ∉ committed calls →
        (∀ c ∈ committed calls, c.toNat < seq.toNat + REPLAY_WINDOW.toNat) →
          ((new.run calls).check seq).accepted = true) := by
  refine ⟨knows_new.answers_eq calls, fun seq => ?_⟩
  have hcheck := (knows_new.run calls).check_eq seq
  rw [List.nil_append, Reference.check] at hcheck
  dsimp only at hcheck
  refine ⟨?_, ?_, commit_answer _ seq, ?_, ?_⟩
  · rw [hcheck]
    by_cases hnew : ∀ c ∈ committed calls, c < seq
    · rw [if_pos hnew]
      exact iff_of_true rfl hnew
    · rw [if_neg hnew]
      refine iff_of_false ?_ hnew
      split_ifs <;> decide
  · rw [hcheck]
    constructor
    · intro h
      split_ifs at h with hnew hold
      exact hold
    · intro hold
      -- neither is above all others
      have hnew : ¬∀ c ∈ committed calls, c < seq := by
        intro hnew
        rcases hold with hmem | ⟨c, hc, hfar⟩
        · exact UInt64.lt_irrefl _ (hnew seq hmem)
        · have := UInt64.lt_iff_toNat_lt.1 (hnew c hc)
          omega
      rw [if_neg hnew, if_pos hold]
  · intro hmem
    have hnew : ¬∀ c ∈ committed calls, c < seq := fun hnew => UInt64.lt_irrefl _ (hnew seq hmem)
    rw [hcheck, if_neg hnew, if_pos (.inl hmem)]
    rfl
  · intro hmem hnear
    have hold : ¬(seq ∈ committed calls ∨
        ∃ c ∈ committed calls, seq.toNat + REPLAY_WINDOW.toNat ≤ c.toNat) := by
      rintro (h | ⟨c, hc, hfar⟩)
      · exact hmem h
      · exact absurd (hnear c hc) (by omega)
    rw [hcheck, if_neg hold]
    split_ifs <;> rfl

/-! ### Opening datagrams -/

def DIR_TO_CLIENT : UInt64 := 0x8000000000000000

def SEQ_MASK : UInt64 := 0x7fffffffffffffff

def MIN_DATAGRAM : ℕ := 24

def RECEIVE_MTU : ℕ := 2048

section Datagrams

/- Decryption under the nonce of a direction and number, and the direction that is received. -/
variable (decrypt : UInt64 → List UInt8 → Option (List UInt8)) (toLocal : UInt64)

/-- The direction and number in front of a datagram. -/
def dirSeq (wire : List UInt8) : UInt64 := UInt64.ofNat (ofBeBytes (wire.take 8))

/-- `open`: a datagram is decrypted if its number is fresh, and recorded once it has authenticated. -/
def openDatagram (w : ReplayWindow) (wire : List UInt8) :
    ReplayWindow × Option (Freshness × List UInt8) :=
  let seq := dirSeq wire &&& SEQ_MASK
  if wire.length < MIN_DATAGRAM ∨ RECEIVE_MTU < wire.length then (w, none)
  else if dirSeq wire &&& DIR_TO_CLIENT ≠ toLocal &&& DIR_TO_CLIENT then (w, none)
  else if (w.check seq).accepted = false then (w, none)
  else
    match decrypt (dirSeq wire) (wire.drop 8) with
    | none => (w, none)
    | some plaintext =>
      if plaintext.length < 4 then (w, none)
      else ((w.commit seq).1, some ((w.commit seq).2, plaintext))

/-- The numbers of the datagrams that are opened, and whether each was in order. -/
def opened (w : ReplayWindow) : List (List UInt8) → List (UInt64 × Bool)
  | [] => []
  | wire :: wires =>
    ((openDatagram decrypt toLocal w wire).2.map fun o =>
      (dirSeq wire &&& SEQ_MASK, o.1 == .inOrder)).toList ++
        opened (openDatagram decrypt toLocal w wire).1 wires

theorem openDatagram_cases (w : ReplayWindow) (wire : List UInt8) :
    openDatagram decrypt toLocal w wire = (w, none) ∨ ∃ seq plaintext,
      seq = dirSeq wire &&& SEQ_MASK ∧ (w.check seq).accepted = true ∧
      openDatagram decrypt toLocal w wire =
        ((w.commit seq).1, some ((w.commit seq).2, plaintext)) := by
  unfold openDatagram
  extract_lets seq
  split_ifs with hlength hdirection hfresh
  · exact .inl rfl
  · exact .inl rfl
  · exact .inl rfl
  split
  · exact .inl rfl
  split_ifs
  · exact .inl rfl
  · exact .inr ⟨seq, _, rfl, Bool.not_eq_false _ ▸ hfresh, rfl⟩

theorem opened_spec (wires : List (List UInt8)) : ∀ {w : ReplayWindow} {r : Reference}, w.Knows r →
    ((opened decrypt toLocal w wires).map Prod.fst).Nodup ∧
    (∀ x ∈ opened decrypt toLocal w wires, x.1 ∉ r.committed) ∧
    ∀ before x after, opened decrypt toLocal w wires = before ++ x :: after →
      (x.2 = true ↔ (∀ c ∈ r.committed, c < x.1) ∧ ∀ y ∈ before, y.1 < x.1) := by
  induction wires with
  | nil => exact fun _ => ⟨List.nodup_nil, nofun, fun before x after h => by simp [opened] at h⟩
  | cons wire wires ih =>
    intro w r h
    rw [opened]
    rcases openDatagram_cases decrypt toLocal w wire with heq | ⟨seq, plaintext, hseq, hfresh, heq⟩
    · rw [heq]
      exact ih h
    obtain ⟨hnodup, hnew, horder⟩ := ih (h.commit seq)
    have hcommitted : (r.commit seq).1.committed = r.committed ++ [seq] := rfl
    rw [hcommitted] at hnew horder
    -- the classification is that of the reference
    have hfacts : seq ∉ r.committed ∧
        (((w.commit seq).2 == .inOrder) = true ↔ ∀ c ∈ r.committed, c < seq) := by
      rw [commit_answer]
      rw [h.check_eq] at hfresh ⊢
      rw [Reference.check] at hfresh ⊢
      split_ifs at hfresh ⊢ with hall hold
      · exact ⟨fun hmem => UInt64.lt_irrefl _ (hall seq hmem), iff_of_true rfl hall⟩
      · cases hfresh
      · exact ⟨fun hmem => hold (.inl hmem), iff_of_false (by decide) hall⟩
    rw [heq, Option.map_some, Option.toList_some, List.singleton_append, ← hseq]
    refine ⟨List.nodup_cons.mpr ⟨fun hmem => ?_, hnodup⟩,
      List.forall_mem_cons.mpr ⟨hfacts.1, fun x hx hm => hnew x hx (List.mem_append_left _ hm)⟩, ?_⟩
    · obtain ⟨x, hx, rfl⟩ := List.mem_map.mp hmem
      exact hnew x hx (List.mem_append_right _ List.mem_cons_self)
    · intro before x after hsplit
      rcases before with _ | ⟨y, before⟩
      · obtain ⟨rfl, -⟩ := List.cons.inj hsplit
        exact hfacts.2.trans (and_iff_left fun y hy => absurd hy List.not_mem_nil).symm
      · obtain ⟨rfl, hrest⟩ := List.cons.inj hsplit
        rw [horder _ _ _ hrest, List.forall_mem_append, List.forall_mem_singleton,
          List.forall_mem_cons, and_assoc]

/-- **No datagram is opened twice**, whatever arrives, forged, repeated or out of order; and one is
taken to be in order exactly if its number is above all those opened before. -/
theorem opened_once (wires : List (List UInt8)) :
    ((opened decrypt toLocal new wires).map Prod.fst).Nodup ∧
    ∀ before x after, opened decrypt toLocal new wires = before ++ x :: after →
      (x.2 = true ↔ ∀ y ∈ before, y.1 < x.1) := by
  obtain ⟨hnodup, -, horder⟩ := opened_spec decrypt toLocal wires knows_new
  refine ⟨hnodup, fun before x after h => (horder before x after h).trans ?_⟩
  exact and_iff_right fun c hc => absurd hc List.not_mem_nil

end Datagrams

end ReplayWindow

end Zetta.Moshcatty
