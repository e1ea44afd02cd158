import Mathlib

/-!
# Messages on a byte stream that several threads write to

A thread takes the lock, writes its message in pieces of any length and gives the lock back with
the last piece. The reader asks for as many bytes as it knows to be missing, and gets some of them.
What arrives is what was sent, message by message and in the order of the locks
(`Pipe.Whole.read`), when the messages fit (`Codec.Lawful`).
-/

namespace Zetta

open List

universe u v w x

/-- How messages are written and read. -/
structure Codec (M : Type u) (β : Type v) (ε : Type w) where
  encode : M → List β
  /-- What was read so far is a message, or none yet. -/
  parse : List β → Option (Except ε M)
  /-- How much more the reader asks for. -/
  wanted : List β → ℕ

/-- Messages that fit are read as they were written, and not before all of them was read. -/
structure Codec.Lawful {M : Type u} {β : Type v} {ε : Type w} (c : Codec M β ε) (Fits : M → Prop) :
    Prop where
  encode_ne_nil {m : M} : Fits m → c.encode m ≠ []
  parse_encode {m : M} : Fits m → c.parse (c.encode m) = some (.ok m)
  parse_part {m : M} {part : List β} :
    Fits m → part <+: c.encode m → part ≠ c.encode m → c.parse part = none
  wanted_le {m : M} {part : List β} : Fits m → part <+: c.encode m → part ≠ c.encode m →
    part.length + c.wanted part ≤ (c.encode m).length

/-- A stream between threads `W` that write to it and its reader. -/
structure Pipe (W : Type x) (M : Type u) (β : Type v) where
  /-- The messages that were written. -/
  sent : List M
  /-- Who writes, which message, and what is left of it. -/
  lock : Option (W × M × List β)
  /-- What was written, and not read. -/
  flight : List β
  /-- What the reader has of the next message. -/
  buffer : List β
  /-- How many messages were read. -/
  taken : ℕ

namespace Pipe

variable {W : Type x} {M : Type u} {β : Type v} {ε : Type w}

def empty : Pipe W M β := ⟨[], none, [], [], 0⟩

variable (c : Codec M β ε) (p : Pipe W M β)

/-- A thread takes the lock for a message. -/
def acquire (w : W) (m : M) : Option (Pipe W M β) :=
  match p.lock with
  | none => some { p with lock := some (w, m, c.encode m) }
  | some _ => none

/-- The thread that has the lock writes some of its message; the last of it gives the lock back. -/
def write (n : ℕ) : Option (Pipe W M β × Option (W × M)) :=
  match p.lock with
  | none => none
  | some (w, m, left) =>
    if n < left.length then
      some ({ p with
        lock := some (w, m, left.drop n)
        flight := p.flight ++ left.take n }, none)
    else
      some ({ p with
        sent := p.sent ++ [m]
        lock := none
        flight := p.flight ++ left }, some (w, m))

/-- The reader gets some of the bytes that it asks for. -/
def read (n : ℕ) : Option (Pipe W M β × Option (Except ε M)) :=
  if 0 < n ∧ n ≤ c.wanted p.buffer ∧ n ≤ p.flight.length then
    let buffer := p.buffer ++ p.flight.take n
    let flight := p.flight.drop n
    match c.parse buffer with
    | none => some ({ p with flight := flight, buffer := buffer }, none)
    | some (.ok m) =>
      some ({ p with flight := flight, buffer := [], taken := p.taken + 1 }, some (.ok m))
    | some (.error e) => some ({ p with flight := flight, buffer := buffer }, some (.error e))
  else none

/-! ### What arrives -/

/-- The messages that were not read yet. -/
def pending : List M := p.sent.drop p.taken

/-- The message that is being written. -/
def locking : List M := (p.lock.map fun l => l.2.1).toList

/-- What is left of it. -/
def left : List β := (p.lock.map fun l => l.2.2).getD []

/-- What is under way, and what is left to write, are the messages that were not read yet. -/
structure Whole (Fits : M → Prop) : Prop where
  taken_le : p.taken ≤ p.sent.length
  fits : ∀ m ∈ p.sent ++ p.locking, Fits m
  left_ne : p.lock ≠ none → p.left ≠ []
  stream : p.buffer ++ p.flight ++ p.left = (p.pending ++ p.locking).flatMap c.encode
  buffered : ∀ m ∈ (p.pending ++ p.locking).head?, p.buffer <+: c.encode m ∧ p.buffer ≠ c.encode m

variable {c p} {Fits : M → Prop} {w : W} {m : M} {n : ℕ} {p' : Pipe W M β}

theorem whole_empty : (empty : Pipe W M β).Whole c Fits where
  taken_le := le_refl _
  fits _ h := by cases h
  left_ne h := absurd rfl h
  stream := rfl
  buffered _ h := by cases h

theorem fits_of_pending (h : p.Whole c Fits) : ∀ m ∈ p.pending ++ p.locking, Fits m := by
  intro m hm
  rcases mem_append.mp hm with hm | hm
  · exact h.fits m (mem_append_left _ (mem_of_mem_drop hm))
  · exact h.fits m (mem_append_right _ hm)

/-- What a thread is told when it takes the lock. -/
theorem acquire_eq_some (h : p.acquire c w m = some p') :
    p.lock = none ∧ p' = { p with lock := some (w, m, c.encode m) } := by
  rw [acquire] at h
  split at h
  · next hlock => exact ⟨hlock, (Option.some.inj h).symm⟩
  · cases h

theorem Whole.acquire (hw : p.Whole c Fits) (hm : Fits m) (hne : c.encode m ≠ [])
    (h : p.acquire c w m = some p') : p'.Whole c Fits := by
  obtain ⟨hlock, rfl⟩ := acquire_eq_some h
  have hlocking : p.locking = [] := by rw [locking, hlock]; rfl
  have hleft : p.left = [] := by rw [left, hlock]; rfl
  have hstream := hw.stream
  rw [hlocking, hleft, append_nil, append_nil] at hstream
  refine ⟨hw.taken_le, fun m' hm' => ?_, fun _ => hne, ?_, fun m' hm' => ?_⟩
  · rcases mem_append.mp hm' with hsent | hlast
    · exact hw.fits m' (mem_append_left _ hsent)
    · rw [mem_singleton.mp hlast]
      exact hm
  · change p.buffer ++ p.flight ++ c.encode m = (p.pending ++ [m]).flatMap c.encode
    rw [hstream, flatMap_append, flatMap_singleton]
  · change m' ∈ (p.pending ++ [m]).head? at hm'
    rcases hpending : p.pending with _ | ⟨first, rest⟩
    · rw [hpending] at hm' hstream
      obtain rfl : m = m' := Option.some.inj hm'
      have hbuffer : p.buffer = [] := (append_eq_nil_iff.mp hstream).1
      exact ⟨hbuffer ▸ List.nil_prefix, fun heq => hne (heq.symm.trans hbuffer)⟩
    · refine hw.buffered m' ?_
      rw [hpending] at hm' ⊢
      exact hm'

variable {r : Option (W × M)}

/-- What a write changes: the lock is kept, or the message was sent. -/
theorem write_eq_some (h : p.write n = some (p', r)) :
    ∃ w m left, p.lock = some (w, m, left) ∧ p'.taken = p.taken ∧ p'.buffer = p.buffer ∧
      ((∃ rest, rest ≠ [] ∧ r = none ∧ p'.sent = p.sent ∧ p'.lock = some (w, m, rest) ∧
          p'.flight ++ rest = p.flight ++ left) ∨
        r = some (w, m) ∧ p'.sent = p.sent ++ [m] ∧ p'.lock = none ∧
          p'.flight = p.flight ++ left) := by
  rw [write] at h
  split at h
  · cases h
  · next w m left hlock =>
    refine ⟨w, m, left, hlock, ?_⟩
    split_ifs at h with hn
    · cases h
      refine ⟨rfl, rfl, .inl ⟨left.drop n, ?_, rfl, rfl, rfl, ?_⟩⟩
      · intro hnil
        have hlength := congrArg List.length hnil
        rw [length_drop, length_nil] at hlength
        omega
      · rw [append_assoc, take_append_drop]
    · cases h
      exact ⟨rfl, rfl, .inr ⟨rfl, rfl, rfl, rfl⟩⟩

theorem Whole.write (hw : p.Whole c Fits) (h : p.write n = some (p', r)) : p'.Whole c Fits := by
  obtain ⟨w, m, left, hlock, htaken, hbuffer, hkept | ⟨-, hsent, hlock', hflight⟩⟩ :=
    write_eq_some h
  · obtain ⟨rest, hrest, -, hsent, hlock', hflight⟩ := hkept
    have hlocking : p'.locking = p.locking := by rw [locking, locking, hlock, hlock']; rfl
    have hpending : p'.pending = p.pending := by rw [pending, pending, hsent, htaken]
    refine ⟨?_, ?_, fun _ => ?_, ?_, ?_⟩
    · rw [htaken, hsent]
      exact hw.taken_le
    · rw [hsent, hlocking]
      exact hw.fits
    · rw [Pipe.left, hlock']
      exact hrest
    · rw [hpending, hlocking, ← hw.stream, hbuffer, Pipe.left, Pipe.left, hlock', hlock,
        append_assoc, append_assoc]
      exact congrArg _ hflight
    · rw [hpending, hlocking, hbuffer]
      exact hw.buffered
  · have hlocking : p.locking = [m] := by rw [locking, hlock]; rfl
    have hlocking' : p'.locking = [] := by rw [locking, hlock']; rfl
    have hpending : p'.pending = p.pending ++ [m] := by
      rw [pending, pending, hsent, htaken, drop_append_of_le_length hw.taken_le]
    refine ⟨?_, ?_, fun hne => absurd hlock' hne, ?_, ?_⟩
    · have := hw.taken_le
      rw [htaken, hsent, length_append]
      omega
    · rw [hsent, hlocking', append_nil, ← hlocking]
      exact hw.fits
    · have hstream := hw.stream
      rw [hlocking, Pipe.left, hlock] at hstream
      rw [hpending, hlocking', hbuffer, hflight, Pipe.left, hlock', append_nil, ← hstream]
      exact (append_nil _).trans (append_assoc ..).symm
    · rw [hpending, hlocking', append_nil, hbuffer, ← hlocking]
      exact hw.buffered

/-- **What is read**: no more than a part of the next message, or that message. -/
theorem Whole.read (hc : c.Lawful Fits) (hw : p.Whole c Fits) {r : Option (Except ε M)}
    (h : p.read c n = some (p', r)) :
    p'.Whole c Fits ∧ p'.sent = p.sent ∧ p'.lock = p.lock ∧
      (r = none ∧ p'.taken = p.taken ∨
        ∃ m, r = some (.ok m) ∧ p.sent[p.taken]? = some m ∧ p'.taken = p.taken + 1) := by
  rw [Pipe.read] at h
  split_ifs at h with hn
  dsimp only at h
  obtain ⟨hpos, hwanted, hflight⟩ := hn
  have hstream := hw.stream
  rcases hall : p.pending ++ p.locking with _ | ⟨m, rest⟩
  · -- Without a message there is nothing to read.
    rw [hall, flatMap_nil, append_eq_nil_iff, append_eq_nil_iff] at hstream
    rw [hstream.1.2, length_nil] at hflight
    omega
  · have hfits := fits_of_pending hw m (by rw [hall]; exact mem_cons_self)
    obtain ⟨hpart, hne⟩ := hw.buffered m (by rw [hall]; rfl)
    have hlength := hc.wanted_le hfits hpart hne
    rw [hall, flatMap_cons, ← take_append_drop n p.flight, ← append_assoc,
      append_assoc] at hstream
    have hstarts : p.buffer ++ p.flight.take n <+: c.encode m := by
      refine prefix_of_prefix_length_le ⟨_, hstream⟩ (prefix_append ..) ?_
      rw [length_append, length_take]
      omega
    by_cases hwhole : p.buffer ++ p.flight.take n = c.encode m
    · -- The message was written whole: of one that was not there is something left.
      rw [hwhole] at hstream
      have hrest := append_cancel_left hstream
      obtain ⟨rest', hpending⟩ : ∃ rest', p.pending = m :: rest' := by
        rcases hpending : p.pending with _ | ⟨first, rest'⟩
        · rw [hpending, nil_append] at hall
          have hlock : p.lock ≠ none := by
            intro hlock
            rw [locking, hlock] at hall
            cases hall
          have hnil : rest = [] := by
            have hlen := congrArg List.length hall
            rw [locking] at hlen
            have := Option.length_toList_le (o := p.lock.map fun l => l.2.1)
            rw [length_cons] at hlen
            exact length_eq_zero_iff.mp (by omega)
          rw [hnil, flatMap_nil, append_eq_nil_iff] at hrest
          exact absurd hrest.2 (hw.left_ne hlock)
        · rw [hpending, cons_append] at hall
          exact ⟨rest', by rw [(List.cons.inj hall).1]⟩
      have hsent : p.sent[p.taken]? = some m := by
        rw [← head?_drop, ← pending, hpending]
        rfl
      have hpending' : p.sent.drop (p.taken + 1) = rest' := by
        rw [← tail_drop, ← pending, hpending]
        rfl
      rw [hwhole, hc.parse_encode hfits] at h
      cases h
      have hrest' : rest = p.sent.drop (p.taken + 1) ++ p.locking := by
        rw [hpending, cons_append] at hall
        rw [hpending', (List.cons.inj hall).2]
      refine ⟨⟨?_, hw.fits, hw.left_ne, ?_, fun m' hm' => ⟨List.nil_prefix, fun hnil => ?_⟩⟩, rfl,
        rfl, .inr ⟨m, rfl, hsent, rfl⟩⟩
      · exact (List.getElem?_eq_some_iff.mp hsent).1
      · exact hrest.trans (congrArg _ hrest')
      · have hmem : m' ∈ p.pending ++ p.locking := by
          rw [hall, hrest']
          exact mem_cons_of_mem _ (mem_of_mem_head? hm')
        exact hc.encode_ne_nil (fits_of_pending hw m' hmem) hnil.symm
    · rw [hc.parse_part hfits hstarts hwhole] at h
      cases h
      refine ⟨⟨hw.taken_le, hw.fits, hw.left_ne, ?_, fun m' hm' => ?_⟩, rfl, rfl, .inl ⟨rfl, rfl⟩⟩
      · change p.buffer ++ p.flight.take n ++ p.flight.drop n ++ p.left =
          (p.pending ++ p.locking).flatMap c.encode
        rw [hall, flatMap_cons, append_assoc, hstream]
      · change m' ∈ (p.pending ++ p.locking).head? at hm'
        rw [hall] at hm'
        obtain rfl : m = m' := Option.some.inj hm'
        exact ⟨hstarts, hwhole⟩

end Pipe

end Zetta
