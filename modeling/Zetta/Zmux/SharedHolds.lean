import Zetta.Zmux.SharedStream

/-!
# A shared pane on the right grid

* `Pane.Paced`: while the reader is held behind a size, that size is where the holder will find it,
  or has just applied it; and while it is not held, every size that it has come by was applied, in
  order, and the terminal is on the last one.
* `Pane.Gives`: what a step returns is returned while nothing holds the reader, and while the
  terminal is on the grid that the bytes are for.

Both hold of every run (`delivered`) in which no time-out falls into a payload with no replacement
queued, no replacement brings sizes of its own, and a grid that a connection advertises is applied
before any of its bytes is returned and while that connection is the one that is read.
-/

namespace Zetta.Zmux.SharedReader

open Transport (Serde takeFrame frameOf MAX_MESSAGE_BYTES READ_BUFFER RAW_READ_CHUNK)

variable {serde : Serde Event}

namespace Pane

variable {s s' : Pane serde}

/-- The size that the reader came by last on the connection that it reads. -/
def last (s : Pane serde) : Option PaneSize := (sizesOf s.took).getLast?

/-- All sizes that the reader came by. -/
def seen (s : Pane serde) : List PaneSize := s.earlier.flatMap Ended.sizes ++ sizesOf s.took

/-- The grid that the next bytes are for, if the daemon has said so on this connection. -/
def force (s : Pane serde) : Option Grid := (s.last.map PaneSize.grid).or s.source.viewport

/-! ### Where a size is -/

/-- Nothing holds the reader. -/
structure Free (s : Pane serde) : Prop where
  phase : ∀ size, s.phase ≠ .barrier size ∧ s.phase ≠ .framed size
  frame : s.pendingSizeFrame = none
  sizes : s.sizes = []
  untaken : s.holder.size = none
  holder : ∀ size, s.holder.phase ≠ .applied size
  applied : s.applied = s.seen
  grid : ∀ size, s.last = some size → s.grid = some size.grid

/-- The holder has yet to apply the size, and has not taken it. -/
structure Owed (s : Pane serde) (size : PaneSize) : Prop where
  untaken : s.holder.size = none
  holder : ∀ size, s.holder.phase ≠ .applied size
  applied : s.applied ++ [size] = s.seen

/-- The reader is done with the size. -/
def Told (s : Pane serde) : Prop := s.phase = .recorded ∨ s.phase = .idle

/-- The holder will look at the list of sizes. -/
def Woken (s : Pane serde) : Prop :=
  s.phase = .recorded ∨ s.sizeSignal = true ∨ s.holder.phase = .taking ∨ s.holder.phase = .taken

/-- Where the size is that holds the reader. -/
inductive Held (s : Pane serde) (size : PaneSize) : Prop
  | barrier (howed : s.Owed size) (hphase : s.phase = .barrier size)
      (hframe : s.pendingSizeFrame = none) (hsizes : s.sizes = [])
  | framed (howed : s.Owed size) (hphase : s.phase = .framed size)
      (hframe : s.pendingSizeFrame = some size) (hsizes : s.sizes = [])
  | listed (howed : s.Owed size) (htold : s.Told) (hframe : s.pendingSizeFrame = some size)
      (hsizes : s.sizes = [size]) (hwoken : s.Woken)
  | taken (htold : s.Told) (hframe : s.pendingSizeFrame = some size) (hsizes : s.sizes = [])
      (hsize : s.holder.size = some size) (htop : s.holder.phase = .top)
      (happlied : s.applied ++ [size] = s.seen)
  | applied (htold : s.Told) (hframe : s.pendingSizeFrame = some size) (hsizes : s.sizes = [])
      (hsize : s.holder.size = none) (hphase : s.holder.phase = .applied size)
      (happlied : s.applied = s.seen) (hgrid : s.grid = some size.grid)

structure Paced (s : Pane serde) : Prop where
  holding : s.sizeApplicationPending = false ∧ s.Free ∨
    s.sizeApplicationPending = true ∧ ∃ size, s.last = some size ∧ s.Held size
  forwarding : ∀ sizes viewport, s.forwarding = .sizes sizes viewport → sizes = []

/-! ### The reader's steps -/

/-- What leaves the sizes where they are. -/
structure Quiet (s s' : Pane serde) : Prop where
  pending : s'.sizeApplicationPending = s.sizeApplicationPending
  frame : s'.pendingSizeFrame = s.pendingSizeFrame
  sizes : s'.sizes = s.sizes
  forwarding : s'.forwarding = s.forwarding
  holder : s'.holder = s.holder
  grid : s'.grid = s.grid
  applied : s'.applied = s.applied
  seen : s'.seen = s.seen
  last : s'.last = s.last ∨ s'.last = none
  phase : ∀ size, s'.phase ≠ .barrier size ∧ s'.phase ≠ .framed size

theorem Free.of_quiet (h : s.Free) (hquiet : s.Quiet s') : s'.Free where
  phase := hquiet.phase
  frame := hquiet.frame.trans h.frame
  sizes := hquiet.sizes.trans h.sizes
  untaken := hquiet.holder ▸ h.untaken
  holder := hquiet.holder ▸ h.holder
  applied := hquiet.applied.trans (h.applied.trans hquiet.seen.symm)
  grid size hsize := by
    obtain hlast | hlast := hquiet.last
    · rw [hquiet.grid]
      exact h.grid size (hlast.symm.trans hsize)
    · exact nomatch hlast.symm.trans hsize

theorem Paced.of_quiet (h : s.Paced) (hquiet : s.Quiet s')
    (hfree : s.sizeApplicationPending = false) : s'.Paced where
  holding := by
    obtain ⟨-, hfree'⟩ | ⟨hpending, -⟩ := h.holding
    · exact .inl ⟨hquiet.pending.trans hfree, hfree'.of_quiet hquiet⟩
    · exact nomatch hfree.symm.trans hpending
  forwarding := hquiet.forwarding ▸ h.forwarding

theorem quiet_install (s : Pane serde) (room : ℕ) (rest : List UInt8) (lost : Bool) :
    s.Quiet (s.install room rest lost) := by
  rw [Pane.install]
  cases s.readerHandoffs with
  | nil =>
    exact ⟨rfl, rfl, rfl, rfl, rfl, rfl, rfl, rfl, .inl rfl, fun _ => ⟨by simp, by simp⟩⟩
  | cons source readerHandoffs =>
    refine ⟨rfl, rfl, rfl, rfl, rfl, rfl, rfl, ?_, .inr ?_, fun _ => ⟨by simp, by simp⟩⟩
    · simp [seen, took, sizesOf, Ended.sizes]
    · simp [last, took, sizesOf]

theorem quiet_loop (s : Pane serde) (room : ℕ) : s.Quiet (s.loop room) := by
  rw [Pane.loop]
  split_ifs
  · exact ⟨rfl, rfl, rfl, rfl, rfl, rfl, rfl, rfl, .inl rfl, fun _ => ⟨by simp, by simp⟩⟩
  · exact ⟨rfl, rfl, rfl, rfl, rfl, rfl, rfl, rfl, .inl rfl, fun _ => ⟨by simp, by simp⟩⟩
  · exact ⟨rfl, rfl, rfl, rfl, rfl, rfl, rfl, rfl, .inl rfl, fun _ => ⟨by simp, by simp⟩⟩

variable {item : Item}

/-- An item that is taken, and is no size. -/
theorem sizes_succ (h : s.source.items[s.taken]? = some item) (hsize : item.size? = none) :
    sizesOf (s.source.items.take (s.taken + 1)) = sizesOf s.took := by
  rw [List.take_add_one, h, sizesOf, List.filterMap_append]
  simp [hsize, sizesOf, took]

theorem quiet_taken (h : s.source.items[s.taken]? = some item) (hsize : item.size? = none)
    (phase : Phase) (hphase : ∀ size, phase ≠ .barrier size ∧ phase ≠ .framed size)
    (connection : Connection) (pending returned : List UInt8) :
    s.Quiet { s with
      connection := connection, pending := pending, returned := returned, taken := s.taken + 1,
      phase := phase } := by
  have hsizes := sizes_succ h hsize
  refine ⟨rfl, rfl, rfl, rfl, rfl, rfl, rfl, ?_, .inl ?_, hphase⟩
  · exact congrArg (s.earlier.flatMap Ended.sizes ++ ·) hsizes
  · exact congrArg List.getLast? hsizes

theorem Quiet.trans {s₁ : Pane serde} (h : s.Quiet s₁) (h' : s₁.Quiet s') : s.Quiet s' where
  pending := h'.pending.trans h.pending
  frame := h'.frame.trans h.frame
  sizes := h'.sizes.trans h.sizes
  forwarding := h'.forwarding.trans h.forwarding
  holder := h'.holder.trans h.holder
  grid := h'.grid.trans h.grid
  applied := h'.applied.trans h.applied
  seen := h'.seen.trans h.seen
  last := by
    obtain hlast | hlast := h'.last
    · exact h.last.imp hlast.trans hlast.trans
    · exact .inr hlast
  phase := h'.phase

/-- What only reads on. -/
theorem quiet_read {phase : Phase} (hphase : ∀ size, phase ≠ .barrier size ∧ phase ≠ .framed size)
    (connection : Connection) : s.Quiet { s with connection := connection, phase := phase } :=
  ⟨rfl, rfl, rfl, rfl, rfl, rfl, rfl, rfl, .inl rfl, hphase⟩

variable {size : PaneSize}

/-- A size that the reader comes by holds it. -/
theorem Free.barrier (h : s.Free) (hitem : s.source.items[s.taken]? = some (.size size))
    (connection : Connection) :
    let s' := { s with
      connection := connection, taken := s.taken + 1, sizeApplicationPending := true,
      phase := .barrier size }
    s'.last = some size ∧ s'.Held size := by
  have hsizes : sizesOf (s.source.items.take (s.taken + 1)) = sizesOf s.took ++ [size] := by
    rw [List.take_add_one, hitem, sizesOf, List.filterMap_append]
    rfl
  refine ⟨?_, .barrier ⟨h.untaken, h.holder, ?_⟩ rfl h.frame h.sizes⟩
  · exact (congrArg List.getLast? hsizes).trans List.getLast?_concat
  · change s.applied ++ [size] = s.earlier.flatMap Ended.sizes ++
      sizesOf (s.source.items.take (s.taken + 1))
    rw [hsizes, h.applied, seen, List.append_assoc]

variable {room : ℕ}

theorem paced_dispatch (h : s.Paced) (hfree : s.sizeApplicationPending = false) {items : List Item}
    {body left : List UInt8} (hnext : s.NextItem item items body left) :
    (s.dispatch room left item.event).Paced := by
  have hitem := next_item hnext.toTake
  obtain ⟨-, hfree'⟩ | ⟨hpending, -⟩ := h.holding
  · cases item with
    | output payload => exact h.of_quiet (quiet_read (fun _ => ⟨by simp, by simp⟩) _) hfree
    | size size => exact ⟨.inr ⟨rfl, size, hfree'.barrier hitem _⟩, h.forwarding⟩
    | sharedClosed =>
      have htaken := quiet_taken hitem rfl s.phase hfree'.phase
        { s.connection with leftover := left } s.pending s.returned
      exact h.of_quiet (htaken.trans (quiet_install _ room left false)) hfree
    | other =>
      exact h.of_quiet (quiet_taken hitem rfl _ (fun _ => ⟨by simp, by simp⟩) _ s.pending s.returned)
        hfree
  · exact nomatch hfree.symm.trans hpending

theorem paced_receive (h : s.Paced) (hstreams : s.Streams) (hphase : s.phase = .receiving room)
    (hfree : s.sizeApplicationPending = false) :
    (s.receive room).Paced := by
  have hunheld : ∀ size, s.phase ≠ .barrier size ∧ s.phase ≠ .framed size := by
    rw [hphase]
    exact fun _ => ⟨by simp, by simp⟩
  have haligned : s.Aligned := hstreams.aligned fun _ _ _ hpayload => by
    rw [hphase] at hpayload
    cases hpayload
  rw [Pane.receive]
  obtain ⟨hnone, hshort, -⟩ | ⟨item, items, body, left, hframe, hnext⟩ := haligned.receive_cases
  · rw [hnone]
    dsimp only
    rw [if_neg (not_lt.mpr hshort)]
    obtain ⟨bytes, c, hread, -⟩ | ⟨c, hread, -⟩ | ⟨hread, -⟩ :=
      s.connection.readSome_cases READ_BUFFER
    · rw [hread]
      exact h.of_quiet (quiet_read hunheld _) hfree
    · rw [hread]
      exact h.of_quiet ((quiet_read hunheld c).trans (quiet_install _ room _ false)) hfree
    · rw [hread]
      exact h.of_quiet (quiet_install s room _ true) hfree
  · rw [hframe]
    dsimp only
    rw [hnext.slice]
    exact paced_dispatch h hfree hnext

theorem paced_readPayload (h : s.Paced) (hstreams : s.Streams) {length : ℕ} {bytes : List UInt8}
    (hphase : s.phase = .payload room length bytes) (hfree : s.sizeApplicationPending = false) :
    (s.readPayload room length bytes).Paced := by
  have hunheld : ∀ size, s.phase ≠ .barrier size ∧ s.phase ≠ .framed size := by
    rw [hphase]
    exact fun _ => ⟨by simp, by simp⟩
  obtain ⟨payload, items, rest, htake, -⟩ := (hstreams.within room length bytes hphase).next
  rw [Pane.readPayload]
  split_ifs
  · exact h.of_quiet (quiet_taken (next_item htake) rfl _ (fun _ => ⟨by simp, by simp⟩) _ _ _) hfree
  · obtain ⟨more, c, hread, -⟩ | ⟨c, hread, -⟩ | ⟨hread, -⟩ :=
      s.connection.readSome_cases (min (length - bytes.length) RAW_READ_CHUNK)
    · rw [hread]
      exact h.of_quiet (quiet_read (fun _ => ⟨by simp, by simp⟩) c) hfree
    · rw [hread]
      exact h.of_quiet ((quiet_read hunheld c).trans (quiet_install _ room bytes false)) hfree
    · rw [hread]
      exact h.of_quiet (quiet_install s room bytes true) hfree

/-- While it is held, the reader only tells the holder. -/
theorem Held.phase (h : s.Held size) :
    s.phase = .barrier size ∨ s.phase = .framed size ∨ s.Told := by
  cases h with
  | barrier _ hphase => exact .inl hphase
  | framed _ hphase => exact .inr (.inl hphase)
  | listed _ htold => exact .inr (.inr htold)
  | taken htold => exact .inr (.inr htold)
  | applied htold => exact .inr (.inr htold)

/-- The reader reads on only while nothing holds it. -/
theorem Paced.free_of_phase (h : s.Paced)
    (hphase : ∀ size, s.phase ≠ .barrier size ∧ s.phase ≠ .framed size) (htold : ¬ s.Told) :
    s.sizeApplicationPending = false := by
  obtain ⟨hfree, -⟩ | ⟨-, size, -, hheld⟩ := h.holding
  · exact hfree
  · obtain hbarrier | hframed | htold' := hheld.phase
    · exact absurd hbarrier (hphase size).1
    · exact absurd hframed (hphase size).2
    · exact absurd htold' htold

theorem Paced.advance (h : s.Paced) (hstreams : s.Streams) (hstep : s.advance = some s') :
    s'.Paced := by
  rw [Pane.advance] at hstep
  cases hphase : s.phase with
  | idle =>
    rw [hphase] at hstep
    cases hstep
  | looping room =>
    have hfree := h.free_of_phase (by simp [hphase]) (by simp [Told, hphase])
    rw [hphase] at hstep
    cases hstep
    exact h.of_quiet (quiet_loop s room) hfree
  | receiving room =>
    have hfree := h.free_of_phase (by simp [hphase]) (by simp [Told, hphase])
    rw [hphase] at hstep
    cases hstep
    exact paced_receive h hstreams hphase hfree
  | payload room length bytes =>
    have hfree := h.free_of_phase (by simp [hphase]) (by simp [Told, hphase])
    rw [hphase] at hstep
    cases hstep
    exact paced_readPayload h hstreams hphase hfree
  | barrier size =>
    rw [hphase] at hstep
    cases hstep
    obtain ⟨-, hfree⟩ | ⟨hpending, other, hlast, hheld⟩ := h.holding
    · exact absurd hphase (hfree.phase size).1
    refine ⟨.inr ⟨hpending, other, hlast, ?_⟩, h.forwarding⟩
    cases hheld with
    | barrier howed hbarrier _ hsizes =>
      cases hphase.symm.trans hbarrier
      exact .framed ⟨howed.untaken, howed.holder, howed.applied⟩ rfl rfl hsizes
    | framed _ hframed => exact nomatch hphase.symm.trans hframed
    | listed _ htold => simp [Told, hphase] at htold
    | taken htold => simp [Told, hphase] at htold
    | applied htold => simp [Told, hphase] at htold
  | framed size =>
    rw [hphase] at hstep
    cases hstep
    obtain ⟨-, hfree⟩ | ⟨hpending, other, hlast, hheld⟩ := h.holding
    · exact absurd hphase (hfree.phase size).2
    refine ⟨.inr ⟨hpending, other, hlast, ?_⟩, h.forwarding⟩
    cases hheld with
    | barrier _ hbarrier => exact nomatch hphase.symm.trans hbarrier
    | framed howed hframed hframe hsizes =>
      cases hphase.symm.trans hframed
      exact .listed ⟨howed.untaken, howed.holder, howed.applied⟩ (.inl rfl) hframe
        (congrArg (· ++ [size]) hsizes) (.inl rfl)
    | listed _ htold => simp [Told, hphase] at htold
    | taken htold => simp [Told, hphase] at htold
    | applied htold => simp [Told, hphase] at htold
  | recorded =>
    rw [hphase] at hstep
    cases hstep
    obtain ⟨hnone, hfree⟩ | ⟨hpending, other, hlast, hheld⟩ := h.holding
    · refine ⟨.inl ⟨hnone, ⟨fun _ => ⟨by simp, by simp⟩, hfree.frame, hfree.sizes, hfree.untaken,
        hfree.holder, hfree.applied, hfree.grid⟩⟩, h.forwarding⟩
    refine ⟨.inr ⟨hpending, other, hlast, ?_⟩, h.forwarding⟩
    cases hheld with
    | barrier _ hbarrier => exact nomatch hphase.symm.trans hbarrier
    | framed _ hframed => exact nomatch hphase.symm.trans hframed
    | listed howed _ hframe hsizes =>
      exact .listed ⟨howed.untaken, howed.holder, howed.applied⟩ (.inr rfl) hframe hsizes
        (.inr (.inl rfl))
    | taken _ hframe hsizes hsize htop happlied =>
      exact .taken (.inr rfl) hframe hsizes hsize htop happlied
    | applied _ hframe hsizes hsize hholder happlied hgrid =>
      exact .applied (.inr rfl) hframe hsizes hsize hholder happlied hgrid

/-! ### The holder's steps -/

/-- A grid that was advertised is applied while its bytes are read. -/
def Advertised (s : Pane serde) : Prop :=
  ∀ viewport, s.holder.phase = .top → s.holder.viewport = some viewport → s.force = some viewport

/-- What one step of the holder can do. -/
inductive HoldStep (s : Pane serde) : Pane serde → Prop
  | taking (hphase : s.holder.phase = .taking) : HoldStep s { s with
      initialViewport := none
      holder := { s.holder with viewport := s.initialViewport, phase := .taken } }
  | taken (hphase : s.holder.phase = .taken) : HoldStep s { s with
      sizes := []
      holder := { s.holder with size := s.sizes.getLast?, phase := .top } }
  | viewport (hphase : s.holder.phase = .top) {viewport : Grid}
      (hviewport : s.holder.viewport = some viewport) : HoldStep s { s with
      grid := some viewport
      holder := { s.holder with viewport := none } }
  | late (hphase : s.holder.phase = .top) : HoldStep s s
  | size (hphase : s.holder.phase = .top) {size : PaneSize}
      (hsize : s.holder.size = some size) : HoldStep s { s with
      grid := some size.grid
      applied := s.applied ++ [size]
      holder := { s.holder with size := none, phase := .applied size } }
  | wait (hphase : s.holder.phase = .top) (hsize : s.holder.size = none) :
      HoldStep s { s with holder := { s.holder with phase := .waiting } }
  | finish {size : PaneSize} (hphase : s.holder.phase = .applied size) :
      HoldStep s { s.finishSizeApplication size with
        holder := { (s.finishSizeApplication size).holder with phase := .waiting } }
  | wake (hphase : s.holder.phase = .waiting) (hsignal : s.sizeSignal = true) :
      HoldStep s { s with sizeSignal := false, holder := { s.holder with phase := .taking } }

theorem holdStep {laidOut : Bool} (hstep : s.hold laidOut = some s') : s.HoldStep s' := by
  rw [Pane.hold] at hstep
  split at hstep
  · next hphase => exact Option.some.inj hstep ▸ .taking hphase
  · next hphase => exact Option.some.inj hstep ▸ .taken hphase
  · next hphase =>
    split at hstep
    · next viewport hviewport =>
      split_ifs at hstep
      · exact Option.some.inj hstep ▸ .viewport hphase hviewport
      · exact Option.some.inj hstep ▸ .late hphase
    · split at hstep
      · next size hsize =>
        split_ifs at hstep
        · exact Option.some.inj hstep ▸ .size hphase hsize
        · exact Option.some.inj hstep ▸ .late hphase
      · next hsize => exact Option.some.inj hstep ▸ .wait hphase hsize
  · next size hphase => exact Option.some.inj hstep ▸ .finish hphase
  · next hphase =>
    split_ifs at hstep with hsignal
    exact Option.some.inj hstep ▸ .wake hphase hsignal
  · cases hstep

theorem Free.hold (h : s.Free) (hmeets : s.Advertised) (hstep : s.HoldStep s') :
    s'.Free ∧ s'.sizeApplicationPending = s.sizeApplicationPending := by
  cases hstep with
  | taking => exact ⟨⟨h.phase, h.frame, h.sizes, h.untaken, by simp, h.applied, h.grid⟩, rfl⟩
  | taken =>
    exact ⟨⟨h.phase, h.frame, rfl, by simp [h.sizes], by simp, h.applied, h.grid⟩, rfl⟩
  | viewport htop hviewport =>
    refine ⟨⟨h.phase, h.frame, h.sizes, h.untaken, h.holder, h.applied, fun size hlast => ?_⟩, rfl⟩
    -- The bytes are for that grid, which is the last size's.
    have hlast' : s.last = some size := hlast
    have hforce := hmeets _ htop hviewport
    rw [force, hlast'] at hforce
    exact hforce.symm
  | late => exact ⟨h, rfl⟩
  | size _ hsize => exact nomatch h.untaken.symm.trans hsize
  | wait => exact ⟨⟨h.phase, h.frame, h.sizes, h.untaken, by simp, h.applied, h.grid⟩, rfl⟩
  | finish hphase => exact absurd hphase (h.holder _)
  | wake => exact ⟨⟨h.phase, h.frame, h.sizes, h.untaken, by simp, h.applied, h.grid⟩, rfl⟩

/-- Until it takes the size, the holder's steps leave it owed. -/
theorem Owed.hold (h : s.Owed size) (hstep : s.HoldStep s')
    (hsizes : s.holder.phase = .taken → s.sizes = []) : s'.Owed size := by
  cases hstep with
  | taking => exact ⟨h.untaken, by simp, h.applied⟩
  | taken hphase => exact ⟨by simp [hsizes hphase], by simp, h.applied⟩
  | viewport => exact ⟨h.untaken, h.holder, h.applied⟩
  | late => exact h
  | size _ hsize => exact nomatch h.untaken.symm.trans hsize
  | wait => exact ⟨h.untaken, by simp, h.applied⟩
  | finish hphase => exact absurd hphase (h.holder _)
  | wake => exact ⟨h.untaken, by simp, h.applied⟩

/-- The holder's steps, but for the size that it has applied. -/
theorem hold_fields (hstep : s.HoldStep s') (hholder : ∀ size, s.holder.phase ≠ .applied size) :
    s'.sizeApplicationPending = s.sizeApplicationPending ∧ s'.phase = s.phase ∧
      s'.pendingSizeFrame = s.pendingSizeFrame ∧ s'.last = s.last ∧
      (s.sizes = [] → s'.sizes = []) := by
  cases hstep with
  | taken => exact ⟨rfl, rfl, rfl, rfl, fun _ => rfl⟩
  | finish hphase => exact absurd hphase (hholder _)
  | taking => exact ⟨rfl, rfl, rfl, rfl, fun h => h⟩
  | viewport => exact ⟨rfl, rfl, rfl, rfl, fun h => h⟩
  | late => exact ⟨rfl, rfl, rfl, rfl, fun h => h⟩
  | size => exact ⟨rfl, rfl, rfl, rfl, fun h => h⟩
  | wait => exact ⟨rfl, rfl, rfl, rfl, fun h => h⟩
  | wake => exact ⟨rfl, rfl, rfl, rfl, fun h => h⟩

/-- The holder takes the size that holds the reader, applies it, and releases it. -/
theorem Held.hold (h : s.Held size) (hlast : s.last = some size)
    (hpending : s.sizeApplicationPending = true) (hstep : s.HoldStep s') :
    (s'.sizeApplicationPending = true ∧ s'.last = some size ∧ s'.Held size ∧
        ∀ other, s.holder.phase ≠ .applied other) ∨
      s'.sizeApplicationPending = false ∧ s'.Free ∧ s.holder.phase = .applied size := by
  cases h with
  | barrier howed hphase hframe hsizes =>
    obtain ⟨hpending', hphase', hframe', hlast', hsizes'⟩ := hold_fields hstep howed.holder
    exact .inl ⟨hpending'.trans hpending, hlast'.trans hlast,
      .barrier (howed.hold hstep fun _ => hsizes) (hphase'.trans hphase) (hframe'.trans hframe)
        (hsizes' hsizes), howed.holder⟩
  | framed howed hphase hframe hsizes =>
    obtain ⟨hpending', hphase', hframe', hlast', hsizes'⟩ := hold_fields hstep howed.holder
    exact .inl ⟨hpending'.trans hpending, hlast'.trans hlast,
      .framed (howed.hold hstep fun _ => hsizes) (hphase'.trans hphase) (hframe'.trans hframe)
        (hsizes' hsizes), howed.holder⟩
  | listed howed htold hframe hsizes hwoken =>
    refine .inl ?_
    cases hstep with
    | taking =>
      exact ⟨hpending, hlast, .listed ⟨howed.untaken, by simp, howed.applied⟩ htold hframe hsizes
        (.inr (.inr (.inr rfl))), howed.holder⟩
    | taken =>
      exact ⟨hpending, hlast, .taken htold hframe rfl (by simp [hsizes]) rfl howed.applied,
        howed.holder⟩
    | viewport htop =>
      exact ⟨hpending, hlast, .listed ⟨howed.untaken, howed.holder, howed.applied⟩ htold hframe
        hsizes hwoken, howed.holder⟩
    | late => exact ⟨hpending, hlast, .listed howed htold hframe hsizes hwoken, howed.holder⟩
    | size _ hsize => exact nomatch howed.untaken.symm.trans hsize
    | wait htop =>
      -- It was at the top of its loop, and so was not about to look.
      obtain hrecorded | hsignal | htaking | htaken := hwoken
      · exact ⟨hpending, hlast, .listed ⟨howed.untaken, by simp, howed.applied⟩ htold hframe hsizes
          (.inl hrecorded), howed.holder⟩
      · exact ⟨hpending, hlast, .listed ⟨howed.untaken, by simp, howed.applied⟩ htold hframe hsizes
          (.inr (.inl hsignal)), howed.holder⟩
      · exact nomatch htop.symm.trans htaking
      · exact nomatch htop.symm.trans htaken
    | finish hphase => exact absurd hphase (howed.holder _)
    | wake =>
      exact ⟨hpending, hlast, .listed ⟨howed.untaken, by simp, howed.applied⟩ htold hframe hsizes
        (.inr (.inr (.inl rfl))), howed.holder⟩
  | taken htold hframe hsizes hsize htop happlied =>
    refine .inl ?_
    have hunheld : ∀ other, s.holder.phase ≠ .applied other := by simp [htop]
    cases hstep with
    | taking hphase => exact nomatch htop.symm.trans hphase
    | taken hphase => exact nomatch htop.symm.trans hphase
    | viewport => exact ⟨hpending, hlast, .taken htold hframe hsizes hsize htop happlied, hunheld⟩
    | late => exact ⟨hpending, hlast, .taken htold hframe hsizes hsize htop happlied, hunheld⟩
    | size _ hother =>
      cases hsize.symm.trans hother
      exact ⟨hpending, hlast, .applied htold hframe hsizes rfl rfl happlied rfl, hunheld⟩
    | wait _ hnone => exact nomatch hsize.symm.trans hnone
    | finish hphase => exact nomatch htop.symm.trans hphase
    | wake hphase => exact nomatch htop.symm.trans hphase
  | applied htold hframe hsizes hsize hholder happlied hgrid =>
    refine .inr ?_
    cases hstep with
    | taking hphase => exact nomatch hholder.symm.trans hphase
    | taken hphase => exact nomatch hholder.symm.trans hphase
    | viewport hphase => exact nomatch hholder.symm.trans hphase
    | late hphase => exact nomatch hholder.symm.trans hphase
    | size hphase => exact nomatch hholder.symm.trans hphase
    | wait hphase => exact nomatch hholder.symm.trans hphase
    | wake hphase => exact nomatch hholder.symm.trans hphase
    | finish hphase =>
      cases hholder.symm.trans hphase
      have hunheld : ∀ other, s.phase ≠ .barrier other ∧ s.phase ≠ .framed other := by
        obtain hrecorded | hidle := htold
        · simp [hrecorded]
        · simp [hidle]
      rw [finishSizeApplication, if_pos hframe]
      refine ⟨rfl, ⟨hunheld, rfl, hsizes, hsize, by simp, happlied, fun other hother => ?_⟩, hholder⟩
      exact Option.some.inj (hlast.symm.trans hother) ▸ hgrid

/-! ### One step -/

def Next (s : Pane serde) (op : Op serde) (s' : Pane serde) : Prop := s.step op = some s'

/-- The reader is about to return bytes. -/
def Returning (s : Pane serde) : Prop :=
  (∃ room, s.phase = .looping room) ∧ (s.pending ≠ [] ∨ s.reconnectReplay ≠ []) ∨
    ∃ room length bytes, s.phase = .payload room length bytes ∧ length ≤ bytes.length

/-- No time-out falls into a payload with no replacement queued. -/
def Unbroken (s : Pane serde) : Prop :=
  ∀ room length bytes, s.phase = .payload room length bytes → bytes.length < length →
    (∃ reads, s.connection.reads = .timedOut :: reads) → s.readerHandoffs ≠ []

/-- The condition on the steps. -/
def Meets (s : Pane serde) : Op serde → Prop
  | .advance => s.Unbroken ∧ (s.Returning → s.last = none → ∀ viewport,
      s.source.viewport = some viewport → s.grid = some viewport)
  | .hold _ => s.Advertised
  | .replace _ sizes => sizes = []
  | _ => True

variable (source : Source serde)

theorem streams_start : (start source).Streams where
  bytes := by simp [start, due, took, payloads]
  aligned _ := source.carries
  within _ _ _ h := by cases h
  receiving _ h := by cases h
  payload _ _ _ h := by cases h
  whole _ h := by cases h

theorem Streams.congr (h : s.Streams) (hconnection : s'.connection = s.connection)
    (hpending : s'.pending = s.pending) (hreplay : s'.reconnectReplay = s.reconnectReplay)
    (hreturned : s'.returned = s.returned) (hsource : s'.source = s.source)
    (htaken : s'.taken = s.taken) (hearlier : s'.earlier = s.earlier)
    (hphase : s'.phase = s.phase ∨ (∀ room length bytes, s.phase ≠ .payload room length bytes) ∧
      (∀ room length bytes, s'.phase ≠ .payload room length bytes) ∧
      ∀ room, s'.phase ≠ .receiving room) : s'.Streams := by
  obtain ⟨hbytes, haligned, hwithin, hreceiving, hpayload, hwhole⟩ := h
  cases s
  cases s'
  dsimp only at hconnection hpending hreplay hreturned hsource htaken hearlier hphase
  subst hconnection hpending hreplay hreturned hsource htaken hearlier
  obtain rfl | ⟨hnot, hnot', hnot''⟩ := hphase
  · refine ⟨hbytes, haligned, fun room length bytes hpayload => ?_, hreceiving, hpayload, hwhole⟩
    obtain ⟨hnext, hfits, hfirst⟩ := hwithin room length bytes hpayload
    exact ⟨hnext, hfits, hfirst⟩
  · exact ⟨hbytes, fun _ => haligned hnot, fun _ _ _ h => absurd h (hnot' _ _ _),
      fun _ h => absurd h (hnot'' _), fun _ _ _ h => absurd h (hnot' _ _ _), hwhole⟩

variable {op : Op serde}

theorem Streams.step (h : s.Streams) (hmeets : s.Meets op) (hstep : s.Next op s') :
    s'.Streams := by
  cases op with
  | call room =>
    change (if s.phase = .idle then some (s.call room) else none) = some s' at hstep
    split_ifs at hstep with hidle
    cases hstep
    rw [call]
    split_ifs
    · exact h
    · exact h.congr rfl rfl rfl rfl rfl rfl rfl
        (.inr ⟨by simp [hidle], by simp, by simp⟩)
  | advance =>
    change s.advance = some s' at hstep
    rw [Pane.advance] at hstep
    split at hstep
    · cases hstep
    · next hphase => exact Option.some.inj hstep ▸ h.loop hphase
    · next hphase => exact Option.some.inj hstep ▸ h.receive hphase
    · next hphase => exact Option.some.inj hstep ▸ h.readPayload hphase (hmeets.1 _ _ _ hphase)
    · next hphase =>
      exact Option.some.inj hstep ▸ h.congr rfl rfl rfl rfl rfl rfl rfl
        (.inr ⟨by simp [hphase], by simp, by simp⟩)
    · next hphase =>
      exact Option.some.inj hstep ▸ h.congr rfl rfl rfl rfl rfl rfl rfl
        (.inr ⟨by simp [hphase], by simp, by simp⟩)
    · next hphase =>
      exact Option.some.inj hstep ▸ h.congr rfl rfl rfl rfl rfl rfl rfl
        (.inr ⟨by simp [hphase], by simp, by simp⟩)
  | hold laidOut =>
    have hhold : s.HoldStep s' := holdStep hstep
    cases hhold with
    | finish =>
      rw [finishSizeApplication]
      split_ifs
      · exact h.congr rfl rfl rfl rfl rfl rfl rfl (.inl rfl)
      · exact h.congr rfl rfl rfl rfl rfl rfl rfl (.inl rfl)
    | late => exact h
    | taking => exact h.congr rfl rfl rfl rfl rfl rfl rfl (.inl rfl)
    | taken => exact h.congr rfl rfl rfl rfl rfl rfl rfl (.inl rfl)
    | viewport => exact h.congr rfl rfl rfl rfl rfl rfl rfl (.inl rfl)
    | size => exact h.congr rfl rfl rfl rfl rfl rfl rfl (.inl rfl)
    | wait => exact h.congr rfl rfl rfl rfl rfl rfl rfl (.inl rfl)
    | wake => exact h.congr rfl rfl rfl rfl rfl rfl rfl (.inl rfl)
  | exit =>
    change (if s.holder.phase = .waiting then _ else none) = some s' at hstep
    split_ifs at hstep
    exact Option.some.inj hstep ▸ h.congr rfl rfl rfl rfl rfl rfl rfl (.inl rfl)
  | replace source sizes =>
    change s.replace source sizes = some s' at hstep
    rw [replace] at hstep
    split_ifs at hstep
    exact Option.some.inj hstep ▸ h.congr rfl rfl rfl rfl rfl rfl rfl (.inl rfl)
  | forward =>
    change s.forward = some s' at hstep
    rw [forward] at hstep
    split at hstep
    · cases hstep
    · exact Option.some.inj hstep ▸ h.congr rfl rfl rfl rfl rfl rfl rfl (.inl rfl)
    · exact Option.some.inj hstep ▸ h.congr rfl rfl rfl rfl rfl rfl rfl (.inl rfl)
    · exact Option.some.inj hstep ▸ h.congr rfl rfl rfl rfl rfl rfl rfl (.inl rfl)

theorem paced_start : (start source).Paced where
  holding := .inl ⟨rfl, by simp [start], rfl, rfl, rfl, by simp [start],
    by simp [start, seen, took, sizesOf], by simp [start, last, took, sizesOf]⟩
  forwarding _ _ h := by cases h

theorem Free.congr (h : s.Free) (hphase : ∀ size, s'.phase ≠ .barrier size ∧ s'.phase ≠ .framed size)
    (hframe : s'.pendingSizeFrame = s.pendingSizeFrame) (hsizes : s'.sizes = s.sizes)
    (hholder : s'.holder.size = s.holder.size) (hunheld : ∀ size, s'.holder.phase ≠ .applied size)
    (hgrid : s'.grid = s.grid) (happlied : s'.applied = s.applied) (hseen : s'.seen = s.seen)
    (hlast : s'.last = s.last) : s'.Free where
  phase := hphase
  frame := hframe.trans h.frame
  sizes := hsizes.trans h.sizes
  untaken := hholder.trans h.untaken
  holder := hunheld
  applied := happlied.trans (h.applied.trans hseen.symm)
  grid size hsize := hgrid.trans (h.grid size (hlast.symm.trans hsize))

/-- What leaves the size where it is, and wakes the holder no less. -/
theorem Held.congr (h : s.Held size) (hphase : s'.phase = s.phase)
    (hframe : s'.pendingSizeFrame = s.pendingSizeFrame) (hsizes : s'.sizes = s.sizes)
    (hholder : s'.holder.size = s.holder.size) (hholderPhase : s'.holder.phase = s.holder.phase ∨
      s.holder.phase = .waiting ∧ s'.holder.phase = .gone)
    (hsignal : s.sizeSignal = true → s'.sizeSignal = true) (hgrid : s'.grid = s.grid)
    (happlied : s'.applied = s.applied) (hseen : s'.seen = s.seen) : s'.Held size := by
  have howed : s.Owed size → s'.Owed size := by
    intro howed
    refine ⟨hholder.trans howed.untaken, fun other => ?_, ?_⟩
    · obtain hsame | ⟨-, hgone⟩ := hholderPhase
      · rw [hsame]
        exact howed.holder other
      · rw [hgone]
        simp
    · rw [happlied, hseen]
      exact howed.applied
  cases h with
  | barrier howed' hbarrier hframe' hsizes' =>
    exact .barrier (howed howed') (hphase.trans hbarrier) (hframe.trans hframe')
      (hsizes.trans hsizes')
  | framed howed' hframed hframe' hsizes' =>
    exact .framed (howed howed') (hphase.trans hframed) (hframe.trans hframe')
      (hsizes.trans hsizes')
  | listed howed' htold hframe' hsizes' hwoken =>
    refine .listed (howed howed') (htold.imp hphase.trans hphase.trans) (hframe.trans hframe')
      (hsizes.trans hsizes') ?_
    obtain hrecorded | hsignal' | htaking | htaken := hwoken
    · exact .inl (hphase.trans hrecorded)
    · exact .inr (.inl (hsignal hsignal'))
    · obtain hsame | ⟨hwaiting, -⟩ := hholderPhase
      · exact .inr (.inr (.inl (hsame.trans htaking)))
      · exact nomatch hwaiting.symm.trans htaking
    · obtain hsame | ⟨hwaiting, -⟩ := hholderPhase
      · exact .inr (.inr (.inr (hsame.trans htaken)))
      · exact nomatch hwaiting.symm.trans htaken
  | taken htold hframe' hsizes' hsize htop happlied' =>
    obtain hsame | ⟨hwaiting, -⟩ := hholderPhase
    · exact .taken (htold.imp hphase.trans hphase.trans) (hframe.trans hframe')
        (hsizes.trans hsizes') (hholder.trans hsize) (hsame.trans htop)
        (by rw [happlied, hseen]; exact happlied')
    · exact nomatch hwaiting.symm.trans htop
  | applied htold hframe' hsizes' hsize hphase' happlied' hgrid' =>
    obtain hsame | ⟨hwaiting, -⟩ := hholderPhase
    · exact .applied (htold.imp hphase.trans hphase.trans) (hframe.trans hframe')
        (hsizes.trans hsizes') (hholder.trans hsize) (hsame.trans hphase')
        (by rw [happlied, hseen]; exact happlied') (hgrid.trans hgrid')
    · exact nomatch hwaiting.symm.trans hphase'

theorem Paced.step (h : s.Paced) (hstreams : s.Streams) (hmeets : s.Meets op) (hstep : s.Next op s') :
    s'.Paced := by
  cases op with
  | call room =>
    change (if s.phase = .idle then some (s.call room) else none) = some s' at hstep
    split_ifs at hstep with hidle
    cases hstep
    rw [call]
    split_ifs with hnothing
    · exact h
    · rw [not_or, Bool.not_eq_true] at hnothing
      exact h.of_quiet ⟨rfl, rfl, rfl, rfl, rfl, rfl, rfl, rfl, .inl rfl,
        fun _ => ⟨by simp, by simp⟩⟩ hnothing.2
  | advance => exact h.advance hstreams hstep
  | hold laidOut =>
    have hhold : s.HoldStep s' := holdStep hstep
    have hforwarding : s'.forwarding = s.forwarding := by
      cases hhold with
      | finish =>
        rw [finishSizeApplication]
        split_ifs <;> rfl
      | taking => rfl
      | taken => rfl
      | viewport => rfl
      | late => rfl
      | size => rfl
      | wait => rfl
      | wake => rfl
    refine ⟨?_, hforwarding ▸ h.forwarding⟩
    obtain ⟨hnone, hfree⟩ | ⟨hpending, size, hlast, hheld⟩ := h.holding
    · obtain ⟨hfree', hpending'⟩ := hfree.hold hmeets hhold
      exact .inl ⟨hpending'.trans hnone, hfree'⟩
    · obtain ⟨hpending', hlast', hheld', -⟩ | ⟨hnone, hfree, -⟩ := hheld.hold hlast hpending hhold
      · exact .inr ⟨hpending', size, hlast', hheld'⟩
      · exact .inl ⟨hnone, hfree⟩
  | exit =>
    change (if s.holder.phase = .waiting then _ else none) = some s' at hstep
    split_ifs at hstep with hwaiting
    cases hstep
    refine ⟨?_, h.forwarding⟩
    obtain ⟨hnone, hfree⟩ | ⟨hpending, size, hlast, hheld⟩ := h.holding
    · exact .inl ⟨hnone, hfree.congr hfree.phase rfl rfl rfl (by simp) rfl rfl rfl rfl⟩
    · exact .inr ⟨hpending, size, hlast, hheld.congr rfl rfl rfl rfl (.inr ⟨hwaiting, rfl⟩)
        (fun h => h) rfl rfl rfl⟩
  | replace source sizes =>
    change s.replace source sizes = some s' at hstep
    rw [replace] at hstep
    split_ifs at hstep
    cases hstep
    refine ⟨?_, fun other viewport hforwarding => ?_⟩
    · obtain ⟨hnone, hfree⟩ | ⟨hpending, size, hlast, hheld⟩ := h.holding
      · exact .inl ⟨hnone, hfree.congr hfree.phase rfl rfl rfl hfree.holder rfl rfl rfl rfl⟩
      · exact .inr ⟨hpending, size, hlast,
          hheld.congr rfl rfl rfl rfl (.inl rfl) (fun h => h) rfl rfl rfl⟩
    · exact (Forwarding.sizes.inj hforwarding).1 ▸ hmeets
  | forward =>
    change s.forward = some s' at hstep
    rw [forward] at hstep
    split at hstep
    · cases hstep
    · next sizes viewport hforwarding =>
      cases hstep
      obtain rfl := h.forwarding sizes viewport hforwarding
      have hsizes : s.sizes ++ [] = s.sizes := List.append_nil _
      refine ⟨?_, fun _ _ hother => (by cases hother)⟩
      obtain ⟨hnone, hfree⟩ | ⟨hpending, size, hlast, hheld⟩ := h.holding
      · exact .inl ⟨hnone, hfree.congr hfree.phase rfl hsizes rfl hfree.holder rfl rfl rfl rfl⟩
      · exact .inr ⟨hpending, size, hlast, hheld.congr rfl rfl hsizes rfl (.inl rfl)
          (fun h => by simp [h]) rfl rfl rfl⟩
    · cases hstep
      refine ⟨?_, fun _ _ hother => (by cases hother)⟩
      obtain ⟨hnone, hfree⟩ | ⟨hpending, size, hlast, hheld⟩ := h.holding
      · exact .inl ⟨hnone, hfree.congr hfree.phase rfl rfl rfl hfree.holder rfl rfl rfl rfl⟩
      · exact .inr ⟨hpending, size, hlast,
          hheld.congr rfl rfl rfl rfl (.inl rfl) (fun h => h) rfl rfl rfl⟩
    · cases hstep
      refine ⟨?_, fun _ _ hother => (by cases hother)⟩
      obtain ⟨hnone, hfree⟩ | ⟨hpending, size, hlast, hheld⟩ := h.holding
      · exact .inl ⟨hnone, hfree.congr hfree.phase rfl rfl rfl hfree.holder rfl rfl rfl rfl⟩
      · exact .inr ⟨hpending, size, hlast,
          hheld.congr rfl rfl rfl rfl (.inl rfl) (fun _ => rfl) rfl rfl rfl⟩

/-! ### What a step returns -/

/-- What a step returns is returned behind every size that came before it, each applied once and in
order, and on the grid that it is for. -/
structure Gives (s : Pane serde) (op : Op serde) (s' : Pane serde) : Prop where
  appends : ∃ bytes, s'.returned = s.returned ++ bytes
  onGrid : s'.returned ≠ s.returned → s.sizeApplicationPending = false ∧ s.applied = s.seen ∧
    ∀ grid, s.force = some grid → s.grid = some grid
  /-- What holds the reader is released once it was applied. -/
  released : ∀ laidOut size, op = .hold laidOut → s.holder.phase = .applied size →
    s'.sizeApplicationPending = false

theorem returned_install (s : Pane serde) (room : ℕ) (rest : List UInt8) (lost : Bool) :
    (s.install room rest lost).returned = s.returned := by
  rw [Pane.install]
  split <;> rfl

theorem returned_receive (s : Pane serde) (room : ℕ) : (s.receive room).returned = s.returned := by
  rw [Pane.receive]
  split
  · exact returned_install ..
  · split
    · exact returned_install ..
    · next event _ =>
      cases event with
      | sharedClosed => exact returned_install ..
      | output => rfl
      | size => rfl
      | other => rfl
  · split_ifs
    · exact returned_install ..
    · split
      · rfl
      · exact returned_install ..
      · exact returned_install ..

theorem returned_readPayload (s : Pane serde) (room length : ℕ) (bytes : List UInt8)
    (h : bytes.length < length) : (s.readPayload room length bytes).returned = s.returned := by
  rw [Pane.readPayload, if_neg (not_le.mpr h)]
  split
  · rfl
  · exact returned_install ..
  · exact returned_install ..

theorem appends_loop (s : Pane serde) (room : ℕ) :
    ∃ bytes, (s.loop room).returned = s.returned ++ bytes := by
  rw [Pane.loop]
  split_ifs
  · exact ⟨_, rfl⟩
  · exact ⟨_, rfl⟩
  · exact ⟨[], (List.append_nil _).symm⟩

theorem appends_readPayload (s : Pane serde) (room length : ℕ) (bytes : List UInt8) :
    ∃ more, (s.readPayload room length bytes).returned = s.returned ++ more := by
  obtain hwhole | hshort := le_or_gt length bytes.length
  · rw [Pane.readPayload, if_pos hwhole]
    exact ⟨_, rfl⟩
  · exact ⟨[], (returned_readPayload s room length bytes hshort).trans (List.append_nil _).symm⟩

/-- Only a step that is about to return bytes does. -/
theorem appends_advance (hstep : s.advance = some s') :
    (∃ bytes, s'.returned = s.returned ++ bytes) ∧ (s'.returned ≠ s.returned → s.Returning) := by
  have hnone : s'.returned = s.returned →
      (∃ bytes, s'.returned = s.returned ++ bytes) ∧ (s'.returned ≠ s.returned → s.Returning) :=
    fun hsame => ⟨⟨[], hsame.trans (List.append_nil _).symm⟩, fun hnot => absurd hsame hnot⟩
  rw [Pane.advance] at hstep
  split at hstep
  · cases hstep
  · next room hphase =>
    cases hstep
    refine ⟨appends_loop s room, fun hchanged => .inl ⟨⟨room, hphase⟩, ?_⟩⟩
    by_contra hnothing
    rw [not_or, not_not, not_not] at hnothing
    refine hchanged ?_
    rw [Pane.loop, if_neg (not_not.mpr hnothing.1), if_neg (not_not.mpr hnothing.2)]
  · next room hphase =>
    cases hstep
    exact hnone (returned_receive s room)
  · next room length bytes hphase =>
    cases hstep
    refine ⟨appends_readPayload s room length bytes, fun hchanged =>
      .inr ⟨room, length, bytes, hphase, ?_⟩⟩
    by_contra hshort
    exact hchanged (returned_readPayload s room length bytes (not_le.mp hshort))
  · exact hnone (Option.some.inj hstep ▸ rfl)
  · exact hnone (Option.some.inj hstep ▸ rfl)
  · exact hnone (Option.some.inj hstep ▸ rfl)

/-- While the reader is about to return bytes, nothing holds it. -/
theorem Paced.free_of_returning (h : s.Paced) (hreturning : s.Returning) :
    s.sizeApplicationPending = false := by
  obtain ⟨⟨room, hphase⟩, -⟩ | ⟨room, length, bytes, hphase, -⟩ := hreturning
  · exact h.free_of_phase (by simp [hphase]) (by simp [Told, hphase])
  · exact h.free_of_phase (by simp [hphase]) (by simp [Told, hphase])

theorem returned_hold (hstep : s.HoldStep s') : s'.returned = s.returned := by
  cases hstep with
  | finish =>
    rw [finishSizeApplication]
    split_ifs <;> rfl
  | taking => rfl
  | taken => rfl
  | viewport => rfl
  | late => rfl
  | size => rfl
  | wait => rfl
  | wake => rfl

theorem Paced.gives (h : s.Paced) (hmeets : s.Meets op) (hstep : s.Next op s') :
    s.Gives op s' := by
  have hnone : s'.returned = s.returned → (∀ laidOut, op ≠ .hold laidOut) → s.Gives op s' :=
    fun hsame hop => ⟨⟨[], hsame.trans (List.append_nil _).symm⟩, fun hnot => absurd hsame hnot,
      fun laidOut _ heq => absurd heq (hop laidOut)⟩
  cases op with
  | call room =>
    change (if s.phase = .idle then some (s.call room) else none) = some s' at hstep
    split_ifs at hstep
    refine hnone ?_ (by simp)
    rw [← Option.some.inj hstep, call]
    split_ifs <;> rfl
  | advance =>
    obtain ⟨happends, hreturning⟩ := appends_advance hstep
    refine ⟨happends, fun hchanged => ?_, fun _ _ heq => (by cases heq)⟩
    have hfree := h.free_of_returning (hreturning hchanged)
    obtain ⟨-, hfree'⟩ | ⟨hpending, -⟩ := h.holding
    · refine ⟨hfree, hfree'.applied, fun grid hforce => ?_⟩
      rw [force] at hforce
      cases hlast : s.last with
      | none =>
        rw [hlast] at hforce
        exact hmeets.2 (hreturning hchanged) hlast grid hforce
      | some size =>
        rw [hlast] at hforce
        rw [← Option.some.inj hforce]
        exact hfree'.grid size hlast
    · exact nomatch hfree.symm.trans hpending
  | hold laidOut =>
    have hhold : s.HoldStep s' := holdStep hstep
    have hsame := returned_hold hhold
    refine ⟨⟨[], hsame.trans (List.append_nil _).symm⟩, fun hnot => absurd hsame hnot,
      fun _ size _ hphase => ?_⟩
    obtain ⟨-, hfree⟩ | ⟨hpending, other, hlast, hheld⟩ := h.holding
    · exact absurd hphase (hfree.holder size)
    · obtain ⟨-, -, -, hunheld⟩ | ⟨hnone', -⟩ := hheld.hold hlast hpending hhold
      · exact absurd hphase (hunheld size)
      · exact hnone'
  | exit =>
    change (if s.holder.phase = .waiting then _ else none) = some s' at hstep
    split_ifs at hstep
    exact hnone (Option.some.inj hstep ▸ rfl) (by simp)
  | replace source sizes =>
    change s.replace source sizes = some s' at hstep
    rw [replace] at hstep
    split_ifs at hstep
    exact hnone (Option.some.inj hstep ▸ rfl) (by simp)
  | forward =>
    change s.forward = some s' at hstep
    rw [forward] at hstep
    refine hnone ?_ (by simp)
    split at hstep
    · cases hstep
    · exact Option.some.inj hstep ▸ rfl
    · exact Option.some.inj hstep ▸ rfl
    · exact Option.some.inj hstep ▸ rfl

/-! ### Runs -/

/-- **A shared pane's stream**: in every run the reader returns the payloads that came whole, in
order and once each, every connection's behind what it replays and nothing of it missing; nothing
else is taken for a message; and it returns nothing behind a size before that was applied, nor off
the grid that it is for. -/
theorem delivered (source : Source serde) {ops : List (Op serde)}
    (hrun : Run (Meeting Meets Next) (start source) ops s) :
    s.Streams ∧ s.Paced ∧ ∀ op s', s.Meets op → s.Next op s' → s.Gives op s' := by
  have hsound : s.Streams ∧ s.Paced :=
    hrun.invariant (I := fun s => s.Streams ∧ s.Paced)
      ⟨streams_start source, paced_start source⟩ fun _ _ _ h hnext =>
      ⟨h.1.step hnext.1 hnext.2, h.2.step h.1 hnext.1 hnext.2⟩
  exact ⟨hsound.1, hsound.2, fun _ _ => hsound.2.gives⟩

end Pane

/-- `{"event":"output","pane_id":1,"length":2}` -/
def twoBytes : List UInt8 :=
  [123, 34, 101, 118, 101, 110, 116, 34, 58, 34, 111, 117, 116, 112, 117, 116, 34, 44, 34, 112,
   97, 110, 101, 95, 105, 100, 34, 58, 49, 44, 34, 108, 101, 110, 103, 116, 104, 34, 58, 50,
   125]

/-- `{"event":"output","pane_id":1,"length":48}` -/
def manyBytes : List UInt8 :=
  [123, 34, 101, 118, 101, 110, 116, 34, 58, 34, 111, 117, 116, 112, 117, 116, 34, 44, 34, 112,
   97, 110, 101, 95, 105, 100, 34, 58, 49, 44, 34, 108, 101, 110, 103, 116, 104, 34, 58, 52, 56,
   125]

/-- `{"event":"size","session_id":1,"pane_id":1,"revision":0,"columns":80,"lines":24}` -/
def aSize : List UInt8 :=
  [123, 34, 101, 118, 101, 110, 116, 34, 58, 34, 115, 105, 122, 101, 34, 44, 34, 115, 101, 115,
   115, 105, 111, 110, 95, 105, 100, 34, 58, 49, 44, 34, 112, 97, 110, 101, 95, 105, 100, 34,
   58, 49, 44, 34, 114, 101, 118, 105, 115, 105, 111, 110, 34, 58, 48, 44, 34, 99, 111, 108,
   117, 109, 110, 115, 34, 58, 56, 48, 44, 34, 108, 105, 110, 101, 115, 34, 58, 50, 52, 125]

/-- Three messages of a pane, as they are serialized. -/
def paneSerde : Serde Event where
  toVec
    | .output 2 => some twoBytes
    | .output 48 => some manyBytes
    | .size ⟨0, 80, 24⟩ => some aSize
    | _ => none
  fromSlice bytes :=
    if bytes = twoBytes then some (.output 2)
    else if bytes = manyBytes then some (.output 48)
    else if bytes = aSize then some (.size ⟨0, 80, 24⟩)
    else none
  fromSlice_toVec := by
    intro message bytes h
    split at h
    · exact Option.some.inj h ▸ by decide
    · exact Option.some.inj h ▸ by decide
    · exact Option.some.inj h ▸ by decide
    · cases h

/-- A size, and output behind it. -/
def resized : Source paneSerde where
  replay := []
  viewport := none
  items := [.size ⟨0, 80, 24⟩, .output [65, 66]]
  connection := ⟨[], [.data (frameOf aSize ++ frameOf twoBytes ++ [65, 66])]⟩
  carries := ⟨frameOf aSize ++ frameOf twoBytes ++ [65, 66], by decide, by decide⟩

namespace Pane

variable {s : Pane serde}

/-- Nothing times out, is advertised or replaced. -/
def steady (s : Pane serde) : Op serde → Bool
  | .replace _ _ => false
  | _ => !s.connection.reads.contains .timedOut && s.source.viewport == none &&
      s.holder.viewport == none

theorem meets_of_steady {op : Op serde} (h : s.steady op = true) : s.Meets op := by
  cases op with
  | replace => cases h
  | call => trivial
  | exit => trivial
  | forward => trivial
  | advance =>
    simp only [steady, Bool.and_eq_true, beq_iff_eq, Bool.not_eq_true'] at h
    refine ⟨fun _ _ _ _ _ ⟨reads, hreads⟩ => ?_, fun _ _ viewport hviewport => ?_⟩
    · rw [hreads] at h
      simp at h
    · exact nomatch h.1.2.symm.trans hviewport
  | hold laidOut =>
    simp only [steady, Bool.and_eq_true, beq_iff_eq] at h
    exact fun viewport _ hviewport => nomatch h.2.symm.trans hviewport

/-- The size is read, taken, applied and finished with, and the output behind it is read. -/
def resizing : List (Op paneSerde) :=
  [.hold true, .hold true, .hold true, .call 10, .advance, .advance, .advance, .advance, .advance,
    .advance, .hold true, .hold true, .hold true, .hold true, .hold true, .call 10, .advance,
    .advance]

theorem delivered_resizing : ∃ s s' : Pane paneSerde,
    Run (Meeting Meets Next) (start resized) resizing s ∧ s.Streams ∧ s.Paced ∧
    s.Next .advance s' ∧ s'.returned = [65, 66] ∧ s.Gives .advance s' := by
  obtain ⟨s, hrun, hmeets, hstep⟩ := exists_run_of_foldlM
    (f := fun s op => if s.steady op then s.step op else none)
    (P := fun s : Pane paneSerde => s.steady .advance = true ∧
      (s.advance.any fun s' => s'.returned = [65, 66]) = true)
    resizing (s := start resized) (by decide +kernel)
  obtain ⟨s', hnext, hend⟩ := (Option.any_eq_true _ _).mp hstep
  have hrun' : Run (Meeting Meets Next) (start resized) resizing s :=
    hrun.mono fun s op s' h => by
      split_ifs at h with hsteady
      exact ⟨meets_of_steady hsteady, h⟩
  obtain ⟨hstreams, hpaced, hgives⟩ := delivered resized hrun'
  exact ⟨s, s', hrun', hstreams, hpaced, hnext, of_decide_eq_true hend,
    hgives _ _ (meets_of_steady hmeets) hnext⟩

end Pane

/-- The rest of a payload that begins with one byte, and reads like a message. -/
def likeMessage : List UInt8 := frameOf twoBytes ++ [65, 66]

/-- A time-out behind the first byte of a payload. -/
def cut : Source paneSerde where
  replay := []
  viewport := none
  items := [.output (1 :: likeMessage)]
  connection := ⟨[], [.data (frameOf manyBytes ++ [1]), .timedOut, .data likeMessage]⟩
  carries := ⟨frameOf manyBytes ++ 1 :: likeMessage, by decide, by decide⟩

/-- A grid that is advertised. -/
def advertised : Source paneSerde where
  replay := []
  viewport := some (80, 24)
  items := [.output [65, 66]]
  connection := ⟨[], [.data (frameOf twoBytes ++ [65, 66])]⟩
  carries := ⟨frameOf twoBytes ++ [65, 66], by decide, by decide⟩

namespace Pane

/-- A time-out inside a payload loses what was read of it, and the rest is taken for a message. And
the bytes of a connection can be returned before the grid that it advertises is applied. -/
theorem misread :
    (∃ s : Pane paneSerde, Run Next (start cut)
        [.call 10, .advance, .advance, .advance, .advance, .call 10, .advance, .advance, .advance,
          .advance] s ∧
      s.returned = [65, 66] ∧ ¬ s.returned <+: payloads cut.items) ∧
    ∃ s : Pane paneSerde, Run Next (start advertised)
        [.call 10, .advance, .advance, .advance, .advance] s ∧
      s.returned = [65, 66] ∧ s.force = some (80, 24) ∧ s.grid = none := by
  constructor
  · obtain ⟨s, hrun, hreturned⟩ := exists_run_of_foldlM (f := Pane.step)
      (P := fun s : Pane paneSerde => s.returned = [65, 66])
      [.call 10, .advance, .advance, .advance, .advance, .call 10, .advance, .advance, .advance,
        .advance] (s := start cut) (by decide +kernel)
    exact ⟨s, hrun, hreturned, by rw [hreturned]; decide⟩
  · exact exists_run_of_foldlM (f := Pane.step)
      (P := fun s : Pane paneSerde => s.returned = [65, 66] ∧ s.force = some (80, 24) ∧
        s.grid = none)
      [.call 10, .advance, .advance, .advance, .advance] (s := start advertised)
      (by decide +kernel)

end Pane

end Zetta.Zmux.SharedReader
