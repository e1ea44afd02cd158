import Zetta.Zmux.Persistence.Records
import Zetta.Lib.Run

/-!
# Stopping between any two writes

The daemon can stop after any number of writes, and go on from the memory it has, or from a store
that is opened anew. What is loaded of a record afterwards is the last write of it whose metadata
file was replaced, with the counters of the newest sidecar written against that file
(`Consistent.load`), and no file that is left over makes a later write fail (`crash_consistent`).
The counters can be those of an update that has not completed, and a record goes when it is pruned,
also by the write of another (`load_stopped_or_pruned`).
-/

namespace Zetta.Zmux.Persistence

open Handler Function

variable {ρ : Type} [DecidableEq ρ]

/-! ### Runs -/

/-- The last write of a record whose metadata file was replaced. -/
structure Kept (ρ : Type) where
  session : Session ρ
  /-- The counters of the newest sidecar written against that metadata. -/
  authentication : Option Authentication
  /-- A write of the record has completed since it is there. -/
  complete : Bool

structure State (ρ : Type) where
  world : World ρ
  kept : ℕ → Option (Kept ρ)

inductive Event (ρ : Type)
  | sealFor (id : ℕ) (value : Seal)
  | unsealFor (id : ℕ)
  | saveSession (c : Circumstances) (session : Session ρ)
  | updateSession (c : Circumstances) (session : Session ρ)
  | updateAuthentication (id : ℕ) (authentication : Authentication)
  | forget (id : ℕ)
  | openStore (c : Circumstances) (replacing : Bool)

namespace Event

def op (size : File ρ → ℕ) : Event ρ → Op ρ Unit
  | sealFor id value => Persistence.sealFor id value
  | unsealFor id => Persistence.unsealFor id
  | saveSession c session => Persistence.saveSession size c session
  | updateSession c session => Persistence.updateSession size c session
  | updateAuthentication id authentication =>
    Persistence.updateAuthentication size id authentication
  | forget id => Persistence.forget id
  | openStore c replacing => Persistence.openStore size c replacing

def session? : Event ρ → Option (Session ρ)
  | saveSession _ session | updateSession _ session => some session
  | _ => none

def counters? : Event ρ → Option Authentication
  | updateAuthentication _ authentication => some authentication
  | _ => none

end Event

/-- What a record's files say after an event, where a replaced file is the event's. -/
def observe (event : Event ρ) (completed : Bool) (before after : Files ρ) (k : Option (Kept ρ)) :
    Option (Kept ρ) :=
  if after.metadata = none then none
  else if after.metadata ≠ before.metadata then
    event.session?.map fun session => ⟨session, none, completed || k.any Kept.complete⟩
  else if after.authentication ≠ before.authentication then
    k.map fun k => { k with authentication := event.counters? }
  else k

/-- An event, and how many files are written or removed before the daemon stops. -/
abbrev Step (ρ : Type) := Event ρ × Option ℕ

/-- How an event ends. -/
def State.perform (size : File ρ → ℕ) (s : State ρ) (e : Step ρ) : Except Failure Unit × World ρ :=
  e.1.op size { s.world with writes := e.2 }

def State.step (size : File ρ → ℕ) (s : State ρ) (e : Step ρ) : State ρ where
  world := (s.perform size e).2
  kept id := observe e.1 (s.perform size e).1.isOk (s.world.disk.files id)
    ((s.perform size e).2.disk.files id) (s.kept id)

/-- An empty directory. -/
def State.initial : State ρ where
  world := ⟨.empty, ⟨.empty, [], .empty, .empty⟩, 0, none⟩
  kept _ := none

def State.run (size : File ρ → ℕ) (events : List (Step ρ)) : State ρ :=
  events.foldl (State.step size) .initial

/-- A screen as it is drawn by a terminal of its size. -/
def Emulator.redrawn (emulator : Emulator) (snapshot : Snapshot) : Snapshot :=
  match snapshot.columns, snapshot.lines with
  | some columns, some lines => { snapshot with
      bytes := emulator.snapshot (emulator.seed (emulator.new columns lines) snapshot.bytes) }
  | _, _ => snapshot

/-- What is to be loaded of a record. -/
def Kept.loaded (emulator : Emulator) (k : Kept ρ) : Session ρ :=
  { k.session with
    authentication := k.authentication.getD k.session.authentication
    snapshots := k.session.snapshots.map emulator.redrawn }

/-! ### The invariant -/

/-- A record's files are those of a write, and of the counters written against it. -/
structure Files.Holds (f : Files ρ) (id next : ℕ) (k : Kept ρ) : Prop where
  id_eq : k.session.id = id
  written : ∃ generation locations, generation < next ∧
    f.metadata = some (k.session.metadataFile generation locations) ∧
    f.loadSnapshots id generation locations = some k.session.snapshots ∧
    k.authentication = (f.authentication.filter fun sidecar =>
      sidecar.metadata = k.session.metadataFile generation locations).map (·.authentication)

/-- The record is in memory and in the manifest. -/
def World.Lists (w : World ρ) (id : ℕ) : Prop :=
  w.memory.Lists id ∧ ∃ record ∈ w.disk.manifest, record.id = id

structure Consistent (w : World ρ) (kept : ℕ → Option (Kept ρ)) : Prop where
  missing : ∀ id, kept id = none → (w.disk.files id).metadata = none
  holds : ∀ id k, kept id = some k → (w.disk.files id).Holds id w.nextGeneration k
  sidecar : ∀ id sidecar, (w.disk.files id).authentication = some sidecar →
    sidecar.record = id ∧ sidecar.metadata.generation < w.nextGeneration
  scrollback : ∀ id, (w.disk.files id).scrollback = fun _ _ => .none
  listed : ∀ id k, kept id = some k → k.complete = true → w.Lists id

omit [DecidableEq ρ] in
theorem loadSnapshots_none_scrollback {d : Disk ρ} {id : ℕ}
    (h : (d.files id).scrollback = fun _ _ => .none) : d.scrollbackSegments id = [] := by
  refine List.eq_nil_iff_forall_not_mem.mpr ?_
  rintro ⟨⟨pane, sequence⟩, file⟩ hmem
  have := mem_scrollbackSegments.mp hmem
  rw [h] at this
  cases this

omit [DecidableEq ρ] in
/-- Without segments of output the screens are only drawn. -/
theorem restoreScrollback_nil (emulator : Emulator) (id : ℕ) (snapshots : List Snapshot) :
    restoreScrollback emulator id [] snapshots = some (snapshots.map emulator.redrawn) := by
  have hsnapshot : ∀ earlier snapshot,
      restoreSnapshot emulator id [] earlier snapshot = some (emulator.redrawn snapshot) := by
    rintro earlier ⟨pane, bytes, _ | columns, _ | lines⟩
    · rfl
    · rfl
    · rfl
    · rw [restoreSnapshot, Emulator.redrawn]
      dsimp only
      split_ifs <;> rfl
  rw [restoreScrollback]
  simp only [hsnapshot]
  exact List.mapM_pure.trans (congrArg some (by
    rw [← Function.comp_def, ← List.map_map, List.zipIdx_map_fst]))

/-- **Loading** a record that holds a write gives the write. -/
theorem Consistent.load {w : World ρ} {kept : ℕ → Option (Kept ρ)} (h : Consistent w kept)
    (emulator : Emulator) (id : ℕ) :
    load emulator w.disk id = (kept id).map (Kept.loaded emulator) := by
  rcases hkept : kept id with _ | k
  · have hnone : w.disk.metadata.get? id = none := h.missing id hkept
    rw [Persistence.load, hnone]
    rfl
  · obtain ⟨rfl, generation, locations, -, hmetadata, hsnapshots, hcounters⟩ := h.holds id k hkept
    replace hmetadata : w.disk.metadata.get? k.session.id = _ := hmetadata
    have hauthentication : loadAuthentication w.disk k.session.id
        (k.session.metadataFile generation locations) = some k.authentication := by
      have hfile : w.disk.authentication.get? k.session.id =
        (w.disk.files k.session.id).authentication := rfl
      rw [loadAuthentication, hcounters, hfile]
      rcases hsidecar : (w.disk.files k.session.id).authentication with _ | sidecar
      · rfl
      · have hrecord := (h.sidecar _ sidecar hsidecar).1
        by_cases hfile : sidecar.metadata = k.session.metadataFile generation locations
        · simp [hrecord, hfile]
        · simp [hrecord, hfile]
    rw [Persistence.load, hmetadata, loadSnapshots_none_scrollback (h.scrollback _)]
    simp only [Session.metadataFile] at hauthentication ⊢
    simp [hauthentication, loadSnapshots_files, hsnapshots, restoreScrollback_nil, Kept.loaded]

/-! ### What keeps the invariant -/

/-- Records have been removed, or have lost their metadata. -/
structure Loses (w₀ w : World ρ) : Prop where
  files : PrunedFrom w₀.disk.files w.disk.files
  nextGeneration : w.nextGeneration = w₀.nextGeneration
  listed : ∀ id, w₀.Lists id → (w.disk.files id).metadata = none ∨ w.Lists id

namespace Loses

omit [DecidableEq ρ]

variable {w₀ w : World ρ}

theorem of_halted (h : Halted w₀ w) : Loses w₀ w := by
  refine ⟨h.files, h.nextGeneration, fun id hlists => ?_⟩
  obtain ⟨⟨record, hmem, rfl⟩, hmanifest⟩ := hlists
  rcases h.records record hmem with hmem' | hgone
  · exact .inr ⟨⟨record, hmem', rfl⟩, h.manifest ▸ hmanifest⟩
  · exact .inl hgone

variable {removed : List ℕ}

/-- What is in memory afterwards is in the manifest. -/
theorem lists_of_removed (h : Removed removed w₀ w) {id : ℕ} (hlists : w₀.memory.Lists id) :
    (w.disk.files id).metadata = none ∨ w.Lists id := by
  by_cases hremoved : id ∈ removed
  · refine .inl ?_
    rw [h.files, if_pos hremoved]
    rfl
  · obtain ⟨record, hmem, rfl⟩ := hlists
    have hkept : record ∈ w.memory.records := by
      rw [h.records]
      exact List.mem_filter.mpr ⟨hmem, decide_eq_true hremoved⟩
    exact .inr ⟨⟨record, hkept, rfl⟩, record, h.manifest ▸ hkept, rfl⟩

theorem of_removed (h : Removed removed w₀ w) : Loses w₀ w := by
  refine ⟨fun id => ?_, h.nextGeneration, fun id hlists => lists_of_removed h hlists.1⟩
  rw [h.files]
  split_ifs
  · exact .none _
  · exact .refl _

/-- Only memory changed, and it lists what is in the manifest. -/
theorem of_memory (hfiles : w.disk.files = w₀.disk.files)
    (hmanifest : w.disk.manifest = w₀.disk.manifest)
    (hnext : w.nextGeneration = w₀.nextGeneration)
    (hlists : ∀ id, w₀.Lists id → w.memory.Lists id) : Loses w₀ w :=
  ⟨fun _ => hfiles ▸ .refl _, hnext, fun id h => .inr ⟨hlists id h, hmanifest ▸ h.2⟩⟩

theorem trans {w' : World ρ} (h : Loses w₀ w) (h' : Loses w w') : Loses w₀ w' := by
  refine ⟨fun id => (h.files id).trans (h'.files id), h'.nextGeneration.trans h.nextGeneration,
    fun id hlists => ?_⟩
  rcases h.listed id hlists with hgone | hlists
  · rcases (h'.files id).sub.metadata with hsame | hnone
    · exact .inl (hsame.trans hgone)
    · exact .inl hnone
  · exact h'.listed id hlists

end Loses

section Invariant

variable {w₀ w : World ρ} {kept : ℕ → Option (Kept ρ)}

/-- What is left of a record whose files are those it had, or some of them without the
metadata. -/
def remaining (files : ℕ → Files ρ) (kept : ℕ → Option (Kept ρ)) (id : ℕ) : Option (Kept ρ) :=
  if (files id).metadata = none then none else kept id

variable {files : ℕ → Files ρ} {id : ℕ}

omit [DecidableEq ρ] in
theorem remaining_eq_some_iff {k : Kept ρ} :
    remaining files kept id = some k ↔ (files id).metadata ≠ none ∧ kept id = some k := by
  rw [remaining]
  split_ifs with h
  · simp [h]
  · simp [h]

theorem Consistent.of_loses (h : Consistent w₀ kept) (hloses : Loses w₀ w) :
    Consistent w (remaining w.disk.files kept) := by
  refine ⟨fun id hnone => ?_, fun id k hk => ?_, fun id sidecar hsidecar => ?_, fun id => ?_,
    fun id k hk hcomplete => ?_⟩
  · by_contra hsome
    rw [remaining, if_neg hsome] at hnone
    rcases (hloses.files id).gone_or_eq with hgone | heq
    · exact hsome hgone
    · exact hsome (heq ▸ h.missing id hnone)
  · obtain ⟨hsome, hk⟩ := remaining_eq_some_iff.mp hk
    have hsame : w.disk.files id = w₀.disk.files id :=
      (hloses.files id).gone_or_eq.resolve_left hsome
    rw [hsame, hloses.nextGeneration]
    exact h.holds id k hk
  · rw [hloses.nextGeneration]
    rcases (hloses.files id).sub.authentication with hsame | hgone
    · exact h.sidecar id sidecar (hsame ▸ hsidecar)
    · rw [hgone] at hsidecar
      cases hsidecar
  · funext pane sequence
    rcases (hloses.files id).sub.scrollback pane sequence with hsame | hgone
    · rw [hsame, h.scrollback]
    · exact hgone
  · obtain ⟨hsome, hk⟩ := remaining_eq_some_iff.mp hk
    exact (hloses.listed id (h.listed id k hk hcomplete)).resolve_left hsome

variable {f : Files ρ} {locations : List Location}

omit [DecidableEq ρ] in
theorem Files.Extends.loadSnapshots {f' : Files ρ} (h : f.Extends f') {generation : ℕ}
    {snapshots : List Snapshot} (hload : f.loadSnapshots id generation locations = some snapshots) :
    f'.loadSnapshots id generation locations = some snapshots := by
  rw [Files.loadSnapshots] at hload ⊢
  induction locations generalizing snapshots with
  | nil => exact hload
  | cons location locations ih =>
    rw [List.mapM_cons] at hload ⊢
    obtain ⟨snapshot, hsnapshot, hload⟩ := Option.bind_eq_some_iff.mp hload
    obtain ⟨rest, hrest, hload⟩ := Option.bind_eq_some_iff.mp hload
    obtain ⟨file, hfile, hread⟩ := Option.bind_eq_some_iff.mp hsnapshot
    rw [h.snapshots _ file hfile, Option.bind_some, hread, ih hrest]
    exact hload

omit [DecidableEq ρ] in
/-- The other records are untouched, and this one has more segments. -/
theorem Begun.extends_all (h : Begun { w₀ with nextGeneration := w₀.nextGeneration + 1 } id w)
    (other : ℕ) : (w₀.disk.files other).Extends (w.disk.files other) := by
  by_cases hother : other = id
  · subst hother
    exact h.extends'
  · rw [h.others other hother]
    exact .refl _

theorem Consistent.kept_eq_none (h : Consistent w kept) (id : ℕ)
    (hnone : (w.disk.files id).metadata = none) : kept id = none := by
  rcases hk : kept id with _ | k
  · rfl
  · obtain ⟨-, generation, locations, -, hmetadata, -⟩ := h.holds id k hk
    rw [hnone] at hmetadata
    cases hmetadata

/-- Segments of screens that nothing points into do not matter. -/
theorem Consistent.of_begun (h : Consistent w₀ kept)
    (hbegun : Begun { w₀ with nextGeneration := w₀.nextGeneration + 1 } id w) :
    Consistent w kept := by
  have hextends := hbegun.extends_all
  refine ⟨fun other hnone => ?_, fun other k hk => ?_, fun other sidecar hsidecar => ?_,
    fun other => ?_, fun other k hk hcomplete => ?_⟩
  · rw [(hextends other).metadata]
    exact h.missing other hnone
  · obtain ⟨hid, generation, locations, hnext, hmetadata, hsnapshots, hcounters⟩ :=
      h.holds other k hk
    refine ⟨hid, generation, locations, ?_, ?_, (hextends other).loadSnapshots hsnapshots, ?_⟩
    · rw [hbegun.nextGeneration]
      exact Nat.lt_succ_of_lt hnext
    · rw [(hextends other).metadata, hmetadata]
    · rw [(hextends other).authentication, hcounters]
  · rw [(hextends other).authentication] at hsidecar
    obtain ⟨hrecord, hnext⟩ := h.sidecar other sidecar hsidecar
    rw [hbegun.nextGeneration]
    exact ⟨hrecord, Nat.lt_succ_of_lt hnext⟩
  · rw [(hextends other).scrollback, h.scrollback]
  · rw [World.Lists, hbegun.memory, hbegun.manifest]
    exact h.listed other k hk hcomplete

variable {session : Session ρ}

/-- The metadata of a record has been replaced. -/
theorem Consistent.of_wrote (h : Consistent w₀ kept) (hwrote : Wrote session locations w₀ w) :
    Consistent w (update kept session.id
      (some ⟨session, none, (kept session.id).any Kept.complete⟩)) := by
  have hnext : ∀ {generation : ℕ}, generation < w₀.nextGeneration →
      generation < w.nextGeneration := by
    intro generation hlt
    rw [hwrote.nextGeneration]
    exact Nat.lt_succ_of_lt hlt
  have hlists : ∀ id, w₀.Lists id → w.Lists id := by
    rintro id ⟨⟨record, hmem, rfl⟩, hmanifest⟩
    exact ⟨hwrote.records record hmem, hwrote.manifest ▸ hmanifest⟩
  -- A sidecar that is still there names an earlier metadata file.
  have hstale : ∀ sidecar, (w.disk.files session.id).authentication = some sidecar →
      sidecar.record = session.id ∧ sidecar.metadata.generation < w₀.nextGeneration := by
    intro sidecar hsidecar
    rcases hwrote.replaced.authentication with hsame | hgone
    · exact h.sidecar _ sidecar (hsame ▸ hsidecar)
    · rw [hgone] at hsidecar
      cases hsidecar
  refine ⟨fun id hnone => ?_, fun id k hk => ?_, fun id sidecar hsidecar => ?_, fun id => ?_,
    fun id k hk hcomplete => ?_⟩
  · by_cases hid : id = session.id
    · subst hid
      rw [update_self] at hnone
      cases hnone
    · rw [update_of_ne hid] at hnone
      rw [hwrote.others id hid]
      exact h.missing id hnone
  · by_cases hid : id = session.id
    · subst hid
      rw [update_self] at hk
      cases hk
      refine ⟨rfl, w₀.nextGeneration, locations, ?_, hwrote.replaced.metadata,
        hwrote.replaced.snapshots, ?_⟩
      · rw [hwrote.nextGeneration]
        exact Nat.lt_succ_self _
      · rcases hsidecar : (w.disk.files session.id).authentication with _ | sidecar
        · rfl
        · have hne : sidecar.metadata ≠ session.metadataFile w₀.nextGeneration locations := by
            intro heq
            have := (hstale sidecar hsidecar).2
            rw [heq] at this
            exact lt_irrefl _ this
          simp [hne]
    · rw [update_of_ne hid] at hk
      obtain ⟨hkid, generation, locations', hlt, hrest⟩ := h.holds id k hk
      rw [hwrote.others id hid]
      exact ⟨hkid, generation, locations', hnext hlt, hrest⟩
  · by_cases hid : id = session.id
    · subst hid
      exact ⟨(hstale sidecar hsidecar).1, hnext (hstale sidecar hsidecar).2⟩
    · rw [hwrote.others id hid] at hsidecar
      exact ⟨(h.sidecar id sidecar hsidecar).1, hnext (h.sidecar id sidecar hsidecar).2⟩
  · by_cases hid : id = session.id
    · subst hid
      rw [hwrote.replaced.scrollback, h.scrollback]
    · rw [hwrote.others id hid, h.scrollback]
  · by_cases hid : id = session.id
    · subst hid
      rw [update_self] at hk
      cases hk
      obtain ⟨k, hk, hcomplete⟩ := (Option.any_eq_true ..).mp hcomplete
      exact hlists _ (h.listed _ k hk hcomplete)
    · rw [update_of_ne hid] at hk
      exact hlists _ (h.listed id k hk hcomplete)

theorem Consistent.of_countered {authentication : Authentication} (h : Consistent w₀ kept)
    (hcountered : Countered id authentication w₀ w) :
    Consistent w (update kept id
      ((kept id).map fun k => { k with authentication := some authentication })) := by
  obtain ⟨metadata, hmetadata, hfiles⟩ := hcountered.files
  have hlists : ∀ id, w₀.Lists id → w.Lists id := by
    rintro id ⟨⟨record, hmem, rfl⟩, record', hmem', hid⟩
    obtain ⟨record'', hmem'', hid'⟩ := List.mem_map.mp
      (hcountered.records.symm ▸ List.mem_map_of_mem hmem)
    refine ⟨⟨record'', hmem'', hid'⟩, ?_⟩
    rcases hcountered.manifest with hsame | hnew
    · exact ⟨record', hsame ▸ hmem', hid⟩
    · exact ⟨record'', hnew ▸ hmem'', hid'⟩
  have hother : ∀ other, other ≠ id → w.disk.files other = w₀.disk.files other := by
    intro other hne
    rw [hfiles, update_of_ne hne]
  have hown : w.disk.files id =
      (w₀.disk.files id).setAuthentication (some ⟨id, metadata, authentication⟩) := by
    rw [hfiles, update_self]
  -- The metadata file is that of the write that is kept.
  obtain ⟨k, hk⟩ : ∃ k, kept id = some k := by
    refine Option.ne_none_iff_exists'.mp fun hnone => ?_
    rw [h.missing id hnone] at hmetadata
    cases hmetadata
  obtain ⟨hid, generation, locations, hlt, hmetadata', hsnapshots, -⟩ := h.holds id k hk
  cases hmetadata.symm.trans hmetadata'
  rw [hk, Option.map_some]
  refine ⟨fun other hnone => ?_, fun other k' hk' => ?_, fun other sidecar hsidecar => ?_,
    fun other => ?_, fun other k' hk' hcomplete => ?_⟩
  · by_cases hne : other = id
    · subst hne
      rw [update_self] at hnone
      cases hnone
    · rw [update_of_ne hne] at hnone
      rw [hother other hne]
      exact h.missing other hnone
  · rw [hcountered.nextGeneration]
    by_cases hne : other = id
    · subst hne
      rw [update_self] at hk'
      cases hk'
      rw [hown]
      refine ⟨hid, generation, locations, hlt, hmetadata, hsnapshots, ?_⟩
      simp [Files.setAuthentication]
    · rw [update_of_ne hne] at hk'
      rw [hother other hne]
      exact h.holds other k' hk'
  · rw [hcountered.nextGeneration]
    by_cases hne : other = id
    · subst hne
      rw [hown] at hsidecar
      cases hsidecar
      exact ⟨rfl, hlt⟩
    · rw [hother other hne] at hsidecar
      exact h.sidecar other sidecar hsidecar
  · by_cases hne : other = id
    · subst hne
      rw [hown]
      exact h.scrollback other
    · rw [hother other hne, h.scrollback]
  · by_cases hne : other = id
    · subst hne
      rw [update_self] at hk'
      cases hk'
      exact hlists _ (h.listed other k hk hcomplete)
    · rw [update_of_ne hne] at hk'
      exact hlists _ (h.listed other k' hk' hcomplete)

/-- The number of writes that are left is not part of what is kept. -/
theorem Consistent.of_writes (h : Consistent w₀ kept) (writes : Option ℕ) :
    Consistent { w₀ with writes } kept :=
  ⟨h.missing, h.holds, h.sidecar, h.scrollback, h.listed⟩

/-! ### What the operations do -/

section Operations

omit [DecidableEq ρ]

/-- How an operation ends, from its specification. -/
theorem exists_of_triple (w₀ : World ρ) {α : Type} {m : Op ρ α} {Q : α → World ρ → Prop}
    {E : Failure → World ρ → Prop} (h : Triple (· = w₀) m Q E) :
    (∃ a w, m w₀ = (.ok a, w) ∧ Q a w) ∨ ∃ e w, m w₀ = (.error e, w) ∧ E e w := by
  have hend := h w₀ rfl
  rcases hm : m w₀ with ⟨e | a, w⟩
  · rw [hm] at hend
    exact .inr ⟨e, w, rfl, hend⟩
  · rw [hm] at hend
    exact .inl ⟨a, w, rfl, hend⟩

/-- However it ends. -/
theorem snd_of_triple {α : Type} {m : Op ρ α} {R : World ρ → Prop}
    (h : Triple (· = w₀) m (fun _ => R) fun _ => R) : R (m w₀).2 := h.snd rfl

theorem loses_forget (id : ℕ) : Loses w₀ ((forget id : Op ρ Unit) w₀).2 :=
  snd_of_triple (triple_forget.mono (fun _ hw => hw) (fun _ _ hw => .of_removed hw)
    fun _ _ hw => .of_halted hw)

theorem loses_sealFor (id : ℕ) (value : Seal) : Loses w₀ ((sealFor id value : Op ρ Unit) w₀).2 := by
  refine snd_of_triple ((triple_sealFor id value).mono (fun _ hw => hw) (fun _ w hw => ?_)
    fun _ _ hw => .of_halted hw)
  obtain ⟨w₁, rfl, hw₁⟩ := hw
  have hloses : Loses w₀ w₁ := by
    rcases hw₁ with ⟨rfl, -⟩ | ⟨-, ⟨rfl, -⟩ | ⟨-, hremoved⟩⟩
    · exact .of_memory rfl rfl rfl fun _ h => h.1
    · exact .of_memory rfl rfl rfl fun _ h => h.1
    · exact .of_removed hremoved
  exact hloses.trans (.of_memory rfl rfl rfl fun _ h => h.1)

theorem loses_unsealFor (id : ℕ) : Loses w₀ ((unsealFor id : Op ρ Unit) w₀).2 :=
  .of_memory rfl rfl rfl fun _ h => h.1

theorem loses_openStore (size : File ρ → ℕ) (c : Circumstances) (replacing : Bool) :
    Loses w₀ (openStore size c replacing w₀).2 := by
  have hopened : Loses w₀ (w₀.opened replacing) := by
    refine .of_memory rfl rfl rfl fun id h => ?_
    obtain ⟨-, record, hmem, hid⟩ := h
    exact ⟨_, List.mem_map_of_mem hmem, hid⟩
  refine snd_of_triple ((triple_openStore size c replacing).mono (fun _ hw => hw)
    (fun _ w hw => ?_) fun _ w hw => ?_)
  · obtain ⟨removed, hremoved⟩ := hw
    exact hopened.trans (.of_removed hremoved)
  · rcases hw with hhalted | ⟨removed, hremoved⟩
    · exact hopened.trans (.of_halted hhalted)
    · exact hopened.trans (.of_removed hremoved)

/-- A record's metadata has been replaced, and then some records were removed. -/
def Renews (session : Session ρ) (w₀ w : World ρ) : Prop :=
  ∃ locations w₁, Wrote session locations w₀ w₁ ∧ Loses w₁ w

/-- A complete write that is complete. -/
theorem renews_of_complete {session : Session ρ} (h : Complete session w₀ w) :
    Renews session w₀ w ∧ ((w.disk.files session.id).metadata = none ∨ w.Lists session.id) := by
  obtain ⟨locations, w₁, removed, hwrote, hlists, hremoved⟩ := h
  exact ⟨⟨locations, w₁, hwrote, .of_removed hremoved⟩, Loses.lists_of_removed hremoved hlists⟩

theorem begun_or_renews_of_incomplete {session : Session ρ} (h : Incomplete session w₀ w) :
    Begun { w₀ with nextGeneration := w₀.nextGeneration + 1 } session.id w ∨
      Renews session w₀ w := by
  rcases h with hbegun | ⟨locations, w₁, hwrote, hhalted | ⟨removed, hremoved⟩⟩
  · exact .inl hbegun
  · exact .inr ⟨locations, w₁, hwrote, .of_halted hhalted⟩
  · exact .inr ⟨locations, w₁, hwrote, .of_removed hremoved⟩

end Operations

/-! ### Observing them -/

variable {event : Event ρ} {completed : Bool} {k : Option (Kept ρ)} {before after : Files ρ}

theorem observe_of_pruned (h : before.Pruned after) :
    observe event completed before after k = if after.metadata = none then none else k := by
  rw [observe]
  split_ifs with hnone hmetadata hauthentication
  · rfl
  · exact absurd (congrArg Files.metadata (h.gone_or_eq.resolve_left hnone)) hmetadata
  · exact absurd (congrArg Files.authentication (h.gone_or_eq.resolve_left hnone)) hauthentication
  · rfl

theorem observe_of_setAuthentication (h : f.metadata ≠ none) (file : Option (AuthenticationFile ρ)) :
    observe event completed f (f.setAuthentication file) k =
      if f.authentication = file then k
      else k.map fun k => { k with authentication := event.counters? } := by
  have hmetadata : (f.setAuthentication file).metadata = f.metadata := rfl
  rw [observe, hmetadata, if_neg h, if_neg (not_not.mpr rfl), ite_not]
  exact if_congr eq_comm rfl rfl

theorem observe_of_extends (h : before.Extends after) (hk : before.metadata = none → k = none) :
    observe event completed before after k = k := by
  rw [observe, h.metadata, h.authentication]
  split_ifs with hnone hmetadata hauthentication
  · exact (hk hnone).symm
  · exact absurd rfl hmetadata
  · exact absurd rfl hauthentication
  · rfl

/-- What is observed of a record whose metadata was replaced by a write of `session`. -/
theorem observe_of_renews (event : Event ρ) (completed : Bool) (h : Consistent w₀ kept)
    (hrenews : Renews session w₀ w) (hevent : event.session? = some session) (id : ℕ) :
    observe event completed (w₀.disk.files id) (w.disk.files id) (kept id) =
      remaining w.disk.files (update kept session.id
        (some ⟨session, none, completed || (kept session.id).any Kept.complete⟩)) id := by
  obtain ⟨locations, w₁, hwrote, hloses⟩ := hrenews
  by_cases hid : id = session.id
  · subst hid
    rw [observe, remaining, update_self]
    by_cases hnone : (w.disk.files session.id).metadata = none
    · rw [if_pos hnone, if_pos hnone]
    · -- No file has the generation of this write.
      have hnew : (w.disk.files session.id).metadata ≠ (w₀.disk.files session.id).metadata := by
        rw [(hloses.files session.id).gone_or_eq.resolve_left hnone, hwrote.replaced.metadata]
        intro heq
        rcases hk : kept session.id with _ | k
        · rw [h.missing _ hk] at heq
          cases heq
        · obtain ⟨-, generation, locations', hlt, hmetadata, -⟩ := h.holds _ k hk
          rw [hmetadata] at heq
          have := congrArg MetadataFile.generation (Option.some.inj heq)
          exact absurd this (Nat.ne_of_gt hlt)
      rw [if_neg hnone, if_neg hnone, if_pos hnew, hevent, Option.map_some]
  · have hpruned : (w₀.disk.files id).Pruned (w.disk.files id) := by
      rw [← hwrote.others id hid]
      exact hloses.files id
    rw [observe_of_pruned hpruned, remaining, update_of_ne hid]

theorem Consistent.renews (h : Consistent w₀ kept) (hrenews : Renews session w₀ w) :
    Consistent w (remaining w.disk.files (update kept session.id
      (some ⟨session, none, (kept session.id).any Kept.complete⟩))) := by
  obtain ⟨locations, w₁, hwrote, hloses⟩ := hrenews
  exact (h.of_wrote hwrote).of_loses hloses

/-- The record is in memory and in the manifest once a write of it completes. -/
theorem Consistent.complete {complete : Bool}
    (h : Consistent w (remaining files (update kept session.id
      (some ⟨session, none, complete⟩))))
    (hlists : (files session.id).metadata = none ∨ w.Lists session.id) :
    Consistent w (remaining files (update kept session.id
      (some ⟨session, none, true⟩))) := by
  have hsame : ∀ id k, remaining files (update kept session.id
      (some ⟨session, none, true⟩)) id = some k → ∃ k', remaining files
        (update kept session.id (some ⟨session, none, complete⟩)) id = some k' ∧
        k'.session = k.session ∧ k'.authentication = k.authentication ∧
        (id ≠ session.id → k' = k) := by
    intro id k hk
    obtain ⟨hsome, hk⟩ := remaining_eq_some_iff.mp hk
    by_cases hid : id = session.id
    · subst hid
      rw [update_self] at hk
      cases hk
      exact ⟨⟨session, none, complete⟩, remaining_eq_some_iff.mpr
        ⟨hsome, update_self ..⟩, rfl, rfl, fun hne => absurd rfl hne⟩
    · rw [update_of_ne hid] at hk
      exact ⟨k, remaining_eq_some_iff.mpr ⟨hsome, (update_of_ne hid ..).trans hk⟩, rfl,
        rfl, fun _ => rfl⟩
  refine ⟨fun id hnone => h.missing id ?_, fun id k hk => ?_, h.sidecar, h.scrollback,
    fun id k hk hcomplete => ?_⟩
  · rw [remaining] at hnone ⊢
    split_ifs at hnone ⊢ with hgone
    · rfl
    · by_cases hid : id = session.id
      · subst hid
        rw [update_self] at hnone
        cases hnone
      · rw [update_of_ne hid] at hnone ⊢
        exact hnone
  · obtain ⟨k', hk', hsession, hauthentication, -⟩ := hsame id k hk
    obtain ⟨hid, generation, locations, hrest⟩ := h.holds id k' hk'
    rw [hsession, hauthentication] at hrest
    exact ⟨hsession ▸ hid, generation, locations, hrest⟩
  · by_cases hid : id = session.id
    · subst hid
      exact hlists.resolve_left (remaining_eq_some_iff.mp hk).1
    · obtain ⟨k', hk', -, -, hsame⟩ := hsame id k hk
      obtain rfl := hsame hid
      exact h.listed id k' hk' hcomplete

end Invariant

/-! ### Steps and runs -/

section Run

variable {size : File ρ → ℕ} {s : State ρ} {e : Step ρ}

/-- The state after an event that loses records. -/
theorem consistent_step_of_loses (h : Consistent s.world s.kept)
    (hloses : Loses { s.world with writes := e.2 } (s.perform size e).2) :
    Consistent (s.step size e).world (s.step size e).kept := by
  have hkept : (s.step size e).kept = remaining (s.perform size e).2.disk.files s.kept := by
    funext id
    exact observe_of_pruned (hloses.files id)
  rw [hkept]
  exact (h.of_writes e.2).of_loses hloses

/-- **A complete write**, however far it comes. -/
theorem consistent_step_of_write (h : Consistent s.world s.kept) {c : Circumstances}
    {session : Session ρ} {restorable : Bool} (hop : e.1.op size = writeSession size c session
      restorable) (hsession : e.1.session? = some session) :
    Consistent (s.step size e).world (s.step size e).kept := by
  have h₀ := h.of_writes e.2
  have hperform : s.perform size e =
      writeSession size c session restorable { s.world with writes := e.2 } := by
    rw [State.perform, hop]
  have hrenewed : ∀ {w}, (s.perform size e).2 = w →
      Renews session { s.world with writes := e.2 } w →
      (s.step size e).kept = remaining w.disk.files (update s.kept session.id
        (some ⟨session, none, (s.perform size e).1.isOk ||
          (s.kept session.id).any Kept.complete⟩)) := by
    intro w hw hrenews
    funext id
    subst hw
    exact observe_of_renews e.1 _ h₀ hrenews hsession id
  rcases exists_of_triple { s.world with writes := e.2 }
    (triple_writeSession size c session restorable) with ⟨a, w, hend, hw⟩ | ⟨failure, w, hend, hw⟩
  · have hworld : (s.perform size e).2 = w := by rw [hperform, hend]
    rcases hw with ⟨-, rfl⟩ | ⟨-, hcomplete⟩
    · refine consistent_step_of_loses h (hworld ▸ ?_)
      exact .of_memory rfl rfl rfl fun _ h => h.1
    · obtain ⟨hrenews, hlists⟩ := renews_of_complete hcomplete
      have hok : (s.perform size e).1.isOk = true := by rw [hperform, hend]; rfl
      rw [hrenewed hworld hrenews, hok, Bool.true_or]
      change Consistent (s.perform size e).2 _
      rw [hworld]
      exact (h₀.renews hrenews).complete hlists
  · have hworld : (s.perform size e).2 = w := by rw [hperform, hend]
    have hok : (s.perform size e).1.isOk = false := by rw [hperform, hend]; rfl
    rcases begun_or_renews_of_incomplete hw with hbegun | hrenews
    · have hkept : (s.step size e).kept = s.kept := by
        funext id
        exact observe_of_extends (hworld ▸ hbegun.extends_all id) (h.kept_eq_none id)
      rw [hkept]
      change Consistent (s.perform size e).2 _
      rw [hworld]
      exact h₀.of_begun hbegun
    · rw [hrenewed hworld hrenews, hok, Bool.false_or]
      change Consistent (s.perform size e).2 _
      rw [hworld]
      exact h₀.renews hrenews

theorem consistent_step_of_countered (h : Consistent s.world s.kept) (id : ℕ)
    {authentication : Authentication} (hcounters : e.1.counters? = some authentication)
    (hcountered : Countered id authentication { s.world with writes := e.2 }
      (s.perform size e).2) :
    (s.step size e).kept = update s.kept id
        ((s.kept id).map fun k => { k with authentication := some authentication }) ∧
      Consistent (s.step size e).world (s.step size e).kept := by
  have hkept : (s.step size e).kept = update s.kept id
      ((s.kept id).map fun k => { k with authentication := some authentication }) := by
    obtain ⟨metadata, hmetadata, hfiles⟩ := hcountered.files
    funext other
    change observe e.1 _ (s.world.disk.files other) ((s.perform size e).2.disk.files other)
      (s.kept other) = _
    rw [hfiles]
    by_cases hother : other = id
    · subst hother
      rw [update_self, update_self]
      refine (observe_of_setAuthentication (Option.ne_none_iff_exists'.mpr
        ⟨metadata, hmetadata⟩) _).trans ?_
      rw [hcounters]
      split_ifs with hauthentication
      · -- The same counters were written against this metadata before.
        rcases hk : s.kept other with _ | k
        · rfl
        · obtain ⟨-, generation, locations, -, hfile, -, hbefore⟩ := h.holds other k hk
          cases hmetadata.symm.trans hfile
          have hsame : k.authentication = some authentication := by
            rw [hbefore]
            rw [hauthentication]
            simp
          rw [Option.map_some, ← hsame]
      · rfl
    · rw [update_of_ne hother, update_of_ne hother]
      exact observe_of_extends (.refl _) (h.kept_eq_none other)
  refine ⟨hkept, ?_⟩
  rw [hkept]
  exact (h.of_writes e.2).of_countered hcountered

/-- **Every event** keeps the invariant, wherever it stops. -/
theorem Consistent.step (h : Consistent s.world s.kept) (e : Step ρ) :
    Consistent (s.step size e).world (s.step size e).kept := by
  obtain ⟨event, writes⟩ := e
  cases event with
  | sealFor id value => exact consistent_step_of_loses h (loses_sealFor id value)
  | unsealFor id => exact consistent_step_of_loses h (loses_unsealFor id)
  | saveSession c session => exact consistent_step_of_write h rfl rfl
  | updateSession c session => exact consistent_step_of_write h rfl rfl
  | updateAuthentication id authentication =>
    rcases exists_of_triple { s.world with writes }
      (triple_updateAuthentication size id authentication) with ⟨a, w, hend, hw⟩ | ⟨failure, w, hend, hw⟩
    · refine (consistent_step_of_countered h id rfl ?_).2
      exact (congrArg Prod.snd hend).symm ▸ hw
    · rcases hw with hsame | hcountered
      · refine consistent_step_of_loses h ((congrArg Prod.snd hend).symm ▸ ?_)
        exact .of_memory hsame.files hsame.manifest hsame.nextGeneration
          fun other hlists => hsame.memory ▸ hlists.1
      · refine (consistent_step_of_countered h id rfl ?_).2
        exact (congrArg Prod.snd hend).symm ▸ hcountered
  | forget id => exact consistent_step_of_loses h (loses_forget id)
  | openStore c replacing => exact consistent_step_of_loses h (loses_openStore size c replacing)

theorem consistent_initial : Consistent (State.initial : State ρ).world State.initial.kept :=
  ⟨fun _ _ => rfl, fun _ _ h => (Option.some_ne_none _ h.symm).elim,
    fun _ _ h => (Option.some_ne_none _ h.symm).elim, fun _ => rfl,
    fun _ _ h => (Option.some_ne_none _ h.symm).elim⟩

theorem consistent_run (size : File ρ → ℕ) (events : List (Step ρ)) :
    Consistent (State.run size events).world (State.run size events).kept := by
  suffices hall : ∀ s : State ρ, Consistent s.world s.kept →
      Consistent (events.foldl (State.step size) s).world (events.foldl (State.step size) s).kept
    from hall _ consistent_initial
  induction events with
  | nil => exact fun s h => h
  | cons e events ih => exact fun s h => ih _ (h.step e)

end Run

/-! ### Operations that are not stopped -/

section Unhindered

/-- Without a limit on the number of writes an operation does not fail. -/
abbrev Unhindered {α : Type} (m : Op ρ α) : Prop :=
  Triple (·.writes = none) m (fun _ w => w.writes = none) fun _ _ => False

omit [DecidableEq ρ]

variable {α : Type}

theorem unhindered_commit (f : Disk ρ → Disk ρ) : Unhindered (commit f) := by
  refine triple_bind (Q := fun _ w => w.writes = none)
    (triple_require (fun _ hw _ => hw) fun w hw hstopped => ?_) fun _ =>
    triple_modify fun w hw => ?_
  · rw [hw] at hstopped
    simp at hstopped
  · rw [hw]
    rfl

theorem unhindered_remember (f : Memory → Memory) : Unhindered (remember f : Op ρ Unit) :=
  triple_modify fun _ hw => hw

theorem unhindered_get (f : World ρ → α) : Unhindered (Handler.get f) := triple_get fun _ hw => hw

theorem unhindered_forEach {f : α → Op ρ Unit} (h : ∀ a, Unhindered (f a)) (l : List α) :
    Unhindered (forEach f l) := by
  induction l with
  | nil => exact triple_pure fun _ hw => hw
  | cons a l ih => exact triple_bind (h a) fun _ => ih

theorem unhindered_writeManifest : Unhindered (writeManifest : Op ρ Unit) :=
  triple_bind (unhindered_get _) fun _ => unhindered_commit _

theorem unhindered_removeUnreferenced (id : ℕ) (locations : List Location) :
    Unhindered (removeUnreferencedSnapshotSegments id locations : Op ρ Unit) :=
  triple_bind (unhindered_get _) fun _ => unhindered_forEach (fun _ => unhindered_commit _) _

theorem unhindered_removeFiles (id : ℕ) : Unhindered (removeFiles id : Op ρ Unit) :=
  triple_bind (unhindered_commit _) fun _ => triple_bind (unhindered_commit _) fun _ =>
    triple_bind (unhindered_removeUnreferenced id []) fun _ =>
    triple_bind (unhindered_get _) fun _ => unhindered_forEach (fun _ => unhindered_commit _) _

theorem unhindered_prune (size : File ρ → ℕ) (c : Circumstances) (live : ℕ → Bool) :
    Unhindered (prune size c live) := by
  refine triple_bind (unhindered_get _) fun remove => triple_ite
    (fun _ => triple_pure fun _ hw => hw) fun _ => ?_
  refine triple_bind (unhindered_remember _) fun _ => ?_
  refine triple_bind (unhindered_forEach unhindered_removeFiles _) fun _ => ?_
  exact triple_bind (unhindered_remember _) fun _ => triple_bind (unhindered_remember _) fun _ =>
    unhindered_writeManifest

/-- A screen that does not fit a segment. -/
def Oversized (snapshots : List Snapshot) : Prop :=
  ∃ snapshot ∈ snapshots, SEGMENT_BYTES < snapshot.bytes.length

variable (size : File ρ → ℕ) (id generation : ℕ)

theorem unhindered_flushSnapshotSegment (stream : Stream) :
    Unhindered (flushSnapshotSegment size id generation stream) :=
  triple_bind (unhindered_commit _) fun _ => triple_pure fun _ hw => hw

theorem unhindered_writeSnapshots (snapshots : List Snapshot) (stream : Stream) :
    Triple (·.writes = none) (writeSnapshots size id generation stream snapshots)
      (fun _ w => w.writes = none) fun e _ => e = .tooLarge ∧ Oversized snapshots := by
  induction snapshots generalizing stream with
  | nil =>
    exact (unhindered_flushSnapshotSegment size id generation stream).mono (fun _ hw => hw)
      (fun _ _ hw => hw) fun _ _ hw => hw.elim
  | cons snapshot snapshots ih =>
    have hrotate : Unhindered (rotate size id generation stream snapshot.bytes) :=
      triple_ite (fun _ => triple_bind (unhindered_flushSnapshotSegment size id generation stream)
        fun _ => triple_pure fun _ hw => hw) fun _ => triple_pure fun _ hw => hw
    refine triple_bind (Q := fun _ w => w.writes = none) (triple_bind
      (Q := fun _ w => w.writes = none) (triple_require (fun _ hw _ => hw) fun w _ hlarge => ?_)
      fun _ => triple_bind (hrotate.mono (fun _ hw => hw) (fun _ _ hw => hw)
        fun _ _ hw => hw.elim) fun _ => triple_pure fun _ hw => hw) fun stream => ?_
    · exact ⟨rfl, snapshot, List.mem_cons_self .., by simpa using hlarge⟩
    · exact (ih stream).mono (fun _ hw => hw) (fun _ _ hw => hw) fun _ _ hw =>
        ⟨hw.1, hw.2.imp fun _ h => ⟨List.mem_cons_of_mem _ h.1, h.2⟩⟩

/-- **A complete write** fails only when a screen does not fit a segment. -/
theorem unhindered_writeSession (c : Circumstances) (session : Session ρ) (restorable : Bool) :
    Triple (·.writes = none) (writeSession size c session restorable) (fun _ w => w.writes = none)
      fun e _ => e = .tooLarge ∧ Oversized session.snapshots := by
  have hweak : ∀ {α : Type} {m : Op ρ α}, Unhindered m → Triple (·.writes = none) m
      (fun _ w => w.writes = none) fun e _ => e = .tooLarge ∧ Oversized session.snapshots :=
    fun h => h.mono (fun _ hw => hw) (fun _ _ hw => hw) fun _ _ hw => hw.elim
  refine triple_when ?_ fun w hw _ => hw
  refine Triple.mono (P := (·.writes = none)) ?_ (fun _ hw => hw.1) (fun _ _ hw => hw)
    fun _ _ hw => hw
  refine triple_bind (hweak (triple_bind (unhindered_get _) fun _ => triple_bind
    (triple_modify fun _ hw => hw) fun _ => triple_pure fun _ hw => hw)) fun generation => ?_
  refine triple_bind (Q := fun _ w => w.writes = none) (triple_ite
    (fun _ => triple_pure fun _ hw => hw) fun _ => triple_bind (hweak (unhindered_get _))
    fun sequence => triple_bind (unhindered_writeSnapshots size session.id generation
      session.snapshots _) fun _ => triple_pure fun _ hw => hw) fun out => ?_
  refine hweak (triple_bind (unhindered_commit _) fun _ => triple_bind (unhindered_commit _)
    fun _ => triple_bind (unhindered_removeUnreferenced session.id out.1) fun _ => ?_)
  exact triple_bind (unhindered_remember _) fun _ => triple_bind (unhindered_prune size c _)
    fun _ => unhindered_writeManifest

/-- **Counters** are written when the record is in memory and its metadata is there. -/
theorem unhindered_updateAuthentication (id : ℕ) (authentication : Authentication) :
    Triple (fun w => w.writes = none ∧ w.memory.Lists id ∧ (w.disk.files id).metadata ≠ none)
      (updateAuthentication size id authentication) (fun _ w => w.writes = none)
      fun _ _ => False := by
  refine triple_bind (Q := fun _ w => w.writes = none ∧ (w.disk.files id).metadata ≠ none)
    (triple_require (fun w hw _ => ⟨hw.1, hw.2.2⟩) fun w hw hnone => ?_) fun _ => ?_
  · obtain ⟨record, hmem, hid⟩ := hw.2.1
    exact List.any_eq_false.mp hnone record hmem (beq_iff_eq.mpr hid)
  refine triple_bind (Q := fun _ w => w.writes = none)
    (triple_read (fun w _ hw _ => hw.1) fun w e hw herror => ?_) fun metadata => ?_
  · obtain ⟨file, hfile⟩ := Option.ne_none_iff_exists'.mp hw.2
    replace hfile : w.disk.metadata.get? id = some file := hfile
    rw [hfile] at herror
    cases herror
  exact triple_bind (unhindered_get _) fun _ => triple_bind (unhindered_commit _) fun _ =>
    triple_bind (unhindered_remember _) fun _ => unhindered_writeManifest

end Unhindered

/-! ### The results -/

section Results

variable (size : File ρ → ℕ)

omit [DecidableEq ρ] in
theorem exists_op_eq_writeSession {event : Event ρ} {session : Session ρ}
    (h : event.session? = some session) :
    ∃ c restorable, event.op size = writeSession size c session restorable := by
  cases event with
  | saveSession c session' => exact ⟨c, false, by rw [← Option.some.inj h]; rfl⟩
  | updateSession c session' => exact ⟨c, true, by rw [← Option.some.inj h]; rfl⟩
  | _ => cases h

/-- A write that completes is the one that is kept, unless its record is removed at the end. -/
theorem kept_of_write (s : State ρ) (h : Consistent s.world s.kept) (e : Step ρ)
    {session : Session ρ} (hsession : e.1.session? = some session)
    (hsealed : (s.world.memory.recipientsFor session.id).isSome)
    (hok : (s.perform size e).1.isOk = true) :
    (s.step size e).kept session.id = none ∨
      (s.step size e).kept session.id = some ⟨session, none, true⟩ := by
  obtain ⟨c, restorable, hop⟩ := exists_op_eq_writeSession size hsession
  have hperform : s.perform size e =
      writeSession size c session restorable { s.world with writes := e.2 } := by
    rw [State.perform, hop]
  rcases exists_of_triple { s.world with writes := e.2 }
    (triple_writeSession size c session restorable) with ⟨a, w, hend, hw⟩ | ⟨failure, w, hend, hw⟩
  · rcases hw with ⟨hnone, -⟩ | ⟨-, hcomplete⟩
    · replace hnone : s.world.memory.recipientsFor session.id = none := hnone
      rw [hnone] at hsealed
      cases hsealed
    · have hkept := observe_of_renews e.1 (s.perform size e).1.isOk
        (h.of_writes e.2) (renews_of_complete hcomplete).1 hsession session.id
      have hworld : (s.perform size e).2 = w := by rw [hperform, hend]
      change observe _ _ _ ((s.perform size e).2.disk.files session.id) _ = none ∨
        observe _ _ _ ((s.perform size e).2.disk.files session.id) _ = _
      rw [hworld]
      refine (em ((w.disk.files session.id).metadata = none)).imp (fun hnone => ?_) fun hsome => ?_
      · refine hkept.trans ?_
        rw [remaining, if_pos hnone]
      · refine hkept.trans ?_
        rw [remaining, if_neg hsome, update_self, hok, Bool.true_or]
  · rw [hperform, hend] at hok
    cases hok

/-- Counters that are written completely are kept. -/
theorem kept_of_updateAuthentication (s : State ρ) (h : Consistent s.world s.kept) {id : ℕ}
    {k : Kept ρ} (hk : s.kept id = some k) (authentication : Authentication)
    (writes : Option ℕ)
    (hok : (s.perform size (.updateAuthentication id authentication, writes)).1.isOk = true) :
    (s.step size (.updateAuthentication id authentication, writes)).kept id =
      some { k with authentication := some authentication } := by
  rcases exists_of_triple { s.world with writes }
    (triple_updateAuthentication size id authentication) with ⟨a, w, hend, hw⟩ | ⟨failure, w, hend, hw⟩
  · rw [(consistent_step_of_countered h id rfl ((congrArg Prod.snd hend).symm ▸ hw)).1,
      update_self, hk]
    rfl
  · rw [State.perform, Event.op, hend] at hok
    cases hok

/-- **Crash consistency.** After any events, each of which may stop between any two writes, what is
loaded of a record is the last write of it whose metadata file was replaced, with the counters of
the newest sidecar written against that file, or nothing if the record was removed. A write that
completes is that write, unless its record is removed at its end, and it fails only when it is
stopped or a screen is too large. Counters can be written once a write of the record has
completed, and are then those. -/
theorem crash_consistent (events : List (Step ρ)) :
    let s := State.run size events
    (∀ emulator id, load emulator s.world.disk id = (s.kept id).map (Kept.loaded emulator)) ∧
    (∀ e session, e.1.session? = some session →
      (e.2 = none → (s.perform size e).1.isOk = true ∨
        (s.perform size e).1 = .error .tooLarge ∧ Oversized session.snapshots) ∧
      ((s.world.memory.recipientsFor session.id).isSome → (s.perform size e).1.isOk = true →
        (s.step size e).kept session.id = none ∨
          (s.step size e).kept session.id = some ⟨session, none, true⟩)) ∧
    ∀ id k authentication, s.kept id = some k →
      (k.complete = true →
        (s.perform size (.updateAuthentication id authentication, none)).1.isOk = true) ∧
      ∀ writes, (s.perform size (.updateAuthentication id authentication, writes)).1.isOk = true →
        (s.step size (.updateAuthentication id authentication, writes)).kept id =
          some { k with authentication := some authentication } := by
  intro s
  have h : Consistent s.world s.kept := consistent_run size events
  refine ⟨h.load, fun e session hsession => ⟨?_, kept_of_write size s h e hsession⟩,
    fun id k authentication hk => ⟨?_, kept_of_updateAuthentication size s h hk authentication⟩⟩
  · intro hwrites
    obtain ⟨c, restorable, hop⟩ := exists_op_eq_writeSession size hsession
    have hperform : s.perform size e =
        writeSession size c session restorable { s.world with writes := e.2 } := by
      rw [State.perform, hop]
    rw [hperform]
    rcases exists_of_triple { s.world with writes := e.2 }
      ((unhindered_writeSession size c session restorable).mono (fun _ hw => hw ▸ hwrites)
        (fun _ _ hw => hw) fun _ _ hw => hw) with ⟨a, w, hend, -⟩ | ⟨failure, w, hend, hfailure⟩
    · exact .inl (by rw [hend]; rfl)
    · exact .inr ⟨by rw [hend, hfailure.1], hfailure.2⟩
  · intro hcomplete
    have hsome : (s.world.disk.files id).metadata ≠ none := fun hnone =>
      Option.some_ne_none k (hk.symm.trans (h.kept_eq_none id hnone))
    rcases exists_of_triple { s.world with writes := none }
      ((unhindered_updateAuthentication size id authentication).mono
        (fun w hw => hw ▸ ⟨rfl, (h.listed id k hk hcomplete).1, hsome⟩) (fun _ _ hw => hw)
        fun _ _ hw => hw) with ⟨a, w, hend, -⟩ | ⟨failure, w, -, hfailure⟩
    · rw [State.perform, Event.op, hend]
      rfl
    · exact hfailure.elim

end Results

/-- A terminal that shows everything that it is given. -/
def Emulator.transcript : Emulator where
  Screen := Bytes
  new _ _ := []
  seed _ bytes := bytes
  push screen bytes := screen ++ bytes
  snapshot screen := screen

/-- Nothing else is in the directory, and the records are gone through as they are. -/
def Circumstances.atTime (now : ℕ) : Circumstances := ⟨now, 0, id, .refl⟩

/-- A session without panes. -/
def Session.plain (id : ℕ) : Session Unit := ⟨id, 0, (), ⟨0, 0, 0⟩, []⟩

/-- **Counters of an update that did not complete** are loaded, and **a record goes** when another
is written a month later. -/
theorem load_stopped_or_pruned :
    (let s : State Unit := .run (fun _ => 1) [(.sealFor 1 .store, none),
        (.saveSession (.atTime 0) (.plain 1), none)]
      let e : Step Unit := (.updateAuthentication 1 ⟨5, 1, 2⟩, some 1)
      (s.perform (fun _ => 1) e).1.isOk = false ∧
        load .transcript (s.step (fun _ => 1) e).world.disk 1 =
          some { Session.plain 1 with authentication := ⟨5, 1, 2⟩ }) ∧
    (let s : State Unit := .run (fun _ => 1) [(.sealFor 1 .store, none), (.sealFor 2 .store, none),
        (.updateSession (.atTime 0) (.plain 1), none)]
      let e : Step Unit := (.saveSession (.atTime (31 * 24 * 60 * 60)) (.plain 2), none)
      load .transcript s.world.disk 1 = some (.plain 1) ∧
        (s.perform (fun _ => 1) e).1.isOk = true ∧
        load .transcript (s.step (fun _ => 1) e).world.disk 1 = none) := by
  decide +kernel

end Zetta.Zmux.Persistence
