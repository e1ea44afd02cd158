import Zetta.Zmux.Persistence.Files

/-!
# Writing one record

A complete write first adds segments of screens under numbers that no segment has, then replaces the
metadata file, and then removes what the new metadata does not need. So wherever it stops, the
record is as it was, with segments added, or it is the new one (`triple_writeSession`).
-/

namespace Zetta.Zmux.Persistence

open List Handler Function

variable {ρ : Type}

/-! ### Segments of screens -/

theorem readLocation_append {id generation sequence : ℕ} {location : Location} {payload : Bytes}
    {snapshot : Snapshot} (more : Bytes)
    (h : readLocation id generation location ⟨id, sequence, generation, payload⟩ = some snapshot) :
    readLocation id generation location ⟨id, sequence, generation, payload ++ more⟩ =
      some snapshot := by
  rw [readLocation] at h ⊢
  dsimp only at h ⊢
  split_ifs at h with hslot hshort
  have hlength : ¬(payload ++ more).length < location.offset + location.length := by
    rw [length_append]
    omega
  rw [if_neg hslot, if_neg hlength, ← h, drop_append_of_le_length (by omega),
    take_append_of_le_length (by rw [length_drop]; omega)]

/-- The screen that is added to a segment is read back from it. -/
theorem readLocation_added (id generation sequence : ℕ) (segment : Bytes) (snapshot : Snapshot) :
    readLocation id generation ⟨snapshot.pane, sequence, segment.length, snapshot.bytes.length,
        snapshot.columns, snapshot.lines⟩ ⟨id, sequence, generation, segment ++ snapshot.bytes⟩ =
      some snapshot := by
  rw [readLocation, if_neg (by simp), if_neg (by simp)]
  simp

/-- Only segments of screens have been added to a record. -/
structure Files.Extends (f f' : Files ρ) : Prop where
  metadata : f'.metadata = f.metadata
  authentication : f'.authentication = f.authentication
  snapshots : ∀ sequence file, f.snapshots sequence = some file → f'.snapshots sequence = some file
  scrollback : f'.scrollback = f.scrollback

theorem Files.Extends.refl (f : Files ρ) : f.Extends f := ⟨rfl, rfl, fun _ _ h => h, rfl⟩

/-- Screens are being added to one record. -/
structure Begun (w₀ : World ρ) (id : ℕ) (w : World ρ) : Prop where
  others : ∀ other, other ≠ id → w.disk.files other = w₀.disk.files other
  extends' : (w₀.disk.files id).Extends (w.disk.files id)
  memory : w.memory = w₀.memory
  manifest : w.disk.manifest = w₀.disk.manifest
  nextGeneration : w.nextGeneration = w₀.nextGeneration

theorem Begun.refl (w : World ρ) (id : ℕ) : Begun w id w :=
  ⟨fun _ _ => rfl, .refl _, rfl, rfl, rfl⟩

/-- A location is in a segment that has been written. -/
def Written (id generation : ℕ) (f : Files ρ) (next : ℕ) (location : Location)
    (snapshot : Snapshot) : Prop :=
  location.segment < next ∧
    (f.snapshots location.segment).bind (readLocation id generation location) = some snapshot

/-- A location is in the segment that is being filled, or in one that has been written. -/
def Placed (id generation : ℕ) (f : Files ρ) (stream : Stream) (location : Location)
    (snapshot : Snapshot) : Prop :=
  location.segment = stream.sequence ∧ readLocation id generation location
      ⟨id, stream.sequence, generation, stream.segment⟩ = some snapshot ∨
    Written id generation f stream.sequence location snapshot

/-- How far a record's screens have been written. -/
structure Writing (w₀ : World ρ) (id generation : ℕ) (stream : Stream)
    (done : List Snapshot) (w : World ρ) : Prop extends Begun w₀ id w where
  fresh : ∀ sequence, stream.sequence ≤ sequence → (w.disk.files id).snapshots sequence = none
  placed : List.Forall₂ (Placed id generation (w.disk.files id) stream) stream.locations done

/-- No segment is being filled. -/
structure Flushed (w₀ : World ρ) (id generation next : ℕ) (locations : List Location)
    (done : List Snapshot) (w : World ρ) : Prop extends Begun w₀ id w where
  fresh : ∀ sequence, next ≤ sequence → (w.disk.files id).snapshots sequence = none
  written : List.Forall₂ (Written id generation (w.disk.files id) next) locations done

variable {locations : List Location} {w₀ : World ρ} {w : World ρ}

theorem Flushed.toWriting {id generation next : ℕ} {done : List Snapshot}
    (h : Flushed w₀ id generation next locations done w) (segment : Bytes) (encryptedBytes : ℕ) :
    Writing w₀ id generation ⟨next, segment, locations, encryptedBytes⟩ done w :=
  ⟨h.toBegun, h.fresh, h.written.imp fun _ _ => .inr⟩

section Stream

variable {w₀ : World ρ} {id generation : ℕ} {stream : Stream} {done : List Snapshot}
  (size : File ρ → ℕ)

/-- What fails leaves the record as it was, with segments added. -/
abbrev Aborted (w₀ : World ρ) (id : ℕ) : Failure → World ρ → Prop :=
  fun _ => Begun w₀ id

theorem triple_flushSnapshotSegment :
    Triple (Writing w₀ id generation stream done)
      (flushSnapshotSegment size id generation stream)
      (fun out w => out = { stream with encryptedBytes := out.encryptedBytes } ∧
        Flushed w₀ id generation (stream.sequence + 1) stream.locations done w)
      (Aborted w₀ id) := by
  refine triple_bind (triple_commit (fun w hw => hw.toBegun) fun w hw => ?_)
    fun _ => triple_pure fun w hw => hw
  refine ⟨rfl, ?_⟩
  let file : SnapshotsFile := ⟨id, stream.sequence, generation, stream.segment⟩
  have hfiles : (w.committed fun d =>
      { d with snapshots := d.snapshots.insert (toLex (id, stream.sequence)) file }).disk.files =
      update w.disk.files id
        ((w.disk.files id).setSnapshots stream.sequence (some file)) :=
    files_insert_snapshots file
  refine ⟨⟨fun other hne => ?_, ?_, hw.memory, hw.manifest, hw.nextGeneration⟩,
    fun sequence hle => ?_, ?_⟩
  · rw [hfiles, update_of_ne hne]
    exact hw.others other hne
  · rw [hfiles, update_self]
    refine { hw.extends' with snapshots := fun sequence file hfile => ?_ }
    have hold := hw.extends'.snapshots sequence file hfile
    have hne : sequence ≠ stream.sequence := by
      rintro rfl
      rw [hw.fresh _ le_rfl] at hold
      cases hold
    exact (update_of_ne hne ..).trans hold
  · rw [hfiles, update_self]
    exact (update_of_ne (by omega) ..).trans (hw.fresh sequence (by omega))
  · rw [hfiles, update_self]
    refine hw.placed.imp fun location snapshot hplaced => ?_
    rw [Written, Files.setSnapshots]
    dsimp only
    rcases hplaced with ⟨hsegment, hread⟩ | ⟨hsegment, hread⟩
    · refine ⟨by omega, ?_⟩
      rw [hsegment, update_self]
      exact hread
    · refine ⟨by omega, ?_⟩
      rw [update_of_ne (by omega)]
      exact hread

theorem triple_rotate (bytes : Bytes) :
    Triple (Writing w₀ id generation stream done) (rotate size id generation stream bytes)
      (fun out => Writing w₀ id generation out done) (Aborted w₀ id) := by
  refine triple_ite (fun _ => ?_) fun _ => triple_pure fun w hw => hw
  refine triple_bind (triple_flushSnapshotSegment size) fun out => triple_pure fun w hw => ?_
  obtain ⟨hout, hw⟩ := hw
  rw [hout]
  exact hw.toWriting _ _

theorem triple_writeSnapshot (snapshot : Snapshot) :
    Triple (Writing w₀ id generation stream done)
      (writeSnapshot size id generation stream snapshot)
      (fun out => Writing w₀ id generation out (done ++ [snapshot])) (Aborted w₀ id) := by
  refine triple_bind (Q := fun _ => Writing w₀ id generation stream done)
    (triple_require (fun w hw _ => hw) fun w hw _ => hw.toBegun) fun _ =>
    triple_bind (triple_rotate size snapshot.bytes) fun out => triple_pure fun w hw => ?_
  refine ⟨hw.toBegun, hw.fresh, ?_⟩
  refine rel_append (hw.placed.imp fun location other hplaced => ?_)
    (.cons (.inl ⟨rfl, readLocation_added ..⟩) .nil)
  exact hplaced.imp_left (And.imp_right (readLocation_append snapshot.bytes))

variable (snapshots : List Snapshot)

/-- The screens of a record are written one after the other. -/
theorem triple_writeSnapshots :
    Triple (Writing w₀ id generation stream done)
      (writeSnapshots size id generation stream snapshots)
      (fun out => Flushed w₀ id generation (out.sequence + 1) out.locations
        (done ++ snapshots))
      (Aborted w₀ id) := by
  induction snapshots generalizing stream done with
  | nil =>
    refine (triple_flushSnapshotSegment size).mono (fun w hw => hw) (fun out w hw => ?_)
      fun _ _ hw => hw
    obtain ⟨hout, hw⟩ := hw
    rw [append_nil, hout]
    exact hw
  | cons snapshot snapshots ih =>
    refine triple_bind (triple_writeSnapshot size snapshot) fun out =>
      ih.mono (fun w hw => hw) (fun out' w hw => ?_) fun _ _ hw => hw
    rwa [append_assoc] at hw

theorem le_foldl_max {l : List ℕ} {n : ℕ} (h : n ∈ l) (start : ℕ) : n ≤ l.foldl max start := by
  rw [foldl_max]
  exact (le_max?_getD_of_mem h).trans (le_max_right ..)

/-- No segment of a record has the next number, or a later one. -/
theorem fresh_nextSnapshotSequence (d : Disk ρ) (id sequence : ℕ)
    (h : nextSnapshotSequence d id ≤ sequence) : (d.files id).snapshots sequence = none := by
  by_contra hne
  have hmem : sequence ∈ d.snapshotSequences id :=
    mem_snapshotSequences.mpr (Option.isSome_iff_ne_none.mpr hne)
  have hle := le_foldl_max hmem 0
  rw [nextSnapshotSequence] at h
  omega

theorem loadSnapshots_of_written {f : Files ρ} {next : ℕ} {locations : List Location}
    (h : List.Forall₂ (Written id generation f next) locations done) :
    f.loadSnapshots id generation locations = some done := by
  induction h with
  | nil => rfl
  | cons hhead _ ih =>
    rw [Files.loadSnapshots] at ih ⊢
    rw [mapM_cons, hhead.2, ih]
    rfl

/-- **The screens of a record** can be read back from where they have been written. -/
theorem triple_writeSnapshotStream :
    Triple (· = w₀) (writeSnapshotStream size id generation snapshots)
      (fun out w => Begun w₀ id w ∧
        (w.disk.files id).loadSnapshots id generation out.1 = some snapshots)
      (Aborted w₀ id) := by
  refine triple_ite (fun hnone => triple_pure fun w hw => ?_) fun _ => ?_
  · rw [hnone, hw]
    exact ⟨.refl _ _, rfl⟩
  refine triple_bind (Q := fun sequence => Writing w₀ id generation ⟨sequence, [], [], 0⟩ [])
    (triple_get fun w hw => ?_) fun sequence =>
    triple_bind (triple_writeSnapshots size snapshots) fun out => triple_pure fun w hw => ?_
  · subst hw
    exact ⟨.refl _ _, fun sequence => fresh_nextSnapshotSequence w.disk id sequence, .nil⟩
  · exact ⟨hw.toBegun, loadSnapshots_of_written hw.written⟩

end Stream

/-! ### Replacing the metadata -/

/-- The metadata file of a session whose screens are at some locations. -/
def Session.metadataFile (session : Session ρ) (generation : ℕ) (locations : List Location) :
    MetadataFile ρ :=
  ⟨session.id, generation,
    ⟨session.id, session.createdAt, session.contents, session.authentication, locations⟩⟩

/-- A record after its metadata has been replaced, from what it was before. -/
structure Files.Replaced (session : Session ρ) (generation : ℕ) (locations : List Location)
    (f f' : Files ρ) : Prop where
  metadata : f'.metadata = session.metadataFile generation locations
  snapshots : f'.loadSnapshots session.id generation locations = some session.snapshots
  authentication : SameOrGone f.authentication f'.authentication
  scrollback : f'.scrollback = f.scrollback

/-- One record has been written, and no other has changed. -/
structure Wrote (session : Session ρ) (locations : List Location) (w₀ w : World ρ) : Prop where
  others : ∀ other, other ≠ session.id → w.disk.files other = w₀.disk.files other
  replaced : (w₀.disk.files session.id).Replaced session w₀.nextGeneration locations
    (w.disk.files session.id)
  manifest : w.disk.manifest = w₀.disk.manifest
  nextGeneration : w.nextGeneration = w₀.nextGeneration + 1
  seals : w.memory.seals = w₀.memory.seals
  segments : w.memory.segments = w₀.memory.segments
  nextSequences : w.memory.nextSequences = w₀.memory.nextSequences
  records : ∀ record ∈ w₀.memory.records, ∃ record' ∈ w.memory.records, record'.id = record.id

/-- The record is in memory. -/
def Memory.Lists (m : Memory) (id : ℕ) : Prop := ∃ record ∈ m.records, record.id = id

/-- What a complete write has done when it is complete. -/
def Complete (session : Session ρ) (w₀ w : World ρ) : Prop :=
  ∃ locations w₁ removed, Wrote session locations w₀ w₁ ∧ w₁.memory.Lists session.id ∧
    Removed removed w₁ w

/-- What it has done when it stops: screens are added, or the metadata is replaced. -/
def Incomplete (session : Session ρ) (w₀ w : World ρ) : Prop :=
  Begun { w₀ with nextGeneration := w₀.nextGeneration + 1 } session.id w ∨
    ∃ locations w₁, Wrote session locations w₀ w₁ ∧
      (Halted w₁ w ∨ ∃ removed, Removed removed w₁ w)

theorem Halted.refl (w : World ρ) : Halted w w :=
  ⟨fun _ => .refl _, rfl, rfl, fun _ h => .inl h⟩

theorem Wrote.incomplete {session : Session ρ} (h : Wrote session locations w₀ w) :
    Incomplete session w₀ w :=
  .inr ⟨locations, w, h, .inl (.refl w)⟩

/-- Segments that no location is in are not needed. -/
theorem loadSnapshots_dropSnapshots {f : Files ρ} {id generation : ℕ} {sequences : List ℕ}
    (h : ∀ s ∈ sequences, s ∉ locations.map Location.segment) :
    (f.dropSnapshots sequences).loadSnapshots id generation locations =
      f.loadSnapshots id generation locations := by
  rw [Files.loadSnapshots, Files.loadSnapshots]
  induction locations with
  | nil => rfl
  | cons location locations ih =>
    have hkept : (f.dropSnapshots sequences).snapshots location.segment =
        f.snapshots location.segment :=
      if_neg fun hs => h _ hs (mem_cons_self ..)
    rw [mapM_cons, mapM_cons, hkept,
      ih fun s hs hmem => h s hs (mem_cons_of_mem _ hmem)]

section Write

variable {session : Session ρ} {locations : List Location} {w₀ : World ρ} (size : File ρ → ℕ)
  (c : Circumstances)

/-- Once the metadata is replaced, the rest of the files are changed in ways that do not matter. -/
theorem Wrote.step {w w' : World ρ} (h : Wrote session locations w₀ w) {f : Files ρ}
    (hw' : Stands w (update w.disk.files session.id f) w')
    (hf : (w₀.disk.files session.id).Replaced session w₀.nextGeneration locations f) :
    Wrote session locations w₀ w' := by
  refine ⟨fun other hne => ?_, ?_, hw'.manifest.trans h.manifest,
    hw'.nextGeneration.trans h.nextGeneration, hw'.memory ▸ h.seals, hw'.memory ▸ h.segments,
    hw'.memory ▸ h.nextSequences, hw'.memory ▸ h.records⟩
  · rw [hw'.files, update_of_ne hne]
    exact h.others other hne
  · rw [hw'.files, update_self]
    exact hf

theorem triple_commit_metadata (w₁ : World ρ)
    (hw₁ : Begun { w₀ with nextGeneration := w₀.nextGeneration + 1 } session.id w₁)
    (hsnapshots : (w₁.disk.files session.id).loadSnapshots session.id w₀.nextGeneration locations =
      some session.snapshots) :
    Triple (· = w₁) (commit fun d => { d with
        metadata := d.metadata.insert session.id
          (session.metadataFile w₀.nextGeneration locations) })
      (fun _ => Wrote session locations w₀) fun _ => Incomplete session w₀ := by
  refine triple_commit (fun w hw => .inl (hw ▸ hw₁)) fun w hw => ?_
  subst hw
  have hfiles : (w.committed fun d => { d with
      metadata := d.metadata.insert session.id
        (session.metadataFile w₀.nextGeneration locations) }).disk.files =
      update w.disk.files session.id ((w.disk.files session.id).setMetadata
        (some (session.metadataFile w₀.nextGeneration locations))) := files_insert_metadata _
  refine ⟨fun other hne => ?_, ?_, hw₁.manifest, hw₁.nextGeneration,
    congrArg Memory.seals hw₁.memory, congrArg Memory.segments hw₁.memory,
    congrArg Memory.nextSequences hw₁.memory, fun record hmem => ?_⟩
  · rw [hfiles, update_of_ne hne]
    exact hw₁.others other hne
  · rw [hfiles, update_self]
    exact ⟨rfl, hsnapshots, .inl hw₁.extends'.authentication, hw₁.extends'.scrollback⟩
  · refine ⟨record, ?_, rfl⟩
    change record ∈ w.memory.records
    rw [hw₁.memory]
    exact hmem

theorem triple_erase_authentication :
    Triple (Wrote session locations w₀)
      (commit fun d => { d with authentication := d.authentication.erase session.id })
      (fun _ => Wrote session locations w₀) fun _ => Incomplete session w₀ := by
  refine triple_commit (fun w hw => hw.incomplete) fun w hw => hw.step
    ⟨files_erase_authentication, rfl, rfl, rfl⟩ ?_
  exact ⟨hw.replaced.metadata, hw.replaced.snapshots, .inr rfl, hw.replaced.scrollback⟩

theorem triple_removeUnreferenced_wrote :
    Triple (Wrote session locations w₀)
      (removeUnreferencedSnapshotSegments session.id locations)
      (fun _ => Wrote session locations w₀) fun _ => Incomplete session w₀ := by
  refine triple_forall fun w hw => ?_
  have hstep : ∀ sequences w', (∀ s ∈ sequences, s ∉ locations.map Location.segment) →
      Stands w (update w.disk.files session.id
        ((w.disk.files session.id).dropSnapshots sequences)) w' →
      Wrote session locations w₀ w' := by
    intro sequences w' hsequences hw'
    exact hw.step hw' ⟨hw.replaced.metadata,
      (loadSnapshots_dropSnapshots hsequences).trans hw.replaced.snapshots,
      hw.replaced.authentication, hw.replaced.scrollback⟩
  refine (triple_removeUnreferenced locations fun sequences w' hsequences hw' =>
    (hstep sequences w' hsequences hw').incomplete).mono (fun w' hw' => ?_) (fun _ w' hw' => ?_)
    fun _ _ hw' => hw'
  · rw [update_eq_self]
    exact hw' ▸ .refl w
  · obtain ⟨sequences, hsequences, hw'⟩ := hw'
    exact hstep sequences w' (fun s hs => ((hsequences s).mp hs).2) hw'

theorem recordWritten_rest (session : Session ρ) (m : Memory) (metadataBytes snapshotBytes : ℕ)
    (restorable : Bool) :
    (m.recordWritten c session metadataBytes snapshotBytes restorable).seals = m.seals ∧
      (m.recordWritten c session metadataBytes snapshotBytes restorable).segments = m.segments ∧
      (m.recordWritten c session metadataBytes snapshotBytes restorable).nextSequences =
        m.nextSequences := by
  rw [Memory.recordWritten]
  split_ifs <;> exact ⟨rfl, rfl, rfl⟩

/-- The record that has been written is in memory, and so is every other that was. -/
theorem lists_recordWritten (session : Session ρ) (m : Memory) (metadataBytes snapshotBytes : ℕ)
    (restorable : Bool) :
    (m.recordWritten c session metadataBytes snapshotBytes restorable).Lists session.id ∧
      ∀ record ∈ m.records, (m.recordWritten c session metadataBytes snapshotBytes
        restorable).Lists record.id := by
  rw [Memory.recordWritten]
  split_ifs with hany
  · have hlists : ∀ record ∈ m.records, (⟨m.seals, m.records.map fun record =>
        if record.id = session.id then { record with
          updatedAt := max c.now session.authentication.updatedAt
          metadataBytes, snapshotBytes, restorable }
        else record, m.segments, m.nextSequences⟩ : Memory).Lists record.id := by
      intro record hmem
      refine ⟨_, mem_map_of_mem hmem, ?_⟩
      split_ifs <;> rfl
    refine ⟨?_, hlists⟩
    obtain ⟨record, hmem, hid⟩ := any_eq_true.mp hany
    exact beq_iff_eq.mp hid ▸ hlists record hmem
  · exact ⟨⟨_, mem_append_right _ (mem_singleton_self _), rfl⟩,
      fun record hmem => ⟨record, mem_append_left _ hmem, rfl⟩⟩

theorem Removed.of_stands {removed : List ℕ} {w₁ w w' : World ρ} {records : List Record}
    (h : Removed removed w₁ w)
    (hw' : Stands { w with disk := { w.disk with manifest := records } } w.disk.files w')
    (hrecords : records = w.memory.records) : Removed removed w₁ w' :=
  ⟨fun id => hw'.files ▸ h.files id,
    hw'.manifest.trans (hrecords.trans (congrArg Memory.records hw'.memory).symm),
    hw'.nextGeneration.trans h.nextGeneration, hw'.memory ▸ h.records, hw'.memory ▸ h.seals,
    hw'.memory ▸ h.segments, hw'.memory ▸ h.nextSequences⟩

theorem triple_writeManifest_of_eq {w : World ρ} : Triple (· = w) writeManifest
    (fun _ => Stands { w with disk := { w.disk with manifest := w.memory.records } } w.disk.files)
    fun _ => Stands w w.disk.files :=
  (triple_writeManifest fun _ hw => hw).mono (fun _ hw' => hw' ▸ .refl w) (fun _ _ hw => hw)
    fun _ _ hw => hw

theorem triple_writeManifest_removed_nil {w : World ρ} :
    Triple (· = w) writeManifest (fun _ w' => Removed [] w w') fun _ w' => Halted w w' := by
  refine triple_writeManifest_of_eq.mono (fun _ hw => hw) (fun _ w' hw' => ?_) fun _ w' hw' => ?_
  · refine ⟨fun id => ?_, hw'.manifest.trans (congrArg Memory.records hw'.memory).symm,
      hw'.nextGeneration, ?_, congrArg Memory.seals hw'.memory, fun key => ?_, fun key => ?_⟩
    · rw [hw'.files, if_neg not_mem_nil]
    · rw [hw'.memory]
      simp
    · rw [hw'.memory, if_neg not_mem_nil]
    · rw [hw'.memory, if_neg not_mem_nil]
  · exact ⟨fun id => hw'.files ▸ .refl _, hw'.manifest, hw'.nextGeneration,
      fun record hmem => .inl (hw'.memory ▸ hmem)⟩

/-- The pruning that ends a complete write, and the manifest. -/
theorem triple_prune_manifest {w₁ : World ρ} :
    Triple (· = w₁) (do
        prune size c fun _ => false
        writeManifest)
      (fun _ w => ∃ removed, Removed removed w₁ w)
      fun _ w => Halted w₁ w ∨ ∃ removed, Removed removed w₁ w := by
  refine triple_bind ((triple_prune size c _).mono (fun _ hw => hw) (fun _ _ hw => hw)
    fun _ _ hw => .inl hw) fun _ => triple_forall fun w hw => ?_
  rcases hw with rfl | ⟨removed, hremoved⟩
  · exact triple_writeManifest_removed_nil.mono (fun _ hw => hw) (fun _ w' hw' => ⟨[], hw'⟩)
      fun _ w' hw' => .inl hw'
  · exact triple_writeManifest_of_eq.mono (fun _ hw => hw)
      (fun _ w' hw' => ⟨removed, hremoved.of_stands hw' rfl⟩)
      fun _ w' hw' => .inr ⟨removed, hremoved.of_stands hw' hremoved.manifest⟩

/-- **A complete write** of a record. -/
theorem triple_writeSession (session : Session ρ) (restorable : Bool) :
    Triple (· = w₀) (writeSession size c session restorable)
      (fun _ w => w₀.memory.recipientsFor session.id = none ∧ w = w₀ ∨
        (w₀.memory.recipientsFor session.id).isSome ∧ Complete session w₀ w)
      fun _ => Incomplete session w₀ := by
  refine triple_when ?_ fun w hw hnone => .inl ⟨?_, hw⟩
  swap
  · rw [← hw]
    exact Option.not_isSome_iff_eq_none.mp (Bool.not_eq_true _ ▸ hnone)
  refine triple_forall fun w hw => ?_
  obtain ⟨rfl, hsealed⟩ := hw
  refine triple_bind (Q := fun generation w' => w' = { w with nextGeneration :=
    w.nextGeneration + 1 } ∧ generation = w.nextGeneration) ?_ fun generation => ?_
  · refine triple_forall fun w' hw' => ?_
    subst hw'
    exact triple_bind (Q := fun generation s => s = w' ∧ generation = w'.nextGeneration)
      (triple_get fun s hs => ⟨hs, by rw [hs]⟩) fun generation =>
      triple_bind (triple_modify (Q := fun _ s => s = { w' with nextGeneration :=
        w'.nextGeneration + 1 } ∧ generation = w'.nextGeneration) fun s hs => ⟨by rw [hs.1], hs.2⟩)
      fun _ => triple_pure fun s hs => hs
  refine triple_fact fun hgeneration => ?_
  subst hgeneration
  refine triple_bind ((triple_writeSnapshotStream size session.snapshots).mono (fun _ hw => hw)
    (fun _ _ hw => hw) fun _ _ hw => .inl hw) fun out => triple_forall fun w₁ hw₁ => ?_
  refine triple_bind (triple_commit_metadata w₁ hw₁.1 hw₁.2) fun _ => ?_
  refine triple_bind triple_erase_authentication fun _ => ?_
  refine triple_bind triple_removeUnreferenced_wrote fun _ => ?_
  refine triple_bind (Q := fun _ w' => Wrote session out.1 w w' ∧ w'.memory.Lists session.id)
    (triple_modify fun w' hw' => ?_) fun _ => triple_forall fun w₂ hw₂ => ?_
  · obtain ⟨hlists, hkept⟩ := lists_recordWritten c session w'.memory
      (size (.metadata (session.metadataFile w.nextGeneration out.1))) out.2 restorable
    obtain ⟨hseals, hsegments, hnext⟩ := recordWritten_rest c session w'.memory
      (size (.metadata (session.metadataFile w.nextGeneration out.1))) out.2 restorable
    refine ⟨{ hw' with
      seals := hseals.trans hw'.seals
      segments := hsegments.trans hw'.segments
      nextSequences := hnext.trans hw'.nextSequences
      records := fun record hmem => ?_ }, hlists⟩
    obtain ⟨record', hmem', hid⟩ := hw'.records record hmem
    obtain ⟨record'', hmem'', hid'⟩ := hkept record' hmem'
    exact ⟨record'', hmem'', hid'.trans hid⟩
  · exact (triple_prune_manifest size c).mono (fun _ hw => hw)
      (fun _ w' hw' => .inr ⟨hsealed, out.1, w₂, hw'.choose, hw₂.1, hw₂.2, hw'.choose_spec⟩)
      fun _ w' hw' => .inr ⟨out.1, w₂, hw₂.1, hw'⟩

end Write

/-! ### Counters -/

/-- Counters have been written against a record's metadata. -/
structure Countered (id : ℕ) (authentication : Authentication) (w₀ w : World ρ) : Prop where
  files : ∃ metadata, (w₀.disk.files id).metadata = some metadata ∧
    w.disk.files = update w₀.disk.files id
      ((w₀.disk.files id).setAuthentication (some ⟨id, metadata, authentication⟩))
  nextGeneration : w.nextGeneration = w₀.nextGeneration
  seals : w.memory.seals = w₀.memory.seals
  segments : w.memory.segments = w₀.memory.segments
  nextSequences : w.memory.nextSequences = w₀.memory.nextSequences
  records : w.memory.records.map Record.id = w₀.memory.records.map Record.id
  manifest : w.disk.manifest = w₀.disk.manifest ∨ w.disk.manifest = w.memory.records

section Counters

variable {w₀ : World ρ} (size : File ρ → ℕ)

theorem ids_countersWritten (m : Memory) (id updatedAt previousBytes newBytes : ℕ) :
    (m.countersWritten id updatedAt previousBytes newBytes).records.map Record.id =
      m.records.map Record.id := by
  rw [Memory.countersWritten, map_map]
  refine map_congr_left fun record _ => ?_
  rw [Function.comp_apply]
  split_ifs <;> rfl

/-- **The counters** of a record are written, and nothing else changes. -/
theorem triple_updateAuthentication (id : ℕ) (authentication : Authentication) :
    Triple (· = w₀) (updateAuthentication size id authentication)
      (fun _ w => Countered id authentication w₀ w)
      fun _ w => Stands w₀ w₀.disk.files w ∨ Countered id authentication w₀ w := by
  have hsame : ∀ w, w = w₀ → Stands w₀ w₀.disk.files w := by
    rintro w rfl
    exact .refl w
  refine triple_bind (Q := fun _ w => w = w₀) (triple_require (fun w hw _ => hw)
    fun w hw _ => .inl (hsame w hw)) fun _ => ?_
  refine triple_bind (Q := fun metadata w => w = w₀ ∧
    (w₀.disk.files id).metadata = some metadata)
    (triple_read (fun w metadata hw hread => ⟨hw, ?_⟩) fun w _ hw _ => .inl (hsame w hw))
    fun metadata => triple_fact fun hmetadata => ?_
  · rw [← hw]
    change w.disk.metadata.get? id = some metadata
    cases hget : w.disk.metadata.get? id with
    | none => simp [hget] at hread
    | some file => simpa [hget] using hread
  refine triple_bind (Q := fun _ w => w = w₀) (triple_get fun w hw => hw) fun previousBytes => ?_
  refine triple_bind (Q := fun _ w => Countered id authentication w₀ w ∧
    w.disk.manifest = w₀.disk.manifest)
    (triple_commit (fun w hw => .inl (hsame w hw)) fun w hw => ?_) fun _ => ?_
  · subst hw
    exact ⟨⟨⟨metadata, hmetadata, files_insert_authentication _⟩, rfl, rfl, rfl, rfl, rfl, .inl rfl⟩,
      rfl⟩
  refine triple_bind (triple_modify (Q := fun _ w => Countered id authentication w₀ w)
    fun w hw => ?_) fun _ => ?_
  · obtain ⟨hw, hmanifest⟩ := hw
    exact { hw with
      records := (ids_countersWritten ..).trans hw.records
      manifest := .inl hmanifest }
  refine triple_bind (Q := fun records w => Countered id authentication w₀ w ∧
    records = w.memory.records) (triple_get fun w hw => ⟨hw, rfl⟩) fun records =>
    triple_commit (fun w hw => .inr hw.1) fun w hw => ?_
  exact { hw.1 with manifest := .inr hw.2 }

end Counters

/-! ### Opening and sealing -/

/-- What a daemon knows when it has read the manifest, and the numbers of the segments. -/
def World.opened (w : World ρ) (replacing : Bool) : World ρ :=
  { w with memory := {
      seals := .empty
      records := w.disk.manifest.map fun record =>
        { record with restorable := record.restorable || !replacing }
      segments := .empty
      nextSequences := recoverSequences w.disk } }

theorem triple_openStore (size : File ρ → ℕ) (c : Circumstances) (replacing : Bool) :
    Triple (· = w₀) (openStore size c replacing)
      (fun _ w => ∃ removed, Removed removed (w₀.opened replacing) w)
      fun _ w => Halted (w₀.opened replacing) w ∨
        ∃ removed, Removed removed (w₀.opened replacing) w := by
  refine triple_bind (Q := fun _ w => w = w₀.opened replacing) (triple_modify ?_) fun _ => ?_
  · rintro w rfl
    rfl
  cases replacing with
  | false => exact triple_prune_manifest size c
  | true =>
    exact triple_writeManifest_removed_nil.mono (fun _ hw => hw) (fun _ w hw => ⟨[], hw⟩)
      fun _ w hw => .inl hw

/-- What a session's seal is changed to, and its buffers and its record before it is withheld. -/
theorem triple_sealFor (id : ℕ) (value : Seal) :
    Triple (· = w₀) (sealFor id value)
      (fun _ w => ∃ w₁, w = w₁.remembered (fun m => { m with seals := m.seals.insert id value }) ∧
        (w₁ = w₀ ∧ value ≠ .withheld ∨ value = .withheld ∧
          (w₁ = w₀.remembered (·.dropSegments (· == id)) ∧ ¬w₀.memory.Lists id ∨
            w₀.memory.Lists id ∧ Removed [id] w₀ w₁)))
      fun _ w => Halted w₀ w := by
  have hlists : ∀ m : Memory, (m.records.any fun record => record.id == id) = true ↔
      m.Lists id := by
    intro m
    rw [any_eq_true]
    exact exists_congr fun record => and_congr_right fun _ => beq_iff_eq
  refine triple_bind (Q := fun _ w₁ => w₁ = w₀ ∧ value ≠ .withheld ∨ value = .withheld ∧
    (w₁ = w₀.remembered (·.dropSegments (· == id)) ∧ ¬w₀.memory.Lists id ∨
      w₀.memory.Lists id ∧ Removed [id] w₀ w₁)) ?_
    fun _ => triple_modify fun w hw => ⟨w, rfl, hw⟩
  refine triple_when ?_ fun w hw hne => .inl ⟨hw, by simpa using hne⟩
  refine triple_fact fun hwithheld => ?_
  replace hwithheld : value = .withheld := by simpa using hwithheld
  refine triple_bind (Q := fun _ w => w = w₀.remembered (·.dropSegments (· == id)))
    (triple_modify fun w hw => by rw [hw]; rfl) fun _ => triple_when ?_ fun w hw hnot => ?_
  · refine triple_forall fun w hw => ?_
    obtain ⟨rfl, hany⟩ := hw
    have hlisted : w₀.memory.Lists id := (hlists _).mp hany
    refine triple_forget.mono (fun _ hw => hw)
      (fun _ w hw => .inr ⟨hwithheld, .inr ⟨hlisted, ?_⟩⟩) fun _ w hw => ⟨hw.files, hw.manifest,
        hw.nextGeneration, hw.records⟩
    refine { hw with segments := fun key => ?_ }
    rw [hw.segments]
    by_cases hkey : key.1 = id
    · rw [if_pos (by simpa using hkey), if_pos (by simpa using hkey)]
    · rw [if_neg (by simpa using hkey), if_neg (by simpa using hkey)]
      refine (OrdMap.get?_retain ..).trans (if_pos ?_)
      simpa using hkey
  · refine .inr ⟨hwithheld, .inl ⟨hw, fun hlisted => ?_⟩⟩
    subst hw
    exact Bool.false_ne_true (hnot.symm.trans ((hlists w₀.memory).mpr hlisted))

end Zetta.Zmux.Persistence
