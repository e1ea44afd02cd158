import Zetta.Zmux.Persistence.Store

/-!
# The files of one record

Here are the rules for the store's primitives, and what its removals leave: when they are done
nothing of the records that they removed (`Removed`), and when they stop midway records that are
whole or have lost their metadata (`Halted`). What is recorded only adds segments
(`extends_recordAll`).
-/

namespace Zetta.Zmux.Persistence

open List Handler

variable {ρ : Type}

/-- The files of one record, by number and by pane and number. -/
structure Files (ρ : Type) where
  metadata : Option (MetadataFile ρ)
  authentication : Option (AuthenticationFile ρ)
  snapshots : ℕ → Option SnapshotsFile
  scrollback : ℕ → ℕ → Option ScrollbackFile

def Disk.files (d : Disk ρ) (id : ℕ) : Files ρ where
  metadata := d.metadata.get? id
  authentication := d.authentication.get? id
  snapshots sequence := d.snapshots.get? (toLex (id, sequence))
  scrollback pane sequence := d.scrollback.get? (toLex (id, toLex (pane, sequence)))

namespace Files

def setMetadata (f : Files ρ) (file : Option (MetadataFile ρ)) : Files ρ :=
  { f with metadata := file }

def setAuthentication (f : Files ρ) (file : Option (AuthenticationFile ρ)) : Files ρ :=
  { f with authentication := file }

def setSnapshots (f : Files ρ) (sequence : ℕ) (file : Option SnapshotsFile) : Files ρ :=
  { f with snapshots := Function.update f.snapshots sequence file }

def setScrollback (f : Files ρ) (pane sequence : ℕ) (file : Option ScrollbackFile) : Files ρ :=
  { f with scrollback := fun p s =>
      if p = pane ∧ s = sequence then file else f.scrollback p s }

end Files

/-- A record without files. -/
def Files.none : Files ρ := ⟨.none, .none, fun _ => .none, fun _ _ => .none⟩

section Disk

variable {d : Disk ρ} {id : ℕ}

/-- A change to the files of one record. -/
theorem files_eq_update {d' : Disk ρ} {f : Files ρ} (hid : d'.files id = f)
    (hother : ∀ other, other ≠ id → d'.files other = d.files other) :
    d'.files = Function.update d.files id f := by
  funext other
  by_cases h : other = id
  · subst h
    rw [hid, Function.update_self]
  · rw [hother other h, Function.update_of_ne h]

theorem files_insert_metadata (file : MetadataFile ρ) :
    { d with metadata := d.metadata.insert id file }.files =
      Function.update d.files id ((d.files id).setMetadata file) := by
  refine files_eq_update ?_ fun other h => ?_
  · rw [Disk.files, OrdMap.get?_insert, if_pos rfl]
    rfl
  · rw [Disk.files, OrdMap.get?_insert, if_neg h]
    rfl

theorem files_erase_metadata :
    { d with metadata := d.metadata.erase id }.files =
      Function.update d.files id ((d.files id).setMetadata .none) := by
  refine files_eq_update ?_ fun other h => ?_
  · rw [Disk.files, OrdMap.get?_erase, if_pos rfl]
    rfl
  · rw [Disk.files, OrdMap.get?_erase, if_neg h]
    rfl

theorem files_insert_authentication (file : AuthenticationFile ρ) :
    { d with authentication := d.authentication.insert id file }.files =
      Function.update d.files id ((d.files id).setAuthentication file) := by
  refine files_eq_update ?_ fun other h => ?_
  · rw [Disk.files, OrdMap.get?_insert, if_pos rfl]
    rfl
  · rw [Disk.files, OrdMap.get?_insert, if_neg h]
    rfl

theorem files_erase_authentication :
    { d with authentication := d.authentication.erase id }.files =
      Function.update d.files id ((d.files id).setAuthentication .none) := by
  refine files_eq_update ?_ fun other h => ?_
  · rw [Disk.files, OrdMap.get?_erase, if_pos rfl]
    rfl
  · rw [Disk.files, OrdMap.get?_erase, if_neg h]
    rfl

variable {sequence : ℕ}

/-- A change to one segment of screens. -/
theorem files_update_snapshots {snapshots : OrdMap (ℕ ×ₗ ℕ) SnapshotsFile}
    {file : Option SnapshotsFile} (h : ∀ key, snapshots.get? key =
      if key = toLex (id, sequence) then file else d.snapshots.get? key) :
    { d with snapshots }.files =
      Function.update d.files id ((d.files id).setSnapshots sequence file) := by
  refine files_eq_update ?_ fun other hother => ?_
  · rw [Disk.files, Files.setSnapshots]
    congr 1
    funext s
    rw [h, Function.update_apply]
    simp only [EmbeddingLike.apply_eq_iff_eq, Prod.mk.injEq, true_and]
    rfl
  · rw [Disk.files, Disk.files]
    congr 1
    funext s
    rw [h, if_neg fun hkey => hother (Prod.mk.inj (toLex_inj.mp hkey)).1]

theorem files_insert_snapshots (file : SnapshotsFile) :
    { d with snapshots := d.snapshots.insert (toLex (id, sequence)) file }.files =
      Function.update d.files id ((d.files id).setSnapshots sequence file) :=
  files_update_snapshots fun _ => OrdMap.get?_insert ..

theorem files_erase_snapshots :
    { d with snapshots := d.snapshots.erase (toLex (id, sequence)) }.files =
      Function.update d.files id ((d.files id).setSnapshots sequence .none) :=
  files_update_snapshots fun _ => OrdMap.get?_erase ..

variable {pane : ℕ}

/-- A change to one segment of output. -/
theorem files_update_scrollback {scrollback : OrdMap (ℕ ×ₗ ℕ ×ₗ ℕ) ScrollbackFile}
    {file : Option ScrollbackFile} (h : ∀ key, scrollback.get? key =
      if key = toLex (id, toLex (pane, sequence)) then file else d.scrollback.get? key) :
    { d with scrollback }.files =
      Function.update d.files id ((d.files id).setScrollback pane sequence file) := by
  refine files_eq_update ?_ fun other hother => ?_
  · rw [Disk.files, Files.setScrollback]
    congr 1
    funext p s
    rw [h]
    simp only [EmbeddingLike.apply_eq_iff_eq, Prod.mk.injEq, true_and]
    rfl
  · rw [Disk.files, Disk.files]
    congr 1
    funext p s
    rw [h, if_neg fun hkey => hother (Prod.mk.inj (toLex_inj.mp hkey)).1]

theorem files_erase_scrollback :
    { d with scrollback :=
        d.scrollback.erase (toLex (id, toLex (pane, sequence))) }.files =
      Function.update d.files id ((d.files id).setScrollback pane sequence .none) :=
  files_update_scrollback fun _ => OrdMap.get?_erase ..

/-! ### What a record's files determine -/

theorem mem_snapshotSequences :
    sequence ∈ d.snapshotSequences id ↔ ((d.files id).snapshots sequence).isSome := by
  rw [Disk.files, Option.isSome_iff_exists]
  simp only [Disk.snapshotSequences, mem_map, mem_filter, decide_eq_true_eq,
    OrdMap.get?_eq_some_iff]
  constructor
  · rintro ⟨⟨key, file⟩, ⟨hmem, rfl⟩, rfl⟩
    exact ⟨file, hmem⟩
  · rintro ⟨file, hmem⟩
    exact ⟨_, ⟨hmem, rfl⟩, rfl⟩

/-- A segment of output of a record. -/
theorem mem_scrollbackSegments {file : ScrollbackFile} :
    ((pane, sequence), file) ∈ d.scrollbackSegments id ↔
      (d.files id).scrollback pane sequence = some file := by
  rw [Disk.files]
  simp only [Disk.scrollbackSegments, mem_map, mem_filter, decide_eq_true_eq,
    OrdMap.get?_eq_some_iff]
  constructor
  · rintro ⟨⟨key, file'⟩, ⟨hmem, rfl⟩, heq⟩
    obtain ⟨hplace, rfl⟩ := Prod.mk.inj heq
    cases hplace
    exact hmem
  · intro hmem
    exact ⟨_, ⟨hmem, rfl⟩, rfl⟩

/-- The screens at some locations in a record's segments. -/
def Files.loadSnapshots (f : Files ρ) (id generation : ℕ) (locations : List Location) :
    Option (List Snapshot) :=
  locations.mapM fun location =>
    (f.snapshots location.segment).bind (readLocation id generation location)

theorem loadSnapshots_files (d : Disk ρ) (id generation : ℕ) (locations : List Location) :
    loadSnapshots d id generation locations = (d.files id).loadSnapshots id generation locations :=
  rfl

end Disk

/-! ### Rules of the primitives -/

/-- Everything besides the files of records is as in a given state, but the number of writes that
are left. -/
structure Stands (w₀ : World ρ) (files : ℕ → Files ρ) (w : World ρ) : Prop where
  files : w.disk.files = files
  memory : w.memory = w₀.memory
  manifest : w.disk.manifest = w₀.disk.manifest
  nextGeneration : w.nextGeneration = w₀.nextGeneration

theorem Stands.refl (w : World ρ) : Stands w w.disk.files w := ⟨rfl, rfl, rfl, rfl⟩

/-- The state after a file has been written or removed. -/
def World.committed (w : World ρ) (f : Disk ρ → Disk ρ) : World ρ :=
  { w with disk := f w.disk, writes := w.writes.map (· - 1) }

def World.remembered (w : World ρ) (f : Memory → Memory) : World ρ :=
  { w with memory := f w.memory }

section Rules

variable {α : Type} {P I : World ρ → Prop} {Q : Unit → World ρ → Prop}
  {E : Failure → World ρ → Prop} {w₀ : World ρ} {start files : ℕ → Files ρ}

variable {f : Disk ρ → Disk ρ}

theorem triple_commit (hstop : ∀ w, P w → E .stopped w) (hok : ∀ w, P w → Q () (w.committed f)) :
    Triple P (commit f) Q E :=
  triple_bind (Q := fun _ => P)
    (triple_require (fun _ hw _ => hw) fun w hw _ => hstop w hw) fun _ => triple_modify hok

/-- The files of records are changed. -/
theorem triple_commit_files (hstop : ∀ w, Stands w₀ start w → E .stopped w)
    (hfiles : ∀ d, d.files = start →
      (f d).files = files ∧ (f d).manifest = d.manifest) :
    Triple (Stands w₀ start) (commit f) (fun _ => Stands w₀ files) E :=
  triple_commit hstop fun w hw => ⟨(hfiles w.disk hw.files).1, hw.memory,
    (hfiles w.disk hw.files).2.trans hw.manifest, hw.nextGeneration⟩

theorem triple_remember {f : Memory → Memory} :
    Triple (Stands w₀ start) (remember f) (fun _ => Stands (w₀.remembered f) start) E :=
  triple_modify fun _ hw => ⟨hw.files, congrArg f hw.memory, hw.manifest, hw.nextGeneration⟩

theorem triple_writeManifest (hstop : ∀ w, Stands w₀ start w → E .stopped w) :
    Triple (Stands w₀ start) writeManifest
      (fun _ w => Stands { w₀ with disk := { w₀.disk with manifest := w₀.memory.records } } start w)
      E := by
  refine triple_bind (Q := fun records w => Stands w₀ start w ∧ records = w₀.memory.records)
    (triple_get fun w hw => ⟨hw, congrArg Memory.records hw.memory⟩) fun records =>
    triple_commit (fun w hw => hstop w hw.1) fun w hw => ?_
  exact ⟨hw.1.files, hw.1.memory, hw.2, hw.1.nextGeneration⟩

/-- For each of a list, where `R` says what holds after a part of it. -/
theorem triple_forEach {R : List α → World ρ → Prop} {f : α → Op ρ Unit} {l : List α}
    (h : ∀ done, ∀ a ∈ l, Triple (R done) (f a) (fun _ => R (done ++ [a])) E) :
    Triple (R []) (forEach f l) (fun _ => R l) E := by
  suffices hall : ∀ done, Triple (R done) (forEach f l) (fun _ => R (done ++ l)) E from hall []
  induction l with
  | nil =>
    intro done
    rw [append_nil]
    exact triple_pure fun _ hw => hw
  | cons a l ih =>
    intro done
    refine triple_bind (h done a (mem_cons_self ..)) fun _ => ?_
    have hrest := ih (fun done b hb => h done b (mem_cons_of_mem _ hb)) (done ++ [a])
    rw [append_assoc] at hrest
    exact hrest

end Rules

/-! ### Recording output -/

/-- Segments are added and every other file stands. A segment that is added is bound to the name
it has. -/
structure Disk.Extends (d d' : Disk ρ) : Prop where
  rest : (d'.metadata, d'.authentication, d'.snapshots) =
    (d.metadata, d.authentication, d.snapshots)
  segments : ∀ key, d'.scrollback.get? key = d.scrollback.get? key ∨
    d.scrollback.get? key = none ∧
      ∃ bytes, d'.scrollback.get? key = some ⟨key.1, key.2.1, key.2.2, bytes⟩

/-- What the store is asked to record: output of a pane, or everything that is buffered. -/
def record (now : ℕ) : Option (ℕ × ℕ × Bytes) → Op ρ Unit
  | some (id, pane, bytes) => appendScrollback now id pane bytes
  | none => flushSegments

/-- One call after another, each with a number of writes that are left to it. -/
def World.recordAll (w : World ρ) (calls : List (ℕ × Option ℕ × Option (ℕ × ℕ × Bytes))) : World ρ :=
  calls.foldl (fun w call => (record call.1 call.2.2 { w with writes := call.2.1 }).2) w

section Recording

variable {d : Disk ρ} (key : ℕ ×ₗ ℕ)

theorem keeps_takeSequence : Keeps (fun w : World ρ => d.Extends w.disk) (takeSequence key) :=
  keeps_bind (keeps_get _) fun _ => keeps_bind (keeps_modify fun _ h => h) fun _ =>
    keeps_bind (keeps_read _) fun _ => keeps_bind (keeps_modify fun _ h => h) fun _ =>
    keeps_pure _

theorem keeps_publish (bytes : Bytes) (rounds sequence : ℕ) :
    Keeps (fun w : World ρ => d.Extends w.disk) (publish key bytes rounds sequence) := by
  induction rounds generalizing sequence with
  | zero => exact keeps_read _
  | succ rounds ih =>
    let name := toLex (key.1, toLex (key.2, sequence))
    refine triple_bind (Q := fun taken w => d.Extends w.disk ∧
      taken = (w.disk.scrollback.get? name).isSome)
      (triple_get fun _ h => ⟨h, rfl⟩) fun taken => triple_ite (fun _ => ?_) fun hfree => ?_
    · exact (keeps_bind (keeps_takeSequence key) fun next => ih next).mono (fun _ h => h.1)
        (fun _ _ h => h) fun _ _ h => h
    · refine triple_commit (fun _ h => h.1) fun w h => ⟨h.1.rest, fun other => ?_⟩
      -- Only the name that was free changes.
      have hnone : w.disk.scrollback.get? name = none := by simpa [h.2] using hfree
      rw [World.committed, OrdMap.get?_insert]
      split_ifs with hother
      · refine .inr ⟨?_, bytes, congrArg some (hother ▸ rfl)⟩
        rcases h.1.segments other with hsame | ⟨hbefore, -⟩
        · rw [← hsame, hother, hnone]
        · exact hbefore
      · exact h.1.segments other

theorem keeps_flushSegment (segment : SegmentBuffer) :
    Keeps (fun w : World ρ => d.Extends w.disk) (flushSegment key segment) :=
  keeps_when (keeps_bind (keeps_get _) fun _ => keeps_bind (keeps_publish _ _ _ _) fun _ =>
    keeps_bind (keeps_get _) fun _ => triple_commit (fun _ h => h) fun _ h =>
      ⟨h.rest, h.segments⟩)

theorem keeps_record (now : ℕ) (output : Option (ℕ × ℕ × Bytes)) :
    Keeps (fun w : World ρ => d.Extends w.disk) (record now output) := by
  rcases output with _ | ⟨id, pane, bytes⟩
  · refine keeps_bind (keeps_get _) fun segments => keeps_bind (keeps_modify fun _ h => h) fun _ =>
      triple_forEach (R := fun _ w => d.Extends w.disk) fun _ entry _ => keeps_flushSegment _ _
  · refine keeps_when (keeps_bind (keeps_bind (keeps_get _) fun found => ?_) fun segment =>
      keeps_bind (keeps_modify fun _ h => h) fun _ => keeps_bind (keeps_modify fun _ h => h)
        fun _ => triple_ite (fun _ => keeps_bind (keeps_modify fun _ h => h) fun _ =>
          keeps_flushSegment _ _) fun _ => keeps_pure _)
    cases found with
    | some segment => exact keeps_pure _
    | none => exact keeps_bind (keeps_takeSequence _) fun _ => keeps_pure _

/-- **Whatever is recorded**, and wherever the writes of each call stop, no published segment
changes. -/
theorem extends_recordAll (w : World ρ) (calls : List (ℕ × Option ℕ × Option (ℕ × ℕ × Bytes))) :
    w.disk.Extends (w.recordAll calls).disk := by
  suffices hall : ∀ w' : World ρ, w.disk.Extends w'.disk → w.disk.Extends (w'.recordAll calls).disk from
    hall w ⟨rfl, fun _ => .inl rfl⟩
  induction calls with
  | nil => exact fun _ h => h
  | cons call calls ih =>
    intro w' h
    exact ih _ ((keeps_record call.1 call.2.2).snd h)

end Recording

/-! ### Removing a record -/

/-- A file that is the same, or gone. -/
def SameOrGone {α : Type} (file file' : Option α) : Prop := file' = file ∨ file' = .none

theorem SameOrGone.trans {α : Type} {a b c : Option α} (h : SameOrGone a b)
    (h' : SameOrGone b c) : SameOrGone a c := by
  rcases h' with rfl | rfl
  · exact h
  · exact .inr rfl

/-- Some of a record's files are gone. -/
structure Files.Sub (f f' : Files ρ) : Prop where
  metadata : SameOrGone f.metadata f'.metadata
  authentication : SameOrGone f.authentication f'.authentication
  snapshots : ∀ sequence, SameOrGone (f.snapshots sequence) (f'.snapshots sequence)
  scrollback : ∀ pane sequence,
    SameOrGone (f.scrollback pane sequence) (f'.scrollback pane sequence)

namespace Files.Sub

theorem refl (f : Files ρ) : f.Sub f :=
  ⟨.inl rfl, .inl rfl, fun _ => .inl rfl, fun _ _ => .inl rfl⟩

theorem trans {f f' f'' : Files ρ} (h : f.Sub f') (h' : f'.Sub f'') : f.Sub f'' :=
  ⟨h.metadata.trans h'.metadata, h.authentication.trans h'.authentication,
    fun s => (h.snapshots s).trans (h'.snapshots s),
    fun p s => (h.scrollback p s).trans (h'.scrollback p s)⟩

theorem none (f : Files ρ) : f.Sub .none :=
  ⟨.inr rfl, .inr rfl, fun _ => .inr rfl, fun _ _ => .inr rfl⟩

end Files.Sub

/-- What removing a record leaves of it: all of its files, or some of them without the
metadata. -/
def Files.Pruned (f f' : Files ρ) : Prop := f' = f ∨ f'.metadata = .none ∧ f.Sub f'

namespace Files.Pruned

variable {f f' f'' : Files ρ}

theorem refl (f : Files ρ) : f.Pruned f := .inl rfl

theorem none (f : Files ρ) : f.Pruned .none := .inr ⟨rfl, .none f⟩

theorem sub (h : f.Pruned f') : f.Sub f' := by
  rcases h with rfl | ⟨-, h⟩
  · exact .refl _
  · exact h

theorem gone_or_eq (h : f.Pruned f') : f'.metadata = .none ∨ f' = f := h.symm.imp_left And.left

theorem trans (h : f.Pruned f') (h' : f'.Pruned f'') : f.Pruned f'' := by
  rcases h' with rfl | ⟨hgone, hsub⟩
  · exact h
  · exact .inr ⟨hgone, h.sub.trans hsub⟩

end Files.Pruned

/-- The files of every record are those it started with, or some of them without the metadata. -/
def PrunedFrom (start files : ℕ → Files ρ) : Prop := ∀ id, (start id).Pruned (files id)

theorem PrunedFrom.update (start : ℕ → Files ρ) {id : ℕ} {f : Files ρ} (h : (start id).Pruned f) :
    PrunedFrom start (Function.update start id f) := by
  intro other
  by_cases hother : other = id
  · subst hother
    rw [Function.update_self]
    exact h
  · rw [Function.update_of_ne hother]
    exact .refl _

/-- The files after a removal that has stopped. -/
def Midway (w₀ : World ρ) (start : ℕ → Files ρ) (w : World ρ) : Prop :=
  ∃ files, PrunedFrom start files ∧ Stands w₀ files w

section Removal

variable {w₀ : World ρ} {start : ℕ → Files ρ} {id : ℕ} {f : Files ρ} {w : World ρ}

theorem Midway.of_update (h : (start id).Pruned f) (hw : Stands w₀ (Function.update start id f) w) :
    Midway w₀ start w :=
  ⟨_, .update start h, hw⟩

/-- A record without some of its segments of screens. -/
def Files.dropSnapshots (f : Files ρ) (sequences : List ℕ) : Files ρ :=
  { f with snapshots := fun s => if s ∈ sequences then .none else f.snapshots s }

/-- A record without some of its segments of output. -/
def Files.dropScrollback (f : Files ρ) (places : List (ℕ × ℕ)) : Files ρ :=
  { f with scrollback := fun p s =>
      if places.any fun place => place.1 = p && place.2 = s then .none else f.scrollback p s }

theorem Files.dropSnapshots_nil (f : Files ρ) : f.dropSnapshots [] = f := by
  simp [dropSnapshots]

theorem Files.dropSnapshots_append (f : Files ρ) (sequences : List ℕ) (sequence : ℕ) :
    (f.dropSnapshots sequences).setSnapshots sequence .none =
      f.dropSnapshots (sequences ++ [sequence]) := by
  rw [setSnapshots, dropSnapshots, dropSnapshots]
  congr 1
  funext s
  rw [Function.update_apply]
  simp only [mem_append, mem_singleton]
  grind

theorem Files.dropScrollback_nil (f : Files ρ) : f.dropScrollback [] = f := by
  simp [dropScrollback]

theorem Files.dropScrollback_append (f : Files ρ) (places : List (ℕ × ℕ)) (place : ℕ × ℕ) :
    (f.dropScrollback places).setScrollback place.1 place.2 .none =
      f.dropScrollback (places ++ [place]) := by
  rw [setScrollback, dropScrollback, dropScrollback]
  congr 1
  funext p s
  simp only [any_append, any_cons, any_nil]
  grind

theorem Files.sub_dropSnapshots (f : Files ρ) (sequences : List ℕ) :
    f.Sub (f.dropSnapshots sequences) := by
  refine { Files.Sub.refl f with snapshots := fun s => ?_ }
  rw [dropSnapshots]
  dsimp only
  split_ifs
  · exact .inr rfl
  · exact .inl rfl

theorem Files.sub_dropScrollback (f : Files ρ) (places : List (ℕ × ℕ)) :
    f.Sub (f.dropScrollback places) := by
  refine { Files.Sub.refl f with scrollback := fun p s => ?_ }
  rw [dropScrollback]
  dsimp only
  split_ifs
  · exact .inr rfl
  · exact .inl rfl

variable {E : Failure → World ρ → Prop}

/-- The segments of screens that no location is in are removed, one after the other. -/
theorem triple_removeUnreferenced (locations : List Location) (hstop : ∀ sequences w,
      (∀ s ∈ sequences, s ∉ locations.map Location.segment) →
      Stands w₀ (Function.update start id (f.dropSnapshots sequences)) w → E .stopped w) :
    Triple (Stands w₀ (Function.update start id f))
      (removeUnreferencedSnapshotSegments id locations)
      (fun _ w => ∃ sequences, (∀ s, s ∈ sequences ↔
          (f.snapshots s).isSome ∧ s ∉ locations.map Location.segment) ∧
        Stands w₀ (Function.update start id (f.dropSnapshots sequences)) w) E := by
  refine triple_bind (Q := fun sequences w => Stands w₀ (Function.update start id f) w ∧
    ∀ s, s ∈ sequences ↔ (f.snapshots s).isSome) (triple_get fun w hw => ⟨hw, fun s => ?_⟩)
    fun sequences => triple_fact fun hsequences => ?_
  · rw [mem_snapshotSequences, hw.files, Function.update_self]
  refine (triple_forEach (R := fun done w =>
    Stands w₀ (Function.update start id (f.dropSnapshots done)) w ∧
      ∀ s ∈ done, s ∉ locations.map Location.segment) fun done sequence hmem => ?_).mono
    (fun w hw => ⟨?_, fun s hs => ?_⟩) (fun _ w hw => ⟨_, fun s => ?_, hw.1⟩) fun _ _ hw => hw
  · refine triple_fact fun hdone => ?_
    have hmore : ∀ s ∈ done ++ [sequence], s ∉ locations.map Location.segment := by
      intro s hs
      rcases mem_append.mp hs with hs | hs
      · exact hdone s hs
      · rw [mem_singleton.mp hs]
        exact of_decide_eq_true (mem_filter.mp hmem).2
    have hcommit : Triple (Stands w₀ (Function.update start id (f.dropSnapshots done)))
        (commit fun d => { d with snapshots := d.snapshots.erase (toLex (id, sequence)) })
        (fun _ => Stands w₀ (Function.update start id (f.dropSnapshots (done ++ [sequence])))) E :=
      triple_commit_files (fun w hw => hstop done w hdone hw) fun d hd => ⟨by
        rw [files_erase_snapshots, hd, Function.update_idem, Function.update_self,
          Files.dropSnapshots_append], rfl⟩
    exact hcommit.mono (fun _ hw => hw) (fun _ w hw => ⟨hw, hmore⟩) fun _ _ hw => hw
  · rw [Files.dropSnapshots_nil]
    exact hw
  · cases hs
  · simp [hsequences]

theorem triple_removeScrollback (hstop : ∀ places w,
      Stands w₀ (Function.update start id (f.dropScrollback places)) w → E .stopped w) :
    Triple (Stands w₀ (Function.update start id f)) (removeScrollback id)
      (fun _ => Stands w₀
        (Function.update start id { f with scrollback := fun _ _ => .none })) E := by
  refine triple_bind (Q := fun segments w => Stands w₀ (Function.update start id f) w ∧
    ∀ pane sequence, (pane, sequence) ∉ segments.map Prod.fst →
      f.scrollback pane sequence = .none) (triple_get fun w hw => ⟨hw, fun pane sequence h => ?_⟩)
    fun segments => triple_fact fun hsegments => ?_
  · by_contra hsome
    obtain ⟨file, hfile⟩ := Option.ne_none_iff_exists'.mp hsome
    refine h (mem_map.mpr ⟨((pane, sequence), file), mem_scrollbackSegments.mpr ?_, rfl⟩)
    rw [hw.files, Function.update_self, hfile]
  refine (triple_forEach (R := fun done =>
    Stands w₀ (Function.update start id (f.dropScrollback (done.map Prod.fst))))
    fun done segment _ => ?_).mono (fun w hw => ?_) (fun _ w hw => ?_) fun _ _ hw => hw
  · refine triple_commit_files (hstop _) fun d hd => ⟨?_, rfl⟩
    rw [files_erase_scrollback, hd, Function.update_idem, Function.update_self,
      Files.dropScrollback_append, map_append, map_singleton]
  · rw [map_nil, Files.dropScrollback_nil]
    exact hw
  · have hnone : f.dropScrollback (segments.map Prod.fst) =
        { f with scrollback := fun _ _ => .none } := by
      rw [Files.dropScrollback]
      congr 1
      funext pane sequence
      split_ifs with h
      · rfl
      · refine hsegments pane sequence fun hmem => h (any_eq_true.mpr ⟨_, hmem, ?_⟩)
        simp
    rwa [hnone] at hw

theorem Files.sub_setMetadata (f : Files ρ) : f.Sub (f.setMetadata .none) :=
  { Files.Sub.refl f with metadata := .inr rfl }

theorem Files.sub_setAuthentication (f : Files ρ) : f.Sub (f.setAuthentication .none) :=
  { Files.Sub.refl f with authentication := .inr rfl }

/-- Once the metadata is gone, so may be any other file. -/
theorem Files.pruned_of_sub {f' : Files ρ} (h : (f.setMetadata .none).Sub f') : f.Pruned f' := by
  refine .inr ⟨?_, (sub_setMetadata f).trans h⟩
  rcases h.metadata with hsame | hnone
  · exact hsame
  · exact hnone

theorem Files.none_of_removed {sequences : List ℕ} (h : ∀ s, s ∈ sequences ↔ (f.snapshots s).isSome) :
    { (((f.setMetadata .none).setAuthentication .none).dropSnapshots sequences) with
      scrollback := fun _ _ => .none } = Files.none := by
  have hsnapshots : (f.dropSnapshots sequences).snapshots = fun _ => .none := by
    funext s
    by_cases hs : s ∈ sequences
    · exact if_pos hs
    · exact (if_neg hs).trans (by simpa [h] using hs)
  rw [Files.none, ← hsnapshots]
  rfl

/-- **The files of a record** are removed, and the metadata first. -/
theorem triple_removeFiles : Triple (Stands w₀ start) (removeFiles id)
    (fun _ => Stands w₀ (Function.update start id .none)) (fun _ => Midway w₀ start) := by
  have hgone := (start id).sub_setMetadata
  refine triple_bind (Q := fun _ => Stands w₀ (Function.update start id
      ((start id).setMetadata .none))) (triple_commit_files (fun w hw => ⟨_, fun _ => .refl _, hw⟩)
    fun d hd => ⟨by rw [files_erase_metadata, hd], rfl⟩) fun _ => ?_
  refine triple_bind (Q := fun _ => Stands w₀ (Function.update start id
      (((start id).setMetadata .none).setAuthentication .none)))
    (triple_commit_files (fun w hw => .of_update (.inr ⟨rfl, hgone⟩) hw) fun d hd => ⟨by
      rw [files_erase_authentication, hd, Function.update_idem, Function.update_self], rfl⟩)
    fun _ => ?_
  refine triple_bind (triple_removeUnreferenced [] fun sequences w _ hw => ?_) fun _ => ?_
  · refine .of_update (Files.pruned_of_sub ?_) hw
    exact (Files.sub_setAuthentication _).trans (Files.sub_dropSnapshots ..)
  refine triple_forall fun w hw => ?_
  obtain ⟨sequences, hsequences, hw⟩ := hw
  refine (triple_removeScrollback fun places w' hw' => ?_).mono (fun w' hw' => hw' ▸ hw)
    (fun _ w' hw' => ?_) fun _ _ hw' => hw'
  · refine .of_update (Files.pruned_of_sub ?_) hw'
    exact ((Files.sub_setAuthentication _).trans (Files.sub_dropSnapshots ..)).trans
      (Files.sub_dropScrollback ..)
  · have hnone : ∀ s, s ∈ sequences ↔ ((start id).snapshots s).isSome :=
      fun s => (hsequences s).trans (by simp [Files.setMetadata, Files.setAuthentication])
    rw [← Files.none_of_removed hnone]
    exact hw'

/-! ### Removing records -/

/-- Records have been removed, and everything else is as in a given state. -/
structure Removed (removed : List ℕ) (w₀ w : World ρ) : Prop where
  files : ∀ id, w.disk.files id = if id ∈ removed then .none else w₀.disk.files id
  manifest : w.disk.manifest = w.memory.records
  nextGeneration : w.nextGeneration = w₀.nextGeneration
  records : w.memory.records = w₀.memory.records.filter fun record => record.id ∉ removed
  seals : w.memory.seals = w₀.memory.seals
  segments : ∀ key : ℕ ×ₗ ℕ, w.memory.segments.get? key =
    if key.1 ∈ removed then none else w₀.memory.segments.get? key
  nextSequences : ∀ key : ℕ ×ₗ ℕ, w.memory.nextSequences.get? key =
    if key.1 ∈ removed then none else w₀.memory.nextSequences.get? key

/-- A removal of records has stopped. -/
structure Halted (w₀ w : World ρ) : Prop where
  files : PrunedFrom w₀.disk.files w.disk.files
  manifest : w.disk.manifest = w₀.disk.manifest
  nextGeneration : w.nextGeneration = w₀.nextGeneration
  records : ∀ record ∈ w₀.memory.records,
    record ∈ w.memory.records ∨ (w.disk.files record.id).metadata = none

/-- What is left when some records have been removed. -/
def without (start : ℕ → Files ρ) (removed : List ℕ) (id : ℕ) : Files ρ :=
  if id ∈ removed then .none else start id

theorem prunedFrom_without (start : ℕ → Files ρ) (removed : List ℕ) :
    PrunedFrom start (without start removed) := by
  intro id
  rw [without]
  split_ifs
  · exact .none _
  · exact .refl _

theorem without_nil (start : ℕ → Files ρ) : without start [] = start := by
  funext id
  exact if_neg not_mem_nil

theorem without_append (start : ℕ → Files ρ) (removed : List ℕ) (id : ℕ) :
    Function.update (without start removed) id .none = without start (removed ++ [id]) := by
  funext other
  rw [Function.update_apply, without, without]
  simp only [mem_append, mem_singleton]
  grind

/-- The files of records are removed, one record after the other. -/
theorem triple_removeAll (removed : List ℕ) : Triple (Stands w₀ start) (forEach removeFiles removed)
    (fun _ => Stands w₀ (without start removed)) (fun _ => Midway w₀ start) := by
  refine (triple_forEach (R := fun done => Stands w₀ (without start done))
    fun done id _ => ?_).mono (fun w hw => ?_) (fun _ _ hw => hw) fun _ _ hw => hw
  · refine triple_removeFiles.mono (fun _ hw => hw) (fun _ w hw => ?_) fun _ w hw => ?_
    · rw [← without_append]
      exact hw
    · obtain ⟨files, hpruned, hw⟩ := hw
      exact ⟨files, fun id => (prunedFrom_without start done id).trans (hpruned id), hw⟩
  · rw [without_nil]
    exact hw

theorem Halted.of_midway {drop : ℕ → Bool}
    (h : Midway (w₀.remembered (·.dropSegments drop)) w₀.disk.files w) : Halted w₀ w := by
  obtain ⟨files, hpruned, hw⟩ := h
  refine ⟨hw.files ▸ hpruned, hw.manifest, hw.nextGeneration, fun record hrecord => .inl ?_⟩
  rw [hw.memory]
  exact hrecord

/-- A state without some records in memory. -/
def World.dropped (w : World ρ) (drop : ℕ → Bool) : World ρ :=
  ((w.remembered (·.dropSegments drop)).remembered (·.dropSequences drop)).remembered
    (·.dropRecords drop)

/-- The manifest is written when records have been removed. -/
theorem triple_writeManifest_removed {removed : List ℕ} {drop : ℕ → Bool}
    (hdrop : ∀ id, drop id = true ↔ id ∈ removed) :
    Triple (Stands (w₀.dropped drop) (without w₀.disk.files removed)) writeManifest
      (fun _ w => Removed removed w₀ w) (fun _ w => Halted w₀ w) := by
  have hnot : ∀ id, (!drop id) = true ↔ id ∉ removed := by
    intro id
    rw [Bool.not_eq_true', ← Bool.not_eq_true, hdrop]
  have hrecords : (w₀.dropped drop).memory.records =
      w₀.memory.records.filter fun record => record.id ∉ removed :=
    filter_congr fun record _ => by rw [Bool.eq_iff_iff, hnot, decide_eq_true_eq]
  refine (triple_writeManifest fun w hw => ?_).mono (fun _ hw => hw) (fun _ w hw => ?_)
    fun _ _ hw => hw
  · refine ⟨hw.files ▸ prunedFrom_without _ _, hw.manifest, hw.nextGeneration,
      fun record hmem => ?_⟩
    by_cases hremoved : record.id ∈ removed
    · refine .inr ?_
      rw [hw.files, without, if_pos hremoved]
      rfl
    · refine .inl ?_
      rw [hw.memory, hrecords]
      exact mem_filter.mpr ⟨hmem, decide_eq_true hremoved⟩
  · have hretain : ∀ {β : Type} (m : OrdMap (ℕ ×ₗ ℕ) β) (key : ℕ ×ₗ ℕ),
        (m.retain fun key => !drop key.1).get? key =
          if key.1 ∈ removed then none else m.get? key := by
      intro β m key
      rw [OrdMap.get?_retain]
      by_cases hremoved : key.1 ∈ removed
      · rw [if_pos hremoved, if_neg fun h => (hnot _).mp h hremoved]
      · rw [if_neg hremoved, if_pos ((hnot _).mpr hremoved)]
    refine ⟨fun id => congrFun hw.files id, ?_, hw.nextGeneration, ?_, ?_, fun key => ?_,
      fun key => ?_⟩
    · exact hw.manifest.trans (congrArg Memory.records hw.memory).symm
    · exact (congrArg Memory.records hw.memory).trans hrecords
    · rw [hw.memory]
      rfl
    · rw [hw.memory]
      exact hretain w₀.memory.segments key
    · rw [hw.memory]
      exact hretain w₀.memory.nextSequences key

/-- **Forgetting** a record leaves nothing of it. -/
theorem triple_forget : Triple (· = w₀) (forget id) (fun _ w => Removed [id] w₀ w)
    (fun _ w => Halted w₀ w) := by
  have hstart : ∀ w, w = w₀ → Stands w₀ w₀.disk.files w := by
    rintro w rfl
    exact .refl w
  refine triple_bind (triple_remember.mono hstart (fun _ _ hw => hw) fun _ _ hw => hw) fun _ => ?_
  refine triple_bind (triple_removeFiles.mono (fun _ hw => hw) (fun _ _ hw => hw)
    fun _ w hw => .of_midway hw) fun _ => ?_
  refine triple_bind triple_remember fun _ => triple_bind triple_remember fun _ => ?_
  have hdrop : ∀ other, (other == id) = true ↔ other ∈ [id] := by
    intro other
    rw [beq_iff_eq, mem_singleton]
  refine (triple_writeManifest_removed hdrop).mono (fun w hw => ?_) (fun _ _ hw => hw)
    fun _ _ hw => hw
  · have hone := without_append w₀.disk.files [] id
    rw [without_nil] at hone
    rw [← nil_append [id], ← hone]
    exact hw

/-- **Pruning** removes records, or leaves everything as it is. -/
theorem triple_prune (size : File ρ → ℕ) (c : Circumstances) (live : ℕ → Bool) :
    Triple (· = w₀) (prune size c live)
      (fun _ w => w = w₀ ∨ ∃ removed, Removed removed w₀ w) (fun _ w => Halted w₀ w) := by
  refine triple_bind (Q := fun _ w => w = w₀) (triple_get fun w hw => hw) fun removed =>
    triple_ite (fun _ => triple_pure fun w hw => .inl hw) fun _ => ?_
  have hstart : ∀ w, w = w₀ → Stands w₀ w₀.disk.files w := by
    rintro w rfl
    exact .refl w
  refine triple_bind (triple_remember.mono hstart (fun _ _ hw => hw) fun _ _ hw => hw) fun _ => ?_
  have hall : without w₀.disk.files (c.order removed) = without w₀.disk.files removed :=
    funext fun id => if_congr (c.perm removed).mem_iff rfl rfl
  refine triple_bind ((triple_removeAll (c.order removed)).mono (fun _ hw => hw)
    (fun _ _ hw => hall ▸ hw) fun _ w hw => .of_midway hw) fun _ => ?_
  refine triple_bind triple_remember fun _ => triple_bind triple_remember fun _ => ?_
  exact (triple_writeManifest_removed fun other => contains_iff_mem).mono (fun w hw => hw)
    (fun _ w hw => .inr ⟨removed, hw⟩) fun _ _ hw => hw

end Removal

end Zetta.Zmux.Persistence
