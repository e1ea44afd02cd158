import Mathlib
import Zetta.Lib.Handler
import Zetta.Lib.OrdMap

/-!
# The encrypted store of detached sessions

A record is a metadata file, which points into segments of screens and may have a sidecar with
newer counters, and the segments of output flushed for its panes; a manifest lists the records.
Every write of a file replaces it at once or not at all, and the daemon can stop between any two
of them: an operation runs with the number of writes that are left to it (`World.writes`), and what
it has written by then stays. The numbers of segments of screens are unbounded here, and saturate at
`U64_MAX` in the program.

Encryption is taken to be perfect: a file is its binding and its payload. The digest a sidecar names
its metadata file by has no collisions, so it is the file itself, and generations, which are chosen
at random, are fresh.

* `writeSession`, `updateAuthentication`: a complete write of a record, and one of its counters.
* `appendScrollback`, `flushSegments`: output is buffered and then written in numbered segments.
* `sealFor`, `forget`, `prune`: what is written for a session, and how records go.
* `load`: what a client reads back.
-/

namespace Zetta.Zmux.Persistence

open Handler

abbrev Bytes := List UInt8

def MAX_RECORDS : ℕ := 64
def MAX_STORAGE_BYTES : ℕ := 1024 * 1024 * 1024
def MAX_RECORD_AGE : ℕ := 30 * 24 * 60 * 60
def SEGMENT_BYTES : ℕ := 8 * 1024 * 1024
def SEGMENT_INTERVAL : ℕ := 5 * 60
def U64_MAX : ℕ := 18446744073709551615

/-! ### Sessions and files -/

/-- The screen of a pane, and the size it was captured at. -/
structure Snapshot where
  pane : ℕ
  bytes : Bytes
  columns : Option ℕ
  lines : Option ℕ
  deriving DecidableEq

/-- The counters of failed resumes, and when they were last changed. -/
structure Authentication where
  updatedAt : ℕ
  failedAuthentications : ℕ
  backoffSeconds : ℕ
  deriving DecidableEq

/-- Where the screen of a pane is in the segments. -/
structure Location where
  pane : ℕ
  segment : ℕ
  offset : ℕ
  length : ℕ
  columns : Option ℕ
  lines : Option ℕ
  deriving DecidableEq

-- What else a session is: its summary, its state, its verifier and its sealed key.
variable {ρ : Type} [DecidableEq ρ]

structure Session (ρ : Type) where
  id : ℕ
  createdAt : ℕ
  contents : ρ
  authentication : Authentication
  snapshots : List Snapshot
  deriving DecidableEq

structure Metadata (ρ : Type) where
  id : ℕ
  createdAt : ℕ
  contents : ρ
  authentication : Authentication
  snapshots : List Location
  deriving DecidableEq

/-- `session-R.age`. -/
structure MetadataFile (ρ : Type) where
  record : ℕ
  generation : ℕ
  metadata : Metadata ρ
  deriving DecidableEq

/-- `session-R-auth.age`, with the metadata file it was written against. -/
structure AuthenticationFile (ρ : Type) where
  record : ℕ
  metadata : MetadataFile ρ
  authentication : Authentication
  deriving DecidableEq

/-- `session-R-bytes-segment-S.age`. -/
structure SnapshotsFile where
  record : ℕ
  sequence : ℕ
  generation : ℕ
  payload : Bytes

/-- `session-R-pane-P-segment-S.age`. -/
structure ScrollbackFile where
  record : ℕ
  pane : ℕ
  sequence : ℕ
  payload : Bytes

/-- An entry of the manifest, which can be read without an identity. -/
structure Record where
  id : ℕ
  createdAt : ℕ
  updatedAt : ℕ
  metadataBytes : ℕ
  snapshotBytes : ℕ
  scrollbackBytes : ℕ
  restorable : Bool

/-- The persistence directory. The keys are what is in a file's name. -/
structure Disk (ρ : Type) where
  metadata : OrdMap ℕ (MetadataFile ρ)
  authentication : OrdMap ℕ (AuthenticationFile ρ)
  snapshots : OrdMap (ℕ ×ₗ ℕ) SnapshotsFile
  scrollback : OrdMap (ℕ ×ₗ ℕ ×ₗ ℕ) ScrollbackFile
  manifest : List Record

namespace Disk

def empty : Disk ρ := ⟨.empty, .empty, .empty, .empty, []⟩

/-- The numbers of a record's segments of screens. -/
def snapshotSequences (d : Disk ρ) (id : ℕ) : List ℕ :=
  (d.snapshots.entries.filter fun entry => entry.1.1 = id).map fun entry => entry.1.2

/-- A record's segments of output, by pane and number. -/
def scrollbackSegments (d : Disk ρ) (id : ℕ) : List ((ℕ × ℕ) × ScrollbackFile) :=
  (d.scrollback.entries.filter fun entry => entry.1.1 = id).map fun entry =>
    ((entry.1.2.1, entry.1.2.2), entry.2)

end Disk

/-! ### Loading -/

/-- A terminal of bounded size that output is replayed into. -/
structure Emulator where
  Screen : Type
  /-- A screen of so many columns and lines. -/
  new : ℕ → ℕ → Screen
  /-- Starts from a saved screen. -/
  seed : Screen → Bytes → Screen
  push : Screen → Bytes → Screen
  snapshot : Screen → Bytes

section Load

/-- The counters written since the metadata file was. A sidecar for an earlier file is stale. -/
def loadAuthentication (d : Disk ρ) (id : ℕ) (file : MetadataFile ρ) :
    Option (Option Authentication) :=
  match d.authentication.get? id with
  | none => some none
  | some sidecar =>
    if sidecar.record ≠ id then none
    else if sidecar.metadata ≠ file then some none
    else some (some sidecar.authentication)

/-- The screen at a location of a segment, which has to be from the write of the metadata. -/
def readLocation (id generation : ℕ) (location : Location) (file : SnapshotsFile) :
    Option Snapshot :=
  if file.record ≠ id ∨ file.sequence ≠ location.segment ∨ file.generation ≠ generation then none
  else if file.payload.length < location.offset + location.length then none
  else some ⟨location.pane, (file.payload.drop location.offset).take location.length,
    location.columns, location.lines⟩

def loadSnapshots (d : Disk ρ) (id generation : ℕ) (locations : List Location) :
    Option (List Snapshot) :=
  locations.mapM fun location =>
    (d.snapshots.get? (toLex (id, location.segment))).bind (readLocation id generation location)

variable (emulator : Emulator)

/-- The segments of output, each of which is replayed into the first sized screen of its pane. -/
def replay (id pane : ℕ) (segments : List ((ℕ × ℕ) × ScrollbackFile)) (screen : emulator.Screen) :
    Option emulator.Screen :=
  (segments.filter fun segment => segment.1.1 = pane).foldlM (fun screen segment =>
    if segment.2.record ≠ id ∨ segment.2.pane ≠ segment.1.1 ∨ segment.2.sequence ≠ segment.1.2 then
      none
    else some (emulator.push screen segment.2.payload)) screen

/-- A pane's screen after the output flushed for it. Only the first screen of a pane that has a
size gets the output; one without a size is returned untouched. -/
def restoreSnapshot (id : ℕ) (segments : List ((ℕ × ℕ) × ScrollbackFile))
    (earlier : List Snapshot) (snapshot : Snapshot) : Option Snapshot :=
  match snapshot.columns, snapshot.lines with
  | some columns, some lines => do
    let seeded := emulator.seed (emulator.new columns lines) snapshot.bytes
    let first := earlier.all fun other =>
      other.pane ≠ snapshot.pane || other.columns.isNone || other.lines.isNone
    let screen ← if first then replay emulator id snapshot.pane segments seeded else some seeded
    return { snapshot with bytes := emulator.snapshot screen }
  | _, _ => some snapshot

def restoreScrollback (id : ℕ) (segments : List ((ℕ × ℕ) × ScrollbackFile))
    (snapshots : List Snapshot) : Option (List Snapshot) :=
  snapshots.zipIdx.mapM fun entry =>
    restoreSnapshot emulator id segments (snapshots.take entry.2) entry.1

def load (d : Disk ρ) (id : ℕ) : Option (Session ρ) := do
  let file ← d.metadata.get? id
  if file.record ≠ id ∨ file.metadata.id ≠ id then none
  let authentication ← loadAuthentication d id file
  let snapshots ← loadSnapshots d id file.generation file.metadata.snapshots
  let snapshots ← restoreScrollback emulator id (d.scrollbackSegments id) snapshots
  return {
    id := file.metadata.id
    createdAt := file.metadata.createdAt
    contents := file.metadata.contents
    authentication := authentication.getD file.metadata.authentication
    snapshots := snapshots }

end Load

/-! ### The open store -/

/-- Output that is not written yet, with the number of the segment it will be. -/
structure SegmentBuffer where
  bytes : Bytes
  startedAt : ℕ
  sequence : ℕ

/-- Who a session's files may be encrypted to. -/
inductive Seal
  | store
  | recipients (values : List String)
  | withheld
  deriving DecidableEq

/-- What the daemon has in memory. The buffers and the next numbers are kept by session and
pane. -/
structure Memory where
  seals : OrdMap ℕ Seal
  records : List Record
  segments : OrdMap (ℕ ×ₗ ℕ) SegmentBuffer
  /-- `none` when the numbers are exhausted. -/
  nextSequences : OrdMap (ℕ ×ₗ ℕ) (Option ℕ)

structure World (ρ : Type) where
  disk : Disk ρ
  memory : Memory
  /-- Generations from here on have not been used. -/
  nextGeneration : ℕ
  /-- How many more files are written or removed before the daemon stops; `none` for any number. -/
  writes : Option ℕ

/-- Why an operation ends early. -/
inductive Failure
  | stopped
  | noRecord
  | noMetadata
  | tooLarge
  | exhausted

/-- An operation of the store. What it has changed when it fails stays changed. -/
abbrev Op (ρ α : Type) := Handler (World ρ) Failure α

/-- A file is written or removed, unless the daemon stops before. -/
def commit (f : Disk ρ → Disk ρ) : Op ρ Unit := do
  Handler.require (fun w => w.writes ≠ some 0) .stopped
  Handler.modify fun w => { w with disk := f w.disk, writes := w.writes.map (· - 1) }

/-- A change in memory. -/
def remember (f : Memory → Memory) : Op ρ Unit :=
  Handler.modify fun w => { w with memory := f w.memory }

def writeManifest : Op ρ Unit := do
  let records ← Handler.get fun w => w.memory.records
  commit fun d => { d with manifest := records }

/-- One after the other, for each of a list. -/
def forEach {α : Type} (f : α → Op ρ Unit) : List α → Op ρ Unit
  | [] => pure ()
  | a :: as => do
    f a
    forEach f as

def Memory.recipientsFor (m : Memory) (id : ℕ) : Option Seal :=
  (m.seals.get? id).filter (· ≠ .withheld)

/-! ### Removing files -/

def removeUnreferencedSnapshotSegments (id : ℕ) (locations : List Location) : Op ρ Unit := do
  let sequences ← Handler.get fun w => w.disk.snapshotSequences id
  forEach (fun sequence => commit fun d =>
      { d with snapshots := d.snapshots.erase (toLex (id, sequence)) })
    (sequences.filter fun sequence => sequence ∉ locations.map Location.segment)

def removeScrollback (id : ℕ) : Op ρ Unit := do
  let segments ← Handler.get fun w => w.disk.scrollbackSegments id
  forEach (fun segment => commit fun d =>
    { d with scrollback := d.scrollback.erase (toLex (id, toLex segment.1)) }) segments

def removeFiles (id : ℕ) : Op ρ Unit := do
  commit fun d => { d with metadata := d.metadata.erase id }
  commit fun d => { d with authentication := d.authentication.erase id }
  removeUnreferencedSnapshotSegments id []
  removeScrollback id

/-- The parts of the memory that are kept by session and pane, without some sessions. -/
def Memory.dropSegments (m : Memory) (drop : ℕ → Bool) : Memory :=
  { m with segments := m.segments.retain fun key => !drop key.1 }

def Memory.dropSequences (m : Memory) (drop : ℕ → Bool) : Memory :=
  { m with nextSequences := m.nextSequences.retain fun key => !drop key.1 }

def Memory.dropRecords (m : Memory) (drop : ℕ → Bool) : Memory :=
  { m with records := m.records.filter fun record => !drop record.id }

def forget (id : ℕ) : Op ρ Unit := do
  remember (·.dropSegments (· == id))
  removeFiles id
  remember (·.dropRecords (· == id))
  remember (·.dropSequences (· == id))
  writeManifest

/-! ### Pruning -/

/-- A file of the directory. -/
inductive File (ρ : Type)
  | metadata (file : MetadataFile ρ)
  | authentication (file : AuthenticationFile ρ)
  | snapshots (file : SnapshotsFile)
  | scrollback (file : ScrollbackFile)

/-- What the pruning goes by: the time, the bytes of the files besides those of records, and the
order that a set of records is gone through in. -/
structure Circumstances where
  now : ℕ
  otherBytes : ℕ
  order : List ℕ → List ℕ
  perm : ∀ ids, (order ids).Perm ids

section Sizes

-- The length of a file once it is encrypted.
variable (size : File ρ → ℕ)

def storageBytes (c : Circumstances) (d : Disk ρ) : ℕ :=
  c.otherBytes + d.metadata.sumBy (size ∘ .metadata) +
    d.authentication.sumBy (size ∘ .authentication) + d.snapshots.sumBy (size ∘ .snapshots) +
    d.scrollback.sumBy (size ∘ .scrollback)

/-- The records that go, oldest first, while they are too old or there is too much. -/
def pruned (c : Circumstances) (records : List Record) (live : ℕ → Bool) (total : ℕ) : List ℕ :=
  let candidates := (records.filter fun record => record.restorable && !live record.id).insertionSort
    fun a b => a.updatedAt ≤ b.updatedAt
  (candidates.foldl (fun (acc : List ℕ × ℕ) record =>
    if MAX_RECORD_AGE < c.now - record.updatedAt ∨ MAX_RECORDS < records.length - acc.1.length ∨
        MAX_STORAGE_BYTES < acc.2 then
      (acc.1 ++ [record.id],
        acc.2 - (record.metadataBytes + record.snapshotBytes + record.scrollbackBytes))
    else acc) ([], total)).1

def prune (c : Circumstances) (live : ℕ → Bool) : Op ρ Unit := do
  let remove ← Handler.get fun w =>
    pruned c w.memory.records live (storageBytes size c w.disk)
  if remove = [] then pure ()
  else do
    remember (·.dropSegments (remove.contains ·))
    forEach removeFiles (c.order remove)
    remember (·.dropSequences (remove.contains ·))
    remember (·.dropRecords (remove.contains ·))
    writeManifest

/-! ### Writing records -/

/-- The segments of screens as they are being written. -/
structure Stream where
  sequence : ℕ
  segment : Bytes
  locations : List Location
  encryptedBytes : ℕ

def flushSnapshotSegment (id generation : ℕ) (stream : Stream) : Op ρ Stream := do
  let file : SnapshotsFile := ⟨id, stream.sequence, generation, stream.segment⟩
  commit fun d => { d with snapshots := d.snapshots.insert (toLex (id, stream.sequence)) file }
  return { stream with encryptedBytes := stream.encryptedBytes + size (.snapshots file) }

/-- A full segment is written before the screen that does not fit it. -/
def rotate (id generation : ℕ) (stream : Stream) (bytes : Bytes) : Op ρ Stream :=
  if stream.segment ≠ [] ∧ SEGMENT_BYTES < stream.segment.length + bytes.length then do
    let stream ← flushSnapshotSegment size id generation stream
    return { stream with sequence := stream.sequence + 1, segment := [] }
  else pure stream

def writeSnapshot (id generation : ℕ) (stream : Stream) (snapshot : Snapshot) : Op ρ Stream := do
  Handler.require (fun _ => snapshot.bytes.length ≤ SEGMENT_BYTES) .tooLarge
  let stream ← rotate size id generation stream snapshot.bytes
  return { stream with
    segment := stream.segment ++ snapshot.bytes
    locations := stream.locations ++ [⟨snapshot.pane, stream.sequence, stream.segment.length,
      snapshot.bytes.length, snapshot.columns, snapshot.lines⟩] }

def writeSnapshots (id generation : ℕ) : Stream → List Snapshot → Op ρ Stream
  | stream, [] => flushSnapshotSegment size id generation stream
  | stream, snapshot :: snapshots => do
    let stream ← writeSnapshot size id generation stream snapshot
    writeSnapshots id generation stream snapshots

def nextSnapshotSequence (d : Disk ρ) (id : ℕ) : ℕ :=
  (d.snapshotSequences id).foldl max 0 + 1

def writeSnapshotStream (id generation : ℕ) (snapshots : List Snapshot) :
    Op ρ (List Location × ℕ) :=
  if snapshots = [] then pure ([], 0)
  else do
    let sequence ← Handler.get fun w => nextSnapshotSequence w.disk id
    let stream ← writeSnapshots size id generation ⟨sequence, [], [], 0⟩ snapshots
    return (stream.locations, stream.encryptedBytes)

/-- The entry of a record that has been written. -/
def Memory.recordWritten (m : Memory) (c : Circumstances) (session : Session ρ)
    (metadataBytes snapshotBytes : ℕ) (restorable : Bool) : Memory :=
  let updatedAt := max c.now session.authentication.updatedAt
  if m.records.any fun record => record.id == session.id then
    { m with records := m.records.map fun record =>
        if record.id = session.id then
          { record with updatedAt, metadataBytes, snapshotBytes, restorable }
        else record }
  else
    { m with records := m.records ++ [{
        id := session.id, createdAt := session.createdAt, updatedAt, metadataBytes, snapshotBytes,
        scrollbackBytes := 0, restorable }] }

def newGeneration : Op ρ ℕ := do
  let generation ← Handler.get fun w => w.nextGeneration
  Handler.modify fun w => { w with nextGeneration := w.nextGeneration + 1 }
  return generation

/-- A complete write of a record, if anything is written for its session. -/
def writeSession (c : Circumstances) (session : Session ρ) (restorable : Bool) : Op ρ Unit :=
  Handler.when (fun w => (w.memory.recipientsFor session.id).isSome) do
    let generation ← newGeneration
    let (locations, snapshotBytes) ←
      writeSnapshotStream size session.id generation session.snapshots
    let file : MetadataFile ρ := ⟨session.id, generation, {
      id := session.id
      createdAt := session.createdAt
      contents := session.contents
      authentication := session.authentication
      snapshots := locations }⟩
    commit fun d => { d with metadata := d.metadata.insert session.id file }
    -- The counters in the metadata are newer than those of a sidecar.
    commit fun d => { d with authentication := d.authentication.erase session.id }
    removeUnreferencedSnapshotSegments session.id locations
    remember (·.recordWritten c session (size (.metadata file)) snapshotBytes restorable)
    prune size c fun _ => false
    writeManifest

def saveSession (c : Circumstances) (session : Session ρ) : Op ρ Unit :=
  writeSession size c session false

def updateSession (c : Circumstances) (session : Session ρ) : Op ρ Unit :=
  writeSession size c session true

/-- The entry of a record whose sidecar has been written. -/
def Memory.countersWritten (m : Memory) (id updatedAt previousBytes newBytes : ℕ) : Memory :=
  { m with records := m.records.map fun record =>
      if record.id = id then { record with
        metadataBytes := record.metadataBytes - previousBytes + newBytes
        updatedAt := max record.updatedAt updatedAt }
      else record }

def updateAuthentication (id : ℕ) (authentication : Authentication) : Op ρ Unit := do
  Handler.require (fun w => w.memory.records.any fun record => record.id == id) .noRecord
  let metadata ← Handler.read fun w =>
    match w.disk.metadata.get? id with
    | none => .error .noMetadata
    | some file => .ok file
  let sidecar : AuthenticationFile ρ := ⟨id, metadata, authentication⟩
  let previousBytes ← Handler.get fun w =>
    ((w.disk.authentication.get? id).map (size ∘ .authentication)).getD 0
  commit fun d => { d with authentication := d.authentication.insert id sidecar }
  remember (·.countersWritten id authentication.updatedAt previousBytes
    (size (.authentication sidecar)))
  writeManifest

/-! ### Output -/

/-- The next number of a session's pane, which is taken. -/
def takeSequence (key : ℕ ×ₗ ℕ) : Op ρ ℕ := do
  let next ← Handler.get fun w => (w.memory.nextSequences.get? key).getD (some 1)
  remember fun m => { m with nextSequences := m.nextSequences.insert key next }
  let sequence ← Handler.read fun _ =>
    match next with
    | none => .error .exhausted
    | some sequence => .ok sequence
  let following := if sequence = U64_MAX then none else some (sequence + 1)
  remember fun m => { m with nextSequences := m.nextSequences.insert key following }
  return sequence

/-- Publishes a segment without replacing one; a number that is taken is left for the next. Every
round takes another number, so there are no more rounds than segments. -/
def publish (key : ℕ ×ₗ ℕ) (bytes : Bytes) : ℕ → ℕ → Op ρ Unit
  | 0, _ => Handler.read fun _ => .error .exhausted
  | rounds + 1, sequence => do
    let taken ← Handler.get fun w =>
      (w.disk.scrollback.get? (toLex (key.1, toLex (key.2, sequence)))).isSome
    if taken then do
      let next ← takeSequence key
      publish key bytes rounds next
    else
      let file : ScrollbackFile := ⟨key.1, key.2, sequence, bytes⟩
      commit fun d =>
        { d with scrollback := d.scrollback.insert (toLex (key.1, toLex (key.2, sequence))) file }

/-- What the session's seal is now is what decides. -/
def flushSegment (key : ℕ ×ₗ ℕ) (segment : SegmentBuffer) : Op ρ Unit :=
  Handler.when (fun w => (w.memory.recipientsFor key.1).isSome) do
    let rounds ← Handler.get fun w => w.disk.scrollback.size + 1
    publish key segment.bytes rounds segment.sequence
    writeManifest

/-- The buffer of a pane, begun now if there is none. -/
def openSegment (now : ℕ) (key : ℕ ×ₗ ℕ) : Op ρ SegmentBuffer := do
  let found ← Handler.get fun w => w.memory.segments.get? key
  match found with
  | some segment => return segment
  | none =>
    let sequence ← takeSequence key
    return ⟨[], now, sequence⟩

/-- The bytes of a session's output are counted in its record. -/
def Memory.countScrollback (m : Memory) (id bytes : ℕ) : Memory :=
  { m with records := m.records.map fun record =>
      if record.id = id then { record with scrollbackBytes := record.scrollbackBytes + bytes }
      else record }

def appendScrollback (now id pane : ℕ) (bytes : Bytes) : Op ρ Unit :=
  Handler.when (fun w => bytes ≠ [] ∧ (w.memory.recipientsFor id).isSome) do
    let key := toLex (id, pane)
    let segment ← openSegment now key
    let segment := { segment with bytes := segment.bytes ++ bytes }
    remember fun m => { m with segments := m.segments.insert key segment }
    remember (·.countScrollback id bytes.length)
    if SEGMENT_BYTES ≤ segment.bytes.length ∨ SEGMENT_INTERVAL ≤ now - segment.startedAt then do
      remember fun m => { m with segments := m.segments.erase key }
      flushSegment key segment
    else pure ()

def flushSegments : Op ρ Unit := do
  let segments ← Handler.get fun w => w.memory.segments.entries
  remember fun m => { m with segments := .empty }
  forEach (fun entry => flushSegment entry.1 entry.2) segments

/-! ### Sealing, opening and forgetting -/

/-- Decides what a session's later writes are encrypted to. -/
def sealFor (id : ℕ) (value : Seal) : Op ρ Unit := do
  Handler.when (fun _ => value = .withheld) do
    remember (·.dropSegments (· == id))
    -- What was written before the session was protected carries no verifier.
    Handler.when (fun w => w.memory.records.any fun record => record.id == id) (forget id)
  remember fun m => { m with seals := m.seals.insert id value }

def unsealFor (id : ℕ) : Op ρ Unit := remember fun m => { m with seals := m.seals.erase id }

/-- The next numbers after the segments that are on disk. -/
def recoverSequences (d : Disk ρ) : OrdMap (ℕ ×ₗ ℕ) (Option ℕ) :=
  d.scrollback.entries.foldl (fun next entry =>
    let key := toLex (entry.1.1, entry.1.2.1)
    let sequence := entry.1.2.2
    next.insert key <| ((next.get? key).getD (some 1)).bind fun previous =>
      if sequence = U64_MAX then none else some (max (sequence + 1) previous)) .empty

/-- Opens the store. Unless it is handed over by a daemon that is replaced, its records are those
of a daemon that was lost. -/
def openStore (c : Circumstances) (replacing : Bool) : Op ρ Unit := do
  Handler.modify fun w => { w with memory := {
    seals := .empty
    records := w.disk.manifest.map fun record =>
      { record with restorable := record.restorable || !replacing }
    segments := .empty
    nextSequences := recoverSequences w.disk } }
  Handler.when (fun _ => !replacing) (prune size c fun _ => false)
  writeManifest

end Sizes

end Zetta.Zmux.Persistence
