import Mathlib
import Zetta.Lib.Text

/-!
# Finite trees of files with symbolic links

A directory has named entries, and a symbolic link has a target, which is a path. Resolving a path
walks from the root directory and follows at most a given number of links. What it ends at is
reached through directories only (`Node.Real`), so that resolving it again changes nothing
(`walk_of_real`), and a path can be resolved in parts (`walk_append`).
-/

namespace Zetta.FileTree

open List

abbrev Bytes := List UInt8

/-- Names, from the root directory down. -/
abbrev Path := List Bytes

inductive Node
  | file
  | directory (entries : List (Bytes × Node))
  | symlink (target : Bytes)
  /-- A socket, a device or a pipe. -/
  | other

def slash : UInt8 := 0x2F
def dot : UInt8 := 0x2E

/-- The parts of a path between its slashes. -/
def split (path : Bytes) : Path := path.splitOn slash

namespace Node

/-- What is at a path, without following links. -/
def lookup : Node → Path → Option Node
  | node, [] => some node
  | directory entries, name :: path => (entries.lookup name).bind fun node => node.lookup path
  | file, _ :: _ | symlink _, _ :: _ | other, _ :: _ => none

def isSymlink : Node → Bool
  | symlink _ => true
  | _ => false

/-- There is something at a path, which is not a link. -/
def Real (root : Node) (path : Path) : Prop :=
  ∃ node, root.lookup path = some node ∧ node.isSymlink = false

theorem lookup_append (node : Node) (path path' : Path) :
    node.lookup (path ++ path') = (node.lookup path).bind (·.lookup path') := by
  induction path generalizing node with
  | nil => rfl
  | cons name path ih =>
    cases node with
    | directory entries =>
      rw [cons_append, lookup, lookup, Option.bind_assoc]
      exact congrArg _ (funext fun node => ih node)
    | file => rfl
    | symlink target => rfl
    | other => rfl

end Node

/-- Why a path cannot be resolved. -/
inductive IoError
  | notFound
  | notADirectory
  | tooManyLinks

/-- Walks a path from a directory; `follow` walks on from a link, and the number is that of the
links that may still be followed. -/
def walkWith (root : Node) (follow : Path → Path → Except IoError (ℕ × Path)) (links : ℕ) :
    Path → Path → Except IoError (ℕ × Path)
  | reached, [] => .ok (links, reached)
  | reached, name :: rest =>
    match root.lookup reached with
    | some (.directory entries) =>
      if name = [] ∨ name = [dot] then walkWith root follow links reached rest
      else if name = [dot, dot] then walkWith root follow links reached.dropLast rest
      else match entries.lookup name with
        | none => .error .notFound
        | some (.symlink target) =>
          if target = [] then .error .notFound
          else follow (if target.head? = some slash then [] else reached) (split target ++ rest)
        | some _ => walkWith root follow links (reached ++ [name]) rest
    | _ => .error .notADirectory

def walk (root : Node) : ℕ → Path → Path → Except IoError (ℕ × Path)
  | 0 => walkWith root (fun _ _ => .error .tooManyLinks) 0
  | links + 1 => walkWith root (walk root links) (links + 1)

/-- A name that an entry of a directory can have. -/
def IsName (name : Bytes) : Prop :=
  name ≠ [] ∧ name ≠ [dot] ∧ name ≠ [dot, dot] ∧ slash ∉ name ∧ 0 ∉ name

instance (name : Bytes) : Decidable (IsName name) :=
  inferInstanceAs (Decidable (_ ∧ _ ∧ _ ∧ _ ∧ _))

/-- A tree below a root directory whose entries have names of their own. -/
structure FileSystem where
  root : Node
  /-- How many links are followed when a path is resolved. -/
  maxLinks : ℕ
  rooted : ∃ entries, root = .directory entries
  named : ∀ path entries, root.lookup path = some (.directory entries) →
    (entries.map Prod.fst).Nodup ∧ ∀ name ∈ entries.map Prod.fst, IsName name

namespace FileSystem

variable (fs : FileSystem)

def canonicalize (path : Path) : Except IoError Path :=
  (walk fs.root fs.maxLinks [] path).map Prod.snd

/-- What a path leads to. -/
def metadata (path : Path) : Option Node :=
  (fs.canonicalize path).toOption.bind fs.root.lookup

def isDir (path : Path) : Bool :=
  match fs.metadata path with
  | some (.directory _) => true
  | _ => false

def isFile (path : Path) : Bool :=
  match fs.metadata path with
  | some .file => true
  | _ => false

/-- The entries of a directory, in the order they are stored in. -/
def readDir (path : Path) : Option (List (Bytes × Node)) :=
  match fs.metadata path with
  | some (.directory entries) => some entries
  | _ => none

end FileSystem

/-! ### Walking -/

section Walk

variable {root : Node} {follow : Path → Path → Except IoError (ℕ × Path)} {links : ℕ}

theorem walk_eq (root : Node) (links : ℕ) : ∃ follow, walk root links = walkWith root follow links := by
  cases links with
  | zero => exact ⟨_, rfl⟩
  | succ links => exact ⟨_, rfl⟩

theorem walkWith_append (hfollow : ∀ reached path path', follow reached (path ++ path') =
      (follow reached path).bind fun r => walk root r.1 r.2 path')
    (hwalk : walk root links = walkWith root follow links) (reached path path' : Path) :
    walkWith root follow links reached (path ++ path') =
      (walkWith root follow links reached path).bind fun r => walk root r.1 r.2 path' := by
  induction path generalizing reached with
  | nil =>
    rw [nil_append, walkWith, ← hwalk]
    rfl
  | cons name path ih =>
    rw [cons_append, walkWith, walkWith]
    split
    · split_ifs
      · exact ih _
      · exact ih _
      · split
        · rfl
        · split_ifs
          · rfl
          · rw [← append_assoc]
            exact hfollow ..
          · rw [← append_assoc]
            exact hfollow ..
        · exact ih _
    · rfl

/-- **A path is resolved in parts.** -/
theorem walk_append (links : ℕ) (reached path path' : Path) :
    walk root links reached (path ++ path') =
      (walk root links reached path).bind fun r => walk root r.1 r.2 path' := by
  induction links generalizing reached path path' with
  | zero => exact walkWith_append (fun _ _ _ => rfl) rfl reached path path'
  | succ links ih => exact walkWith_append ih rfl reached path path'

variable {path : Path} {path' : Path}

/-- What is above something is a directory. -/
theorem exists_directory_of_lookup {name : Bytes} {node : Node}
    (h : root.lookup (path ++ name :: path') = some node) :
    ∃ entries child, root.lookup path = some (.directory entries) ∧
      entries.lookup name = some child ∧ child.lookup path' = some node := by
  rw [Node.lookup_append] at h
  obtain ⟨parent, hparent, h⟩ := Option.bind_eq_some_iff.mp h
  cases parent with
  | directory entries =>
    obtain ⟨child, hchild, h⟩ := Option.bind_eq_some_iff.mp h
    exact ⟨entries, child, hparent, hchild, h⟩
  | _ => cases h

theorem real_of_append (h : root.Real (path ++ path')) : root.Real path := by
  obtain ⟨node, hnode, hlink⟩ := h
  cases path' with
  | nil => exact ⟨node, by rwa [append_nil] at hnode, hlink⟩
  | cons name path' =>
    obtain ⟨entries, -, hparent, -⟩ := exists_directory_of_lookup hnode
    exact ⟨_, hparent, rfl⟩

theorem real_dropLast (h : root.Real path) : root.Real path.dropLast := by
  rcases eq_nil_or_concat' path with rfl | ⟨init, name, rfl⟩
  · exact h
  · rw [dropLast_concat]
    exact real_of_append h

variable {reached : Path} {reached' : Path}

theorem real_of_walkWith (hroot : root.Real []) (hfollow : ∀ {reached path m reached'},
      root.Real reached → follow reached path = .ok (m, reached') → root.Real reached')
    (hreached : root.Real reached) {m : ℕ}
    (h : walkWith root follow links reached path = .ok (m, reached')) : root.Real reached' := by
  induction path generalizing reached with
  | nil =>
    obtain ⟨-, rfl⟩ := Prod.mk.inj (Except.ok.inj h)
    exact hreached
  | cons name path ih =>
    rw [walkWith] at h
    split at h
    · next entries hentries =>
      split_ifs at h
      · exact ih hreached h
      · exact ih (real_dropLast hreached) h
      · split at h
        · cases h
        · split_ifs at h
          · exact hfollow hroot h
          · exact hfollow hreached h
        · next child hlink hchild =>
          refine ih ⟨child, ?_, ?_⟩ h
          · rw [Node.lookup_append, hentries, Option.bind_some, Node.lookup, hchild]
            rfl
          · cases child with
            | symlink target => exact absurd rfl (hlink target)
            | _ => rfl
    · cases h

/-- What a walk reaches is not a link, and no link leads to it. -/
theorem real_of_walk (hroot : root.Real []) (hreached : root.Real reached) {m : ℕ}
    (h : walk root links reached path = .ok (m, reached')) : root.Real reached' := by
  induction links generalizing reached path m reached' with
  | zero => exact real_of_walkWith hroot (fun _ h => by cases h) hreached h
  | succ links ih => exact real_of_walkWith hroot (fun hreached h => ih hreached h) hreached h

/-- **What is there is reached** by its own path, and no link is followed. -/
theorem walk_of_real (hreal : root.Real (reached ++ path)) (hnames : ∀ name ∈ path, IsName name) :
    walk root links reached path = .ok (links, reached ++ path) := by
  obtain ⟨follow, hwalk⟩ := walk_eq root links
  rw [hwalk]
  induction path generalizing reached with
  | nil =>
    rw [walkWith, append_nil]
  | cons name path ih =>
    obtain ⟨node, hnode, hlink⟩ := hreal
    obtain ⟨entries, child, hparent, hchild, hrest⟩ := exists_directory_of_lookup hnode
    obtain ⟨hempty, hdot, hdots, -⟩ := hnames name (mem_cons_self ..)
    have hnext : reached ++ name :: path = (reached ++ [name]) ++ path := append_cons ..
    rw [walkWith, hparent]
    dsimp only
    rw [if_neg (not_or.mpr ⟨hempty, hdot⟩), if_neg hdots, hchild]
    rw [hnext] at hnode ⊢
    have hgoes := ih ⟨node, hnode, hlink⟩ fun name hmem => hnames name (mem_cons_of_mem _ hmem)
    cases child with
    | symlink target =>
      -- A link has nothing below it, and it is not what is there.
      cases path with
      | nil =>
        cases hrest
        cases hlink
      | cons _ _ => cases hrest
    | _ => exact hgoes

end Walk

namespace FileSystem

variable {fs : FileSystem} {name : Bytes} {node : Node} {entries : List (Bytes × Node)}

theorem mem_of_lookup (h : entries.lookup name = some node) : (name, node) ∈ entries := by
  obtain ⟨before, after, rfl, -⟩ := lookup_eq_some_iff.mp h
  exact mem_append_right _ (mem_cons_self ..)

variable {path : Path}

/-- The entry of a name is the only one. -/
theorem lookup_of_mem (h : fs.root.lookup path = some (.directory entries))
    (hmem : (name, node) ∈ entries) : entries.lookup name = some node := by
  obtain ⟨before, after, hsplit⟩ := append_of_mem hmem
  have hnodup := (fs.named path entries h).1
  refine lookup_eq_some_iff.mpr ⟨before, after, hsplit, fun p hp => bne_iff_ne.mpr ?_⟩
  intro heq
  rw [hsplit, map_append, map_cons] at hnodup
  exact (nodup_append.mp hnodup).2.2 _ (mem_map_of_mem hp) _ (mem_cons_self ..)
    heq.symm

theorem isName_of_lookup (h : fs.root.lookup path = some node) (hmem : name ∈ path) :
    IsName name := by
  obtain ⟨above, below, rfl⟩ := append_of_mem hmem
  obtain ⟨entries, child, hparent, hchild, -⟩ := exists_directory_of_lookup h
  exact (fs.named above entries hparent).2 name
    (mem_map_of_mem (mem_of_lookup hchild))

theorem real_nil (fs : FileSystem) : fs.root.Real [] := by
  obtain ⟨entries, hentries⟩ := fs.rooted
  exact ⟨_, congrArg some hentries, rfl⟩

theorem real_of_canonicalize {path' : Path} (h : fs.canonicalize path = .ok path') :
    fs.root.Real path' := by
  rcases hwalk : walk fs.root fs.maxLinks [] path with e | ⟨m, reached⟩
  · rw [canonicalize, hwalk] at h
    cases h
  · rw [canonicalize, hwalk] at h
    cases h
    exact real_of_walk fs.real_nil fs.real_nil hwalk

theorem canonicalize_of_real (h : fs.root.Real path) :
    fs.canonicalize path = .ok path := by
  have hnames : ∀ name ∈ path, IsName name := by
    obtain ⟨node, hnode, -⟩ := h
    exact fun name hmem => isName_of_lookup hnode hmem
  have hwalk : walk fs.root fs.maxLinks [] path = .ok (fs.maxLinks, path) := walk_of_real h hnames
  rw [canonicalize, hwalk]
  rfl

/-- What is there is seen as it is. -/
theorem metadata_of_real (h : fs.root.Real path) :
    fs.metadata path = fs.root.lookup path := by
  rw [metadata, canonicalize_of_real h]
  rfl

end FileSystem

end Zetta.FileTree
