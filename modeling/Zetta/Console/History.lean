import Zetta.Console.Integers
import Zetta.Lib.Run

/-!
# Command history

The line editor keeps one list of commands per attached application, recycled by the
application's name when the process that owned it exits. A list has one cursor, the command
displayed last, and a flag that makes the next recall start at it.

* `wellFormed_of_run`: in every run of allocations, resizes and operations on the lists there are
  no more lists than buffers and no client owns two; each list is within its capacity, and its
  cursor is at a command, or before the first of them (`CommandHistory.WellFormed`).
* `exists_step`: nothing is indexed out of range and nothing overflows unless a search begins
  outside the list it searches.
* `CommandHistory.Recorded`: what adding a command to a list comes to.
* The cursor of an empty list is put at its beginning by a recall, suppressing a duplicate can
  bring equal commands together, and a recall goes on from a command equal to the one added
  (`history_departs`).
-/

namespace Zetta.Console

open List

/-- An index, as the operations take it. -/
abbrev Index := {n : ℤ // -2147483648 ≤ n ∧ n ≤ I32_MAX}

/-! ### One list -/

/-- A command, or any other text, in UTF-16 code units. -/
abbrev Command := List UInt16

structure CommandHistory where
  commands : List Command
  maxCommands : ℤ
  application : List UInt16
  /-- The client the list belongs to, while that client lives. -/
  owner : Option ℕ
  /-- The next recall backwards retrieves the command displayed last itself. -/
  reset : Bool
  lastDisplayed : ℤ
  deriving DecidableEq

inductive Direction
  | previous
  | next

namespace CommandHistory

variable (h : CommandHistory)

def len : ℤ := asI32 h.commands.length

/-- `commands[index as usize]`, which panics outside the list. -/
def get (index : ℤ) : Option Command :=
  if index < 0 then none else h.commands[index.toNat]?

def resetPosition : Option CommandHistory := do
  let last ← i32 (h.len - 1)
  return { h with lastDisplayed := last, reset := true }

def nth (index : ℤ) : Command :=
  if 0 ≤ index ∧ index < h.len then h.commands.getD index.toNat [] else []

def retrieveNth (index : ℤ) : Option (CommandHistory × Command) :=
  if h.commands = [] then some ({ h with lastDisplayed := 0 }, []) else do
    let last ← i32 (h.len - 1)
    -- `clamp` panics when its bounds are the wrong way round.
    if last < 0 then none
    let displayed := max 0 (min index last)
    let command ← h.get displayed
    return ({ h with lastDisplayed := displayed }, command)

def retrieve : Direction → Option (CommandHistory × Command)
  | .previous =>
    if h.reset then { h with reset := false }.retrieveNth h.lastDisplayed else do
      let last ← i32 (h.lastDisplayed - 1)
      { h with lastDisplayed := last }.retrieveNth last
  | .next => do
    let last ← i32 (h.lastDisplayed + 1)
    { h with lastDisplayed := last }.retrieveNth last

def empty : CommandHistory :=
  { h with commands := [], lastDisplayed := -1, reset := true }

def atFirst : Option Bool :=
  if h.reset then some false else do
    let index ← i32 (h.lastDisplayed - 1)
    let last ← i32 (h.len - 1)
    return (if index = -1 then last else index) == last

def atLast : Option Bool := do
  let last ← i32 (h.len - 1)
  return h.lastDisplayed == last

def realloc (commands : ℤ) : Option CommandHistory :=
  if h.maxCommands = commands then some h else do
    let kept := { h with commands := h.commands.take (max commands 0).toNat, reset := true }
    let last ← i32 (kept.len - 1)
    return { kept with lastDisplayed := last, maxCommands := commands }

def remove (index : ℤ) : Option (CommandHistory × Command) :=
  if 0 ≤ index ∧ index < h.len then do
    let command ← h.get index
    let rest := { h with commands := h.commands.eraseIdx index.toNat }
    if h.lastDisplayed = index then
      return ({ rest with lastDisplayed := -1 }, command)
    else if index < h.lastDisplayed then
      let last ← i32 ((if h.lastDisplayed ≤ 0 then h.maxCommands else h.lastDisplayed) - 1)
      return ({ rest with lastDisplayed := last }, command)
    else return (rest, command)
  else some (h, [])

def swap (a b : ℤ) : CommandHistory :=
  if a ≠ b ∧ (0 ≤ a ∧ a < h.len) ∧ (0 ≤ b ∧ b < h.len) then
    let first := h.commands.getD a.toNat []
    let second := h.commands.getD b.toNat []
    { h with commands := (h.commands.set a.toNat second).set b.toNat first }
  else h

def previous (index : ℤ) : Option ℤ :=
  i32 ((if index ≤ 0 then h.len else index) - 1)

/-- The stored command begins with the pattern, or is the pattern. -/
def agrees (pattern : Command) (exact : Bool) (stored : Command) : Bool :=
  (if exact then stored.length == pattern.length else pattern.length ≤ stored.length) &&
    pattern.isPrefixOf stored

/-- The search loop, with the rounds that are left. -/
def search (h : CommandHistory) (pattern : Command) (exact : Bool) : ℕ → ℤ → Option (Option ℤ)
  | 0, _ => some none
  | rounds + 1, index => do
    let stored ← h.get index
    if agrees pattern exact stored then return some index
    h.search pattern exact rounds (← h.previous index)

def find (pattern : Command) (start : ℤ) (exact justLooking : Bool) :
    Option (CommandHistory × Option ℤ) :=
  if h.commands = [] then some (h, none)
  else if !justLooking && h.reset then
    -- The search begins at `start` itself, whatever that is.
    let h := { h with reset := false }
    if pattern = [] then some (h, some start)
    else (h.search pattern exact h.commands.length start).map (h, ·)
  else do
    let index ← h.previous start
    if pattern = [] then return (h, some index)
    let found ← h.search pattern exact h.commands.length index
    return (h, found)

/-- The older copy of a command is taken out. -/
def reuse (command : Command) (suppressDuplicates : Bool) :
    Option (CommandHistory × Option Command) :=
  if suppressDuplicates then do
    match ← h.find command h.lastDisplayed true false with
    | (h, some index) =>
      let (h, removed) ← h.remove index
      return (h, some removed)
    | (h, none) => return (h, none)
  else some (h, none)

/-- The oldest command of a full list makes room. -/
def evict : Option CommandHistory :=
  if h.len = h.maxCommands then
    match h.commands with
    | [] => none
    | _ :: rest => do
      let last ← i32 (h.lastDisplayed - 1)
      return { h with commands := rest, lastDisplayed := last }
  else some h

def add (command : Command) (suppressDuplicates : Bool) : Option CommandHistory :=
  if h.maxCommands = 0 ∨ command = [] then some h
  else if h.commands.getLast? = some command then some { h with reset := true }
  else do
    let (h, reused) ← h.reuse command suppressDuplicates
    let h ← h.evict
    let h := { h with commands := h.commands ++ [reused.getD command] }
    let h ← if h.lastDisplayed = -1 ∨ h.nth h.lastDisplayed ≠ command then h.resetPosition
      else some h
    return { h with reset := true }

def atEnd : Direction → Option Bool
  | .previous => h.atFirst
  | .next => h.atLast

/-- The arrow keys of the editor, which recall the command before and the one after. -/
def arrow (direction : Direction) : Option (CommandHistory × Option Command) := do
  if ← h.atEnd direction then return (h, none)
  let (h, command) ← h.retrieve direction
  return (h, some command)

end CommandHistory

/-- What is done to a list. -/
inductive Operation
  | add (command : Command) (suppressDuplicates : Bool)
  | arrow (direction : Direction)
  | retrieveNth (index : Index)
  | remove (index : Index)
  | swap (a b : Index)
  | find (pattern : Command) (start : Index) (exact justLooking : Bool)
  | realloc (commands : ℕ)
  | empty

def Operation.run (h : CommandHistory) : Operation → Option CommandHistory
  | .add command suppressDuplicates => h.add command suppressDuplicates
  | .arrow direction => (h.arrow direction).map Prod.fst
  | .retrieveNth index => (h.retrieveNth index).map Prod.fst
  | .remove index => (h.remove index).map Prod.fst
  | .swap a b => some (h.swap a b)
  | .find pattern start exact justLooking =>
    (h.find pattern start exact justLooking).map Prod.fst
  | .realloc commands => h.realloc (asI32 commands)
  | .empty => some h.empty

/-! ### All lists of a console -/

/-- The lists, most recently allocated first. -/
structure Histories where
  lists : List CommandHistory
  size : ℕ
  buffers : ℕ

namespace Histories

section Names

-- What names are compared by: the text, in lower case.
variable {κ : Type} [DecidableEq κ] (lowercase : List UInt16 → κ)

def sameName (a b : List UInt16) : Bool := lowercase a == lowercase b

/-- The first list that is somebody's and meets `p`, changed in place. -/
def modify (p : CommandHistory → Bool) (f : CommandHistory → Option CommandHistory) :
    List CommandHistory → Option (List CommandHistory)
  | [] => some []
  | list :: lists =>
    if p list then (f list).map (· :: lists) else (modify p f lists).map (list :: ·)

/-- The list a client owns. -/
def ownedBy (owner : ℕ) (list : CommandHistory) : Bool := list.owner == some owner

/-- A list in use for an application. -/
def inUseFor (application : List UInt16) (list : CommandHistory) : Bool :=
  list.owner.isSome && sameName lowercase list.application application

/-- The last free list that is empty, or the first free one. -/
def emptiest (lists : List CommandHistory) : Option ℕ :=
  lists.zipIdx.foldl (fun best entry =>
    if entry.1.owner.isNone && (entry.1.commands.isEmpty ||
        best.all fun best => !lists[best]?.any fun list => list.commands.isEmpty)
    then some entry.2 else best) none

def allocate (s : Histories) (application : List UInt16) (owner : ℕ) : Option Histories :=
  let same := s.lists.findIdx? fun list =>
    list.owner.isNone && sameName lowercase list.application application
  if same.isNone ∧ s.lists.length < s.buffers then
    some { s with lists := {
      commands := [], maxCommands := asI32 s.size, application, owner := some owner,
      reset := false, lastDisplayed := -1 } :: s.lists }
  else
    match same.or (emptiest s.lists) with
    | none => some s
    | some index => do
      let list ← s.lists[index]?
      let list := if same.isNone then
        { list with commands := [], lastDisplayed := -1, application } else list
      return { s with lists := { list with owner := some owner } :: s.lists.eraseIdx index }

def free (s : Histories) (owner : ℕ) : Option Histories := do
  let lists ← modify (ownedBy owner) (fun list => some { list with owner := none }) s.lists
  return { s with lists }

def resizeAll (s : Histories) (size : ℕ) : Option Histories := do
  let lists ← s.lists.mapM fun list => list.realloc (asI32 size)
  return { s with size, lists }

def reallocApplication (s : Histories) (application : List UInt16) (commands : ℕ) :
    Option Histories :=
  match s.lists.findIdx? (inUseFor lowercase application) with
  | none => some s
  | some index => do
    let list ← s.lists[index]?
    let list ← list.realloc (asI32 commands)
    return { s with lists := list :: s.lists.eraseIdx index }

inductive Event
  | allocate (application : List UInt16) (owner : ℕ)
  | free (owner : ℕ)
  | resizeAll (size : ℕ)
  | reallocApplication (application : List UInt16) (commands : ℕ)
  /-- An operation on the list of a client (`find`). -/
  | ofClient (owner : ℕ) (operation : Operation)
  /-- An operation on the list of an application (`by_application`). -/
  | ofApplication (application : List UInt16) (operation : Operation)

def step (s : Histories) : Event → Option Histories
  | .allocate application owner => s.allocate lowercase application owner
  | .free owner => s.free owner
  | .resizeAll size => s.resizeAll size
  | .reallocApplication application commands =>
    s.reallocApplication lowercase application commands
  | .ofClient owner operation => do
    let lists ← modify (ownedBy owner) operation.run s.lists
    return { s with lists }
  | .ofApplication application operation => do
    let lists ← modify (inUseFor lowercase application) operation.run s.lists
    return { s with lists }

/-- A console before its first client. -/
def new (size buffers : ℕ) : Histories := ⟨[], size, buffers⟩

end Names

end Histories

/-! ### What the operations come to -/

namespace CommandHistory

variable {h h' : CommandHistory} {command pattern : Command} {index : ℤ} {exact : Bool}

/-- The list fits its capacity, which may be negative: there is none then. -/
structure Sized (h : CommandHistory) : Prop where
  short : (h.commands.length : ℤ) ≤ I32_MAX
  capacity : h.maxCommands ≤ I32_MAX
  bounded : 0 ≤ h.maxCommands → (h.commands.length : ℤ) ≤ h.maxCommands

/-- What holds of every list. -/
structure WellFormed (h : CommandHistory) : Prop extends Sized h where
  /-- The cursor is at a command or at `-1`; a recall puts that of an empty list at `0`. -/
  cursor : -1 ≤ h.lastDisplayed ∧ h.lastDisplayed < h.commands.length ∨
    h.commands = [] ∧ h.lastDisplayed = 0
  /-- Only a list with room has its cursor before the first command. -/
  room : h.lastDisplayed = -1 → 0 < h.maxCommands → (h.commands.length : ℤ) < h.maxCommands

theorem Sized.len_eq (hs : h.Sized) : h.len = h.commands.length := asI32_of_le hs.short

theorem Sized.length_pos (hne : h.commands ≠ []) : 0 < (h.commands.length : ℤ) := by
  exact_mod_cast length_pos_iff.mpr hne

variable {i : ℕ}

theorem get_eq : h.get i = h.commands[i]? := by
  rw [get, if_neg (by omega), Int.toNat_natCast]

/-- An index of the list. -/
theorem exists_get (h₀ : 0 ≤ index) (hlt : index < h.commands.length) :
    ∃ stored, h.get index = some stored ∧ h.commands[index.toNat]? = some stored := by
  obtain ⟨i, rfl⟩ := Int.eq_ofNat_of_zero_le h₀
  have hi : i < h.commands.length := by exact_mod_cast hlt
  exact ⟨h.commands[i], by rw [get_eq, getElem?_eq_getElem hi],
    by rw [Int.toNat_natCast, getElem?_eq_getElem hi]⟩

/-- Where a retrieval leaves the cursor. -/
def place (h : CommandHistory) (index : ℤ) : ℤ :=
  if h.commands = [] then 0 else max 0 (min index (h.commands.length - 1))

theorem retrieveNth_eq (hs : h.Sized) (index : ℤ) :
    h.retrieveNth index = some ({ h with lastDisplayed := h.place index },
      h.commands.getD (h.place index).toNat []) := by
  rw [retrieveNth, place]
  split_ifs with hnil
  · simp [hnil]
  · have hpos := Sized.length_pos hnil
    obtain ⟨stored, hget, hstored⟩ := exists_get (h := h)
      (show 0 ≤ max 0 (min index (h.commands.length - 1)) by omega) (by omega)
    have hshort := hs.short
    rw [hs.len_eq, i32_of_le (by omega) (by omega)]
    simp only [Option.bind_eq_bind, Option.bind_some, if_neg (show ¬(h.commands.length : ℤ) - 1 < 0 by
      omega), hget, getD_eq_getElem?_getD, hstored, Option.getD_some]
    rfl

/-- The cursor after a retrieval is at a command, unless there is none. -/
theorem Sized.wellFormed_place (hs : h.Sized) (index : ℤ) (reset : Bool) :
    WellFormed { h with lastDisplayed := h.place index, reset } where
  toSized := ⟨hs.short, hs.capacity, hs.bounded⟩
  cursor := by
    by_cases hnil : h.commands = []
    · exact .inr ⟨hnil, if_pos hnil⟩
    · have hpos := Sized.length_pos hnil
      have hplace : h.place index = max 0 (min index (h.commands.length - 1)) := if_neg hnil
      exact .inl ⟨by dsimp only; omega, by dsimp only; omega⟩
  room := by
    have hplace : 0 ≤ h.place index := by rw [place]; split_ifs <;> omega
    exact fun hbefore => absurd hbefore (by dsimp only; omega)

/-- A list is sized whatever its cursor is. -/
theorem Sized.with_cursor (hs : h.Sized) (lastDisplayed : ℤ) (reset : Bool) :
    Sized { h with lastDisplayed, reset } :=
  ⟨hs.short, hs.capacity, hs.bounded⟩

theorem retrieve_eq (hw : h.WellFormed) (direction : Direction) :
    ∃ index reset, h.retrieve direction = some ({ h with lastDisplayed := h.place index, reset },
      h.commands.getD (h.place index).toNat []) := by
  have hcursor := hw.cursor
  have hshort := hw.short
  have hmax : 0 < I32_MAX := by decide
  cases direction with
  | previous =>
    rw [retrieve]
    split_ifs with hreset
    · exact ⟨h.lastDisplayed, false, retrieveNth_eq (hw.with_cursor h.lastDisplayed false) _⟩
    · refine ⟨h.lastDisplayed - 1, h.reset, ?_⟩
      rw [i32_of_le (by omega) (by omega), Option.bind_eq_bind, Option.bind_some]
      exact retrieveNth_eq (hw.with_cursor (h.lastDisplayed - 1) h.reset) _
  | next =>
    refine ⟨h.lastDisplayed + 1, h.reset, ?_⟩
    rw [retrieve, i32_of_le (by omega) (by omega), Option.bind_eq_bind, Option.bind_some]
    exact retrieveNth_eq (hw.with_cursor (h.lastDisplayed + 1) h.reset) _

theorem atFirst_eq (hw : h.WellFormed) :
    h.atFirst = some (!h.reset &&
      ((if h.lastDisplayed = 0 then (h.commands.length : ℤ) - 1 else h.lastDisplayed - 1) ==
        (h.commands.length : ℤ) - 1)) := by
  have hcursor := hw.cursor
  have hshort := hw.short
  rw [atFirst]
  cases hreset : h.reset with
  | true => rfl
  | false =>
    rw [hw.len_eq, i32_of_le (by omega) (by omega), i32_of_le (by omega) (by omega)]
    simp only [Option.bind_eq_bind, Option.bind_some, Bool.not_false, Bool.true_and,
      show (h.lastDisplayed - 1 = -1) = (h.lastDisplayed = 0) from propext ⟨by omega, by omega⟩]
    rfl

theorem atLast_eq (hw : h.WellFormed) :
    h.atLast = some (h.lastDisplayed == (h.commands.length : ℤ) - 1) := by
  have hshort := hw.short
  rw [atLast, hw.len_eq, i32_of_le (by omega) (by omega)]
  rfl

/-- The cursor after a removal. -/
def afterRemove (h : CommandHistory) (index : ℤ) : ℤ :=
  if h.lastDisplayed = index then -1
  else if index < h.lastDisplayed then h.lastDisplayed - 1 else h.lastDisplayed

theorem remove_eq (hw : h.WellFormed) (h₀ : 0 ≤ index) (hlt : index < h.commands.length) :
    h.remove index = some ({ h with
      commands := h.commands.eraseIdx index.toNat, lastDisplayed := h.afterRemove index },
      h.commands.getD index.toNat []) := by
  have hcursor := hw.cursor
  have hshort := hw.short
  obtain ⟨stored, hget, hstored⟩ := exists_get h₀ hlt
  rw [remove, if_pos ⟨h₀, hw.len_eq ▸ hlt⟩, afterRemove, hget]
  simp only [Option.bind_eq_bind, Option.bind_some, getD_eq_getElem?_getD, hstored,
    Option.getD_some]
  split_ifs with hshown hafter hzero
  · rfl
  · -- The cursor is behind the index, which is not negative.
    omega
  · rw [i32_of_le (by omega) (by omega)]
    rfl
  · rfl

theorem wellFormed_remove (hw : h.WellFormed) (h₀ : 0 ≤ index)
    (hlt : index < h.commands.length) (reset : Bool) :
    WellFormed { h with
      commands := h.commands.eraseIdx index.toNat, lastDisplayed := h.afterRemove index, reset } := by
  have hcursor := hw.cursor
  have hshort := hw.short
  have hbounded := hw.bounded
  have hlength : ((h.commands.eraseIdx index.toNat).length : ℤ) = h.commands.length - 1 := by
    rw [length_eraseIdx_of_lt (by omega)]
    omega
  have hafter : h.afterRemove index = -1 ∨ h.afterRemove index = h.lastDisplayed - 1 ∧
      index < h.lastDisplayed ∨ h.afterRemove index = h.lastDisplayed ∧
      h.lastDisplayed < index := by
    rw [afterRemove]
    split_ifs <;> omega
  have hempty : h.commands ≠ [] := fun hnil => by simp [hnil] at hlt; omega
  refine ⟨⟨?_, hw.capacity, fun hmax => ?_⟩, .inl ⟨?_, ?_⟩, fun _ hmax => ?_⟩ <;>
    dsimp only at * <;> grind

/-! ### Searching -/

theorem previous_eq (hs : h.Sized) (hle : index ≤ h.commands.length) :
    h.previous index = some ((if index ≤ 0 then (h.commands.length : ℤ) else index) - 1) := by
  have hshort := hs.short
  rw [previous, hs.len_eq]
  split_ifs <;> exact i32_of_le (by omega) (by omega)

/-- The command before the first is the last. -/
theorem previous_eq_emod (hs : h.Sized) (h₀ : 0 ≤ index) (hlt : index < h.commands.length) :
    h.previous index = some ((index - 1) % h.commands.length) := by
  rw [previous_eq hs hlt.le]
  split_ifs with hfirst
  · rw [show index - 1 = (h.commands.length - 1 : ℤ) - h.commands.length by omega,
      Int.sub_emod_right, Int.emod_eq_of_lt (by omega) (by omega)]
  · rw [Int.emod_eq_of_lt (by omega) (by omega)]

/-- A search that begins inside the list ends, with a command that agrees or none in all the
places it has been to, which are those before the start, around the list. -/
theorem exists_search (hs : h.Sized) (pattern : Command) (exact : Bool) (rounds : ℕ) (h₀ : 0 ≤ index)
    (hlt : index < h.commands.length) :
    ∃ found, h.search pattern exact rounds index = some found ∧
      (∀ i, found = some i → 0 ≤ i ∧ i < h.commands.length ∧
        ∃ stored, h.commands[i.toNat]? = some stored ∧ agrees pattern exact stored = true) ∧
      (found = none → ∀ k < rounds, ∀ stored,
        h.commands[((index - k) % h.commands.length).toNat]? = some stored →
          agrees pattern exact stored = false) := by
  induction rounds generalizing index with
  | zero => exact ⟨none, rfl, by simp, by simp⟩
  | succ rounds ih =>
    obtain ⟨stored, hget, hstored⟩ := exists_get h₀ hlt
    rw [search, hget, Option.bind_eq_bind, Option.bind_some]
    cases hagrees : agrees pattern exact stored with
    | true =>
      refine ⟨some index, rfl, ?_, by simp⟩
      rintro i ⟨rfl⟩
      exact ⟨h₀, hlt, stored, hstored, hagrees⟩
    | false =>
      rw [previous_eq_emod hs h₀ hlt]
      obtain ⟨found, hsearch, hfound, hnone⟩ := ih
        (show 0 ≤ (index - 1) % h.commands.length from Int.emod_nonneg _ (by omega))
        (Int.emod_lt_of_pos _ (by omega))
      refine ⟨found, hsearch, hfound, fun hnot k hk other hother => ?_⟩
      cases k with
      | zero =>
        rw [Nat.cast_zero, Int.sub_zero, Int.emod_eq_of_lt h₀ hlt, hstored] at hother
        rwa [← Option.some.inj hother]
      | succ k =>
        refine hnone hnot k (by omega) other ?_
        rw [← hother, Int.emod_sub_emod, Nat.cast_succ]
        congr 3
        omega

/-- A search of as many rounds as there are commands leaves none out. -/
theorem agrees_eq_false_of_search (hs : h.Sized) (h₀ : 0 ≤ index)
    (hlt : index < h.commands.length)
    (hsearch : h.search pattern exact h.commands.length index = some none) :
    ∀ stored ∈ h.commands, agrees pattern exact stored = false := by
  intro stored hmem
  obtain ⟨found, hfound, -, hnone⟩ := exists_search hs pattern exact h.commands.length h₀ hlt
  obtain ⟨i, hi, hget⟩ := mem_iff_getElem.mp hmem
  -- The place `i` is reached after as many rounds as it lies before the start.
  have hnonneg := Int.emod_nonneg (index - i) (show (h.commands.length : ℤ) ≠ 0 by omega)
  have hlt' := Int.emod_lt_of_pos (index - i) (show 0 < (h.commands.length : ℤ) by omega)
  refine hnone (Option.some.inj (hfound.symm.trans hsearch))
    ((index - i) % h.commands.length).toNat (by omega) stored ?_
  rw [Int.toNat_of_nonneg hnonneg, Int.sub_emod_emod, show index - (index - i) = (i : ℤ) by omega,
    Int.emod_eq_of_lt (by omega) (by omega), Int.toNat_natCast, getElem?_eq_getElem hi, hget]

/-- What was found is a command that agrees, and nothing is found only where none does. -/
structure Found (h : CommandHistory) (pattern : Command) (exact : Bool) (found : Option ℤ) :
    Prop where
  agrees : ∀ i, found = some i → 0 ≤ i ∧ i < h.commands.length ∧
    ∃ stored, h.commands[i.toNat]? = some stored ∧ agrees pattern exact stored = true
  all : found = none → ∀ stored ∈ h.commands, CommandHistory.agrees pattern exact stored = false

theorem exists_search_all (hs : h.Sized) (pattern : Command) (exact : Bool) (h₀ : 0 ≤ index)
    (hlt : index < h.commands.length) :
    ∃ found, h.search pattern exact h.commands.length index = some found ∧
      h.Found pattern exact found := by
  obtain ⟨found, hsearch, hfound, -⟩ := exists_search hs pattern exact h.commands.length h₀ hlt
  refine ⟨found, hsearch, hfound, ?_⟩
  rintro rfl
  exact agrees_eq_false_of_search hs h₀ hlt hsearch

theorem eq_of_agrees {stored : Command} (hagrees : agrees pattern true stored = true) :
    stored = pattern := by
  rw [agrees, Bool.and_eq_true, if_pos rfl, beq_iff_eq, List.isPrefixOf_iff_prefix] at hagrees
  exact (hagrees.2.eq_of_length hagrees.1.symm).symm

theorem agrees_self : agrees pattern true pattern = true := by
  rw [agrees, Bool.and_eq_true, if_pos rfl, beq_iff_eq, List.isPrefixOf_iff_prefix]
  exact ⟨rfl, prefix_rfl⟩

/-- Where a search begins. -/
def begin (h : CommandHistory) (start : ℤ) (justLooking : Bool) : ℤ :=
  if !justLooking && h.reset then start
  else (if start ≤ 0 then (h.commands.length : ℤ) else start) - 1

/-- A search begins inside the list, or searches for nothing. -/
def Searches (h : CommandHistory) (pattern : Command) (start : ℤ) (justLooking : Bool) : Prop :=
  h.commands = [] ∨ pattern = [] ∨
    0 ≤ h.begin start justLooking ∧ h.begin start justLooking < h.commands.length

variable {justLooking : Bool} {start : ℤ}

/-- What a search comes to. -/
theorem exists_find (hs : h.Sized) (exact : Bool) (hsearches : h.Searches pattern start justLooking)
    (hmax : start ≤ I32_MAX) :
    ∃ reset found, h.find pattern start exact justLooking = some ({ h with reset }, found) ∧
      (pattern ≠ [] → h.Found pattern exact found) := by
  have hshort := hs.short
  have hmin : 0 < I32_MAX := by decide
  rw [find]
  by_cases hnil : h.commands = []
  · exact ⟨h.reset, none, if_pos hnil, fun _ => ⟨by simp, by simp [hnil]⟩⟩
  have hsearches' := hsearches.resolve_left hnil
  rw [begin] at hsearches'
  rw [if_neg hnil]
  split_ifs with hreset hempty hempty
  · exact ⟨false, some start, rfl, (absurd hempty ·)⟩
  · rw [if_pos hreset] at hsearches'
    obtain ⟨h₀, hlt⟩ := hsearches'.resolve_left hempty
    obtain ⟨found, hsearch, hfound⟩ := exists_search_all (hs.with_cursor h.lastDisplayed false)
      pattern exact h₀ hlt
    exact ⟨false, found, congrArg (Option.map _) hsearch, fun _ => ⟨hfound.agrees, hfound.all⟩⟩
  · rw [previous, hs.len_eq, i32_of_le (by split_ifs <;> omega) (by split_ifs <;> omega)]
    exact ⟨h.reset, _, rfl, (absurd hempty ·)⟩
  · rw [if_neg hreset] at hsearches'
    obtain ⟨h₀, hlt⟩ := hsearches'.resolve_left hempty
    obtain ⟨found, hsearch, hfound⟩ := exists_search_all hs pattern exact h₀ hlt
    rw [previous, hs.len_eq, i32_of_le (by split_ifs <;> omega) (by split_ifs <;> omega),
      Option.bind_eq_bind, Option.bind_some, hsearch]
    exact ⟨h.reset, found, rfl, fun _ => hfound⟩

theorem search_eq_none (hne : h.commands ≠ []) (hout : index < 0 ∨ h.commands.length ≤ index) :
    h.search pattern exact h.commands.length index = none := by
  have hget : h.get index = none := by
    rw [get]
    split_ifs
    · rfl
    · exact getElem?_eq_none (by omega)
  obtain ⟨rounds, hrounds⟩ := Nat.exists_eq_succ_of_ne_zero (length_pos_iff.mpr hne).ne'
  rw [hrounds, search, hget]
  rfl

/-- A search that begins anywhere else indexes the list there. -/
theorem find_eq_none (hs : h.Sized) (hsearches : ¬h.Searches pattern start justLooking) :
    h.find pattern start exact justLooking = none := by
  simp only [Searches, not_or] at hsearches
  obtain ⟨hnil, hempty, houtside⟩ := hsearches
  rw [begin] at houtside
  rw [find, if_neg hnil]
  by_cases hreset : (!justLooking && h.reset) = true
  · rw [if_pos hreset] at houtside ⊢
    rw [if_neg hempty]
    exact congrArg (Option.map _) (search_eq_none (h := { h with reset := false }) hnil
      (by dsimp only; omega))
  · rw [if_neg hreset] at houtside ⊢
    rw [previous, hs.len_eq, i32]
    by_cases hfits : -2147483648 ≤ (if start ≤ 0 then (h.commands.length : ℤ) else start) - 1 ∧
        (if start ≤ 0 then (h.commands.length : ℤ) else start) - 1 ≤ I32_MAX
    · rw [if_pos hfits, Option.bind_eq_bind, Option.bind_some, if_neg hempty,
        search_eq_none hnil (by omega)]
      rfl
    · rw [if_neg hfits]
      rfl

/-! ### Adding a command -/

/-- Every list but one that has no capacity and no index left. -/
def Growable (h : CommandHistory) : Prop :=
  h.maxCommands < 0 → (h.commands.length : ℤ) < I32_MAX

/-- Whether adding this command searches for an older copy of it. -/
def Seeks (h : CommandHistory) (command : Command) (suppressDuplicates : Bool) : Prop :=
  h.maxCommands ≠ 0 ∧ command ≠ [] ∧ h.commands.getLast? ≠ some command ∧
    suppressDuplicates = true

/-- What is left of a list when the older copy is taken out. -/
structure Reused (h : CommandHistory) (command : Command) (suppressDuplicates : Bool)
    (h₁ : CommandHistory) (reused : Option Command) : Prop where
  wellFormed : h₁.WellFormed
  owner : h₁.owner = h.owner
  application : h₁.application = h.application
  capacity : h₁.maxCommands = h.maxCommands
  same : reused.getD command = command
  commands : h₁.commands = h.commands ∧ (suppressDuplicates = true → command ∉ h.commands) ∨
    suppressDuplicates = true ∧ ∃ i, h.commands[i]? = some command ∧
      h₁.commands = h.commands.eraseIdx i
  shown : h.nth h.lastDisplayed ≠ command → h₁.lastDisplayed = -1 ∨
    h₁.nth h₁.lastDisplayed ≠ command

theorem nth_eq (hs : h.Sized) : h.nth index =
    if 0 ≤ index then h.commands.getD index.toNat [] else [] := by
  rw [nth, hs.len_eq]
  split_ifs with h₁ h₀ h₀
  · rfl
  · omega
  · rw [getD_eq_default _ _ (by omega)]
  · rfl

/-- A well-formed list has its cursor below `I32_MAX`. -/
theorem WellFormed.lastDisplayed_le (hw : h.WellFormed) : h.lastDisplayed ≤ I32_MAX := by
  have hmax : 0 < I32_MAX := by decide
  have hcursor := hw.cursor
  have hshort := hw.short
  omega

/-- The flag decides nothing of what holds of a list. -/
theorem WellFormed.with_reset (hw : h.WellFormed) (reset : Bool) :
    WellFormed { h with reset } :=
  ⟨hw.with_cursor h.lastDisplayed reset, hw.cursor, hw.room⟩

/-- A removal leaves the cursor at the command it was at, unless that is the one removed. -/
theorem nth_afterRemove (hw : h.WellFormed) (h₀ : 0 ≤ index) (hlt : index < h.commands.length)
    (reset : Bool) :
    h.afterRemove index = -1 ∨
      nth { h with commands := h.commands.eraseIdx index.toNat,
                   lastDisplayed := h.afterRemove index, reset } (h.afterRemove index) =
        h.nth h.lastDisplayed := by
  have hcursor := hw.cursor
  have hne : h.commands ≠ [] := fun hnil => by simp [hnil] at hlt; omega
  rw [nth_eq hw.toSized, nth_eq (wellFormed_remove hw h₀ hlt reset).toSized]
  simp only [getD_eq_getElem?_getD]
  rcases lt_trichotomy h.lastDisplayed index with hbefore | hshown | hafter
  · rw [show h.afterRemove index = h.lastDisplayed by
      rw [afterRemove, if_neg hbefore.ne, if_neg hbefore.not_gt]]
    by_cases hfirst : h.lastDisplayed = -1
    · exact .inl hfirst
    · rw [if_pos (by omega), if_pos (by omega), getElem?_eraseIdx_of_lt (by omega)]
      exact .inr rfl
  · exact .inl (if_pos hshown)
  · rw [show h.afterRemove index = h.lastDisplayed - 1 by
      rw [afterRemove, if_neg hafter.ne', if_pos hafter]]
    rw [if_pos (by omega), if_pos (by omega), getElem?_eraseIdx_of_ge (by omega),
      show (h.lastDisplayed - 1).toNat + 1 = h.lastDisplayed.toNat by omega]
    exact .inr rfl

variable {suppressDuplicates : Bool}

theorem exists_reuse (hw : h.WellFormed) (hne : command ≠ [])
    (hsearches : suppressDuplicates = true → h.Searches command h.lastDisplayed false) :
    ∃ h₁ reused, h.reuse command suppressDuplicates = some (h₁, reused) ∧
      h.Reused command suppressDuplicates h₁ reused := by
  rw [reuse]
  split_ifs with hsuppress
  · obtain ⟨reset, found, hfind, hfound⟩ := exists_find hw.toSized true
      (hsearches hsuppress) hw.lastDisplayed_le
    have hfound := hfound hne
    have hw' := hw.with_reset reset
    rw [hfind, Option.bind_eq_bind, Option.bind_some]
    cases found with
    | none =>
      have hnot : command ∉ h.commands := fun hmem => by
        simpa [agrees_self] using hfound.all rfl command hmem
      exact ⟨_, none, rfl, hw', rfl, rfl, rfl, rfl, .inl ⟨rfl, fun _ => hnot⟩, .inr⟩
    | some i =>
      obtain ⟨h₀, hlt, stored, hstored, hagrees⟩ := hfound.agrees i rfl
      obtain rfl := eq_of_agrees hagrees
      have hremove := remove_eq hw' h₀ hlt
      refine ⟨_, some (h.commands.getD i.toNat []), by simp only [hremove]; rfl,
        wellFormed_remove hw h₀ hlt reset, rfl, rfl, rfl, ?_,
        .inr ⟨hsuppress, i.toNat, hstored, rfl⟩, fun hshown => ?_⟩
      · rw [Option.getD_some, getD_eq_getElem?_getD, hstored, Option.getD_some]
      · exact (nth_afterRemove hw h₀ hlt reset).imp_right fun heq hsame =>
          hshown (heq.symm.trans hsame)
  · exact ⟨h, none, rfl, hw, rfl, rfl, rfl, rfl, .inl ⟨rfl, (absurd · hsuppress)⟩, .inr⟩

/-- The list with room for one more command. -/
structure Roomy (h : CommandHistory) (h₂ : CommandHistory) : Prop where
  owner : h₂.owner = h.owner
  application : h₂.application = h.application
  capacity : h₂.maxCommands = h.maxCommands
  short : (h₂.commands.length : ℤ) < I32_MAX
  bounded : 0 ≤ h.maxCommands → (h₂.commands.length : ℤ) < h.maxCommands
  suffix : h₂.commands <:+ h.commands
  cursor : -1 ≤ h₂.lastDisplayed ∧ h₂.lastDisplayed ≤ h₂.commands.length
  shown : h₂.lastDisplayed = -1 ∨ h₂.commands = [] ∧ h₂.lastDisplayed = 0 ∨
    h₂.nth h₂.lastDisplayed = h.nth h.lastDisplayed ∧
      h₂.lastDisplayed < h₂.commands.length

variable {h₂ : CommandHistory}

theorem Roomy.sized (hroomy : h.Roomy h₂) (hcapacity : h.maxCommands ≤ I32_MAX) : h₂.Sized := by
  refine ⟨hroomy.short.le, ?_, fun h₀ => ?_⟩
  · rwa [hroomy.capacity]
  · rw [hroomy.capacity] at h₀ ⊢
    exact (hroomy.bounded h₀).le

/-- There is room for one more. -/
theorem Roomy.sized_append (hroomy : h.Roomy h₂) (hcapacity : h.maxCommands ≤ I32_MAX)
    (command : Command) :
    Sized { h₂ with commands := h₂.commands ++ [command] } := by
  have hlength : ((h₂.commands ++ [command]).length : ℤ) = h₂.commands.length + 1 := by simp
  refine ⟨hlength.trans_le (Int.add_one_le_of_lt hroomy.short), ?_, fun h₀ => hlength.trans_le ?_⟩
  · exact hroomy.capacity.trans_le hcapacity
  · have hbounded := hroomy.bounded (hroomy.capacity.symm.ge.trans' h₀)
    exact (Int.add_one_le_of_lt hbounded).trans_eq hroomy.capacity.symm

theorem exists_evict (hw : h.WellFormed) (hgrows : h.Growable) (hmax : h.maxCommands ≠ 0) :
    ∃ h₂, h.evict = some h₂ ∧ h.Roomy h₂ := by
  have hcursor := hw.cursor
  have hshort := hw.short
  have hcapacity := hw.capacity
  have hbounded := hw.bounded
  rw [Growable] at hgrows
  rw [evict, hw.len_eq]
  split_ifs with hfull
  · cases hcommands : h.commands with
    | nil => simp [hcommands] at hfull; omega
    | cons oldest rest =>
      have hlength : (h.commands.length : ℤ) = rest.length + 1 := by simp [hcommands]
      have hroom : h.lastDisplayed ≠ -1 := fun hbefore => by
        have := hw.room hbefore (by omega)
        omega
      have hne : h.commands ≠ [] := by simp [hcommands]
      refine ⟨{ h with commands := rest, lastDisplayed := h.lastDisplayed - 1 }, ?_, rfl, rfl,
        rfl, ?_, fun _ => ?_, ?_, ?_, ?_⟩
      · simp only [i32_of_le (show -2 ≤ h.lastDisplayed - 1 by omega)
          (show h.lastDisplayed - 1 ≤ I32_MAX by omega)]
        rfl
      · dsimp only; omega
      · dsimp only; omega
      · rw [hcommands]; exact suffix_cons oldest rest
      · dsimp only; omega
      · by_cases hfirst : h.lastDisplayed = 0
        · exact .inl (by dsimp only; omega)
        · refine .inr (.inr ⟨?_, by dsimp only; omega⟩)
          have hs : Sized { h with commands := rest, lastDisplayed := h.lastDisplayed - 1 } :=
            ⟨by dsimp only; omega, hcapacity, fun _ => by dsimp only; omega⟩
          rw [nth_eq hw.toSized, nth_eq hs]
          dsimp only
          rw [if_pos (by omega), if_pos (by omega), hcommands,
            show h.lastDisplayed.toNat = (h.lastDisplayed - 1).toNat + 1 by omega,
            getD_cons_succ]
  · refine ⟨h, rfl, rfl, rfl, rfl, by omega, by omega, suffix_rfl, ?_, ?_⟩
    · omega
    · rcases hcursor with hcursor | hempty
      · exact .inr (.inr ⟨rfl, hcursor.2⟩)
      · exact .inr (.inl hempty)

variable {h₁ : CommandHistory} {reused : Option Command}

theorem add_eq (hadds : h.maxCommands ≠ 0 ∧ command ≠ [] ∧ h.commands.getLast? ≠ some command)
    (hreuse : h.reuse command suppressDuplicates = some (h₁, reused)) (hevict : h₁.evict = some h₂)
    (hsame : reused.getD command = command) :
    h.add command suppressDuplicates =
      (if h₂.lastDisplayed = -1 ∨
          nth { h₂ with commands := h₂.commands ++ [command] } h₂.lastDisplayed ≠ command then
        resetPosition { h₂ with commands := h₂.commands ++ [command] }
      else some { h₂ with commands := h₂.commands ++ [command] }).map
        fun h => { h with reset := true } := by
  obtain ⟨hmax, hne, hlast⟩ := hadds
  rw [add, if_neg (not_or.mpr ⟨hmax, hne⟩), if_neg hlast, hreuse, Option.bind_eq_bind,
    Option.bind_some]
  dsimp only
  rw [hevict, Option.bind_eq_bind, Option.bind_some, hsame]
  split_ifs
  · rw [Option.map_eq_bind]
    rfl
  · rfl

/-- The newest command goes to the end, and the cursor to it unless it is at a command equal
to it. -/
theorem exists_add (hw : h.WellFormed) (hgrows : h.Growable)
    (hadds : h.maxCommands ≠ 0 ∧ command ≠ [] ∧ h.commands.getLast? ≠ some command)
    (hsearches : suppressDuplicates = true → h.Searches command h.lastDisplayed false) :
    ∃ h₁ reused h₂ lastDisplayed, h.Reused command suppressDuplicates h₁ reused ∧ h₁.Roomy h₂ ∧
      h.add command suppressDuplicates = some { h₂ with
        commands := h₂.commands ++ [command], lastDisplayed, reset := true } ∧
      (lastDisplayed = h₂.commands.length ∨
        lastDisplayed = h₂.lastDisplayed ∧ 0 ≤ h₂.lastDisplayed ∧
          (h₂.commands = [] ∨ h₂.nth h₂.lastDisplayed = command)) := by
  obtain ⟨hmax, hne, hlast⟩ := hadds
  obtain ⟨h₁, reused, hreuse, hreused⟩ := exists_reuse hw hne hsearches
  have hgrows₁ : h₁.Growable := by
    intro hneg
    have hlt := hgrows (hreused.capacity ▸ hneg)
    rcases hreused.commands with ⟨hsame, -⟩ | ⟨-, i, hi, herased⟩
    · rwa [hsame]
    · rw [herased]
      have hle := length_eraseIdx_le h.commands i
      omega
  obtain ⟨h₂, hevict, hroomy⟩ := exists_evict hreused.wellFormed hgrows₁ (hreused.capacity ▸ hmax)
  have hshort := hroomy.short
  have hcursor := hroomy.cursor
  have hs₂ := hroomy.sized hreused.wellFormed.capacity
  have hs := hroomy.sized_append hreused.wellFormed.capacity command
  have hlen := hs.len_eq
  rw [length_append, length_singleton, Nat.cast_succ] at hlen
  have hadd := add_eq ⟨hmax, hne, hlast⟩ hreuse hevict hreused.same
  by_cases hresets : h₂.lastDisplayed = -1 ∨
      nth { h₂ with commands := h₂.commands ++ [command] } h₂.lastDisplayed ≠ command
  · rw [if_pos hresets, resetPosition, hlen, i32_of_le (by omega) (by omega), Option.bind_eq_bind,
      Option.bind_some, add_sub_cancel_right] at hadd
    exact ⟨h₁, reused, h₂, h₂.commands.length, hreused, hroomy, hadd, .inl rfl⟩
  · rw [if_neg hresets] at hadd
    refine ⟨h₁, reused, h₂, h₂.lastDisplayed, hreused, hroomy, hadd, .inr ⟨rfl, ?_, ?_⟩⟩
    · have hbefore := (not_or.mp hresets).1
      omega
    · obtain ⟨hbefore, hshown⟩ := not_or.mp hresets
      rcases hroomy.shown with hfirst | ⟨hempty, -⟩ | ⟨-, hlt⟩
      · exact absurd hfirst hbefore
      · exact .inl hempty
      · refine .inr ?_
        rw [not_not, nth_eq hs, if_pos (by omega)] at hshown
        rw [nth_eq hs₂, if_pos (by omega)]
        rwa [getD_append _ _ _ _ (by omega)] at hshown

variable {lastDisplayed : ℤ}

theorem wellFormed_append (hroomy : h₁.Roomy h₂) (hcapacity : h₁.maxCommands ≤ I32_MAX)
    (hcursor : lastDisplayed = h₂.commands.length ∨
      lastDisplayed = h₂.lastDisplayed ∧ 0 ≤ h₂.lastDisplayed) :
    WellFormed { h₂ with
      commands := h₂.commands ++ [command], lastDisplayed, reset := true } := by
  have hs := hroomy.sized_append hcapacity command
  have hlast := hroomy.cursor
  refine ⟨⟨hs.short, hs.capacity, hs.bounded⟩, .inl ?_, fun hbefore => ?_⟩
  · rw [length_append, length_singleton]
    dsimp only
    omega
  · dsimp only at hbefore
    omega

/-! ### Recalling -/

/-- The arrow that recalls the command before, pressed again and again. -/
def arrows (h : CommandHistory) : ℕ → Option (CommandHistory × List Command)
  | 0 => some (h, [])
  | presses + 1 => do
    let (h, command) ← h.arrow .previous
    let (h, commands) ← h.arrows presses
    return (h, command.toList ++ commands)

theorem place_of_lt (hlt : i < h.commands.length) : h.place i = i := by
  have hne : h.commands ≠ [] := length_pos_iff.mp (by omega)
  rw [place, if_neg hne]
  omega

theorem retrieveNth_natCast (hs : h.Sized) (hlt : i < h.commands.length) :
    h.retrieveNth i = some ({ h with lastDisplayed := i }, h.commands.getD i []) := by
  rw [retrieveNth_eq hs, place_of_lt hlt, Int.toNat_natCast]

/-- One press that is not the last. -/
theorem arrows_succ {commands : List Command} {presses : ℕ} (hfirst : h.atFirst = some false)
    (hprevious : h.retrieve .previous = some (h₁, command))
    (hrest : h₁.arrows presses = some (h₂, commands)) :
    h.arrows (presses + 1) = some (h₂, command :: commands) := by
  have harrow : h.arrow .previous = some (h₁, some command) := by
    simp only [arrow, atEnd, hfirst, hprevious, Option.bind_eq_bind, Option.bind_some,
      if_neg Bool.false_ne_true, pure]
  simp only [arrows, harrow, hrest, Option.bind_eq_bind, Option.bind_some, Option.toList_some, pure,
    singleton_append]

/-- From a command that was displayed, those before it are recalled, newest first. -/
theorem arrows_of_displayed (hw : h.WellFormed) (hreset : h.reset = false)
    (hat : h.lastDisplayed = i) (hlt : i < h.commands.length) :
    h.arrows i = some ({ h with lastDisplayed := 0 }, (h.commands.take i).reverse) := by
  induction i generalizing h with
  | zero =>
    rw [arrows, take_zero, reverse_nil]
    exact congrArg (fun g => some (g, [])) (by rw [← Nat.cast_zero (R := ℤ), ← hat])
  | succ i ih =>
    have hshort := hw.short
    have hi : i < h.commands.length := by omega
    have hfirst : h.atFirst = some false := by
      rw [atFirst_eq hw, if_neg (by omega), hreset]
      simp only [Bool.not_false, Bool.true_and, Option.some.injEq, beq_eq_false_iff_ne]
      omega
    have hprevious : h.retrieve .previous =
        some ({ h with lastDisplayed := i }, h.commands.getD i []) := by
      rw [retrieve, hreset, if_neg Bool.false_ne_true, i32_of_le (by omega) (by omega),
        Option.bind_eq_bind, Option.bind_some, show h.lastDisplayed - 1 = i by omega]
      exact retrieveNth_natCast (hw.with_cursor i false) hi
    have hw' : WellFormed { h with lastDisplayed := (i : ℤ) } := by
      refine ⟨hw.with_cursor i h.reset, .inl ⟨?_, ?_⟩, fun hbefore => ?_⟩ <;> dsimp only at * <;>
        omega
    rw [arrows_succ hfirst hprevious (ih hw' hreset rfl hi), take_add_one,
      getElem?_eq_getElem hi, reverse_append, getD_eq_getElem?_getD,
      getElem?_eq_getElem hi]
    rfl

/-- From the newest command, with the flag set, every command is recalled, newest first, and
the last of them is the first there is. -/
theorem exists_arrows (hw : h.WellFormed) (hreset : h.reset = true) (hne : h.commands ≠ [])
    (hat : h.lastDisplayed = h.commands.length - 1) :
    ∃ h', h.arrows h.commands.length = some (h', h.commands.reverse) ∧
      h'.atFirst = some true := by
  obtain ⟨i, hi⟩ := Nat.exists_eq_succ_of_ne_zero (length_pos_iff.mpr hne).ne'
  have hshort := hw.short
  have hcursor : h.lastDisplayed = i := by omega
  have hw' : WellFormed { h with reset := false } := hw.with_reset false
  have hw₀ : WellFormed { h with lastDisplayed := 0, reset := false } := by
    refine ⟨hw.with_cursor 0 false, .inl ⟨?_, ?_⟩, fun hbefore => ?_⟩ <;> dsimp only at * <;>
      omega
  refine ⟨{ h with lastDisplayed := 0, reset := false }, ?_, ?_⟩
  · have hlast : i < h.commands.length := by omega
    have hprevious : h.retrieve .previous =
        some ({ h with lastDisplayed := i, reset := false }, h.commands.getD i []) := by
      rw [retrieve, if_pos hreset, hcursor]
      exact retrieveNth_natCast (hw.with_cursor i false) hlast
    have hall : h.commands = h.commands.take i ++ [h.commands.getD i []] := by
      rw [getD_eq_getElem?_getD, getElem?_eq_getElem hlast, Option.getD_some,
        take_concat_get' _ _ hlast, ← Nat.succ_eq_add_one, ← hi, take_length]
    have hfirst : h.atFirst = some false := if_pos hreset
    have hrest := arrows_of_displayed (h := { h with lastDisplayed := i, reset := false })
      (by rw [← hcursor]; exact hw') rfl rfl hlast
    rw [hi, arrows_succ hfirst hprevious hrest, congrArg List.reverse hall, reverse_append,
      reverse_singleton]
    rfl
  · rw [atFirst_eq hw₀]
    simp

/-! ### What adding a command comes to -/

/-- Neighbours in a list without one of its places were neighbours, or had it between them. -/
theorem infix_of_infix_eraseIdx {l : List Command} {x c : Command} (hi : l[i]? = some x)
    (h : [c, c] <:+: l.eraseIdx i) : [c, c] <:+: l ∨ [c, x, c] <:+: l := by
  obtain ⟨hlt, hget⟩ := List.getElem?_eq_some_iff.mp hi
  have hsplit : l = l.take i ++ x :: l.drop (i + 1) := by simp [← hget]
  rw [eraseIdx_eq_take_drop_succ, infix_append_iff] at h
  rcases h with hbefore | hafter | ⟨l₁, l₂, hcut, hsuffix, hprefix⟩
  · exact .inl (hbefore.trans (List.take_prefix i l).isInfix)
  · exact .inl (hafter.trans (List.drop_suffix (i + 1) l).isInfix)
  · rcases l₁ with _ | ⟨c₁, _ | ⟨c₂, rest⟩⟩
    · -- Both are behind the place.
      rw [nil_append] at hcut
      exact .inl (hcut ▸ hprefix.isInfix.trans (List.drop_suffix (i + 1) l).isInfix)
    · simp only [cons_append, nil_append, List.cons.injEq] at hcut
      obtain ⟨rfl, rfl⟩ := hcut
      refine .inr ?_
      rw [hsplit, infix_append_iff]
      exact .inr (.inr ⟨[c], [x, c], rfl, hsuffix, (prefix_cons_inj x).mpr hprefix⟩)
    · have hnil : rest = [] ∧ l₂ = [] := by simpa using (List.cons.inj (List.cons.inj hcut).2).2
      rw [hnil.2, append_nil] at hcut
      exact .inl (hcut ▸ hsuffix.isInfix.trans (List.take_prefix i l).isInfix)

/-- What a list has after a command was added to it. -/
structure Recorded (h : CommandHistory) (command : Command) (suppressDuplicates : Bool)
    (h' : CommandHistory) : Prop where
  newest : h'.commands.getLast? = some command
  /-- Two equal commands are neighbours because they were, or because the older copy of the
  command was taken out between them. -/
  neighbours : ∀ c, [c, c] <:+: h'.commands → [c, c] <:+: h.commands ∨
    suppressDuplicates = true ∧ [c, command, c] <:+: h.commands
  unique : suppressDuplicates = true → ∀ c,
    h'.commands.count c ≤ max 1 (h.commands.count c)
  /-- Unless the command was the last one, or the one displayed, recalling begins at it and
  comes by every command once. -/
  recalled : h.commands.getLast? ≠ some command → h.nth h.lastDisplayed ≠ command →
    ∃ h'', h'.arrows h'.commands.length = some (h'', h'.commands.reverse) ∧
      h''.atFirst = some true

theorem Reused.getLast?_ne (hreused : h.Reused command suppressDuplicates h₁ reused)
    (hlast : h.commands.getLast? ≠ some command) : h₁.commands.getLast? ≠ some command := by
  rcases hreused.commands with ⟨hsame, -⟩ | ⟨-, i, hi, herased⟩
  · rwa [hsame]
  · -- The copy taken out is not the last one.
    obtain ⟨hlt, hget⟩ := List.getElem?_eq_some_iff.mp hi
    have hbefore : i ≠ h.commands.length - 1 := by
      rintro rfl
      exact hlast (by rw [getLast?_eq_getElem?, hi])
    rw [herased, getLast?_eq_getElem?, length_eraseIdx_of_lt hlt,
      getElem?_eraseIdx_of_ge (by omega)]
    rw [getLast?_eq_getElem?] at hlast
    rwa [show h.commands.length - 1 - 1 + 1 = h.commands.length - 1 by omega]

/-- The copy taken out is the only one that is counted twice. -/
theorem Reused.count_le (hreused : h.Reused command true h₁ reused) (c : Command) :
    (h₁.commands ++ [command]).count c ≤ max 1 (h.commands.count c) := by
  rw [count_append, count_singleton]
  rcases hreused.commands with ⟨hsame, hnot⟩ | ⟨-, i, hi, herased⟩
  · rw [hsame]
    split_ifs with heq
    · rw [beq_iff_eq] at heq
      rw [← heq, count_eq_zero.mpr (hnot rfl)]
      exact le_max_left 1 0
    · exact le_max_right 1 _
  · obtain ⟨hlt, hget⟩ := List.getElem?_eq_some_iff.mp hi
    have hcount := (getElem_cons_eraseIdx_perm hlt).count_eq c
    rw [count_cons, hget, ← herased] at hcount
    exact hcount.trans_le (le_max_right 1 _)

/-- With the command at the end of the list, the cursor is at it, unless it is at an equal one. -/
theorem cursor_eq (hne : command ≠ []) (hreused : h.Reused command suppressDuplicates h₁ reused)
    (hroomy : h₁.Roomy h₂) (hshown : h.nth h.lastDisplayed ≠ command)
    (hcursor : lastDisplayed = h₂.commands.length ∨
      lastDisplayed = h₂.lastDisplayed ∧ 0 ≤ h₂.lastDisplayed ∧
        (h₂.commands = [] ∨ h₂.nth h₂.lastDisplayed = command)) :
    lastDisplayed = h₂.commands.length := by
  have hwithin := hroomy.cursor
  have hs := hroomy.sized hreused.wellFormed.capacity
  rcases hcursor with hend | ⟨hkept, h₀, hempty | hsame⟩
  · exact hend
  · rw [hempty, length_nil] at hwithin ⊢
    omega
  · rcases hroomy.shown with hbefore | ⟨hempty, -⟩ | ⟨hnth, -⟩
    · omega
    · rw [nth_eq hs, if_pos h₀, hempty, getD_nil] at hsame
      exact absurd hsame.symm hne
    · rw [hsame] at hnth
      rcases hreused.shown hshown with hbefore | hother
      · rw [nth_eq hreused.wellFormed.toSized, hbefore, if_neg (by decide)] at hnth
        exact absurd hnth hne
      · exact absurd hnth.symm hother

theorem recorded_append (hne : command ≠ []) (hlast : h.commands.getLast? ≠ some command)
    (hreused : h.Reused command suppressDuplicates h₁ reused) (hroomy : h₁.Roomy h₂)
    (hcursor : lastDisplayed = h₂.commands.length ∨
      lastDisplayed = h₂.lastDisplayed ∧ 0 ≤ h₂.lastDisplayed ∧
        (h₂.commands = [] ∨ h₂.nth h₂.lastDisplayed = command)) :
    h.Recorded command suppressDuplicates { h₂ with
      commands := h₂.commands ++ [command], lastDisplayed, reset := true } where
  newest := getLast?_concat
  neighbours c hc := by
    rcases infix_concat_iff.mp hc with ⟨front, hfront⟩ | hbefore
    · -- The command would be behind itself.
      rw [show front ++ [c, c] = (front ++ [c]) ++ [c] by simp] at hfront
      obtain ⟨hfront, hc⟩ := append_inj' hfront rfl
      obtain ⟨older, holder⟩ := hroomy.suffix
      refine absurd ?_ (hreused.getLast?_ne hlast)
      rw [← holder, ← hfront, ← append_assoc, getLast?_concat, (List.cons.inj hc).1]
    · have h₁c := hbefore.trans hroomy.suffix.isInfix
      rcases hreused.commands with ⟨hsame, -⟩ | ⟨hsuppress, i, hi, herased⟩
      · exact .inl (hsame ▸ h₁c)
      · rw [herased] at h₁c
        exact (infix_of_infix_eraseIdx hi h₁c).imp_right (⟨hsuppress, ·⟩)
  unique hsuppress c := by
    subst hsuppress
    exact ((hroomy.suffix.sublist.append_right [command]).count_le c).trans (hreused.count_le c)
  recalled _ hshown := by
    have hend := cursor_eq hne hreused hroomy hshown hcursor
    refine exists_arrows (wellFormed_append hroomy hreused.wellFormed.capacity (.inl hend)) rfl
      (by simp) ?_
    rw [length_append, length_singleton]
    dsimp only
    omega

/-! ### One operation -/

/-- A list after an operation: well formed, and the same client's. -/
structure Keeps (h h' : CommandHistory) : Prop where
  wellFormed : h'.WellFormed
  owner : h'.owner = h.owner
  application : h'.application = h.application

theorem exists_realloc (hw : h.WellFormed) {capacity : ℤ} (hmax : capacity ≤ I32_MAX) :
    ∃ h', h.realloc capacity = some h' ∧ h.Keeps h' := by
  have hmin : 0 < I32_MAX := by decide
  have hshort := hw.short
  have hlength : ((h.commands.take (max capacity 0).toNat).length : ℤ) =
      min (max capacity 0) h.commands.length := by
    rw [length_take]
    omega
  have hlen : len { h with commands := h.commands.take (max capacity 0).toNat, reset := true } =
      min (max capacity 0) h.commands.length :=
    (asI32_of_le (hlength.trans_le (by omega))).trans hlength
  rw [realloc]
  split_ifs with hsame
  · exact ⟨h, rfl, hw, rfl, rfl⟩
  · dsimp only
    rw [hlen, i32_of_le (by omega) (by omega), Option.bind_eq_bind, Option.bind_some]
    refine ⟨_, rfl, ⟨⟨?_, hmax, fun h₀ => ?_⟩, .inl ?_, fun hbefore hpos => ?_⟩, rfl, rfl⟩
    · exact hlength.trans_le (by omega)
    · dsimp only at h₀
      exact hlength.trans_le (show _ ≤ capacity by omega)
    · dsimp only
      omega
    · dsimp only at hbefore hpos ⊢
      omega

theorem exists_arrow (hw : h.WellFormed) (direction : Direction) :
    ∃ h' shown, h.arrow direction = some (h', shown) ∧ h.Keeps h' := by
  obtain ⟨ended, hended⟩ : ∃ ended, h.atEnd direction = some ended := by
    cases direction with
    | previous => exact ⟨_, atFirst_eq hw⟩
    | next => exact ⟨_, atLast_eq hw⟩
  rw [arrow, hended, Option.bind_eq_bind, Option.bind_some]
  cases ended with
  | true => exact ⟨h, none, rfl, hw, rfl, rfl⟩
  | false =>
    obtain ⟨index, reset, hretrieve⟩ := retrieve_eq hw direction
    rw [if_neg Bool.false_ne_true, hretrieve]
    exact ⟨_, _, rfl, hw.wellFormed_place index reset, rfl, rfl⟩

theorem wellFormed_swap (hw : h.WellFormed) (a b : ℤ) : h.Keeps (h.swap a b) := by
  rw [swap]
  split_ifs with hswaps
  · dsimp only
    have hlength : ∀ first second : Command,
        ((h.commands.set a.toNat second).set b.toNat first).length = h.commands.length := by simp
    have hne : h.commands ≠ [] := fun hnil => by
      rw [hw.len_eq, hnil, length_nil] at hswaps
      omega
    have hcursor := hw.cursor.resolve_right fun hempty => hne hempty.1
    refine ⟨⟨⟨?_, hw.capacity, ?_⟩, .inl ?_, ?_⟩, rfl, rfl⟩ <;> dsimp only <;> rw [hlength]
    · exact hw.short
    · exact hw.bounded
    · exact hcursor
    · exact hw.room
  · exact ⟨hw, rfl, rfl⟩

theorem wellFormed_of_nil (hnil : h.commands = []) (hcapacity : h.maxCommands ≤ I32_MAX)
    (hcursor : h.lastDisplayed = -1) : h.WellFormed := by
  have hlength : (h.commands.length : ℤ) = 0 := by rw [hnil]; rfl
  have hmax : 0 < I32_MAX := by decide
  refine ⟨⟨?_, hcapacity, fun h₀ => ?_⟩, .inl ?_, fun _ hpos => ?_⟩ <;> omega

end CommandHistory

/-- An operation that searches begins inside the list, or has nothing to search for. -/
def Operation.Inside (h : CommandHistory) : Operation → Prop
  | .add command suppressDuplicates =>
    h.Seeks command suppressDuplicates → h.Searches command h.lastDisplayed false
  | .find pattern start _ justLooking => h.Searches pattern start justLooking
  | _ => True

variable {operation : Operation} {h : CommandHistory}

/-- **One operation**: an operation that begins inside the list succeeds, and leaves it well
formed. -/
theorem Operation.exists_run (hw : h.WellFormed) (hgrows : h.Growable)
    (hinside : operation.Inside h) : ∃ h', operation.run h = some h' ∧ h.Keeps h' := by
  cases operation with
  | add command suppressDuplicates =>
    rw [run]
    by_cases hskips : h.maxCommands = 0 ∨ command = []
    · exact ⟨h, if_pos hskips, hw, rfl, rfl⟩
    · obtain ⟨hmax, hne⟩ := not_or.mp hskips
      by_cases hlast : h.commands.getLast? = some command
      · rw [CommandHistory.add, if_neg hskips, if_pos hlast]
        exact ⟨_, rfl, hw.with_reset true, rfl, rfl⟩
      · obtain ⟨h₁, reused, h₂, lastDisplayed, hreused, hroomy, hadd, hcursor⟩ :=
          CommandHistory.exists_add hw hgrows ⟨hmax, hne, hlast⟩ fun hsuppress =>
            hinside ⟨hmax, hne, hlast, hsuppress⟩
        refine ⟨_, hadd, CommandHistory.wellFormed_append hroomy hreused.wellFormed.capacity ?_,
          hroomy.owner.trans hreused.owner, hroomy.application.trans hreused.application⟩
        exact hcursor.imp_right fun hkept => ⟨hkept.1, hkept.2.1⟩
  | arrow direction =>
    obtain ⟨h', shown, harrow, hkeeps⟩ := CommandHistory.exists_arrow hw direction
    exact ⟨h', by rw [run, harrow]; rfl, hkeeps⟩
  | retrieveNth index =>
    rw [run, CommandHistory.retrieveNth_eq hw.toSized]
    exact ⟨_, rfl, hw.wellFormed_place index h.reset, rfl, rfl⟩
  | remove index =>
    rw [run]
    by_cases hin : 0 ≤ index.val ∧ index.val < h.commands.length
    · rw [CommandHistory.remove_eq hw hin.1 hin.2]
      exact ⟨_, rfl, CommandHistory.wellFormed_remove hw hin.1 hin.2 h.reset, rfl, rfl⟩
    · rw [CommandHistory.remove, hw.len_eq, if_neg hin]
      exact ⟨h, rfl, hw, rfl, rfl⟩
  | swap a b => exact ⟨_, rfl, CommandHistory.wellFormed_swap hw a b⟩
  | find pattern start exact justLooking =>
    obtain ⟨reset, found, hfind, -⟩ :=
      CommandHistory.exists_find hw.toSized exact hinside start.property.2
    exact ⟨_, by rw [run, hfind]; rfl, hw.with_reset reset, rfl, rfl⟩
  | realloc commands => exact CommandHistory.exists_realloc hw (asI32_le commands)
  | empty =>
    exact ⟨_, rfl, CommandHistory.wellFormed_of_nil rfl hw.capacity rfl, rfl, rfl⟩

/-- A search that begins elsewhere panics. -/
theorem Operation.run_eq_none (hw : h.WellFormed) (hinside : ¬operation.Inside h) :
    operation.run h = none := by
  cases operation with
  | add command suppressDuplicates =>
    obtain ⟨⟨hmax, hne, hlast, hsuppress⟩, houtside⟩ := Classical.not_imp.mp hinside
    rw [run, CommandHistory.add, if_neg (not_or.mpr ⟨hmax, hne⟩), if_neg hlast,
      CommandHistory.reuse, if_pos hsuppress, CommandHistory.find_eq_none hw.toSized houtside]
    rfl
  | find pattern start exact justLooking =>
    rw [run, CommandHistory.find_eq_none hw.toSized hinside]
    rfl
  | _ => exact absurd trivial hinside

theorem Operation.keeps_of_run {h' : CommandHistory} (hw : h.WellFormed) (hgrows : h.Growable)
    (hrun : operation.run h = some h') : h.Keeps h' := by
  by_cases hinside : operation.Inside h
  · obtain ⟨h₁, hrun₁, hkeeps⟩ := Operation.exists_run hw hgrows hinside
    rwa [Option.some.inj (hrun.symm.trans hrun₁)]
  · rw [Operation.run_eq_none hw hinside] at hrun
    exact absurd hrun (by simp)

/-- What a list has after a command was added to it. -/
theorem CommandHistory.recorded_of_add {h' : CommandHistory} {command : Command}
    {suppressDuplicates : Bool} (hw : h.WellFormed) (hgrows : h.Growable) (hmax : h.maxCommands ≠ 0)
    (hne : command ≠ []) (hadd : h.add command suppressDuplicates = some h') :
    h.Recorded command suppressDuplicates h' := by
  by_cases hlast : h.commands.getLast? = some command
  · rw [add, if_neg (not_or.mpr ⟨hmax, hne⟩), if_pos hlast, Option.some.injEq] at hadd
    rw [← hadd]
    exact ⟨hlast, fun _ => .inl, fun _ _ => le_max_right 1 _, (absurd hlast ·)⟩
  · by_cases hinside : (Operation.add command suppressDuplicates).Inside h
    · obtain ⟨h₁, reused, h₂, lastDisplayed, hreused, hroomy, hadd', hcursor⟩ :=
        exists_add hw hgrows ⟨hmax, hne, hlast⟩ fun hsuppress =>
          hinside ⟨hmax, hne, hlast, hsuppress⟩
      rw [Option.some.inj (hadd.symm.trans hadd')]
      exact recorded_append hne hlast hreused hroomy hcursor
    · have hnone := Operation.run_eq_none hw hinside
      rw [Operation.run, hadd] at hnone
      exact absurd hnone (by simp)

/-! ### The lists of a console -/

namespace Histories

variable {κ : Type} [DecidableEq κ] {lowercase : List UInt16 → κ} {s t : Histories}
  {p : CommandHistory → Bool} {f : CommandHistory → Option CommandHistory}
  {lists lists' : List CommandHistory}

/-- What holds of the lists together. -/
structure WellFormed (s : Histories) : Prop where
  lists : ∀ list ∈ s.lists, list.WellFormed
  buffers : s.lists.length ≤ s.buffers
  owners : (s.lists.filterMap CommandHistory.owner).Nodup

/-- A client is given a list once, and a list without a capacity has an index left. -/
def Fair (s : Histories) : Event → Prop
  | .allocate _ owner => ∀ list ∈ s.lists, list.owner ≠ some owner
  | _ => ∀ list ∈ s.lists, list.Growable

/-- The list an event is about is searched from inside. -/
def Inside (lowercase : List UInt16 → κ) (s : Histories) : Event → Prop
  | .ofClient owner operation =>
    ∀ list, s.lists.find? (ownedBy owner) = some list → operation.Inside list
  | .ofApplication application operation =>
    ∀ list, s.lists.find? (inUseFor lowercase application) = some list → operation.Inside list
  | _ => True

theorem exists_modify (h : ∀ list, lists.find? p = some list → ∃ list', f list = some list') :
    ∃ lists', modify p f lists = some lists' := by
  induction lists with
  | nil => exact ⟨[], rfl⟩
  | cons list lists ih =>
    rw [modify]
    cases hp : p list with
    | true =>
      obtain ⟨list', hlist'⟩ := h list (find?_cons_of_pos hp)
      exact ⟨list' :: lists, by rw [if_pos rfl, hlist']; rfl⟩
    | false =>
      have hnot : ¬p list = true := by simp [hp]
      obtain ⟨lists', hlists'⟩ := ih fun list' hfind =>
        h list' ((find?_cons_of_neg hnot).trans hfind)
      exact ⟨list :: lists', by rw [if_neg Bool.false_ne_true, hlists']; rfl⟩

/-- One list is changed, the others stay where they are. -/
theorem forall₂_of_modify (h : modify p f lists = some lists') :
    List.Forall₂ (fun list list' => list' = list ∨ p list = true ∧ f list = some list')
      lists lists' := by
  induction lists generalizing lists' with
  | nil => rw [← Option.some.inj h]; exact .nil
  | cons list lists ih =>
    rw [modify] at h
    split_ifs at h with hp
    · obtain ⟨list', hlist', rfl⟩ := Option.map_eq_some_iff.mp h
      exact .cons (.inr ⟨hp, hlist'⟩) (List.forall₂_same.mpr fun _ _ => .inl rfl)
    · obtain ⟨rest, hrest, rfl⟩ := Option.map_eq_some_iff.mp h
      exact .cons (.inl rfl) (ih hrest)

/-- Lists of the same owners, some of them freed. -/
theorem sublist_owners (h : List.Forall₂ (fun list list' : CommandHistory =>
      list'.owner = list.owner ∨ list'.owner = none) lists lists') :
    (lists'.filterMap CommandHistory.owner).Sublist (lists.filterMap CommandHistory.owner) := by
  induction h with
  | nil => exact .slnil
  | @cons list list' lists lists' howner _ ih =>
    rcases howner with hsame | hfree
    · rw [filterMap_cons, filterMap_cons, hsame]
      cases list.owner with
      | none => exact ih
      | some owner => exact ih.cons_cons owner
    · rw [filterMap_cons_none hfree]
      exact ih.trans (((sublist_cons_self list lists).filterMap _))

theorem exists_mem_of_forall₂ {R : CommandHistory → CommandHistory → Prop}
    (h : List.Forall₂ R lists lists') :
    (∀ list ∈ lists, ∃ list' ∈ lists', R list list') ∧
      ∀ list' ∈ lists', ∃ list ∈ lists, R list list' := by
  induction h with
  | nil => simp
  | cons hR _ ih =>
    simp only [forall_mem_cons]
    refine ⟨⟨⟨_, mem_cons_self, hR⟩, fun a ha => ?_⟩, ⟨_, mem_cons_self, hR⟩,
      fun b hb => ?_⟩
    · obtain ⟨b, hb, hab⟩ := ih.1 a ha
      exact ⟨b, mem_cons_of_mem _ hb, hab⟩
    · obtain ⟨a, ha, hab⟩ := ih.2 b hb
      exact ⟨a, mem_cons_of_mem _ ha, hab⟩

theorem forall₂_of_mapM (h : lists.mapM f = some lists') :
    List.Forall₂ (fun list list' => f list = some list') lists lists' := by
  induction lists generalizing lists' with
  | nil => rw [← Option.some.inj h]; exact .nil
  | cons list lists ih =>
    rw [mapM_cons] at h
    obtain ⟨list', hlist', h⟩ := Option.bind_eq_some_iff.mp h
    obtain ⟨rest, hrest, h⟩ := Option.bind_eq_some_iff.mp h
    rw [← Option.some.inj h]
    exact .cons hlist' (ih hrest)

theorem exists_mapM (h : ∀ list ∈ lists, ∃ list', f list = some list') :
    ∃ lists', lists.mapM f = some lists' := by
  induction lists with
  | nil => exact ⟨[], rfl⟩
  | cons list lists ih =>
    obtain ⟨list', hlist'⟩ := h list mem_cons_self
    obtain ⟨rest, hrest⟩ := ih fun other hother => h other (mem_cons_of_mem _ hother)
    exact ⟨list' :: rest, by rw [mapM_cons, hlist', hrest]; rfl⟩

/-- What an event leaves of a client's list: it is still the client's, and of its application. -/
def Keeps (s : Histories) (event : Event) (t : Histories) : Prop :=
  ∀ list ∈ s.lists, ∀ owner, list.owner = some owner → event ≠ .free owner →
    ∃ list' ∈ t.lists, list'.owner = some owner ∧ list'.application = list.application

variable {event : Event}

/-- Lists changed where they are, none of them freed. -/
theorem WellFormed.of_forall₂ (hs : s.WellFormed) {size : ℕ}
    (h : List.Forall₂ CommandHistory.Keeps s.lists lists') :
    WellFormed { s with size, lists := lists' } ∧
      s.Keeps event { s with size, lists := lists' } := by
  obtain ⟨hforth, hback⟩ := exists_mem_of_forall₂ h
  refine ⟨⟨fun list' hlist' => ?_, h.length_eq ▸ hs.buffers, ?_⟩,
    fun list hlist owner howner _ => ?_⟩
  · obtain ⟨list, -, hkeeps⟩ := hback list' hlist'
    exact hkeeps.wellFormed
  · exact hs.owners.sublist (sublist_owners (h.imp fun _ _ hkeeps => .inl hkeeps.owner))
  · obtain ⟨list', hlist', hkeeps⟩ := hforth list hlist
    exact ⟨list', hlist', hkeeps.owner.trans howner, hkeeps.application⟩

/-- An operation on one of the lists. -/
theorem forall₂_keeps_of_modify (hs : s.WellFormed) (hgrows : ∀ list ∈ s.lists, list.Growable)
    {operation : Operation} (h : modify p operation.run s.lists = some lists') :
    List.Forall₂ CommandHistory.Keeps s.lists lists' := by
  refine List.forall₂_iff_zip.mpr ⟨(forall₂_of_modify h).length_eq, fun {list list'} hmem => ?_⟩
  have hlist := (of_mem_zip hmem).1
  rcases (List.forall₂_iff_zip.mp (forall₂_of_modify h)).2 hmem with rfl | ⟨-, hrun⟩
  · exact ⟨hs.lists _ hlist, rfl, rfl⟩
  · exact Operation.keeps_of_run (hs.lists list hlist) (hgrows list hlist) hrun

/-- The list that is cleared for another application is nobody's. -/
theorem free_of_emptiest {index : ℕ} (h : emptiest lists = some index) :
    ∃ list, lists[index]? = some list ∧ list.owner = none := by
  revert h
  refine List.foldlRecOn (motive := fun best => best = some index →
    ∃ list, lists[index]? = some list ∧ list.owner = none) lists.zipIdx _ (by simp)
    fun best hbest entry hentry hnext => ?_
  split_ifs at hnext with hfree
  · rw [Bool.and_eq_true, Option.isNone_iff_eq_none] at hfree
    cases hnext
    exact ⟨entry.1, mem_zipIdx_iff_getElem?.mp hentry, hfree.1⟩
  · exact hbest hnext

variable (lowercase) in
/-- A client is given a new list, or a list that was nobody's, or none. -/
theorem exists_allocate (hs : s.WellFormed) (application : List UInt16) (owner : ℕ) :
    ∃ t, s.allocate lowercase application owner = some t ∧
      (t = s ∨ ∃ list, list.WellFormed ∧ list.owner = some owner ∧
        (t = { s with lists := list :: s.lists } ∧ s.lists.length < s.buffers ∨
          ∃ index free, s.lists[index]? = some free ∧ free.owner = none ∧
            t = { s with lists := list :: s.lists.eraseIdx index })) := by
  rw [allocate]
  generalize hsame : (s.lists.findIdx? fun list =>
    list.owner.isNone && sameName lowercase list.application application) = same
  dsimp only
  by_cases hnew : same.isNone = true ∧ s.lists.length < s.buffers
  · rw [if_pos hnew]
    refine ⟨_, rfl, .inr ⟨_, ?_, rfl, .inl ⟨rfl, hnew.2⟩⟩⟩
    have hcapacity := asI32_le s.size
    generalize asI32 s.size = capacity at hcapacity
    exact CommandHistory.wellFormed_of_nil rfl hcapacity rfl
  · rw [if_neg hnew]
    cases hcandidate : same.or (emptiest s.lists) with
    | none => exact ⟨s, rfl, .inl rfl⟩
    | some index =>
      obtain ⟨free, hfree, hnobody⟩ : ∃ free, s.lists[index]? = some free ∧ free.owner = none := by
        rcases Option.or_eq_some_iff.mp hcandidate with hsome | ⟨-, hemptiest⟩
        · obtain ⟨hlt, hp, -⟩ := findIdx?_eq_some_iff_getElem.mp (hsame.trans hsome)
          rw [Bool.and_eq_true, Option.isNone_iff_eq_none] at hp
          exact ⟨_, getElem?_eq_getElem hlt, hp.1⟩
        · exact free_of_emptiest hemptiest
      have hw := hs.lists free (mem_of_getElem? hfree)
      dsimp only
      rw [hfree, Option.bind_eq_bind, Option.bind_some]
      refine ⟨_, rfl, .inr ⟨_, ?_, rfl, .inr ⟨index, free, hfree, hnobody, rfl⟩⟩⟩
      by_cases hother : same.isNone = true
      · rw [if_pos hother]
        exact CommandHistory.wellFormed_of_nil rfl hw.capacity rfl
      · rw [if_neg hother]
        exact ⟨⟨hw.short, hw.capacity, hw.bounded⟩, hw.cursor, hw.room⟩

/-- A list put in front, in the place of another or none, of which a client lost nothing. -/
theorem WellFormed.of_cons (hs : s.WellFormed) {list : CommandHistory} {rest : List CommandHistory}
    (hw : list.WellFormed) (hsublist : rest.Sublist s.lists)
    (hbuffers : rest.length + 1 ≤ s.buffers)
    (howner : ∀ owner, list.owner = some owner → ∀ other ∈ rest, other.owner ≠ some owner)
    (hkept : ∀ other ∈ s.lists, other.owner.isSome = true →
      other ∈ rest ∨ list.owner = other.owner ∧ list.application = other.application) :
    WellFormed { s with lists := list :: rest } ∧ s.Keeps event { s with lists := list :: rest } := by
  refine ⟨⟨?_, hbuffers, ?_⟩, fun other hother owner hsome _ => ?_⟩
  · rw [forall_mem_cons]
    exact ⟨hw, fun other hother => hs.lists other (hsublist.subset hother)⟩
  · have hrest := hs.owners.sublist (hsublist.filterMap CommandHistory.owner)
    cases hlist : list.owner with
    | none => rwa [filterMap_cons_none hlist]
    | some owner =>
      rw [filterMap_cons_some hlist, nodup_cons]
      refine ⟨fun hmem => ?_, hrest⟩
      obtain ⟨other, hother, hsame⟩ := mem_filterMap.mp hmem
      exact howner owner hlist other hother hsame
  · rcases hkept other hother (hsome ▸ rfl) with hmem | ⟨hsame, happlication⟩
    · exact ⟨other, mem_cons_of_mem _ hmem, hsome, rfl⟩
    · exact ⟨list, mem_cons_self, hsame.trans hsome, happlication⟩

theorem mem_eraseIdx_of_ne {index : ℕ} {free list : CommandHistory}
    (hfree : lists[index]? = some free) (hlist : list ∈ lists) (hne : list ≠ free) :
    list ∈ lists.eraseIdx index := by
  obtain ⟨hlt, hget⟩ := List.getElem?_eq_some_iff.mp hfree
  have hmem := (getElem_cons_eraseIdx_perm hlt).mem_iff.mpr hlist
  exact (mem_cons.mp hmem).resolve_left fun heq => hne (heq.trans hget)

variable {application : List UInt16} {owner : ℕ}

theorem wellFormed_allocate (hs : s.WellFormed) (hfresh : ∀ list ∈ s.lists, list.owner ≠ some owner)
    (hstep : s.allocate lowercase application owner = some t) :
    t.WellFormed ∧ s.Keeps (.allocate application owner) t := by
  obtain ⟨t', hallocate, hcases⟩ := exists_allocate lowercase hs application owner
  cases hstep.symm.trans hallocate
  rcases hcases with rfl | ⟨list, hw, howner, ⟨rfl, hroom⟩ | ⟨index, free, hfree, hnobody, rfl⟩⟩
  · exact ⟨hs, fun list hlist owner howner _ => ⟨list, hlist, howner, rfl⟩⟩
  · refine hs.of_cons hw (List.Sublist.refl _) hroom (fun owner' howner' other hother => ?_)
      fun other hother _ => .inl hother
    exact Option.some.inj (howner.symm.trans howner') ▸ hfresh other hother
  · obtain ⟨hlt, -⟩ := List.getElem?_eq_some_iff.mp hfree
    refine hs.of_cons hw (eraseIdx_sublist _ _) ?_ (fun owner' howner' other hother => ?_)
      fun other hother hsome => .inl (mem_eraseIdx_of_ne hfree hother fun heq => ?_)
    · rw [length_eraseIdx_of_lt hlt]
      have hbuffers := hs.buffers
      omega
    · exact Option.some.inj (howner.symm.trans howner') ▸
        hfresh other ((eraseIdx_sublist _ _).subset hother)
    · rw [heq, hnobody] at hsome
      exact absurd hsome (by simp)

theorem wellFormed_free (hs : s.WellFormed) (hstep : s.free owner = some t) :
    t.WellFormed ∧ s.Keeps (.free owner) t := by
  obtain ⟨lists', hmodify, hstep⟩ := Option.bind_eq_some_iff.mp hstep
  rw [← Option.some.inj hstep]
  have hfreed := forall₂_of_modify hmodify
  obtain ⟨hforth, hback⟩ := exists_mem_of_forall₂ hfreed
  refine ⟨⟨fun list' hlist' => ?_, hfreed.length_eq ▸ hs.buffers, ?_⟩,
    fun list hlist client hclient hother => ?_⟩
  · obtain ⟨list, hlist, rfl | ⟨-, hfree⟩⟩ := hback list' hlist'
    · exact hs.lists _ hlist
    · have hw := hs.lists list hlist
      rw [← Option.some.inj hfree]
      exact ⟨⟨hw.short, hw.capacity, hw.bounded⟩, hw.cursor, hw.room⟩
  · refine hs.owners.sublist (sublist_owners (hfreed.imp fun list list' h => ?_))
    rcases h with rfl | ⟨-, hfree⟩
    · exact .inl rfl
    · exact .inr (by rw [← Option.some.inj hfree])
  · obtain ⟨list', hlist', rfl | ⟨howned, -⟩⟩ := hforth list hlist
    · exact ⟨_, hlist', hclient, rfl⟩
    · rw [ownedBy, beq_iff_eq, hclient] at howned
      exact absurd (congrArg Event.free (Option.some.inj howned).symm) hother

theorem wellFormed_reallocApplication (hs : s.WellFormed) {commands : ℕ}
    (hstep : s.reallocApplication lowercase application commands = some t) :
    t.WellFormed ∧ s.Keeps event t := by
  rw [reallocApplication] at hstep
  cases hindex : s.lists.findIdx? (inUseFor lowercase application) with
  | none =>
    rw [hindex] at hstep
    rw [← Option.some.inj hstep]
    exact ⟨hs, fun list hlist owner howner _ => ⟨list, hlist, howner, rfl⟩⟩
  | some index =>
    rw [hindex] at hstep
    obtain ⟨hlt, -, -⟩ := findIdx?_eq_some_iff_getElem.mp hindex
    have hget := getElem?_eq_getElem hlt
    obtain ⟨list', hrealloc, hkeeps⟩ :=
      CommandHistory.exists_realloc (hs.lists _ (getElem_mem hlt)) (asI32_le commands)
    dsimp only at hstep
    rw [hget, Option.bind_eq_bind, Option.bind_some, hrealloc] at hstep
    rw [← Option.some.inj hstep]
    refine hs.of_cons hkeeps.wellFormed (eraseIdx_sublist _ _) ?_
      (fun owner howner other hother hsame => ?_) fun other hother _ => ?_
    · rw [length_eraseIdx_of_lt hlt]
      have hbuffers := hs.buffers
      omega
    · -- Another list of the same client would be counted twice.
      have hnodup := ((getElem_cons_eraseIdx_perm hlt).filterMap
        CommandHistory.owner).nodup_iff.mpr hs.owners
      rw [filterMap_cons_some (hkeeps.owner.symm.trans howner), nodup_cons] at hnodup
      exact hnodup.1 (mem_filterMap.mpr ⟨other, hother, hsame⟩)
    · by_cases heq : other = s.lists[index]
      · exact .inr (heq ▸ ⟨hkeeps.owner, hkeeps.application⟩)
      · exact .inl (mem_eraseIdx_of_ne hget hother heq)

/-- **One step**: what holds of the lists is kept, and so is each client's list. -/
theorem wellFormed_step (hs : s.WellFormed) (hfair : s.Fair event)
    (hstep : s.step lowercase event = some t) : t.WellFormed ∧ s.Keeps event t := by
  cases event with
  | allocate application owner => exact wellFormed_allocate hs hfair hstep
  | free owner => exact wellFormed_free hs hstep
  | resizeAll size =>
    obtain ⟨lists', hmap, hstep⟩ := Option.bind_eq_some_iff.mp hstep
    rw [← Option.some.inj hstep]
    refine hs.of_forall₂ (List.forall₂_iff_zip.mpr ⟨(forall₂_of_mapM hmap).length_eq,
      fun {list list'} hmem => ?_⟩)
    obtain ⟨kept, hrealloc, hkeeps⟩ :=
      CommandHistory.exists_realloc (hs.lists list (of_mem_zip hmem).1) (asI32_le size)
    have hlist' := (List.forall₂_iff_zip.mp (forall₂_of_mapM hmap)).2 hmem
    exact Option.some.inj (hrealloc.symm.trans hlist') ▸ hkeeps
  | reallocApplication application commands => exact wellFormed_reallocApplication hs hstep
  | ofClient owner operation =>
    obtain ⟨lists', hmodify, hstep⟩ := Option.bind_eq_some_iff.mp hstep
    rw [← Option.some.inj hstep]
    exact hs.of_forall₂ (forall₂_keeps_of_modify hs hfair hmodify)
  | ofApplication application operation =>
    obtain ⟨lists', hmodify, hstep⟩ := Option.bind_eq_some_iff.mp hstep
    rw [← Option.some.inj hstep]
    exact hs.of_forall₂ (forall₂_keeps_of_modify hs hfair hmodify)

/-- A step fails only where a search begins outside the list. -/
theorem exists_step (hs : s.WellFormed) (hfair : s.Fair event) (hinside : s.Inside lowercase event) :
    ∃ t, s.step lowercase event = some t := by
  have hrun : ∀ (p : CommandHistory → Bool) (operation : Operation),
      (∀ list ∈ s.lists, list.Growable) →
      (∀ list, s.lists.find? p = some list → operation.Inside list) →
      ∃ lists', modify p operation.run s.lists = some lists' := fun p operation hgrows hin =>
    exists_modify fun list hfind => by
      have hmem := mem_of_find?_eq_some hfind
      obtain ⟨list', hlist', -⟩ :=
        Operation.exists_run (hs.lists list hmem) (hgrows list hmem) (hin list hfind)
      exact ⟨list', hlist'⟩
  cases event with
  | allocate application owner =>
    obtain ⟨t, hallocate, -⟩ := exists_allocate lowercase hs application owner
    exact ⟨t, hallocate⟩
  | free owner =>
    obtain ⟨lists', hmodify⟩ : ∃ lists', modify (ownedBy owner)
        (fun list => some { list with owner := none }) s.lists = some lists' :=
      exists_modify fun list _ => ⟨_, rfl⟩
    exact ⟨_, by rw [step, free, hmodify]; rfl⟩
  | resizeAll size =>
    obtain ⟨lists', hmap⟩ : ∃ lists',
        s.lists.mapM (fun list => list.realloc (asI32 size)) = some lists' := by
      refine exists_mapM fun list hlist => ?_
      obtain ⟨list', hrealloc, -⟩ :=
        CommandHistory.exists_realloc (hs.lists list hlist) (asI32_le size)
      exact ⟨list', hrealloc⟩
    exact ⟨_, by rw [step, resizeAll, hmap]; rfl⟩
  | reallocApplication application commands =>
    rw [step, reallocApplication]
    cases hindex : s.lists.findIdx? (inUseFor lowercase application) with
    | none => exact ⟨s, rfl⟩
    | some index =>
      obtain ⟨hlt, -, -⟩ := findIdx?_eq_some_iff_getElem.mp hindex
      obtain ⟨list', hrealloc, -⟩ :=
        CommandHistory.exists_realloc (hs.lists _ (getElem_mem hlt)) (asI32_le commands)
      dsimp only
      rw [getElem?_eq_getElem hlt, Option.bind_eq_bind, Option.bind_some, hrealloc]
      exact ⟨_, rfl⟩
  | ofClient owner operation =>
    obtain ⟨lists', hmodify⟩ := hrun (ownedBy owner) operation hfair hinside
    exact ⟨_, by rw [step, hmodify]; rfl⟩
  | ofApplication application operation =>
    obtain ⟨lists', hmodify⟩ := hrun (inUseFor lowercase application) operation hfair hinside
    exact ⟨_, by rw [step, hmodify]; rfl⟩

/-! ### Every run -/

/-- Steps that succeed. -/
def Next (lowercase : List UInt16 → κ) : Histories → Event → Histories → Prop :=
  fun s event t => s.step lowercase event = some t

theorem wellFormed_of_run {size buffers : ℕ} {events : List Event}
    (hrun : Run (Meeting Fair (Next lowercase)) (new size buffers) events s) : s.WellFormed := by
  refine hrun.invariant ⟨by simp [new], Nat.zero_le _, nodup_nil⟩ fun s event t hs hnext => ?_
  exact (wellFormed_step hs hnext.1 hnext.2).1

/-- **The command history of every run**: there are no more lists than buffers, no client owns
two, each list is within its capacity and has its cursor at a command or before the first; what
begins inside its list succeeds, and leaves every other client its list; and a command added is
the newest, brings no two equal ones together that were not, and is recalled first. -/
theorem history_of_run {size buffers : ℕ} {events : List Event}
    (hrun : Run (Meeting Fair (Next lowercase)) (new size buffers) events s) :
    s.WellFormed ∧
      (∀ event, s.Fair event → s.Inside lowercase event →
        ∃ t, s.step lowercase event = some t ∧ s.Keeps event t) ∧
      ∀ list ∈ s.lists, list.Growable → list.maxCommands ≠ 0 →
        ∀ command suppressDuplicates list', command ≠ [] →
          list.add command suppressDuplicates = some list' →
            list.Recorded command suppressDuplicates list' := by
  have hs := wellFormed_of_run hrun
  refine ⟨hs, fun event hfair hinside => ?_, fun list hlist hgrows hmax command _ list' hne hadd =>
    CommandHistory.recorded_of_add (hs.lists list hlist) hgrows hmax hne hadd⟩
  obtain ⟨t, hstep⟩ := exists_step hs hfair hinside
  exact ⟨t, hstep, (wellFormed_step hs hfair hstep).2⟩

instance (h : CommandHistory) : Decidable h.Growable :=
  inferInstanceAs (Decidable (_ → _))

instance (s : Histories) : (event : Event) → Decidable (s.Fair event)
  | .allocate _ _ => inferInstanceAs (Decidable (∀ _ ∈ _, _))
  | .free _ | .resizeAll _ | .reallocApplication _ _ | .ofClient _ _ | .ofApplication _ _ =>
    inferInstanceAs (Decidable (∀ list ∈ s.lists, list.Growable))

/-- After a command was recalled, another one is added. -/
theorem history_of_command : ∃ s, Run (Meeting Fair (Next id)) (new 50 4)
    [.allocate [99] 1, .ofClient 1 (.add [97] true), .ofClient 1 (.arrow .previous)] s ∧
      s.WellFormed ∧ s.lists.length = 1 ∧ ∀ list ∈ s.lists, ∃ list',
        list.add [98] true = some list' ∧ list.Recorded [98] true list' := by
  obtain ⟨s, hrun, hlength, hadds⟩ := exists_run_of_foldlM
    (P := fun s => s.lists.length = 1 ∧ ∀ list ∈ s.lists,
      list.Growable ∧ list.maxCommands ≠ 0 ∧ (list.add [98] true).isSome)
    (f := fun s event => if s.Fair event then step id s event else none) (s := new 50 4)
    [.allocate [99] 1, .ofClient 1 (.add [97] true), .ofClient 1 (.arrow .previous)] (by decide)
  have hfair : Run (Meeting Fair (Next id)) (new 50 4) _ s := hrun.mono fun s event t h => by
    split_ifs at h with hfair
    exact ⟨hfair, h⟩
  obtain ⟨hs, -, hrecorded⟩ := history_of_run hfair
  refine ⟨s, hfair, hs, hlength, fun list hlist => ?_⟩
  obtain ⟨hgrows, hmax, hadd⟩ := hadds list hlist
  obtain ⟨list', hadd⟩ := Option.isSome_iff_exists.mp hadd
  exact ⟨list', hadd, hrecorded list hlist hgrows hmax [98] true list' (by decide) hadd⟩

/-- What departs from that: a recall puts the cursor of an empty list at its beginning; taking
out an older copy brings its neighbours together; a recall goes on from a command equal to the
one added; a size above `I32_MAX` is no capacity; a client given a list twice owns two; with the
command displayed last taken out, a search begins before the list, which panics. -/
theorem history_departs :
    (∃ s, Run (Next id) (new 50 4) [.allocate [99] 1, .ofClient 1 (.arrow .previous)] s ∧
      s.lists.map (fun list => (list.commands, list.lastDisplayed)) = [([], 0)]) ∧
    (∃ s, Run (Next id) (new 50 4) [.allocate [99] 1, .ofClient 1 (.add [97] true),
      .ofClient 1 (.add [98] true), .ofClient 1 (.add [97] false),
      .ofClient 1 (.add [98] true)] s ∧
      s.lists.map CommandHistory.commands = [[[97], [97], [98]]]) ∧
    (∃ s, Run (Next id) (new 50 4) [.allocate [99] 1, .ofClient 1 (.add [97] false),
      .ofClient 1 (.add [98] false), .ofClient 1 (.retrieveNth ⟨0, by decide⟩),
      .ofClient 1 (.add [97] false)] s ∧
      s.lists.map (fun list => (list.arrows 3).map Prod.snd) = [some [[97]]]) ∧
    (∃ s, Run (Next id) (new 4294967295 4) [.allocate [99] 1, .ofClient 1 (.add [97] false)] s ∧
      s.lists.map (fun list => (list.commands.length, list.maxCommands)) = [(1, -1)]) ∧
    (∃ s, Run (Next id) (new 50 4) [.allocate [99] 1, .allocate [100] 1] s ∧
      s.lists.map CommandHistory.owner = [some 1, some 1]) ∧
    ∃ s, Run (Next id) (new 50 4) [.allocate [99] 1, .ofClient 1 (.add [97] false),
      .ofClient 1 (.add [98] false), .ofClient 1 (.remove ⟨1, by decide⟩)] s ∧
      s.lists.map CommandHistory.lastDisplayed = [-1] ∧
      (s.step id (.ofClient 1 (.find [99] ⟨-1, by decide⟩ false false))).isNone := by
  refine ⟨?_, ?_, ?_, ?_, ?_,
    exists_run_of_foldlM (f := step id) (P := fun s => _ ∧ _) _ (by decide)⟩ <;>
    exact exists_run_of_foldlM (f := step id) (P := fun s => List.map _ s.lists = _) _ (by decide)

end Histories

end Zetta.Console
