import Mathlib

/-!
# Writing entries at places

The entries of a list are written one after another into another list, each at a place of its own.
Which place that is depends on the number of the entry; an entry without a place is dropped.

* `exists_foldlM_set`: an entry is where its place is, and the other places are as they were.
* `getElem?_flatten`: the entry of a row and a column, when the rows follow one another.
* `ediv_emod_unique`: in row-major order a number is a row and a column in one way only.
-/

namespace Zetta.RowMajor

variable {α : Type*}

/-- An entry is written at its place, if it has one. -/
def write (place : ℕ → Option ℕ) (cells : List α) (entry : α × ℕ) : List α :=
  (place entry.2).elim cells fun i => cells.set i entry.1

theorem length_write (place : ℕ → Option ℕ) (cells : List α) (entry : α × ℕ) :
    (write place cells entry).length = cells.length := by
  rw [write]
  cases place entry.2 with
  | none => rfl
  | some i => exact List.length_set

variable {place : ℕ → Option ℕ} {cells : List α} {i : ℕ}

theorem getElem?_write_self {a : α} {k : ℕ} (hplace : place k = some i) (hi : i < cells.length) :
    (write place cells (a, k))[i]? = some a := by
  rw [write, hplace]
  exact List.getElem?_set_self hi

theorem getElem?_write_of_ne {a : α} {k : ℕ} (hplace : place k ≠ some i) :
    (write place cells (a, k))[i]? = cells[i]? := by
  rw [write]
  cases hk : place k with
  | none => rfl
  | some j =>
    have hne : j ≠ i := fun heq => hplace (by rw [hk, heq])
    exact List.getElem?_set_ne hne

/-- **Entries at places of their own.** A fold that writes each entry at its place succeeds; then
every entry is at its place, and what is at no place has stayed. -/
theorem exists_foldlM_set {f : List α → α × ℕ → Option (List α)} {input : List α}
    (hf : ∀ other, other.length = cells.length → ∀ entry, entry.2 < input.length →
      f other entry = some (write place other entry))
    (hinj : ∀ j k i, j < input.length → k < input.length → place j = some i → place k = some i →
      j = k) (hlt : ∀ k i, k < input.length → place k = some i → i < cells.length) :
    ∃ out, input.zipIdx.foldlM f cells = some out ∧ out.length = cells.length ∧
      (∀ k i, k < input.length → place k = some i → out[i]? = input[k]?) ∧
      ∀ i, (∀ k, k < input.length → place k ≠ some i) → out[i]? = cells[i]? := by
  -- The last entry is written last, at a place where no other entry is.
  induction input using List.reverseRecOn with
  | nil => exact ⟨cells, rfl, rfl, fun k i hk => absurd hk (Nat.not_lt_zero k), fun _ _ => rfl⟩
  | append_singleton input a ih =>
    have hlength : (input ++ [a]).length = input.length + 1 := by simp
    obtain ⟨out, hout, hsame, hplaced, hstayed⟩ := ih
      (fun other hother entry hentry => hf other hother entry (by omega))
      (fun j k i hj hk => hinj j k i (by omega) (by omega)) fun k i hk => hlt k i (by omega)
    refine ⟨write place out (a, input.length), ?_, ?_, fun k i hk hplace => ?_, fun i hi => ?_⟩
    · rw [List.zipIdx_append, List.foldlM_append, hout]
      have hlast := hf out hsame (a, input.length) (by simp)
      simp [hlast]
    · rw [length_write, hsame]
    · by_cases heq : k = input.length
      · subst heq
        rw [getElem?_write_self hplace (hsame ▸ hlt _ i (by omega) hplace)]
        simp
      · have hbefore : k < input.length := by omega
        have hother : place input.length ≠ some i := fun h =>
          heq (hinj k _ i (by omega) (by omega) hplace h)
        rw [getElem?_write_of_ne hother, hplaced k i hbefore hplace,
          List.getElem?_append_left hbefore]
    · rw [getElem?_write_of_ne (hi input.length (by omega)),
        hstayed i fun k hk => hi k (by omega)]

variable {rows : List (List α)} {width : ℕ}

/-- Rows of one length, one after another. -/
theorem getElem?_flatten (h : ∀ row ∈ rows, row.length = width) {j : ℕ} (hj : j < width) :
    rows.flatten[i * width + j]? = rows[i]?.bind (·[j]?) := by
  induction rows generalizing i with
  | nil => rfl
  | cons row rows ih =>
    have hrow : row.length = width := h row List.mem_cons_self
    rw [List.flatten_cons]
    rcases i with - | i
    · rw [zero_mul, zero_add, List.getElem?_append_left (hrow ▸ hj)]
      rfl
    · have hskip : (i + 1) * width + j - row.length = i * width + j := by
        rw [hrow, Nat.succ_mul]
        omega
      have hle : row.length ≤ (i + 1) * width + j := by
        rw [hrow, Nat.succ_mul]
        omega
      rw [List.getElem?_append_right hle, hskip, ih fun row' h' => h row' (List.mem_cons_of_mem _ h'),
        List.getElem?_cons_succ]

theorem length_flatten (h : ∀ row ∈ rows, row.length = width) :
    rows.flatten.length = rows.length * width := by
  rw [List.length_flatten, List.map_congr_left (g := fun _ => width) h, List.map_const',
    List.sum_replicate, smul_eq_mul]

/-- A row and a column, from the number that they have in row-major order. -/
theorem ediv_emod_unique {width row column row' column' : ℤ} (hcolumn : 0 ≤ column)
    (hwidth : column < width) (hcolumn' : 0 ≤ column') (hwidth' : column' < width)
    (h : row * width + column = row' * width + column') : row = row' ∧ column = column' := by
  have hpos : 0 < width := hcolumn.trans_lt hwidth
  have hrow : row = row' := by
    have hdiv : (row * width + column) / width = (row' * width + column') / width := by rw [h]
    rwa [add_comm, Int.add_mul_ediv_right _ _ hpos.ne', Int.ediv_eq_zero_of_lt hcolumn hwidth,
      zero_add, add_comm, Int.add_mul_ediv_right _ _ hpos.ne',
      Int.ediv_eq_zero_of_lt hcolumn' hwidth', zero_add] at hdiv
  exact ⟨hrow, by rw [hrow] at h; exact add_left_cancel h⟩

end Zetta.RowMajor
