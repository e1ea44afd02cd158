import Zetta.Console.Buffers
import Zetta.Lib.RowMajor

/-!
# Rectangles of cells

Requests name rectangles by 16-bit coordinates, which need not lie in the buffer. What is read and
written is the part that does, and each cell has its own place in the caller's array.

* `ScreenBuffer.readRect_spec`, `ScreenBuffer.writeRect_spec`: a rectangle of the buffer, cell by
  cell.
-/

namespace Zetta.Console

namespace Rect

variable {r : Rect} {x y : ℤ}

def Contains (r : Rect) (x y : ℤ) : Prop :=
  (r.left ≤ x ∧ x ≤ r.right) ∧ r.top ≤ y ∧ y ≤ r.bottom

instance (r : Rect) (x y : ℤ) : Decidable (r.Contains x y) := inferInstanceAs (Decidable (_ ∧ _))

/-- The number of a place, row by row. -/
def place (r : Rect) (x y : ℤ) : ℕ := ((y - r.top) * r.width + (x - r.left)).toNat

/-- How many cells a rectangle has. -/
def area (r : Rect) : ℕ := (r.width * r.height).toNat

theorem contains_clamp {bounds : Rect} :
    (r.clamp bounds).Contains x y ↔ r.Contains x y ∧ bounds.Contains x y := by
  simp only [Contains, clamp, max_le_iff, le_min_iff]
  tauto

theorem Contains.isValid (h : r.Contains x y) : r.IsValid :=
  ⟨h.1.1.trans h.1.2, h.2.1.trans h.2.2⟩

theorem width_pos (h : r.IsValid) : 0 < r.width := by
  have := h.1
  rw [width]
  omega

theorem height_pos (h : r.IsValid) : 0 < r.height := by
  have := h.2
  rw [height]
  omega

theorem Contains.column (h : r.Contains x y) : 0 ≤ x - r.left ∧ x - r.left < r.width := by
  have := h.1
  rw [width]
  omega

theorem Contains.row (h : r.Contains x y) : 0 ≤ y - r.top ∧ y - r.top < r.height := by
  have := h.2
  rw [height]
  omega

theorem Contains.place_eq (h : r.Contains x y) :
    (r.place x y : ℤ) = (y - r.top) * r.width + (x - r.left) :=
  Int.toNat_of_nonneg (ScreenBuffer.place_lt h.column h.row).1

theorem Contains.place_lt (h : r.Contains x y) : r.place x y < r.area := by
  have hlt := (ScreenBuffer.place_lt h.column h.row).2
  rw [← h.place_eq] at hlt
  rw [area]
  omega

/-- A number below the area is a place. -/
theorem contains_of_lt (h : r.IsValid) {k : ℕ} (hk : k < r.area) :
    r.Contains (r.left + k % r.width) (r.top + k / r.width) := by
  have hwidth := width_pos h
  have hcolumn := Int.emod_nonneg k hwidth.ne'
  have hcolumn' := Int.emod_lt_of_pos k hwidth
  have hrow := Int.ediv_nonneg (Int.natCast_nonneg k) hwidth.le
  have hrow' : (k : ℤ) / r.width < r.height := by
    refine Int.ediv_lt_of_lt_mul hwidth ?_
    rw [mul_comm]
    rw [area] at hk
    omega
  rw [width] at hcolumn'
  rw [height] at hrow'
  rw [Contains, width]
  rw [width] at hrow hcolumn hrow'
  omega

theorem Contains.place_div (h : r.Contains x y) :
    r.left + (r.place x y : ℤ) % r.width = x ∧ r.top + (r.place x y : ℤ) / r.width = y := by
  have hwidth := width_pos h.isValid
  have hdecomposed : (r.place x y : ℤ) / r.width * r.width + (r.place x y : ℤ) % r.width =
      (y - r.top) * r.width + (x - r.left) := by
    rw [← h.place_eq, mul_comm]
    exact Int.mul_ediv_add_emod _ _
  obtain ⟨hrow, hcolumn⟩ := RowMajor.ediv_emod_unique (Int.emod_nonneg _ hwidth.ne')
    (Int.emod_lt_of_pos _ hwidth) h.column.1 h.column.2 hdecomposed
  omega

theorem place_of_lt (h : r.IsValid) {k : ℕ} (hk : k < r.area) :
    r.place (r.left + k % r.width) (r.top + k / r.width) = k := by
  have hplace := (contains_of_lt h hk).place_eq
  have hdecomposed := Int.mul_ediv_add_emod (k : ℤ) r.width
  have hcomm := mul_comm r.width ((k : ℤ) / r.width)
  have hrow : r.top + (k : ℤ) / r.width - r.top = (k : ℤ) / r.width := add_sub_cancel_left _ _
  rw [hrow] at hplace
  omega

end Rect

namespace ScreenBuffer

variable {b : ScreenBuffer}

/-- A buffer of any 16-bit size, with a cell for each of its places. The last column and row are
16-bit numbers, too. -/
structure Sized (b : ScreenBuffer) : Prop where
  width : -I16_MAX ≤ b.size.1 ∧ b.size.1 ≤ I16_MAX
  height : -I16_MAX ≤ b.size.2 ∧ b.size.2 ≤ I16_MAX
  cells : b.cells.length = b.size.1.toNat * b.size.2.toNat

/-- The rectangle of all its cells. -/
def bounds (b : ScreenBuffer) : Rect := .fromSize b.size

theorem contains_bounds {x y : ℤ} :
    b.bounds.Contains x y ↔ (0 ≤ x ∧ x < b.size.1) ∧ 0 ≤ y ∧ y < b.size.2 := by
  simp only [bounds, Rect.fromSize, Rect.Contains, Int.le_sub_one_iff]

theorem index_eq_some_iff {x y i : ℤ} :
    b.index x y = some i ↔ b.bounds.Contains x y ∧ y * b.size.1 + x = i := by
  rw [index, contains_bounds]
  by_cases h : (0 ≤ x ∧ x < b.size.1) ∧ 0 ≤ y ∧ y < b.size.2
  · simp [h]
  · simp [h]

theorem Sized.index_lt (hb : b.Sized) {x y i : ℤ} (hi : b.index x y = some i) :
    0 ≤ i ∧ i < b.cells.length := by
  obtain ⟨hcontains, rfl⟩ := index_eq_some_iff.mp hi
  obtain ⟨hx, hy⟩ := contains_bounds.mp hcontains
  have harea : (b.cells.length : ℤ) = b.size.1 * b.size.2 := by
    rw [hb.cells, Nat.cast_mul, Int.toNat_of_nonneg (by omega), Int.toNat_of_nonneg (by omega)]
  rw [harea]
  exact ScreenBuffer.place_lt hx hy

/-- What is in a place; outside the buffer it reads as blank. -/
def cell (b : ScreenBuffer) (x y : ℤ) : CharInfo := (b.cellAt x y).getD (.blank b.saved.attributes)

theorem Sized.cellAt_eq (hb : b.Sized) (x y : ℤ) : b.cellAt x y = some (b.cell x y) := by
  have hsome : ∃ cell, b.cellAt x y = some cell := by
    rw [cellAt]
    split
    · exact ⟨_, rfl⟩
    · next i hi =>
      have hlt := hb.index_lt hi
      exact ⟨_, List.getElem?_eq_getElem (by omega)⟩
  obtain ⟨c, hc⟩ := hsome
  rw [cell, hc, Option.getD_some]

theorem cell_eq {x y : ℤ} (h : b.bounds.Contains x y) :
    b.cellAt x y = b.cells[(y * b.size.1 + x).toNat]? := by
  have hi := index_eq_some_iff.mpr ⟨h, rfl⟩
  rw [cellAt, hi]

theorem Recelled.sized {t : ScreenBuffer} (h : Recelled b t) (hb : b.Sized) : t.Sized := by
  obtain ⟨cells, dirty, hlength, rfl⟩ := h
  exact ⟨hb.width, hb.height, hlength.trans hb.cells⟩

theorem mapM_some {α β : Type*} {f : α → Option β} {g : α → β} {l : List α}
    (h : ∀ a ∈ l, f a = some (g a)) : l.mapM f = some (l.map g) := by
  induction l with
  | nil => rfl
  | cons a l ih =>
    have hl := ih fun b hb => h b (List.mem_cons_of_mem a hb)
    rw [List.mapM_cons, h a List.mem_cons_self, hl]
    rfl

/-- **A rectangle is read**, row by row. -/
theorem readRect_spec (hb : b.Sized) {r : Rect} (hr : r.IsValid) :
    ∃ cells, b.readRect r = some cells ∧ cells.length = r.area ∧
      ∀ x y, r.Contains x y → cells[r.place x y]? = some (b.cell x y) := by
  have hread : b.readRect r = some ((List.range r.area).map fun k : ℕ =>
      b.cell (r.left + k % r.width) (r.top + k / r.width)) := by
    rw [readRect, if_pos hr]
    exact mapM_some fun k _ => hb.cellAt_eq _ _
  refine ⟨_, hread, by simp, fun x y h => ?_⟩
  rw [List.getElem?_map, List.getElem?_range h.place_lt, Option.map_some, h.place_div.1,
    h.place_div.2]

theorem toNat_inj {m n : ℤ} (hm : 0 ≤ m) (hn : 0 ≤ n) (h : m.toNat = n.toNat) : m = n := by
  omega

/-- **A rectangle is written**, row by row; what is outside the buffer is dropped. -/
theorem writeRect_spec (hb : b.Sized) {r : Rect} (hr : r.IsValid) {input : List CharInfo}
    (hinput : input.length = r.area) :
    ∃ t, b.writeRect r input = some t ∧ Recelled b t ∧ ∀ x y, b.bounds.Contains x y →
      (r.Contains x y → some (t.cell x y) = input[r.place x y]?) ∧
      (¬r.Contains x y → t.cell x y = b.cell x y) := by
  -- The place of an entry in the buffer's cells.
  let spot : ℕ → Option ℕ := fun k =>
    (b.index (r.left + k % r.width) (r.top + k / r.width)).map Int.toNat
  have hspot : ∀ {k i}, spot k = some i ↔
      b.bounds.Contains (r.left + k % r.width) (r.top + k / r.width) ∧
        ((r.top + k / r.width) * b.size.1 + (r.left + k % r.width)).toNat = i := by
    intro k i
    simp only [spot, Option.map_eq_some_iff, index_eq_some_iff]
    constructor
    · rintro ⟨j, ⟨hcontains, rfl⟩, rfl⟩
      exact ⟨hcontains, rfl⟩
    · rintro ⟨hcontains, rfl⟩
      exact ⟨_, ⟨hcontains, rfl⟩, rfl⟩
  have hplace : ∀ {x y}, b.bounds.Contains x y →
      0 ≤ y * b.size.1 + x ∧ (y * b.size.1 + x).toNat < b.cells.length := by
    intro x y h
    have hlt := hb.index_lt (index_eq_some_iff.mpr ⟨h, rfl⟩)
    omega
  have hwrite : ∀ other : List CharInfo, other.length = b.cells.length →
      ∀ entry : CharInfo × ℕ, entry.2 < input.length →
        b.setCellAt other (r.left + entry.2 % r.width) (r.top + entry.2 / r.width) entry.1 =
          some (RowMajor.write spot other entry) := by
    intro other hother entry _
    rw [setCellAt, RowMajor.write]
    cases hindex : b.index (r.left + entry.2 % r.width) (r.top + entry.2 / r.width) with
    | none => simp [spot, hindex]
    | some i =>
      have hlt := hb.index_lt hindex
      rw [← hother] at hlt
      simp [spot, hindex, setCell_of_lt hlt]
  have hinj : ∀ j k i, j < input.length → k < input.length → spot j = some i → spot k = some i →
      j = k := by
    intro j k i _ _ hj hk
    obtain ⟨hcontains, heq⟩ := hspot.mp hj
    obtain ⟨hcontains', heq'⟩ := hspot.mp hk
    obtain ⟨hx, hy⟩ := contains_bounds.mp hcontains
    obtain ⟨hx', hy'⟩ := contains_bounds.mp hcontains'
    have hsame := (hplace hcontains).1
    have hsame' := (hplace hcontains').1
    obtain ⟨hrow, hcolumn⟩ := RowMajor.ediv_emod_unique hx.1 hx.2 hx'.1 hx'.2
      (toNat_inj hsame hsame' (heq.trans heq'.symm))
    have hj' := Int.mul_ediv_add_emod (j : ℤ) r.width
    have hk' := Int.mul_ediv_add_emod (k : ℤ) r.width
    rw [add_left_cancel hrow, add_left_cancel hcolumn] at hj'
    omega
  have hlt : ∀ k i, k < input.length → spot k = some i → i < b.cells.length := by
    intro k i _ hk
    obtain ⟨hcontains, rfl⟩ := hspot.mp hk
    exact (hplace hcontains).2
  obtain ⟨cells, hcells, hlength, hplaced, hstayed⟩ := RowMajor.exists_foldlM_set hwrite hinj hlt
  refine ⟨{ b with cells, dirty := true }, ?_, ⟨cells, true, hlength, rfl⟩, fun x y h => ?_⟩
  · rw [writeRect, if_pos hr, Option.bind_eq_bind, hcells]
    rfl
  have hcell : some (ScreenBuffer.cell { b with cells, dirty := true } x y) =
      cells[(y * b.size.1 + x).toNat]? := by
    have ht : ScreenBuffer.Sized { b with cells, dirty := true } :=
      ⟨hb.width, hb.height, hlength.trans hb.cells⟩
    rw [← ht.cellAt_eq]
    exact cell_eq h
  constructor
  · intro hr'
    rw [hcell]
    refine hplaced _ _ (hinput ▸ hr'.place_lt) (hspot.mpr ?_)
    rw [hr'.place_div.1, hr'.place_div.2]
    exact ⟨h, rfl⟩
  · intro hr'
    refine Option.some.inj ?_
    rw [hcell, ← hb.cellAt_eq, cell_eq h]
    refine hstayed _ fun k hk hk' => hr' ?_
    obtain ⟨hcontains, heq⟩ := hspot.mp hk'
    have hinside := Rect.contains_of_lt hr (hinput ▸ hk)
    obtain ⟨hx, hy⟩ := contains_bounds.mp h
    obtain ⟨hx', hy'⟩ := contains_bounds.mp hcontains
    have hsame := (hplace h).1
    have hsame' := (hplace hcontains).1
    obtain ⟨hrow, hcolumn⟩ := RowMajor.ediv_emod_unique hx'.1 hx'.2 hx.1 hx.2
      (toNat_inj hsame' hsame heq)
    rwa [hrow, hcolumn] at hinside

/-! ### Requests -/

theorem slice_eq {α : Type} {list : List α} {first n : ℕ} (h : first + n ≤ list.length) :
    slice list first (first + n) = some ((list.take (first + n)).drop first) :=
  if_pos ⟨Nat.le_add_right .., h⟩

theorem getElem?_take_drop {α : Type*} {list : List α} {first n k : ℕ} (h : k < n) :
    ((list.take (first + n)).drop first)[k]? = list[first + k]? := by
  rw [List.getElem?_drop, List.getElem?_take_of_lt (by omega)]

/-- **The cells of a request** that are in the buffer, each from its own place. -/
theorem clipCells_spec {size : Coord} {request : Rect} {all : List CharInfo}
    (hvalid : request.IsValid) (harea : request.width * request.height ≤ I32_MAX)
    (hlong : request.area ≤ all.length) (hinside : (request.clamp (.fromSize size)).IsValid) :
    ∃ cells, clipCells size request all = some (.ok, cells) ∧
      cells.length = (request.clamp (.fromSize size)).area ∧
      ∀ x y, (request.clamp (.fromSize size)).Contains x y →
        cells[(request.clamp (.fromSize size)).place x y]? = all[request.place x y]? := by
  have hpart := part_clamp hvalid hinside
  have hwidth := Rect.width_pos hvalid
  have hheight := Rect.height_pos hvalid
  have hpositive := mul_pos hwidth hheight
  have hlong' : request.width * request.height ≤ all.length := by
    rw [Rect.area] at hlong
    omega
  have hclip : clipCells size request all = (do
      let rows ← (List.range (request.clamp (.fromSize size)).height.toNat).mapM
        (requestRow request (request.clamp (.fromSize size)) all)
      return (.ok, rows.flatten)) := by
    rw [clipCells, if_pos hvalid, Option.bind_eq_bind, i32_of_le (by omega) harea,
      Option.bind_some, if_neg (not_lt.mpr hlong'), if_neg (not_not.mpr hinside)]
  rw [hclip]
  generalize request.clamp (.fromSize size) = clipped at *
  -- Where a row of the part begins in the request.
  let first : ℕ → ℕ := fun row => (clipped.top + row - request.top).toNat * request.width.toNat +
    (clipped.left - request.left).toNat
  have hfirst : ∀ {x y}, clipped.Contains x y →
      first (y - clipped.top).toNat + (x - clipped.left).toNat = request.place x y := by
    intro x y h
    have hx := h.1
    have hy := h.2
    have hleft := hpart.left
    have htop := hpart.top
    have hrow : clipped.top + ((y - clipped.top).toNat : ℤ) - request.top = y - request.top := by
      omega
    have hplace : request.Contains x y :=
      ⟨⟨hleft.trans hx.1, hx.2.trans hpart.right⟩, htop.trans hy.1, hy.2.trans hpart.bottom⟩
    have hcast : (((y - request.top).toNat * request.width.toNat : ℕ) : ℤ) =
        (y - request.top) * request.width := by
      rw [Nat.cast_mul, Int.toNat_of_nonneg (by omega), Int.toNat_of_nonneg hwidth.le]
    have heq := hplace.place_eq
    simp only [first, hrow]
    omega
  have hrows : ∀ row ∈ List.range clipped.height.toNat, requestRow request clipped all row =
      some ((all.take (first row + clipped.width.toNat)).drop (first row)) := by
    intro row hrow
    have hrow := List.mem_range.mp hrow
    obtain ⟨cells, hcells⟩ := exists_requestRow hpart hlong' (show (row : ℤ) < clipped.height by omega)
    rw [requestRow] at hcells ⊢
    refine slice_eq ?_
    rw [slice] at hcells
    split_ifs at hcells with hfits
    exact hfits.2
  have hlengths : ∀ row ∈ (List.range clipped.height.toNat).map fun row =>
      (all.take (first row + clipped.width.toNat)).drop (first row),
      row.length = clipped.width.toNat := by
    intro cells hcells
    obtain ⟨row, hrow, rfl⟩ := List.mem_map.mp hcells
    have hslice := hrows row hrow
    rw [requestRow, slice] at hslice
    split_ifs at hslice with hfits
    rw [List.length_drop, List.length_take, min_eq_left hfits.2, Nat.add_sub_cancel_left]
  have hcolumns := Rect.width_pos hinside
  have hlines := Rect.height_pos hinside
  refine ⟨_, by rw [mapM_some hrows]; rfl, ?_, fun x y h => ?_⟩
  · rw [RowMajor.length_flatten hlengths, List.length_map, List.length_range, Rect.area, mul_comm,
      Int.toNat_mul hcolumns.le hlines.le]
  · have hx := h.column
    have hy := h.row
    have hplace : clipped.place x y =
        (y - clipped.top).toNat * clipped.width.toNat + (x - clipped.left).toNat := by
      rw [Rect.place, Int.toNat_add (mul_nonneg hy.1 hcolumns.le) hx.1,
        Int.toNat_mul hy.1 hcolumns.le]
    rw [hplace, RowMajor.getElem?_flatten hlengths (by omega), List.getElem?_map,
      List.getElem?_range (by omega), Option.map_some, Option.bind_some,
      getElem?_take_drop (by omega), hfirst h]

end ScreenBuffer

end Zetta.Console
