import Zetta.Console.Rectangles

/-!
# Reading and writing regions

ReadConsoleOutput and WriteConsoleOutput name a region by 16-bit coordinates and bring an array for
it; what is read or written is the part of the region that lies in the buffer.

* `writesExactly_iff`, `drawsExactly_iff`: a write puts each cell of that part in its place, off
  screen and on screen, as long as the region's area is an `i32`; with a larger one, the product
  overflows before the array is looked at.
* `readsExactly_iff`: a read returns each cell of that part in its place, and nothing larger than the
  caller's array is reserved for it, if and only if the region fits that array; the memory for a
  region is reserved before that is checked.
-/

namespace Zetta.Console

/-! ### The arrays of requests -/

/-- What a code page converts. -/
structure CodePage where
  isLeadByte : UInt8 → Bool
  toUtf16 : List UInt8 → List UInt16
  fromUtf16 : List UInt16 → List UInt8

namespace CharInfo

def fromBytes (a b c d : UInt8) : CharInfo :=
  ⟨a.toUInt16 ||| b.toUInt16 <<< 8, c.toUInt16 ||| d.toUInt16 <<< 8⟩

def toBytes (cell : CharInfo) : List UInt8 :=
  [cell.ch.toUInt8, (cell.ch >>> 8).toUInt8, cell.attributes.toUInt8,
    (cell.attributes >>> 8).toUInt8]

end CharInfo

/-- The cells in the bytes of a request. -/
def charInfos : List UInt8 → List CharInfo
  | a :: b :: c :: d :: rest => .fromBytes a b c d :: charInfos rest
  | _ => []

/-- A row of cells of a code page, as UTF-16: a lead byte and the cell after it become the
character in both cells, a lead byte in the last column is a space. -/
def rowFromAnsi (page : CodePage) : List CharInfo → List CharInfo
  | [] => []
  | [cell] =>
    let byte := cell.ch.toUInt8
    [⟨if page.isLeadByte byte then 32 else (page.toUtf16 [byte]).head?.getD 32,
      cell.attributes &&& ~~~DBCS⟩]
  | cell :: next :: rest =>
    let byte := cell.ch.toUInt8
    if page.isLeadByte byte then
      let ch := (page.toUtf16 [byte, next.ch.toUInt8]).head?.getD 32
      ⟨ch, (cell.attributes &&& ~~~DBCS) ||| LEADING_BYTE⟩ ::
        ⟨ch, (next.attributes &&& ~~~DBCS) ||| TRAILING_BYTE⟩ :: rowFromAnsi page rest
    else
      ⟨(page.toUtf16 [byte]).head?.getD 32, cell.attributes &&& ~~~DBCS⟩ ::
        rowFromAnsi page (next :: rest)

/-- The rows of a list, the last one perhaps shorter. -/
def chunks {α : Type} (width : ℕ) (list : List α) : List (List α) :=
  (List.range ((list.length + width - 1) / width)).map fun row =>
    (list.drop (row * width)).take width

def cellsFromAnsi (page : CodePage) (width : ℕ) (cells : List CharInfo) : List CharInfo :=
  (chunks (max width 1) cells).flatMap (rowFromAnsi page)

/-- The cells a request brings. -/
def requestedCells (page : CodePage) (unicode : Bool) (request : Rect) (input : List UInt8) :
    List CharInfo :=
  if unicode then charInfos input
  else cellsFromAnsi page request.width.toNat (charInfos input)

/-- A cell of a code page: its character's byte, the second one in the trailing half. -/
def toAnsi (page : CodePage) (cell : CharInfo) : CharInfo :=
  let bytes := page.fromUtf16 [cell.ch]
  let byte := if cell.attributes &&& TRAILING_BYTE ≠ 0 then bytes[1]?.or bytes.head? else bytes.head?
  { cell with ch := (byte.getD 63).toUInt16 }

/-- What a request to read is answered. -/
def answerCells (page : CodePage) (unicode : Bool) (cells : List CharInfo) : List UInt8 :=
  (if unicode then cells else cells.map (toAnsi page)).flatMap CharInfo.toBytes

theorem length_rowFromAnsi (page : CodePage) (cells : List CharInfo) :
    (rowFromAnsi page cells).length = cells.length := by
  fun_induction rowFromAnsi page cells with
  | case1 => rfl
  | case2 => rfl
  | case3 cell next rest byte _ ch ih => simp [ih]
  | case4 cell next rest byte _ ih => simpa using ih

theorem flatten_chunks {α : Type} {width : ℕ} (hwidth : 0 < width) (list : List α) :
    (chunks width list).flatten = list := by
  have htaken : ∀ n, ((List.range n).map fun row => (list.drop (row * width)).take width).flatten =
      list.take (n * width) := by
    intro n
    induction n with
    | zero => simp
    | succ n ih =>
      rw [List.range_succ, List.map_append, List.flatten_append, ih, Nat.succ_mul, List.take_add]
      simp
  rw [chunks, htaken]
  refine List.take_of_length_le ?_
  have hdiv := Nat.div_add_mod (list.length + width - 1) width
  have hmod := Nat.mod_lt (list.length + width - 1) hwidth
  rw [mul_comm] at hdiv
  omega

/-- A code page changes what the cells are, and not how many. -/
theorem length_cellsFromAnsi (page : CodePage) (width : ℕ) (cells : List CharInfo) :
    (cellsFromAnsi page width cells).length = cells.length := by
  have hflatten := congrArg List.length
    (flatten_chunks (lt_max_of_lt_right zero_lt_one : 0 < max width 1) cells)
  rw [List.length_flatten] at hflatten
  rw [cellsFromAnsi, List.length_flatMap, ← hflatten]
  simp only [length_rowFromAnsi]

/-! ### Regions of a buffer that is kept as cells -/

namespace ScreenBuffer

variable {b : ScreenBuffer} {request : Rect}

/-- The region a request reports: the part in the buffer, as 16-bit numbers. -/
def region (size : Coord) (request : Rect) : Rect :=
  let clipped := request.clamp (.fromSize size)
  ⟨asI16 clipped.left, asI16 clipped.top, asI16 clipped.right, asI16 clipped.bottom⟩

/-- How many cells a request to read reserves memory for, before it looks at the caller's array. -/
def reserved (request : Rect) : ℕ := if request.IsValid then request.area else 0

/-- **A write is exact**: it is refused if the array is too short for the region; otherwise it
changes the part in the buffer, each cell to the one in its place in the array. -/
def WritesExactly (b : ScreenBuffer) (request : Rect) (all : List CharInfo) : Prop :=
  ∃ t status, b.writeOutput request all = some (t, status) ∧
    (status = .ok ↔ request.IsValid ∧ request.area ≤ all.length) ∧
    (status ≠ .ok → t = b) ∧
    (status = .ok → Recelled b t ∧ ∀ x y, b.bounds.Contains x y →
      (request.Contains x y → some (t.cell x y) = all[request.place x y]?) ∧
      (¬request.Contains x y → t.cell x y = b.cell x y))

/-- **A read is exact**: it reserves no more than the caller's array, and fills it with the cells
of the part in the buffer and defaults elsewhere. -/
def ReadsExactly (b : ScreenBuffer) (request : Rect) (capacity : ℕ) : Prop :=
  reserved request * 4 ≤ capacity ∧
    ∃ status all, b.readOutput request capacity = some (status, all) ∧
      (status = .ok ↔ request.IsValid) ∧
      (status = .ok → all.length = request.area ∧ ∀ x y, request.Contains x y →
        all[request.place x y]? = some (if b.bounds.Contains x y then b.cell x y else ⟨0, 0⟩))

theorem area_cast (h : request.IsValid) : (request.area : ℤ) = request.width * request.height :=
  Int.toNat_of_nonneg (mul_pos (Rect.width_pos h) (Rect.height_pos h)).le

variable {size : Coord} {all : List CharInfo}

/-- A region that is refused. -/
theorem clipCells_refused (harea : request.IsValid → request.width * request.height ≤ I32_MAX)
    (h : ¬(request.IsValid ∧ request.area ≤ all.length)) :
    clipCells size request all = some (.invalidParameter, []) := by
  by_cases hvalid : request.IsValid
  · have hpositive := area_cast hvalid
    have hshort : (all.length : ℤ) < request.width * request.height := by
      have := not_le.mp fun hle => h ⟨hvalid, hle⟩
      omega
    rw [clipCells, if_pos hvalid, Option.bind_eq_bind, i32_of_le (by omega) (harea hvalid),
      Option.bind_some, if_pos hshort]
    rfl
  · rw [clipCells, if_neg hvalid]

/-- A region that is not in the buffer at all. -/
theorem clipCells_outside (hvalid : request.IsValid)
    (harea : request.width * request.height ≤ I32_MAX) (hlong : request.area ≤ all.length)
    (houtside : ¬(request.clamp (.fromSize size)).IsValid) :
    clipCells size request all = some (.ok, []) := by
  have hpositive := area_cast hvalid
  rw [clipCells, if_pos hvalid, Option.bind_eq_bind, i32_of_le (by omega) harea, Option.bind_some,
    if_neg (by omega), if_pos houtside]
  rfl

theorem clipCells_overflow (hvalid : request.IsValid)
    (harea : I32_MAX < request.width * request.height) : clipCells size request all = none := by
  have hi32 : i32 (request.width * request.height) = none :=
    if_neg fun h => absurd h.2 (not_le.mpr harea)
  rw [clipCells, if_pos hvalid, Option.bind_eq_bind, hi32]
  rfl

theorem writeOutput_of_ok {cells : List CharInfo} (hsize : b.size = size)
    (h : clipCells size request all = some (.ok, cells)) :
    b.writeOutput request all =
      (b.writeRect (request.clamp (.fromSize size)) cells).map (·, .ok) := by
  subst hsize
  rw [writeOutput, h, Option.bind_eq_bind, Option.bind_some]
  exact if_pos rfl

/-- **Writes** of a region are exact if and only if its area is an `i32`. -/
theorem writesExactly_iff (hb : b.Sized) (all : List CharInfo) :
    b.WritesExactly request all ↔
      (request.IsValid → request.width * request.height ≤ I32_MAX) := by
  constructor
  · rintro ⟨t, status, hwrite, -⟩ hvalid
    by_contra harea
    rw [writeOutput, clipCells_overflow hvalid (not_le.mp harea)] at hwrite
    simp at hwrite
  · intro harea
    by_cases hok : request.IsValid ∧ request.area ≤ all.length
    · obtain ⟨hvalid, hlong⟩ := hok
      by_cases hinside : (request.clamp (.fromSize b.size)).IsValid
      · obtain ⟨cells, hclip, hlength, hcells⟩ :=
          clipCells_spec hvalid (harea hvalid) hlong hinside
        obtain ⟨t, ht, hrecelled, hplaces⟩ := writeRect_spec hb hinside hlength
        refine ⟨t, .ok, ?_, by simp [hvalid, hlong], by simp, fun _ =>
          ⟨hrecelled, fun x y hxy => ?_⟩⟩
        · rw [writeOutput_of_ok rfl hclip, ht]
          rfl
        obtain ⟨hwritten, hkept⟩ := hplaces x y hxy
        constructor
        · intro hrequest
          have hclipped := Rect.contains_clamp.mpr ⟨hrequest, hxy⟩
          rw [hwritten hclipped]
          exact hcells x y hclipped
        · exact fun hrequest => hkept fun h => hrequest (Rect.contains_clamp.mp h).1
      · refine ⟨b, .ok, ?_, by simp [hvalid, hlong], by simp, fun _ =>
          ⟨.refl b, fun x y hxy => ⟨fun hrequest => ?_, fun _ => rfl⟩⟩⟩
        · rw [writeOutput_of_ok rfl (clipCells_outside hvalid (harea hvalid) hlong hinside),
            writeRect, if_neg hinside]
          rfl
        · exact absurd (Rect.contains_clamp.mpr ⟨hrequest, hxy⟩).isValid hinside
    · refine ⟨b, .invalidParameter, ?_, by simpa using hok, fun _ => rfl, by simp⟩
      rw [writeOutput, clipCells_refused harea hok]
      rfl

/-- The cells of a read, in their places in the caller's array. -/
theorem exists_readOutput_ok (hb : b.Sized) (hvalid : request.IsValid) {capacity : ℕ}
    (hfits : request.area * 4 ≤ capacity) :
    ∃ all, b.readOutput request capacity = some (.ok, all) ∧ all.length = request.area ∧
      ∀ x y, request.Contains x y →
        all[request.place x y]? = some (if b.bounds.Contains x y then b.cell x y else ⟨0, 0⟩) := by
  have hwidth := Rect.width_pos hvalid
  have hheight := Rect.height_pos hvalid
  have hlength : (List.replicate (request.width.toNat * request.height.toNat)
      (⟨0, 0⟩ : CharInfo)).length = request.area := by
    rw [List.length_replicate, Rect.area, Int.toNat_mul hwidth.le hheight.le]
  have hdefault : ∀ k, k < request.area → (List.replicate
      (request.width.toNat * request.height.toNat) (⟨0, 0⟩ : CharInfo))[k]? = some ⟨0, 0⟩ := by
    intro k hk
    rw [← hlength, List.length_replicate] at hk
    rw [List.getElem?_replicate, if_pos hk]
  rw [readOutput]
  dsimp only
  rw [if_pos ⟨hvalid, by rw [hlength]; exact hfits⟩]
  by_cases hinside : (request.clamp (.fromSize b.size)).IsValid
  · have hpart := part_clamp hvalid hinside
    have hcontains : ∀ x y, (request.clamp (.fromSize b.size)).Contains x y ↔
        request.Contains x y ∧ b.bounds.Contains x y := fun x y => Rect.contains_clamp
    obtain ⟨cells, hread, hcount, hcells⟩ := readRect_spec hb hinside
    rw [if_neg (not_not.mpr hinside), Option.bind_eq_bind, hread, Option.bind_some]
    generalize request.clamp (.fromSize b.size) = clipped at *
    -- The place of a cell of the part in the caller's array.
    let spot : ℕ → Option ℕ := fun k =>
      some (request.place (clipped.left + k % clipped.width) (clipped.top + k / clipped.width))
    have hspot : ∀ k, k < clipped.area →
        request.Contains (clipped.left + k % clipped.width) (clipped.top + k / clipped.width) ∧
          ((clipped.top - request.top + k / clipped.width) * request.width +
            (clipped.left - request.left + k % clipped.width)).toNat =
          request.place (clipped.left + k % clipped.width) (clipped.top + k / clipped.width) := by
      intro k hk
      have hrequest := ((hcontains _ _).mp (Rect.contains_of_lt hinside hk)).1
      refine ⟨hrequest, ?_⟩
      rw [Rect.place]
      congr 2
      · ring
      · ring
    have hwrite : ∀ other : List CharInfo, other.length = (List.replicate
        (request.width.toNat * request.height.toNat) (⟨0, 0⟩ : CharInfo)).length →
        ∀ entry : CharInfo × ℕ, entry.2 < cells.length → setCell other
          ((clipped.top - request.top + entry.2 / clipped.width) * request.width +
            (clipped.left - request.left + entry.2 % clipped.width)) entry.1 =
          some (RowMajor.write spot other entry) := by
      intro other hother entry hentry
      obtain ⟨hrequest, hplace⟩ := hspot entry.2 (hcount ▸ hentry)
      have hlt := hrequest.place_lt
      have hpositive := (place_lt hrequest.column hrequest.row).1
      rw [setCell_of_lt ⟨?_, ?_⟩, hplace]
      · rfl
      · refine hpositive.trans_eq ?_
        ring
      · rw [hother, hlength]
        omega
    have hinj : ∀ j k i, j < cells.length → k < cells.length → spot j = some i →
        spot k = some i → j = k := by
      intro j k i hj hk hji hki
      rw [hcount] at hj hk
      have hsame := (Option.some.inj hji).trans (Option.some.inj hki).symm
      have hj' := (hspot j hj).1.place_div
      have hk' := (hspot k hk).1.place_div
      rw [hsame] at hj'
      rw [← Rect.place_of_lt hinside hj, ← Rect.place_of_lt hinside hk, ← hj'.1, ← hj'.2, hk'.1,
        hk'.2]
    obtain ⟨all, hall, hcount', hplaced, hstayed⟩ := RowMajor.exists_foldlM_set hwrite hinj
      fun k i hk hi => by
        rw [← Option.some.inj hi, hlength]
        exact (hspot k (hcount ▸ hk)).1.place_lt
    refine ⟨all, by rw [hall]; rfl, hcount'.trans hlength, fun x y hxy => ?_⟩
    by_cases hbounds : b.bounds.Contains x y
    · have hclipped := (hcontains x y).mpr ⟨hxy, hbounds⟩
      have hplace : spot (clipped.place x y) = some (request.place x y) := by
        simp only [spot, hclipped.place_div.1, hclipped.place_div.2]
      rw [if_pos hbounds, hplaced _ _ (hcount ▸ hclipped.place_lt) hplace, hcells x y hclipped]
    · rw [if_neg hbounds, hstayed, hdefault _ hxy.place_lt]
      intro k hk hi
      have hinside' := Rect.contains_of_lt hinside (hcount ▸ hk)
      have hrequest := hspot k (hcount ▸ hk)
      have hx := hxy.place_div
      have hk' := hrequest.1.place_div
      rw [Option.some.inj hi, hx.1, hx.2] at hk'
      rw [← hk'.1, ← hk'.2] at hinside'
      exact hbounds ((hcontains x y).mp hinside').2
  · rw [if_pos hinside]
    refine ⟨_, rfl, hlength, fun x y hxy => ?_⟩
    rw [hdefault _ hxy.place_lt, if_neg fun h =>
      hinside (Rect.contains_clamp.mpr ⟨hxy, h⟩ : (request.clamp b.bounds).Contains x y).isValid]

/-- **Reads** of a region are exact if and only if it fits the caller's array. -/
theorem readsExactly_iff (hb : b.Sized) (capacity : ℕ) :
    b.ReadsExactly request capacity ↔ (request.IsValid → request.area * 4 ≤ capacity) := by
  constructor
  · rintro ⟨hreserved, -⟩ hvalid
    rwa [reserved, if_pos hvalid] at hreserved
  · intro hfits
    by_cases hvalid : request.IsValid
    · obtain ⟨all, hread, hlength, hplaces⟩ := exists_readOutput_ok hb hvalid (hfits hvalid)
      refine ⟨?_, .ok, all, hread, by simp [hvalid], fun _ => ⟨hlength, hplaces⟩⟩
      rw [reserved, if_pos hvalid]
      exact hfits hvalid
    · refine ⟨?_, .invalidParameter, [], ?_, by simp [hvalid], by simp⟩
      · rw [reserved, if_neg hvalid]
        exact Nat.zero_le _
      · rw [readOutput]
        exact if_neg fun h => hvalid h.1

theorem asI16_eq {n : ℤ} (hmin : -32768 ≤ n) (hmax : n ≤ I16_MAX) : asI16 n = n := by
  rw [I16_MAX] at hmax
  exact Int.bmod_eq_of_le (by omega) (by omega)

/-- **The region reported** is the part in the buffer. -/
theorem region_eq (hwidth : -I16_MAX ≤ size.1 ∧ size.1 ≤ I16_MAX)
    (hheight : -I16_MAX ≤ size.2 ∧ size.2 ≤ I16_MAX) (request : SmallRect) :
    region size request.rect = request.rect.clamp (.fromSize size) := by
  obtain ⟨⟨left, hleft⟩, ⟨top, htop⟩, ⟨right, hright⟩, ⟨bottom, hbottom⟩⟩ := request
  have hcolumn : -32768 ≤ size.1 - 1 := by
    have := hwidth.1
    rw [I16_MAX] at this
    omega
  have hrow : -32768 ≤ size.2 - 1 := by
    have := hheight.1
    rw [I16_MAX] at this
    omega
  simp only [region, SmallRect.rect, Rect.clamp, Rect.fromSize]
  rw [asI16_eq (le_max_of_le_left hleft.1) (max_le hleft.2 (by decide)),
    asI16_eq (le_max_of_le_left htop.1) (max_le htop.2 (by decide)),
    asI16_eq (le_min hright.1 hcolumn) ((min_le_left _ _).trans hright.2),
    asI16_eq (le_min hbottom.1 hrow) ((min_le_left _ _).trans hbottom.2)]

end ScreenBuffer

/-! ### Regions on screen -/

/-- Cells in a row, and where the first of them goes: what `write_infos` is given. -/
structure Run where
  target : Coord
  cells : List CharInfo

/-- A run has a cell in a place. -/
def Run.Shows (run : Run) (x y : ℤ) (cell : CharInfo) : Prop :=
  run.target.2 = y ∧ run.target.1 ≤ x ∧ run.cells[(x - run.target.1).toNat]? = some cell

/-- The rows of a rectangle, as they are drawn. -/
def runs (r : Rect) (cells : List CharInfo) : List Run :=
  if r.IsValid then
    (List.range ((cells.length + r.width.toNat - 1) / r.width.toNat)).map fun row : ℕ =>
      ⟨(r.left, r.top + row), (cells.drop (row * r.width.toNat)).take r.width.toNat⟩
  else []

/-- **The rows of a rectangle** show its cells in their places, and nothing else. -/
theorem shows_runs_iff {r : Rect} {cells : List CharInfo} (hr : r.IsValid)
    (hlength : cells.length = r.area) {x y : ℤ} {cell : CharInfo} :
    (∃ run ∈ runs r cells, run.Shows x y cell) ↔
      r.Contains x y ∧ cells[r.place x y]? = some cell := by
  have hwidth := Rect.width_pos hr
  have hheight := Rect.height_pos hr
  have hcount : (cells.length + r.width.toNat - 1) / r.width.toNat = r.height.toNat := by
    rw [hlength, Rect.area, Int.toNat_mul hwidth.le hheight.le]
    refine Nat.div_eq_of_lt_le ?_ ?_
    · rw [mul_comm]
      omega
    · rw [Nat.succ_mul, mul_comm]
      omega
  -- A cell of a row is the cell in that column.
  have hrow : ∀ row k : ℕ, k < r.width.toNat →
      ((cells.drop (row * r.width.toNat)).take r.width.toNat)[k]? =
        cells[row * r.width.toNat + k]? := by
    intro row k hk
    rw [List.getElem?_take_of_lt hk, List.getElem?_drop]
  have hplace : ∀ row : ℕ, r.Contains x y → y = r.top + row →
      row * r.width.toNat + (x - r.left).toNat = r.place x y := by
    intro row h hy
    have hrow' : (row : ℤ) = y - r.top := by omega
    have hnat : row = (y - r.top).toNat := by omega
    rw [Rect.place, Int.toNat_add (mul_nonneg h.row.1 hwidth.le) h.column.1,
      Int.toNat_mul h.row.1 hwidth.le, hnat]
  rw [runs, if_pos hr, hcount]
  constructor
  · rintro ⟨run, hrun, hy, hx, hcell⟩
    obtain ⟨row, hmem, rfl⟩ := List.mem_map.mp hrun
    have hmem := List.mem_range.mp hmem
    simp only at hy hx hcell
    have hk : (x - r.left).toNat < r.width.toNat := by
      by_contra hge
      rw [List.getElem?_take_eq_none (not_lt.mp hge)] at hcell
      exact absurd hcell (by simp)
    have hcontains : r.Contains x y := by
      rw [Rect.width] at hk
      rw [Rect.height] at hmem
      rw [Rect.Contains]
      omega
    rw [hrow row _ hk, hplace row hcontains hy.symm] at hcell
    exact ⟨hcontains, hcell⟩
  · rintro ⟨hcontains, hcell⟩
    have hcolumn := hcontains.column
    have hline := hcontains.row
    refine ⟨_, List.mem_map.mpr ⟨(y - r.top).toNat, List.mem_range.mpr (by omega), rfl⟩, ?_, ?_, ?_⟩
    · simp only
      omega
    · exact hcontains.1.1
    · simp only
      rw [hrow _ _ (by omega), hplace _ hcontains (by omega)]
      exact hcell

namespace ScreenBuffer

variable {b : ScreenBuffer} {request : Rect}

/-- WriteConsoleOutput to the buffer on screen, which has a size but keeps no cells. -/
def drawOutput (size : Coord) (request : Rect) (all : List CharInfo) :
    Option (List Run × Status) := do
  let (status, cells) ← clipCells size request all
  return (if status = .ok then runs (request.clamp (.fromSize size)) cells else [], status)

/-- **A write on screen is exact**: it draws the part in the buffer, each cell the one in its place
in the array, or is refused and draws nothing. -/
def DrawsExactly (size : Coord) (request : Rect) (all : List CharInfo) : Prop :=
  ∃ drawn status, drawOutput size request all = some (drawn, status) ∧
    (status = .ok ↔ request.IsValid ∧ request.area ≤ all.length) ∧
    (status ≠ .ok → drawn = []) ∧
    (status = .ok → ∀ x y cell, (∃ run ∈ drawn, run.Shows x y cell) ↔
      (Rect.fromSize size).Contains x y ∧ request.Contains x y ∧
        all[request.place x y]? = some cell)

theorem drawsExactly_iff {size : Coord} (all : List CharInfo) :
    DrawsExactly size request all ↔
      (request.IsValid → request.width * request.height ≤ I32_MAX) := by
  constructor
  · rintro ⟨drawn, status, hdraw, -⟩ hvalid
    by_contra harea
    rw [drawOutput, clipCells_overflow hvalid (not_le.mp harea)] at hdraw
    simp at hdraw
  · intro harea
    by_cases hok : request.IsValid ∧ request.area ≤ all.length
    · obtain ⟨hvalid, hlong⟩ := hok
      by_cases hinside : (request.clamp (.fromSize size)).IsValid
      · obtain ⟨cells, hclip, hlength, hcells⟩ :=
          clipCells_spec hvalid (harea hvalid) hlong hinside
        refine ⟨runs (request.clamp (.fromSize size)) cells, .ok, ?_, by simp [hvalid, hlong],
          by simp, fun _ x y cell => ?_⟩
        · rw [drawOutput, hclip]
          rfl
        rw [shows_runs_iff hinside hlength, Rect.contains_clamp]
        constructor
        · rintro ⟨⟨hrequest, hsize⟩, hcell⟩
          rw [hcells x y (Rect.contains_clamp.mpr ⟨hrequest, hsize⟩)] at hcell
          exact ⟨hsize, hrequest, hcell⟩
        · rintro ⟨hsize, hrequest, hcell⟩
          refine ⟨⟨hrequest, hsize⟩, ?_⟩
          rw [hcells x y (Rect.contains_clamp.mpr ⟨hrequest, hsize⟩)]
          exact hcell
      · refine ⟨[], .ok, ?_, by simp [hvalid, hlong], by simp, fun _ x y cell => ?_⟩
        · rw [drawOutput, clipCells_outside hvalid (harea hvalid) hlong hinside]
          simp [runs, hinside]
        · constructor
          · rintro ⟨run, hrun, -⟩
            exact absurd hrun List.not_mem_nil
          · rintro ⟨hsize, hrequest, -⟩
            exact absurd (Rect.contains_clamp.mpr ⟨hrequest, hsize⟩).isValid hinside
    · refine ⟨[], .invalidParameter, ?_, by simpa using hok, fun _ => rfl, by simp⟩
      rw [drawOutput, clipCells_refused harea hok]
      rfl

end ScreenBuffer

end Zetta.Console
