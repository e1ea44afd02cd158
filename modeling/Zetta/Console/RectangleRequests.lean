import Zetta.Console.Fills

/-!
# Requests about rectangles

All four operations that take a rectangle of 16-bit coordinates. A scroll computes with the
differences of such coordinates, which leave 16 bits but stay far from the bounds of 32
(`scrollsWithin`); a fill goes through the buffer in order. Reads and writes are exact only for
regions that are not too large, and `rectangles_within_iff` says for which.
-/

namespace Zetta.Console

/-! ### Scrolls -/

/-- All four coordinates are between two bounds. -/
def Rect.Between (r : Rect) (m n : ℤ) : Prop :=
  (m ≤ r.left ∧ r.left ≤ n) ∧ (m ≤ r.top ∧ r.top ≤ n) ∧ (m ≤ r.right ∧ r.right ≤ n) ∧
    m ≤ r.bottom ∧ r.bottom ≤ n

namespace Rect.Between

variable {r s : Rect} {m n m' n' : ℤ} {d : Coord}

theorem clamp (hr : r.Between m n) (hs : s.Between m n) : (r.clamp s).Between m n := by
  obtain ⟨hleft, htop, hright, hbottom⟩ := hr
  obtain ⟨hleft', htop', hright', hbottom'⟩ := hs
  simp only [Between, Rect.clamp]
  omega

theorem offset (hr : r.Between m n) (hx : m' ≤ d.1 ∧ d.1 ≤ n') (hy : m' ≤ d.2 ∧ d.2 ≤ n') :
    (r.offset d).Between (m + m') (n + n') := by
  obtain ⟨hleft, htop, hright, hbottom⟩ := hr
  simp only [Between, Rect.offset]
  omega

theorem mono (hr : r.Between m n) (hm : m' ≤ m) (hn : n ≤ n') : r.Between m' n' := by
  obtain ⟨hleft, htop, hright, hbottom⟩ := hr
  simp only [Between]
  omega

end Rect.Between

/-- A rectangle, perhaps empty, in another one. -/
def Rect.Inside (r s : Rect) : Prop :=
  (s.left ≤ r.left ∧ r.right ≤ s.right) ∧ s.top ≤ r.top ∧ r.bottom ≤ s.bottom

namespace Rect.Inside

variable {r s t : Rect}

theorem refl (r : Rect) : r.Inside r := ⟨⟨le_rfl, le_rfl⟩, le_rfl, le_rfl⟩

theorem trans (h : r.Inside s) (h' : s.Inside t) : r.Inside t :=
  ⟨⟨h'.1.1.trans h.1.1, h.1.2.trans h'.1.2⟩, h'.2.1.trans h.2.1, h.2.2.trans h'.2.2⟩

theorem clamp_left (r s : Rect) : (r.clamp s).Inside r :=
  ⟨⟨le_max_left _ _, min_le_left _ _⟩, le_max_left _ _, min_le_left _ _⟩

theorem clamp_right (r s : Rect) : (r.clamp s).Inside s :=
  ⟨⟨le_max_right _ _, min_le_right _ _⟩, le_max_right _ _, min_le_right _ _⟩

/-- What lies in a rectangle that was moved back moves into the rectangle. -/
theorem offset {d : Coord} (h : r.Inside (s.offset (-d.1, -d.2))) : (r.offset d).Inside s := by
  simp only [Inside, Rect.offset] at *
  omega

theorem contains (h : r.Inside s) {x y : ℤ} (hxy : r.Contains x y) : s.Contains x y := by
  simp only [Inside, Rect.Contains] at *
  omega

/-- A rectangle in another one has no more cells. -/
theorem area_le (h : r.Inside s) (hr : r.IsValid) : r.area ≤ s.area := by
  have hwidth := width_pos hr
  have hheight := height_pos hr
  refine Int.toNat_le_toNat (mul_le_mul ?_ ?_ hheight.le ?_)
  · rw [Rect.width, Rect.width]
    have := h.1
    omega
  · rw [Rect.height, Rect.height]
    have := h.2
    omega
  · rw [Rect.width] at *
    have := h.1
    omega

end Rect.Inside

theorem SmallRect.between (r : SmallRect) : r.rect.Between (-32768) I16_MAX :=
  ⟨r.left.2, r.top.2, r.right.2, r.bottom.2⟩

namespace ScreenBuffer

variable {b : ScreenBuffer}

theorem Sized.between_bounds (hb : b.Sized) : b.bounds.Between (-32768) I16_MAX := by
  obtain ⟨hwidth, hwidth'⟩ := hb.width
  obtain ⟨hheight, hheight'⟩ := hb.height
  rw [I16_MAX] at *
  simp only [bounds, Rect.fromSize, Rect.Between]
  omega

/-- The rectangles of a scroll: where it may write, what it fills, what it moves and where to. -/
structure Scroll where
  clipRect : Rect
  fillRect : Rect
  clipAtSource : Rect
  copySource : Rect
  copyTarget : Rect

def scrollRects (b : ScreenBuffer) (source : Rect) (clip : Option Rect) (target : Coord) :
    Scroll :=
  let bounds := Rect.fromSize b.size
  let clipRect := (clip.map (·.clamp bounds)).getD bounds
  let distance : Coord := (target.1 - source.left, target.2 - source.top)
  let clipAtSource := clipRect.offset (-distance.1, -distance.2)
  let copySource := (source.clamp bounds).clamp clipAtSource
  ⟨clipRect, source.clamp clipRect, clipAtSource, copySource, copySource.offset distance⟩

/-- **A scroll stays within bounds**: it goes through, every coordinate it computes is far within an
`i32`, it holds no more cells at a time than the buffer has, and writes only in the buffer. -/
def ScrollsWithin (b : ScreenBuffer) (sanitize : UInt16 → UInt16) (current : UInt16)
    (source : SmallRect) (clip : Option SmallRect) (x y : I16) (fill : CharInfo) : Prop :=
  let rects := b.scrollRects source.rect (clip.map SmallRect.rect) (x, y)
  (∃ t, b.scrollRegion sanitize current source.rect (clip.map SmallRect.rect) (x, y) fill = some t ∧
    Recelled b t) ∧
  (∀ r ∈ [rects.clipRect, rects.fillRect, rects.clipAtSource, rects.copySource, rects.copyTarget],
    r.Between (-262144) 262144) ∧
  ∀ r ∈ [rects.fillRect, rects.copySource, rects.copyTarget], r.IsValid →
    r.area ≤ b.cells.length ∧ ∀ x y, r.Contains x y → b.bounds.Contains x y

theorem Sized.area_bounds (hb : b.Sized) (h : b.bounds.IsValid) : b.bounds.area = b.cells.length := by
  have hwidth := Rect.width_pos h
  have hheight := Rect.height_pos h
  simp only [bounds, Rect.fromSize, Rect.width, Rect.height, sub_zero, sub_add_cancel] at hwidth hheight
  rw [hb.cells, Rect.area, ← Int.toNat_mul hwidth.le hheight.le]
  simp [bounds, Rect.fromSize, Rect.width, Rect.height]

variable {source : SmallRect} {clip : Option SmallRect} {x y : I16}

theorem scrollRects_inside (source : Rect) (clip : Option Rect) (target : Coord) :
    let rects := b.scrollRects source clip target
    rects.fillRect.Inside b.bounds ∧ rects.copySource.Inside b.bounds ∧
      rects.copyTarget.Inside b.bounds := by
  have hclip : ((clip.map (·.clamp b.bounds)).getD b.bounds).Inside b.bounds := by
    rcases clip with - | clip
    · exact .refl _
    · exact .clamp_right clip b.bounds
  refine ⟨.trans (.clamp_right _ _) hclip, .trans (.clamp_left _ _) (.clamp_right _ _), ?_⟩
  exact .trans (.offset (.clamp_right _ _)) hclip

theorem scrollRects_between (hb : b.Sized) (source : SmallRect) (clip : Option SmallRect)
    (x y : I16) :
    let rects := b.scrollRects source.rect (clip.map SmallRect.rect) (x, y)
    ∀ r ∈ [rects.clipRect, rects.fillRect, rects.clipAtSource, rects.copySource, rects.copyTarget],
      r.Between (-262144) 262144 := by
  have hbounds := hb.between_bounds
  have hsource := source.between
  have hclip : (((clip.map SmallRect.rect).map (·.clamp b.bounds)).getD b.bounds).Between
      (-32768) I16_MAX := by
    rcases clip with - | clip
    · exact hbounds
    · exact clip.between.clamp hbounds
  -- The differences of two 16-bit coordinates.
  have hdistance : ∀ m n : I16, -65535 ≤ (m : ℤ) - n ∧ (m : ℤ) - n ≤ 65535 := by
    intro m n
    have hm : -32768 ≤ (m : ℤ) ∧ (m : ℤ) ≤ 32767 := m.2
    have hn : -32768 ≤ (n : ℤ) ∧ (n : ℤ) ≤ 32767 := n.2
    omega
  have hback : ∀ m n : I16, -65535 ≤ -((m : ℤ) - n) ∧ -((m : ℤ) - n) ≤ 65535 := by
    intro m n
    have := hdistance m n
    omega
  have hclipBack := hclip.offset (d := (-((x : ℤ) - source.left), -((y : ℤ) - source.top)))
    (hback _ _) (hback _ _)
  have hsmall : -32768 + -65535 ≤ (-32768 : ℤ) ∧ I16_MAX ≤ I16_MAX + 65535 := by decide
  have hcopy := ((hsource.clamp hbounds).mono hsmall.1 hsmall.2).clamp hclipBack
  have htarget := hcopy.offset (d := ((x : ℤ) - source.left, (y : ℤ) - source.top))
    (hdistance _ _) (hdistance _ _)
  intro rects r hr
  simp only [List.mem_cons, List.not_mem_nil, or_false] at hr
  rcases hr with rfl | rfl | rfl | rfl | rfl
  · exact hclip.mono (by decide) (by decide)
  · exact (hsource.clamp hclip).mono (by decide) (by decide)
  · exact hclipBack.mono (by decide) (by decide)
  · exact hcopy.mono (by decide) (by decide)
  · exact htarget.mono (by decide) (by decide)

/-- A rectangle in the buffer is read. -/
theorem exists_readRect_of_sized (hb : b.Sized) (r : Rect) :
    ∃ cells, b.readRect r = some cells ∧ (r.IsValid → cells.length = r.area) := by
  by_cases hr : r.IsValid
  · obtain ⟨cells, hcells, hlength, -⟩ := readRect_spec hb hr
    exact ⟨cells, hcells, fun _ => hlength⟩
  · exact ⟨[], if_neg hr, fun h => absurd h hr⟩

theorem exists_writeRect_of_sized (hb : b.Sized) {r : Rect} {input : List CharInfo}
    (hinput : r.IsValid → input.length = r.area) :
    ∃ t, b.writeRect r input = some t ∧ Recelled b t := by
  by_cases hr : r.IsValid
  · obtain ⟨t, ht, hrecelled, -⟩ := writeRect_spec hb hr (hinput hr)
    exact ⟨t, ht, hrecelled⟩
  · exact ⟨b, if_neg hr, .refl b⟩

theorem exists_scrollRegion_of_sized (hb : b.Sized) (sanitize : UInt16 → UInt16)
    (current : UInt16) (source : Rect) (clip : Option Rect) (target : Coord) (fill : CharInfo) :
    ∃ t, b.scrollRegion sanitize current source clip target fill = some t ∧ Recelled b t := by
  rw [scrollRegion]
  by_cases hstill : (source.left = target.1 ∧ source.top = target.2) ∨ ¬source.IsValid
  · rw [if_pos hstill]
    exact ⟨b, rfl, .refl b⟩
  · rw [if_neg hstill]
    dsimp only
    generalize (⟨sanitize fill.ch, _⟩ : CharInfo) = fill
    generalize source.clamp ((clip.map (·.clamp (Rect.fromSize b.size))).getD _) = fillRect
    generalize (source.clamp (Rect.fromSize b.size)).clamp _ = copySource
    by_cases hnothing : ¬fillRect.IsValid ∧
        ¬(copySource.offset (target.1 - source.left, target.2 - source.top)).IsValid
    · rw [if_pos hnothing]
      exact ⟨b, rfl, .refl b⟩
    · obtain ⟨backup, hbackup, -⟩ := exists_readRect_of_sized hb copySource
      obtain ⟨filled, hfilled, hrecelled⟩ := exists_writeRect_of_sized hb
        (fun _ => List.length_replicate : fillRect.IsValid → (List.replicate
          (fillRect.width * fillRect.height).toNat fill).length = fillRect.area)
      rw [if_neg hnothing, Option.bind_eq_bind, hbackup, Option.bind_some, Option.bind_eq_bind,
        hfilled, Option.bind_some]
      split_ifs with hmoves
      · -- The target is as large as what is moved there.
        have hsame : (copySource.offset (target.1 - source.left, target.2 - source.top)).area =
            copySource.area := by
          simp only [Rect.area, Rect.width, Rect.height, Rect.offset, add_sub_add_right_eq_sub]
        obtain ⟨t, ht, hrecelled'⟩ := exists_writeRect_of_sized (hrecelled.sized hb)
          fun _ => hmoves.2.trans hsame.symm
        exact ⟨t, ht, hrecelled.trans hrecelled'⟩
      · exact ⟨filled, rfl, hrecelled⟩

theorem scrollsWithin (hb : b.Sized) (sanitize : UInt16 → UInt16) (current : UInt16)
    (source : SmallRect) (clip : Option SmallRect) (x y : I16) (fill : CharInfo) :
    b.ScrollsWithin sanitize current source clip x y fill := by
  obtain ⟨hfill, hcopy, htarget⟩ :=
    scrollRects_inside (b := b) source.rect (clip.map SmallRect.rect) (x, y)
  refine ⟨exists_scrollRegion_of_sized hb .., scrollRects_between hb source clip x y,
    fun r hr hvalid => ?_⟩
  have hinside : r.Inside b.bounds := by
    simp only [List.mem_cons, List.not_mem_nil, or_false] at hr
    rcases hr with rfl | rfl | rfl
    · exact hfill
    · exact hcopy
    · exact htarget
  have hbounds : b.bounds.IsValid := by
    simp only [Rect.Inside] at hinside
    simp only [Rect.IsValid] at hvalid ⊢
    omega
  exact ⟨(hinside.area_le hvalid).trans_eq (hb.area_bounds hbounds), fun _ _ => hinside.contains⟩

/-! ### All four operations -/

theorem length_charInfos (input : List UInt8) : (charInfos input).length = input.length / 4 := by
  fun_induction charInfos input with
  | case1 a b c d rest ih =>
    simp only [List.length_cons, ih]
    omega
  | case2 input hshort =>
    rcases input with - | ⟨a, - | ⟨b, - | ⟨c, - | ⟨d, rest⟩⟩⟩⟩
    · rfl
    · simp
    · simp
    · simp
    · exact absurd rfl (hshort a b c d rest)

/-- A request brings a cell in every four bytes. -/
theorem length_requestedCells (page : CodePage) (unicode : Bool) (request : Rect)
    (input : List UInt8) : (requestedCells page unicode request input).length = input.length / 4 := by
  rw [requestedCells]
  split_ifs
  · exact length_charInfos input
  · rw [length_cellsFromAnsi, length_charInfos]

/-- An answer has four bytes for every cell. -/
theorem length_answerCells (page : CodePage) (unicode : Bool) (cells : List CharInfo) :
    (answerCells page unicode cells).length = cells.length * 4 := by
  have hbytes : ∀ list : List CharInfo, (list.flatMap CharInfo.toBytes).length = list.length * 4 := by
    intro list
    induction list with
    | nil => rfl
    | cons cell list ih =>
      rw [List.flatMap_cons, List.length_append, ih, List.length_cons, Nat.succ_mul, add_comm]
      rfl
  rw [answerCells, hbytes]
  split_ifs
  · rfl
  · rw [List.length_map]

/-- **The operations on rectangles.** For a buffer of any 16-bit size and a region of any 16-bit
coordinates, a write is exact if and only if the region is inverted or its area is an `i32`, and a
read if and only if it is inverted or fits the caller's array. The region reported is always the
part in the buffer, fills go in order and scrolls stay within bounds. -/
theorem rectangles_within_iff (hb : b.Sized) (page : CodePage) (unicode : Bool)
    (isWide : UInt16 → Bool) (sanitize : UInt16 → UInt16) (request : SmallRect)
    (input : List UInt8) (capacity : ℕ) :
    (b.WritesExactly request.rect (requestedCells page unicode request.rect input) ∧
        DrawsExactly b.size request.rect (requestedCells page unicode request.rect input) ↔
      (request.rect.IsValid → request.rect.width * request.rect.height ≤ I32_MAX)) ∧
    (b.ReadsExactly request.rect capacity ↔
      (request.rect.IsValid → request.rect.area * 4 ≤ capacity)) ∧
    (requestedCells page unicode request.rect input).length = input.length / 4 ∧
    (∀ cells, (answerCells page unicode cells).length = cells.length * 4) ∧
    region b.size request.rect = request.rect.clamp b.bounds ∧
    (∀ (x y : I16) fill n, FillsInOrder isWide b (x, y) fill n ∧ DrawsInOrder isWide b (x, y) fill n) ∧
    ∀ current source clip x y fill, b.ScrollsWithin sanitize current source clip x y fill := by
  refine ⟨?_, readsExactly_iff hb capacity, length_requestedCells .., length_answerCells page unicode,
    region_eq hb.width hb.height request, fun x y fill n => ⟨fillsInOrder hb .., drawsInOrder hb ..⟩,
    scrollsWithin hb sanitize⟩
  rw [writesExactly_iff hb, drawsExactly_iff, and_self]

/-- A buffer of one cell. -/
def oneCell : ScreenBuffer where
  size := (1, 1)
  window := (1, 1)
  cells := [.blank 7]
  saved := ⟨0, 25, 7, true, (0, 0)⟩
  handles := 1
  dirty := false

theorem sized_oneCell : oneCell.Sized := ⟨by decide, by decide, rfl⟩

/-- From the smallest coordinate to the largest one. -/
def wholeRange : SmallRect :=
  ⟨⟨-32768, by decide⟩, ⟨-32768, by decide⟩, ⟨32767, by decide⟩, ⟨32767, by decide⟩⟩

/-- A write of the whole range overflows, whatever is brought for it, and a read of it reserves 65536
cells in each of 65536 rows, although no space was supplied for any. -/
theorem wholeRange_departs :
    oneCell.writeOutput wholeRange.rect [] = none ∧
      (oneCell.readOutput wholeRange.rect 0).map Prod.fst = some .invalidParameter ∧
      reserved wholeRange.rect = 65536 * 65536 ∧
      ¬oneCell.WritesExactly wholeRange.rect [] ∧ ¬oneCell.ReadsExactly wholeRange.rect 0 := by
  have hvalid : wholeRange.rect.IsValid := by decide
  have harea : wholeRange.rect.area = 65536 * 65536 := by decide
  refine ⟨?_, ?_, ?_, ?_, ?_⟩
  · rw [writeOutput, clipCells_overflow hvalid (by decide)]
    rfl
  · have hfull : ¬(wholeRange.rect.IsValid ∧
        (List.replicate (wholeRange.rect.width.toNat * wholeRange.rect.height.toNat)
          (⟨0, 0⟩ : CharInfo)).length * 4 ≤ 0) := by
      rw [List.length_replicate]
      decide
    rw [readOutput]
    dsimp only
    rw [if_neg hfull]
    rfl
  · rw [reserved, if_pos hvalid, harea]
  · rw [writesExactly_iff sized_oneCell]
    exact fun h => absurd (h hvalid) (by decide)
  · rw [readsExactly_iff sized_oneCell, harea]
    exact fun h => absurd (h hvalid) (by decide)

/-- Two cells are read, of which the buffer has one. -/
theorem rectangles_within_oneCell :
    oneCell.ReadsExactly ⟨0, 0, 1, 0⟩ 8 :=
  (rectangles_within_iff sized_oneCell ⟨fun _ => false, fun _ => [], fun _ => []⟩ true
    (fun _ => false) id ⟨⟨0, by decide⟩, ⟨0, by decide⟩, ⟨1, by decide⟩, ⟨0, by decide⟩⟩ [] 8).2.1.mpr
    fun _ => by decide

end ScreenBuffer

end Zetta.Console
