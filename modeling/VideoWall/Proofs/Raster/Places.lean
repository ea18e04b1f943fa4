/-
Surfaces, place by place. What an operation makes of a surface is said
here as what it makes of the pixel at each place, so that nobody else has
to look at rows and indices.

# What is shown

- `Canvas.ext_get?`: a surface is its size and its pixels.
- `Canvas.get?_ofFn`, `get?_filled`, `get?_mapPixels`: surfaces given by a
  function of the place.
- `Canvas.get?_fill`: a fill sets the pixels of its rectangle and leaves
  the others, however much of the rectangle lies outside.

# How

A place is an index of the buffer, `y * width + x`. A row of a fill is an
interval of indices; that two rows never meet is where a fill needs that
its rectangle was cut to the surface (`mem_row_iff`).
-/
import VideoWall.Raster.Canvas

namespace VideoWall.Raster

variable {c d : Canvas} {x y : Nat}

-- ============================================================ indices

/-- A place within a surface has an index below its size. -/
theorem index_lt {width height : Nat} (hx : x < width) (hy : y < height) :
    y * width + x < width * height := by
  have hrow : (y + 1) * width ≤ height * width := Nat.mul_le_mul_right width hy
  rw [Nat.mul_comm width height]
  rw [Nat.add_mul] at hrow
  omega

theorem index_mod {width : Nat} (hx : x < width) : (y * width + x) % width = x := by
  rw [Nat.mul_comm, Nat.mul_add_mod, Nat.mod_eq_of_lt hx]

theorem index_div {width : Nat} (hx : x < width) : (y * width + x) / width = y := by
  rw [Nat.mul_comm, Nat.mul_add_div (Nat.zero_lt_of_lt hx), Nat.div_eq_of_lt hx, Nat.add_zero]

/-- No two places have the same index. -/
theorem index_inj {width a b : Nat} (hx : x < width) (ha : a < width) :
    y * width + x = b * width + a ↔ x = a ∧ y = b := by
  constructor
  · intro h
    have hmod := congrArg (· % width) h
    have hdiv := congrArg (· / width) h
    rw [index_mod hx, index_mod ha] at hmod
    rw [index_div hx, index_div ha] at hdiv
    exact ⟨hmod, hdiv⟩
  · rintro ⟨rfl, rfl⟩
    rfl

/-- Which indices of a buffer belong to a span in one of its rows. -/
theorem mem_row_iff {width left count row : Nat} (hx : x < width) (hspan : left + count ≤ width) :
    (row * width + left ≤ y * width + x ∧ y * width + x < row * width + left + count)
      ↔ y = row ∧ left ≤ x ∧ x < left + count := by
  rcases Nat.lt_trichotomy y row with hy | rfl | hy
  · have hrows : (y + 1) * width ≤ row * width := Nat.mul_le_mul_right width hy
    rw [Nat.add_mul] at hrows
    omega
  · omega
  · have hrows : (row + 1) * width ≤ y * width := Nat.mul_le_mul_right width hy
    rw [Nat.add_mul] at hrows
    omega

-- ============================================================ surfaces

namespace Canvas

theorem get?_inside (hx : x < c.width) (hy : y < c.height) :
    c.get? x y = c.pixels[y * c.width + x]? := if_pos ⟨hx, hy⟩

theorem get?_outside (h : ¬ (x < c.width ∧ y < c.height)) : c.get? x y = none := if_neg h

/-- Two surfaces of one size with the same pixels are the same. -/
theorem ext_get? (hwidth : c.width = d.width) (hheight : c.height = d.height)
    (h : ∀ x y, c.get? x y = d.get? x y) : c = d := by
  obtain ⟨width, height, pixels, hsize⟩ := c
  obtain ⟨width', height', pixels', hsize'⟩ := d
  cases hwidth
  cases hheight
  have hpixels : pixels = pixels' := by
    refine Array.ext_getElem? fun i => ?_
    by_cases hi : i < width * height
    · have hwidth : 0 < width := Nat.pos_of_mul_pos_right (Nat.zero_lt_of_lt hi)
      have hx : i % width < width := Nat.mod_lt i hwidth
      have hy : i / width < height := Nat.div_lt_of_lt_mul hi
      have hplace := h (i % width) (i / width)
      have hindex : i / width * width + i % width = i := Nat.div_add_mod' i width
      rw [get?_inside hx hy, get?_inside hx hy] at hplace
      simpa only [hindex] using hplace
    · rw [Array.getElem?_eq_none (by omega), Array.getElem?_eq_none (by omega)]
  cases hpixels
  rfl

/-- A surface made of a function shows it. -/
theorem get?_ofFn (width height : Nat) (f : (x y : Nat) → Pixel) (x y : Nat) :
    (ofFn width height f).get? x y = if x < width ∧ y < height then some (f x y) else none := by
  by_cases h : x < width ∧ y < height
  · rw [if_pos h, get?_inside h.1 h.2]
    show (Array.ofFn fun i : Fin (width * height) => f (i % width) (i / width))[y * width + x]? = _
    rw [Array.getElem?_ofFn, dif_pos (index_lt h.1 h.2)]
    show some (f ((y * width + x) % width) ((y * width + x) / width)) = some (f x y)
    rw [index_mod h.1, index_div h.1]
  · rw [if_neg h, get?_outside h]

/-- A filled surface shows one pixel everywhere. -/
theorem get?_filled (width height : Nat) (p : Pixel) (x y : Nat) :
    (filled width height p).get? x y = if x < width ∧ y < height then some p else none := by
  by_cases h : x < width ∧ y < height
  · rw [if_pos h, get?_inside h.1 h.2]
    show (Array.replicate (width * height) p)[y * width + x]? = some p
    rw [Array.getElem?_replicate, if_pos (index_lt h.1 h.2)]
  · rw [if_neg h, get?_outside h]

/-- What is cleared is clear wherever it is. -/
theorem get?_cleared (c : Canvas) (x y : Nat) :
    c.cleared.get? x y = if x < c.width ∧ y < c.height then some .clear else none :=
  get?_filled c.width c.height .clear x y

/-- A mapped surface shows the pixels mapped. -/
theorem get?_mapPixels (c : Canvas) (f : (x y : Nat) → Pixel → Pixel) (x y : Nat) :
    (c.mapPixels f).get? x y = (c.get? x y).map (f x y) := by
  by_cases h : x < c.width ∧ y < c.height
  · rw [get?_inside h.1 h.2, get?_inside (c := c.mapPixels f) h.1 h.2]
    show (c.pixels.mapIdx fun i p => f (i % c.width) (i / c.width) p)[y * c.width + x]? = _
    rw [Array.getElem?_mapIdx, index_mod h.1, index_div h.1]
  · rw [get?_outside h, get?_outside (c := c.mapPixels f) h, Option.map_none]

end Canvas

-- ============================================================== fills

/-- A span is filled from its start to its end. -/
private theorem getElem?_fillSpan (p : Pixel) (count start i : Nat) (pixels : Array Pixel) :
    (fillSpan p count start pixels)[i]?
      = if start ≤ i ∧ i < start + count then pixels[i]?.map fun _ => p else pixels[i]? := by
  induction count generalizing start pixels with
  | zero =>
      rw [if_neg (by omega)]
      rfl
  | succ count ih =>
      unfold fillSpan
      rw [ih, Array.getElem?_setIfInBounds]
      by_cases hi : start = i
      · subst hi
        have hlater : ¬ (start + 1 ≤ start ∧ start < start + 1 + count) := by omega
        have hspan : start ≤ start ∧ start < start + (count + 1) := by omega
        rw [if_neg hlater, if_pos rfl, if_pos hspan]
        by_cases hsize : start < pixels.size
        · rw [if_pos hsize, Array.getElem?_eq_getElem hsize, Option.map_some]
        · rw [if_neg hsize, Array.getElem?_eq_none (Nat.le_of_not_lt hsize), Option.map_none]
      · rw [if_neg hi]
        by_cases hspan : start + 1 ≤ i ∧ i < start + 1 + count
        · rw [if_pos hspan, if_pos (by omega)]
        · rw [if_neg hspan, if_neg (by omega)]

/-- Rows of a fill are spans, and a place lies in one of them at most. -/
private theorem getElem?_fillRows (p : Pixel) {count left width : Nat}
    (hspan : left + count ≤ width) (hx : x < width) (rows top : Nat) (pixels : Array Pixel) :
    (fillRows p count width rows (top * width + left) pixels)[y * width + x]?
      = if (left ≤ x ∧ x < left + count) ∧ top ≤ y ∧ y < top + rows then
          pixels[y * width + x]?.map fun _ => p
        else pixels[y * width + x]? := by
  induction rows generalizing top pixels with
  | zero =>
      rw [if_neg (by omega)]
      rfl
  | succ rows ih =>
      have hnext : top * width + left + width = (top + 1) * width + left := by
        rw [Nat.add_mul]
        omega
      unfold fillRows
      rw [hnext, ih, getElem?_fillSpan]
      simp only [mem_row_iff hx hspan]
      by_cases hrow : y = top
      · rw [if_neg (by omega)]
        by_cases hcolumn : left ≤ x ∧ x < left + count
        · rw [if_pos ⟨hrow, hcolumn⟩, if_pos (by omega)]
        · rw [if_neg (by omega), if_neg (by omega)]
      · rw [if_neg (by omega : ¬ (y = top ∧ left ≤ x ∧ x < left + count))]
        by_cases hlater : (left ≤ x ∧ x < left + count) ∧ top + 1 ≤ y ∧ y < top + 1 + rows
        · rw [if_pos hlater, if_pos (by omega)]
        · rw [if_neg hlater, if_neg (by omega)]

/-- A rectangle holds the places between its edges. -/
theorem Rect.holds_iff {r : Rect} {x y : Int} :
    r.holds x y = true ↔ r.x ≤ x ∧ x < r.x + r.width ∧ r.y ≤ y ∧ y < r.y + r.height := by
  simp [Rect.holds, and_assoc]

namespace Canvas

@[simp]
theorem width_fill (c : Canvas) (r : Rect) (p : Pixel) : (c.fill r p).width = c.width := by
  unfold fill
  dsimp only
  split
  · rfl
  · rfl

@[simp]
theorem height_fill (c : Canvas) (r : Rect) (p : Pixel) : (c.fill r p).height = c.height := by
  unfold fill
  dsimp only
  split
  · rfl
  · rfl

/-- A fill sets the pixels of its rectangle and leaves the others. -/
theorem get?_fill (c : Canvas) (r : Rect) (p : Pixel) (x y : Nat) :
    (c.fill r p).get? x y = if r.holds x y then (c.get? x y).map fun _ => p else c.get? x y := by
  by_cases h : x < c.width ∧ y < c.height
  case neg =>
    have hfilled : ¬ (x < (c.fill r p).width ∧ y < (c.fill r p).height) := by simpa using h
    rw [get?_outside hfilled, get?_outside h, Option.map_none, ite_self]
  case pos =>
    obtain ⟨hx, hy⟩ := h
    rw [get?_inside (by simpa using hx) (by simpa using hy), get?_inside hx hy, width_fill]
    unfold fill
    dsimp only
    split
    case isFalse hempty =>
      -- nothing of the rectangle lies on the surface
      rw [if_neg]
      rw [Rect.holds_iff]
      omega
    case isTrue hfull =>
      show (fillRows p _ c.width _ _ c.pixels)[y * c.width + x]? = _
      rw [getElem?_fillRows p (by omega) hx]
      by_cases hholds : r.holds x y = true
      · rw [if_pos hholds, if_pos]
        rw [Rect.holds_iff] at hholds
        omega
      · rw [if_neg hholds, if_neg]
        rw [Rect.holds_iff] at hholds
        omega

end Canvas

end VideoWall.Raster
