/-
What a painted surface shows. Painting is filling rectangles in order, so
a place has the pixel of the mark that was filled last over it, and the
one that it had before where there is none (`get?_paint`).

All marks of detections are opaque: they are strokes and backgrounds of
labels (`pixel_of_mem_marks`).
-/
import VideoWall.Overlay.Renderer
import VideoWall.Proofs.Raster.Places

namespace VideoWall.Overlay

open VideoWall.Geometry Raster Recorder

variable {renderer : Renderer} {x y : Nat} {m : Mark} {ms : List Mark}

-- ======================================================== the top mark

/-- Of marks that are filled in order, the last one over a place. -/
def topMark? (ms : List Mark) (x y : Nat) : Option Mark :=
  ms.reverse.find? fun m => m.rect.holds x y

/-- A later mark is on top of an earlier one. -/
theorem topMark?_cons (m : Mark) (ms : List Mark) (x y : Nat) :
    topMark? (m :: ms) x y
      = (topMark? ms x y).or (if m.rect.holds x y then some m else none) := by
  unfold topMark?
  rw [List.reverse_cons, List.find?_append, List.find?_singleton]

/-- A pixel that no mark holds has no mark on top. -/
theorem topMark?_eq_none_iff : topMark? ms x y = none ↔ ∀ m ∈ ms, m.rect.holds x y = false := by
  simp [topMark?]

/-- The last mark over a place holds it, and none after it does. -/
theorem topMark?_eq_some_iff :
    topMark? ms x y = some m
      ↔ m.rect.holds x y = true
        ∧ ∃ before after, ms = before ++ m :: after ∧ ∀ n ∈ after, n.rect.holds x y = false := by
  unfold topMark?
  rw [List.find?_eq_some_iff_append]
  refine and_congr_right fun _ => ?_
  constructor
  · rintro ⟨later, earlier, hsplit, hlater⟩
    refine ⟨earlier.reverse, later.reverse, ?_, ?_⟩
    · have hms := congrArg List.reverse hsplit
      simpa using hms
    · intro n hn
      simpa using hlater n (List.mem_reverse.1 hn)
  · rintro ⟨before, after, rfl, hafter⟩
    refine ⟨after.reverse, before.reverse, by simp, ?_⟩
    intro n hn
    simpa using hafter n (List.mem_reverse.1 hn)

/-- The mark on top is one of the marks. -/
theorem mem_of_topMark? (h : topMark? ms x y = some m) : m ∈ ms :=
  List.mem_reverse.1 (List.mem_of_find?_eq_some h)

-- ============================================================ painting

@[simp]
theorem width_paint (surface : Canvas) (ms : List Mark) :
    (paint surface ms).width = surface.width := by
  induction ms generalizing surface with
  | nil => rfl
  | cons m rest ih => exact (ih _).trans (Canvas.width_fill surface m.rect m.pixel)

@[simp]
theorem height_paint (surface : Canvas) (ms : List Mark) :
    (paint surface ms).height = surface.height := by
  induction ms generalizing surface with
  | nil => rfl
  | cons m rest ih => exact (ih _).trans (Canvas.height_fill surface m.rect m.pixel)

/-- A painted surface shows the top mark of a place, or what was there. -/
theorem get?_paint (surface : Canvas) (ms : List Mark) (x y : Nat) :
    (paint surface ms).get? x y
      = (surface.get? x y).map fun p => ((topMark? ms x y).map (·.pixel)).getD p := by
  induction ms generalizing surface with
  | nil => exact Option.map_id'.symm
  | cons m rest ih =>
      show (paint (surface.fill m.rect m.pixel) rest).get? x y = _
      rw [ih, Canvas.get?_fill, topMark?_cons]
      cases htop : topMark? rest x y with
      | some top => split <;> simp [Function.comp_def]
      | none =>
          split
          case isTrue hholds => simp [Function.comp_def]
          case isFalse hholds => simp

/-- Where all marks over a place have one pixel, the place shows it, whichever
of them comes last. -/
theorem get?_paint_of_pixel {p : Pixel}
    (hpixel : ∀ m ∈ ms, m.rect.holds x y = true → m.pixel = p) (surface : Canvas) :
    (paint surface ms).get? x y
      = if ∃ m ∈ ms, m.rect.holds x y = true then (surface.get? x y).map fun _ => p
        else surface.get? x y := by
  rw [get?_paint]
  cases htop : topMark? ms x y with
  | none =>
      have hbare := topMark?_eq_none_iff.1 htop
      rw [if_neg]
      · exact Option.map_id'
      · rintro ⟨m, hm, hholds⟩
        rw [hbare m hm] at hholds
        cases hholds
  | some m =>
      have hm := mem_of_topMark? htop
      have hholds := (topMark?_eq_some_iff.1 htop).1
      rw [if_pos ⟨m, hm, hholds⟩, Option.map_some]
      simp only [Option.getD_some, hpixel m hm hholds]

-- ========================================================== detections

/-- The marks that drawing detections fills on a surface of a size. -/
def allMarks (renderer : Renderer) (viewport : Viewport Float32) (width height : Nat)
    (detections : List Detection) : List Mark :=
  detections.flatMap (marks renderer viewport (sizeFactor width height))

/-- Drawing detections is painting their marks. -/
theorem draw_eq_paint (surface : Canvas) (viewport : Viewport Float32)
    (detections : List Detection) :
    draw renderer surface viewport detections
      = paint surface (allMarks renderer viewport surface.width surface.height detections) := rfl

/-- A mark of a detection is a stroke or the background of a label. -/
private theorem pixel_of_mem_marks {viewport : Viewport Float32} {factor : Float32} {d : Detection}
    (h : m ∈ marks renderer viewport factor d) :
    m.pixel = renderer.colors.stroke.opaquePixel
      ∨ m.pixel = renderer.colors.labelBackground.opaquePixel := by
  unfold marks at h
  dsimp only at h
  rcases List.mem_append.1 h with h | h
  · obtain ⟨rect, -, rfl⟩ := List.mem_map.1 h
    exact Or.inl rfl
  · rw [List.mem_singleton.1 h]
    exact Or.inr rfl

/-- Marks have one of two colours. -/
theorem pixel_of_mem_allMarks {viewport : Viewport Float32} {width height : Nat}
    {detections : List Detection} (h : m ∈ allMarks renderer viewport width height detections) :
    m.pixel = renderer.colors.stroke.opaquePixel
      ∨ m.pixel = renderer.colors.labelBackground.opaquePixel := by
  obtain ⟨d, -, hd⟩ := List.mem_flatMap.1 h
  exact pixel_of_mem_marks hd

end VideoWall.Overlay
