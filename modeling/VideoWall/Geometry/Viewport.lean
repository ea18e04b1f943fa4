/-
Where video lands on a surface, and where a detection lands on video.

There are two ways to place a frame. On a tile of the wall the frame is
fitted into the tile: it keeps its shape, touches two opposite sides and
is centred between the others. On a snapshot it covers the surface one
to one. A detection is a box in parts of the frame; whichever way the
frame is placed, the box is clipped to the frame first, so it can never
reach into the bars around it.
-/
import VideoWall.Geometry.Scalar

namespace VideoWall.Geometry

/-- The area that a frame covers on a surface. -/
structure Viewport (α : Type) where
  scale : α
  offsetX : α
  offsetY : α
  drawWidth : α
  drawHeight : α

/-- A box in parts of the frame: nought is its left or upper edge, one
its right or lower edge. -/
structure UnitBox (α : Type) where
  x : α
  y : α
  width : α
  height : α

/-- A box in pixels of the surface. -/
structure PixelBox (α : Type) where
  x : α
  y : α
  width : α
  height : α

variable {α : Type} [Scalar α]

open Scalar

/-- Fits a frame into an element of another shape. There is nothing to
fit while a size is not known. -/
def displayViewport? (nativeWidth nativeHeight elementWidth elementHeight : Nat) :
    Option (Viewport α) :=
  if nativeWidth = 0 ∨ nativeHeight = 0 ∨ elementWidth = 0 ∨ elementHeight = 0 then none
  else
    let nativeW : α := ofNat nativeWidth
    let nativeH : α := ofNat nativeHeight
    let elementW : α := ofNat elementWidth
    let elementH : α := ofNat elementHeight
    let videoAspect := nativeW / nativeH
    let elementAspect := elementW / elementH
    let (drawWidth, drawHeight) :=
      if less elementAspect videoAspect then (elementW, elementW / videoAspect)
      else (elementH * videoAspect, elementH)
    some
      { scale := drawWidth / nativeW
        offsetX := (elementW - drawWidth) / ofNat 2
        offsetY := (elementH - drawHeight) / ofNat 2
        drawWidth
        drawHeight }

/-- Covers a surface of the frame's own size. -/
def nativeViewport? (width height : Nat) : Option (Viewport α) :=
  if width = 0 ∨ height = 0 then none
  else
    some
      { scale := ofNat 1
        offsetX := ofNat 0
        offsetY := ofNat 0
        drawWidth := ofNat width
        drawHeight := ofNat height }

/-- The pixels of a box, clipped to the frame. -/
def Viewport.map (v : Viewport α) (box : UnitBox α) : PixelBox α :=
  let left := clampUnit box.x
  let top := clampUnit box.y
  let right := larger (clampUnit (box.x + larger box.width (ofNat 0))) left
  let bottom := larger (clampUnit (box.y + larger box.height (ofNat 0))) top
  { x := v.offsetX + left * v.drawWidth
    y := v.offsetY + top * v.drawHeight
    width := (right - left) * v.drawWidth
    height := (bottom - top) * v.drawHeight }

/-- Whether the frame begins at the corner of the surface. -/
def Viewport.isUnoffset (v : Viewport Float32) : Bool :=
  v.offsetX == 0 && v.offsetY == 0

end VideoWall.Geometry
