/-
Blending: a colour that covers a part of a pixel, and one surface laid
over another.

Channels are mixed in the arithmetic of the surface, rounded to the
nearest level with halves going up in size, and kept within a byte. A
coverage of nought or less changes nothing.
-/
import VideoWall.Raster.Canvas

namespace VideoWall.Raster

open VideoWall.Geometry Scalar

/-- Arithmetic in which channels can be mixed: `level` rounds to the
nearest byte. -/
class Mixing (α : Type) extends Scalar α where
  level : α → UInt8

instance : Mixing Float32 where
  level x := (clamp (Scalar.ofNat 0) (Scalar.ofNat 255) x.round).toUInt8

section
variable {α : Type} [Mixing α]

/-- A channel as a number to calculate with. -/
def channel (b : UInt8) : α := Scalar.ofNat b.toNat

/-- Lays a colour over a pixel, which it covers in part. -/
def Pixel.blend (p : Pixel) (c : Rgb) (coverage : α) : Pixel :=
  let alpha := clamp (Scalar.ofNat 0) (Scalar.ofNat 1) coverage
  if !isNaN alpha && !less (Scalar.ofNat 0) alpha then p
  else
    let keep := Scalar.ofNat 1 - alpha
    let mix (above below : UInt8) : UInt8 :=
      Mixing.level (channel above * alpha + channel below * keep)
    let cover := alpha + channel p.a / Scalar.ofNat 255 * keep
    ⟨mix c.r p.r, mix c.g p.g, mix c.b p.b, Mixing.level (cover * Scalar.ofNat 255)⟩

end

/-- Blends one place of a surface; places outside of it do not count. -/
def Canvas.blendAt (surface : Canvas) (x y : Int) (c : Rgb) (coverage : Float32) : Canvas :=
  if 0 ≤ x ∧ 0 ≤ y ∧ x < surface.width ∧ y < surface.height then
    let i := y.toNat * surface.width + x.toNat
    { surface with
      pixels := surface.pixels.modify i fun p => p.blend c coverage
      size_eq := by simp [surface.size_eq] }
  else surface

/-- Lays a surface over another. What sticks out of either is ignored,
and so are the places where the upper one is clear. -/
def Canvas.compositeIn (α : Type) [Mixing α] (dest overlay : Canvas) : Canvas :=
  dest.mapPixels fun x y p =>
    match overlay.get? x y with
    | none => p
    | some src =>
        if src.a = 0 then p
        else p.blend src.rgb ((channel src.a / Scalar.ofNat 255 : α))

/-- Lays a surface over another in single precision. -/
def Canvas.composite (dest overlay : Canvas) : Canvas := dest.compositeIn Float32 overlay

end VideoWall.Raster
