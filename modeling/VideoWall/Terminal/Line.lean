/-
Lines of text in several styles, and how they are written into a row of
cells: as far as they fit, from the left. A wide cluster blanks the cell
that it covers besides its own. A cluster without a width of its own goes
into the cell before it.
-/
import VideoWall.Terminal.Buffer
import VideoWall.Text.Blank
import VideoWall.Text.Cluster

namespace VideoWall.Terminal

/-- A text in one style. -/
structure Span where
  text : String
  style : Style := {}
  deriving DecidableEq, Repr, Inhabited

/-- A line of text. -/
abbrev Line := List Span

/-- A cluster in a style. -/
structure Glyph where
  cluster : List Char
  style : Style
  deriving DecidableEq, Repr, Inhabited

namespace Glyph

/-- How many columns a glyph takes. -/
def columns (g : Glyph) : Nat := Text.clusterColumns g.cluster

/-- A glyph as text. -/
def text (g : Glyph) : String := String.ofList g.cluster

/-- Whether a line may be broken at a glyph: at white space that is not
kept together, and where a break of no width is. -/
def isBlank (g : Glyph) : Bool :=
  g.cluster = ['\u200b'] || (g.cluster.all Text.isBlank && g.cluster != ['\u00a0'])

end Glyph

/-- How many columns some glyphs take. -/
def glyphColumns (l : List Glyph) : Nat := (l.map Glyph.columns).foldr (· + ·) 0

namespace Span

/-- How many columns a span takes. -/
def columns (s : Span) : Nat := Text.columns s.text.toList

/-- The glyphs of a span. A line feed takes a column but has no glyph. -/
def glyphs (s : Span) : List Glyph :=
  ((Text.clusters s.text.toList).filter (· ≠ ['\n'])).map (⟨·, s.style⟩)

end Span

namespace Buffer

/-- Writes a glyph at column `x` of a row that begins at column `left`;
`first` says that it is the first of its span. -/
def writeGlyph (b : Buffer) (left x y : Nat) (first : Bool) (g : Glyph) : Buffer :=
  let b :=
    if first then b.modify x y (·.put g.text g.style)
    else if x = left then b.modify x y (·.append g.text g.style)
    else if g.columns = 0 then b.modify (x - 1) y (·.append g.text g.style)
    else b.modify x y (·.put g.text g.style)
  (List.range (g.columns - 1)).foldl (fun b i => b.modify (x + 1 + i) y fun _ => {}) b

/-- Writes glyphs from column `x` on, up to the first that would reach
beyond the column `right`. -/
def writeGlyphs (left right y : Nat) : (x : Nat) → (first : Bool) → List Glyph → Buffer → Buffer
  | _, _, [], b => b
  | x, first, g :: rest, b =>
      let next := x + g.columns
      if right < next then b
      else writeGlyphs left right y next false rest (b.writeGlyph left x y first g)

/-- Writes a span at the beginning of an area's first row. -/
def writeSpan (b : Buffer) (a : Area) (s : Span) : Buffer :=
  let a := a.meet b.area
  if a.isEmpty then b else writeGlyphs a.x a.right a.y a.x true s.glyphs b

/-- Writes spans, one behind the other, as far as the area reaches. -/
def writeSpans : Area → Line → Buffer → Buffer
  | _, [], b => b
  | a, s :: rest, b =>
      let columns := s.columns
      if columns = 0 then writeSpans a rest b
      else if a.isEmpty then b
      else writeSpans (a.indent columns) rest (b.writeSpan a s)

/-- Writes a line to an area. -/
def writeLine (b : Buffer) (a : Area) (l : Line) : Buffer := writeSpans (a.meet b.area) l b

end Buffer

end VideoWall.Terminal
