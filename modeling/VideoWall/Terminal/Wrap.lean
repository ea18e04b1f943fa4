/-
Breaking lines at white space, and paragraphs made of the parts.

A line is read glyph by glyph. Glyphs gather in a word, white space
between words gathers apart, and both go onto the line together once the
word has ended; so white space at a break belongs to neither side. A word
that is too long for a line of its own is broken where the line is full.
-/
import VideoWall.Terminal.Line

namespace VideoWall.Terminal

/-- A line that is being broken: the parts that are done, newest first,
the part begun, and the white space and the word to follow it.
`inWord` says that the last glyph was none of white space. -/
structure Wrapping where
  done : List (List Glyph) := []
  line : List Glyph := []
  blanks : List Glyph := []
  word : List Glyph := []
  inWord : Bool := false
  deriving Inhabited

namespace Wrapping

/-- Drops white space from the front as far as it fits into `room`
columns. -/
def dropFitting : (room : Nat) → List Glyph → List Glyph
  | _, [] => []
  | room, g :: rest =>
      if room < g.columns then g :: rest else dropFitting (room - g.columns) rest

/-- The part begun with the word put onto it. White space never begins a
part. -/
def withWord (w : Wrapping) : List Glyph :=
  if w.line.isEmpty then w.word else w.line ++ w.blanks ++ w.word

/-- Whether the word has to go onto the part before a glyph of so many
columns: it has ended, or there is no room for more of it. -/
def wordEnds (max : Nat) (w : Wrapping) (g : Glyph) : Bool :=
  (w.inWord && g.isBlank)
    || (w.line.isEmpty
      && (max < glyphColumns w.word + g.columns || max < glyphColumns w.blanks + g.columns))

/-- Whether the part begun is full, or would be with the next glyph. -/
def isFull (max : Nat) (w : Wrapping) (g : Glyph) : Bool :=
  max ≤ glyphColumns w.line
    || (0 < g.columns
      && max ≤ glyphColumns w.line + glyphColumns w.blanks + glyphColumns w.word)

/-- Ends the part begun. White space that would have fitted into it is
dropped. -/
def endPart (max : Nat) (w : Wrapping) : Wrapping :=
  { w with
    done := w.line :: w.done
    line := []
    blanks := dropFitting (max - glyphColumns w.line) w.blanks }

/-- Adds a glyph to the word or to the white space. -/
def gather (w : Wrapping) (g : Glyph) : Wrapping :=
  if g.isBlank then { w with blanks := w.blanks ++ [g], inWord := false }
  else { w with word := w.word ++ [g], inWord := true }

/-- Reads a glyph. One that is wider than a line is left out, and so is
the white space that a line was broken at. -/
def read (max : Nat) (w : Wrapping) (g : Glyph) : Wrapping :=
  if max < g.columns then w
  else
    let w := if w.wordEnds max g then { w with line := w.withWord, blanks := [], word := [] } else w
    if w.isFull max g then
      let w := w.endPart max
      if g.isBlank && w.blanks.isEmpty then w else w.gather g
    else w.gather g

/-- The parts of a line that has been read, at least one. -/
def parts (w : Wrapping) : List (List Glyph) :=
  let isOnlyBlank := w.line.isEmpty && w.word.isEmpty && !w.blanks.isEmpty
  let done := if isOnlyBlank then [] :: w.done else w.done
  let done := if w.withWord.isEmpty then done else w.withWord :: done
  if done.isEmpty then [[]] else done.reverse

end Wrapping

/-- Breaks a line into parts of at most `max` columns. -/
def wrap (max : Nat) (l : List Glyph) : List (List Glyph) :=
  (l.foldl (Wrapping.read max) {}).parts

/-- As much of a line as fits into `room` columns. Glyphs wider than
`max`, which is a whole line, are left out. -/
def truncate (max : Nat) : (room : Nat) → List Glyph → List Glyph
  | _, [] => []
  | room, g :: rest =>
      if max < g.columns then truncate max room rest
      else if room < g.columns then []
      else g :: truncate max (room - g.columns) rest

namespace Buffer

/-- Puts glyphs into the cells from column `x` on. Those that take no
column are left out. -/
def putGlyphs (y : Nat) : (x : Nat) → List Glyph → Buffer → Buffer
  | _, [], b => b
  | x, g :: rest, b =>
      if g.columns = 0 then putGlyphs y x rest b
      else putGlyphs y (x + g.columns) rest (b.modify x y (·.put g.text g.style))

/-- Puts glyphs into rows, as many as an area has, from its top. `place`
says by how much a row of some columns is indented. -/
def putRows (b : Buffer) (a : Area) (place : Nat → Nat) (rows : List (List Glyph)) : Buffer :=
  (rows.take a.height).zipIdx.foldl
    (fun b (row, i) => putGlyphs (a.y + i) (a.x + place (glyphColumns row)) row b) b

/-- Writes a paragraph with its lines broken and centred. -/
def writeCentred (b : Buffer) (a : Area) (lines : List Line) : Buffer :=
  let a := a.meet b.area
  if a.isEmpty then b
  else
    b.putRows a (fun columns => a.width / 2 - columns / 2)
      (lines.flatMap fun l => wrap a.width (l.flatMap Span.glyphs))

/-- Writes a paragraph with its lines cut off where the area ends. -/
def writeCut (b : Buffer) (a : Area) (lines : List Line) : Buffer :=
  let a := a.meet b.area
  if a.isEmpty then b
  else
    b.putRows a (fun _ => 0) (lines.map fun l => truncate a.width a.width (l.flatMap Span.glyphs))

/-- Writes a message to the middle of an area. -/
def writeMessage (b : Buffer) (a : Area) (style : Style) (text : String) : Buffer :=
  let above := List.replicate ((a.height - 1) / 2) []
  b.writeCentred a
    (above ++ (Text.lines text.toList).map fun l => [⟨String.ofList l, style⟩])

end Buffer

end VideoWall.Terminal
