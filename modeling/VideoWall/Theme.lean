/-
Colours of the screen and of the overlay. A theme is a JSON file with
two sections, in which every colour may be missing; a colour that cannot
be read spoils the whole file.
-/
import VideoWall.Json.Decode
import VideoWall.Overlay.Renderer
import VideoWall.Text.Blank

namespace VideoWall

open Json Raster

namespace Theme

-- =========================================================== colours

/-- What is said of a text that is no colour. -/
def colorExpected (text : String) : String :=
  "expected a colour like #RRGGBB, got '" ++ text ++ "'"

/-- Reads six hexadecimal digits, which one `#` and white space around
it all may precede. -/
def parseColor (text : List Char) : Option Rgb :=
  let trimmed := Text.trim text
  let digits := (Text.stripPrefix? ['#'] trimmed).getD trimmed
  match Text.Hex.toBytes? digits with
  | some [r, g, b] => some ⟨r, g, b⟩
  | _ => none

/-- A colour as a theme has it. -/
def colorText (c : Rgb) : String :=
  String.ofList ('#' :: [c.r, c.g, c.b].flatMap Text.Hex.ofByteUpper)

/-- Reads a colour off a file. -/
def decodeColor : Decoder Rgb := fun node => do
  let text ← decodeText node
  match parseColor text.toList with
  | some c => .ok c
  | none => .error (Problem.rejected (colorExpected text)).unplaced

/-- A colour as a JSON value. -/
def colorJson (c : Rgb) : Value := .text (colorText c)

-- ========================================================== sections

/-- Colours of the screen. -/
structure Screen where
  text : Rgb := ⟨0xE7, 0xEB, 0xF3⟩
  muted : Rgb := ⟨0x91, 0x98, 0xAA⟩
  border : Rgb := ⟨0x58, 0x62, 0x78⟩
  borderActive : Rgb := ⟨0x72, 0x8C, 0xFF⟩
  accent : Rgb := ⟨0x66, 0xD8, 0xFF⟩
  success : Rgb := ⟨0x67, 0xD4, 0x8E⟩
  warning : Rgb := ⟨0xFF, 0xC6, 0x6D⟩
  error : Rgb := ⟨0xFF, 0x79, 0x86⟩
  deriving DecidableEq, Repr, Inhabited

/-- How the colours of the screen are read; those that are not given are kept.
-/
def Screen.reading : Record Screen where
  name := "UiSection"
  initial := {}
  fields :=
    [ field "text" .keeps decodeColor fun v s => { s with text := v },
      field "muted" .keeps decodeColor fun v s => { s with muted := v },
      field "border" .keeps decodeColor fun v s => { s with border := v },
      field "border_active" .keeps decodeColor fun v s => { s with borderActive := v },
      field "accent" .keeps decodeColor fun v s => { s with accent := v },
      field "success" .keeps decodeColor fun v s => { s with success := v },
      field "warning" .keeps decodeColor fun v s => { s with warning := v },
      field "error" .keeps decodeColor fun v s => { s with error := v } ]

/-- How the section of the screen is written. -/
def Screen.toJson (s : Screen) : Value :=
  .object
    [ ("text", colorJson s.text),
      ("muted", colorJson s.muted),
      ("border", colorJson s.border),
      ("border_active", colorJson s.borderActive),
      ("accent", colorJson s.accent),
      ("success", colorJson s.success),
      ("warning", colorJson s.warning),
      ("error", colorJson s.error) ]

/-- The colours of detections that a theme begins with. -/
def greenOnBlack : Overlay.Colors := ⟨⟨0, 0xFF, 0⟩, ⟨0, 0xFF, 0⟩, ⟨0, 0, 0⟩⟩

/-- How the colours of detections are read; those that are not given are kept.
-/
def detectionsReading : Record Overlay.Colors where
  name := "DetectionSection"
  initial := greenOnBlack
  fields :=
    [ field "stroke" .keeps decodeColor fun v s => { s with stroke := v },
      field "label_background" .keeps decodeColor fun v s => { s with labelBackground := v },
      field "label_text" .keeps decodeColor fun v s => { s with labelText := v } ]

/-- How the section of the detections is written. -/
def detectionsJson (s : Overlay.Colors) : Value :=
  .object
    [ ("stroke", colorJson s.stroke),
      ("label_background", colorJson s.labelBackground),
      ("label_text", colorJson s.labelText) ]

end Theme

-- ============================================================= theme

/-- The colours in use. -/
structure Theme where
  screen : Theme.Screen := {}
  detections : Overlay.Colors := Theme.greenOnBlack
  deriving Inhabited

namespace Theme

/-- How a theme is read. -/
def reading : Record Theme where
  name := "ThemeFile"
  initial := {}
  fields :=
    [ field "ui" .keeps Screen.reading.decode fun v t => { t with screen := v },
      field "detections" .keeps detectionsReading.decode fun v t => { t with detections := v } ]

/-- A theme as a JSON value. -/
def toJson (t : Theme) : Value :=
  .object [("ui", t.screen.toJson), ("detections", detectionsJson t.detections)]

/-- Reads a theme. -/
def parse (s : List Char) : Except Error Theme := Json.decode reading.decode s

/-- A theme as it is written to a file. -/
def render (t : Theme) : String := t.toJson.pretty

end Theme

end VideoWall
