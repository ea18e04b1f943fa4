/-
Snapshots: the newest frame of a stream in its native size with the
detections drawn in, as a file named for the stream and the instant. It is put
into a directory, which is made if it is not there.
-/
import VideoWall.Files.Disk
import VideoWall.Media.Element
import VideoWall.Overlay.Renderer
import VideoWall.Report
import VideoWall.Snapshot.Calendar

namespace VideoWall.Snapshot

open Media Raster Recorder

/-- The kinds of files. -/
inductive Format where
  | jpeg
  | png
  deriving DecidableEq, Repr, Inhabited

/-- How the name of a file of a kind ends. -/
def Format.suffix : Format → String
  | .jpeg => "jpg"
  | .png => "png"

/-- The bytes that every file of a kind begins with. -/
def Format.signature : Format → List UInt8
  | .jpeg => [0xFF, 0xD8]
  | .png => [0x89, 0x50]

/-- The name of the file of a snapshot: spaces in the name of the stream
become dashes. -/
def fileName (stream : String) (instant : Int) (format : Format) : String :=
  let name := String.ofList (stream.toList.map fun c => if c = ' ' then '-' else c)
  "snapshot-" ++ name ++ "-" ++ stampText instant ++ "." ++ format.suffix

/-- Why there is no snapshot. -/
inductive Failure where
  | notReady (stream : String)
  | badFrame (width height : Nat)
  | tooLarge
  deriving DecidableEq, Repr

/-- The words for each cause. -/
def Failure.message : Failure → String
  | .notReady stream => "stream '" ++ stream ++ "' has no decoded frame yet"
  | .badFrame w h => "frame buffer does not match " ++ toString w ++ "x" ++ toString h
  | .tooLarge =>
      "image encoding failed: The Image's dimensions are either too small or too large"

/-- Draws detections into a frame. They are mapped to the frame itself,
not to the place where it is displayed. -/
def compose (renderer : Overlay.Renderer) (stream : String) (frame : Frame)
    (detections : List Detection) : Except Failure Canvas :=
  match Geometry.nativeViewport? frame.width frame.height with
  | none => .error (.notReady stream)
  | some viewport =>
      match frame.toCanvas? with
      | none => .error (.badFrame frame.width frame.height)
      | some surface => .ok (Overlay.draw renderer surface viewport detections)

/-- The longest side of a picture in a file of a kind, if there is a
limit. -/
def Format.longestSide? : Format → Option Nat
  | .jpeg => some 65535
  | .png => none

/-- Whether a picture fits into a file of a kind. -/
def Format.holds (format : Format) (picture : Canvas) : Bool :=
  match format.longestSide? with
  | none => true
  | some side => picture.width ≤ side && picture.height ≤ side

/-- A picture, and the name of the file that it goes into. -/
structure Shot where
  fileName : String
  format : Format
  picture : Canvas

/-- Takes the newest frame of a stream's element with the detections
drawn in. There is none until a frame has been decoded. -/
def capture (renderer : Overlay.Renderer) (stream : String) (element : Element)
    (detections : List Detection) (format : Format) (instant : Int) : Except Failure Shot :=
  match element.frame with
  | none => .error (.notReady stream)
  | some frame => do
      let picture ← compose renderer stream frame detections
      if format.holds picture then pure ⟨fileName stream instant format, format, picture⟩
      else throw .tooLarge

/-- Writes the file of a snapshot below a directory, which is made if it
is not there: the path of the file. -/
def save (d : Disk) (directory fileName : String) (bytes : List UInt8) :
    Disk × Except Report String :=
  let path := Files.below directory fileName
  let failed (doing : String) (f : Disk.Fault) : Except Report String :=
    .error ((Report.plain f.message).within doing)
  match d.makeParent path with
  | (d, .error f) =>
      (d, failed ("failed creating directory " ++ (Files.parent? path).getD "") f)
  | (d, .ok ()) =>
      match d.write path bytes with
      | .error f => (d, failed ("failed writing snapshot " ++ path) f)
      | .ok d => (d, .ok path)

end VideoWall.Snapshot
