/-
The JSON documents that the program keeps: its configuration, the theme
and what it remembers of the view it was left in. A document that is not there yet has
default contents; some are written then, so that the user finds them to
edit. On a disk a document is kept as its bytes, and saving one replaces
whatever was there.
-/
import VideoWall.Config.Basic
import VideoWall.Files.Disk
import VideoWall.Report
import VideoWall.Theme
import VideoWall.Wall.View

namespace VideoWall.Files

/-- A kind of document: how it is read and written, and what is said
when that fails. -/
structure Document (α : Type) where
  initial : α
  parse : List Char → Except Json.Error α
  render : α → String
  unreadable : String
  malformed : String
  unwritable : String

namespace Document

variable {α : Type}

/-- The contents of a document whose text was found at a path. -/
def contents (d : Document α) (path : String) (text : List Char) : Except Report α :=
  (d.parse text).mapError fun e =>
    (Report.ofJson text e).within (d.malformed ++ " at " ++ path)

/-- The contents of a document at a path, or the default ones. -/
def load (d : Document α) (path : String) (f : Files) : Except Report α :=
  match f.read path with
  | .error fault => .error ((Report.plain fault.message).within (d.unreadable ++ " at " ++ path))
  | .ok none => .ok d.initial
  | .ok (some text) => d.contents path text.toList

/-- Writes the default contents if there is no document at a path. -/
def create (d : Document α) (path : String) (f : Files) : Except Report Files :=
  match f.read path with
  | .ok none => do
      match parent? path with
      | none => pure ()
      | some directory =>
          (f.makeDirectory directory).mapError fun fault =>
            (Report.plain fault.message).within ("failed creating directory " ++ directory)
      pure (f.write path (d.render d.initial))
  | _ => .ok f

/-- Loads a document, which is there afterwards. -/
def loadOrCreate (d : Document α) (path : String) (f : Files) : Except Report (α × Files) := do
  let f ← d.create path f
  pure (← d.load path f, f)

-- ============================================================= on disks

/-- Saves a document at a path, in a directory that is made if it is not
there. -/
def saveTo (d : Document α) (disk : Disk) (path : String) (a : α) : Disk × Except Report Unit :=
  let failed (doing : String) (f : Disk.Fault) : Except Report Unit :=
    .error ((Report.plain f.message).within doing)
  match disk.makeParent path with
  | (disk, .error f) =>
      (disk, failed ("failed creating directory " ++ (parent? path).getD "") f)
  | (disk, .ok ()) =>
      match disk.write path (Text.Utf8.encode (d.render a).toList) with
      | .error f => (disk, failed (d.unwritable ++ " at " ++ path) f)
      | .ok disk => (disk, .ok ())

/-- The contents of a document at a path of a disk, or the default ones if
nothing is found there. -/
def loadFrom (d : Document α) (disk : Disk) (path : String) : Except Report α :=
  let failed (message : String) : Except Report α :=
    .error ((Report.plain message).within (d.unreadable ++ " at " ++ path))
  match disk.find path with
  | .error _ => .ok d.initial
  | .ok .directory => failed Disk.Fault.isDirectory.message
  | .ok (.file bytes) =>
      match Text.Utf8.decode? bytes with
      | none => failed "stream did not contain valid UTF-8"
      | some text => d.contents path text

end Document

/-- The configuration file. -/
def configuration : Document Config where
  initial := {}
  parse := Config.parse
  render := Config.render
  unreadable := "failed reading config"
  malformed := "failed parsing config"
  unwritable := "failed writing config"

/-- The theme file. -/
def theme : Document Theme where
  initial := {}
  parse := Theme.parse
  render := Theme.render
  unreadable := "failed reading theme"
  malformed := "invalid theme"
  unwritable := "failed writing theme"

/-- The file with the view that was left. -/
def preferences : Document Wall.Preferences where
  initial := {}
  parse := Wall.Preferences.parse
  render := Wall.Preferences.render
  unreadable := "failed reading UI preferences"
  malformed := "failed parsing UI preferences"
  unwritable := "failed writing UI preferences"

end VideoWall.Files
