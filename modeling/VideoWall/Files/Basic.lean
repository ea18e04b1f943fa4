/-
The files that the program keeps, by their paths. A directory is there
as soon as a file is in it; a file is no directory, so nothing can be
put below it.
-/
import VideoWall.ByName
import VideoWall.Text.Blank

namespace VideoWall

/-- Files with their texts, by path. -/
structure Files where
  texts : ByName String := ⟨[]⟩

namespace Files

/-- Why a file cannot be read or a directory not made. -/
inductive Fault where
  | isDirectory
  | isFile
  | belowFile
  deriving DecidableEq, Repr

/-- What is said of a fault. -/
def Fault.message : Fault → String
  | .isDirectory => "Is a directory (os error 21)"
  | .isFile => "File exists (os error 17)"
  | .belowFile => "Not a directory (os error 20)"

/-- Whether a path leads to something below a directory. -/
def isBelow (path directory : String) : Bool := (directory ++ "/").toList.isPrefixOf path.toList

/-- The text of a file, if there is one. -/
def read (f : Files) (path : String) : Except Fault (Option String) :=
  match f.texts.get? path with
  | some text => .ok (some text)
  | none =>
      if f.texts.names.any (isBelow · path) then .error .isDirectory else .ok none

/-- Makes a directory. It is there as soon as a file is below it, so nothing is
added, but another file may be in the way. -/
def makeDirectory (f : Files) (path : String) : Except Fault Unit :=
  if f.texts.has path then .error .isFile
  else if f.texts.names.any (isBelow path) then .error .belowFile
  else .ok ()

/-- Writes a text to a file. -/
def write (f : Files) (path text : String) : Files := ⟨f.texts.set path text⟩

/-- The directory that a path is in, if the path names one. -/
def parent? (path : String) : Option String :=
  let reversed := path.toList.reverse
  match reversed.dropWhile (· ≠ '/') with
  | [] => none
  | _ :: rest => if rest.isEmpty then none else some (String.ofList rest.reverse)

/-- A path with one more name. Nothing stands for the directory that the
program runs in. -/
def below (directory name : String) : String :=
  if directory.toList.getLast?.all (· = '/') then directory ++ name else directory ++ "/" ++ name

end Files

end VideoWall
