/-
Directories and files by their places, and what becomes of them when a
directory is made or a file is written.

A path is followed name by name, and every place on the way has to be a
directory. The name `..` leads to the directory above. What the system
refuses for reasons of its own, such as rights or the length of a name,
belongs to the disk.
-/
import VideoWall.Files.Basic

namespace VideoWall

namespace Disk

/-- The names that lead from the root to a place. -/
abbrev Place := List String

/-- What stands at a place. -/
inductive Node where
  | directory
  | file (bytes : List UInt8)
  deriving DecidableEq, Repr

/-- Why a directory cannot be made or a file not be written. -/
inductive Fault where
  | missing
  | notDirectory
  | taken
  | isDirectory
  | refused (reason : String)
  deriving DecidableEq, Repr

/-- What is said of a fault. -/
def Fault.message : Fault → String
  | .missing => "No such file or directory (os error 2)"
  | .notDirectory => "Not a directory (os error 20)"
  | .taken => "File exists (os error 17)"
  | .isDirectory => "Is a directory (os error 21)"
  | .refused reason => reason

end Disk

/-- What stands where, the directory that the program runs in, and what
the system refuses to have made or written. -/
structure Disk where
  node? : Disk.Place → Option Disk.Node
  here : Disk.Place := []
  refusal? : Disk.Place → Option String := fun _ => none

namespace Disk

-- =============================================================== paths

/-- The names of a path. Empty ones and single dots lead nowhere. -/
def namesOf (path : String) : List String :=
  ((Text.splitOn '/' path.toList).filter fun name => name ≠ [] && name ≠ ['.']).map String.ofList

/-- The place that a name leads to. -/
def step (place : Place) (name : String) : Place :=
  if name = ".." then place.dropLast else place ++ [name]

variable (d : Disk)

/-- Where a path starts: at the root if a slash comes first. -/
def startOf (path : String) : Place := if path.toList.head? = some '/' then [] else d.here

/-- The place that a path leads to, whether something is there or not. -/
def placeOf (path : String) : Place := (namesOf path).foldl step (d.startOf path)

/-- Looks for a directory at a place. -/
def enter (place : Place) : Except Fault Place :=
  match d.node? place with
  | none => .error .missing
  | some (.file _) => .error .notDirectory
  | some .directory => .ok place

/-- Follows names from one directory to the next. -/
def follow (place : Place) : List String → Except Fault Place
  | [] => d.enter place
  | name :: rest =>
      match d.enter place with
      | .error f => .error f
      | .ok place => follow (step place name) rest

/-- Whether names lead from a place to a directory. -/
def leadsToDirectory (start : Place) (names : List String) : Bool := (d.follow start names).isOk

/-- Finds what stands where a path leads. -/
def find (path : String) : Except Fault Node :=
  match d.follow (d.startOf path) (namesOf path).dropLast with
  | .error f => .error f
  | .ok _ =>
      match d.node? (d.placeOf path) with
      | none => .error .missing
      | some n => .ok n

-- ============================================================= changes

/-- The disk with something at a place. -/
def put (place : Place) (n : Node) : Disk :=
  { d with node? := fun other => if other = place then some n else d.node? other }

/-- Makes a directory with a name below the one that other names lead to,
the last of them first. -/
def makeDirectory (start : Place) (name : String) (up : List String) : Except Fault Disk :=
  match d.follow start up.reverse with
  | .error f => .error f
  | .ok above =>
      let place := above ++ [name]
      if name = ".." ∨ (d.node? place).isSome then .error .taken
      else
        match d.refusal? place with
        | some reason => .error (.refused reason)
        | none => .ok (d.put place .directory)

/-- Makes a directory and those that are missing on the way to it. The
names that lead to it come with the last one first. -/
def makeAll (start : Place) : List String → Disk × Except Fault Unit
  | [] => (d, .ok ())
  | name :: up =>
      let settled (d : Disk) (f : Fault) : Except Fault Unit :=
        if d.leadsToDirectory start (name :: up).reverse then .ok () else .error f
      match d.makeDirectory start name up with
      | .ok d => (d, .ok ())
      | .error .missing =>
          match makeAll start up with
          | (d, .error f) => (d, .error f)
          | (d, .ok ()) =>
              match d.makeDirectory start name up with
              | .ok d => (d, .ok ())
              | .error f => (d, settled d f)
      | .error f => (d, settled d f)

/-- Makes the directory that a path is in. -/
def makeParent (path : String) : Disk × Except Fault Unit :=
  match Files.parent? path with
  | none => (d, .ok ())
  | some directory => d.makeAll (d.startOf directory) (namesOf directory).reverse

/-- Writes a file, which may be there already. -/
def write (path : String) (bytes : List UInt8) : Except Fault Disk :=
  match (namesOf path).reverse with
  | [] => .error .isDirectory
  | name :: up =>
      match d.follow (d.startOf path) up.reverse with
      | .error f => .error f
      | .ok above =>
          let place := above ++ [name]
          if name = ".." ∨ d.node? place = some .directory then .error .isDirectory
          else
            match d.refusal? place with
            | some reason => .error (.refused reason)
            | none => .ok (d.put place (.file bytes))

end Disk

end VideoWall
