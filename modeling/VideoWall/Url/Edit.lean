/-
Changes to an address: segments added to its path by name, a pair added
to its query, and its credentials taken out.
-/
import VideoWall.Url.Parser

namespace VideoWall.Url

/-- Removes the empty segment that a slash at the end of the path means,
but for the one of the root. -/
def popEmptySegment (u : Url) : Url :=
  match u.path with
  | .opaqueText _ => u
  | .segments parts =>
      if parts.length ≥ 2 ∧ parts.getLast? = some [] then { u with path := .segments parts.dropLast }
      else u

/-- Adds a written segment to the path of an address. -/
def pushOf (scheme : List Char) (path : List (List Char)) (s : List Char) : List (List Char) :=
  if isFileScheme scheme then pushFileSegment path s false else pushSegment path s false

/-- Adds one segment by its name. The names of dot segments are passed
over, and tabs and line breaks do not count. The first segment takes the
place of the root's empty one. -/
def addSegment (scheme : List Char) (parts : List (List Char)) (name : List Char) :
    List (List Char) :=
  if name = ['.'] ∨ name = ['.', '.'] then parts
  else
    let front := if parts = [[]] then [] else parts
    let kept := name.filter fun c => c ≠ '\t' && c ≠ '\n' && c ≠ '\r'
    pushOf scheme front (encode (segmentSet (isSpecialScheme scheme)) kept)

/-- Adds segments by their names, in order. -/
def addSegments (u : Url) (names : List (List Char)) : Url :=
  match u.path with
  | .opaqueText _ => u
  | .segments parts => { u with path := .segments (names.foldl (addSegment u.scheme) parts) }

/-- Makes the path end in a slash. -/
def withTrailingSlash (u : Url) : Url :=
  match u.path with
  | .opaqueText _ => u
  | .segments parts =>
      if parts.getLast? = some [] then u else { u with path := .segments (parts ++ [[]]) }

/-- Adds a pair to the query. Both are plain: letters, digits, `-` and
`_` stand for themselves there. -/
def addPair (u : Url) (key value : List Char) : Url :=
  let pair := key ++ '=' :: value
  match u.query with
  | none | some [] => { u with query := some pair }
  | some q => { u with query := some (q ++ '&' :: pair) }

/-- Whether an address can have a user name and a password: they stand
before a host, and the host of a file has none. -/
def takesCredentials (u : Url) : Bool :=
  u.host.any (fun host => host ≠ .domain []) && !isFileScheme u.scheme

/-- The address without user name and password. -/
def withoutCredentials (u : Url) : Url := { u with username := [], password := [] }

end VideoWall.Url
