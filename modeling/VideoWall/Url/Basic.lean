/-
Addresses as structure, and their text.

Every part is held the way it is written, escapes included. The path is
a list of segments, or one piece of text for addresses such as
`mailto:` ones, which have no segments and cannot be a base. A special
scheme is one whose addresses always have a host and a path.
-/
import VideoWall.Url.Host

namespace VideoWall

namespace Url

/-- The path of an address. -/
inductive Path where
  | opaqueText (text : List Char)
  | segments (parts : List (List Char))
  deriving DecidableEq, Repr, Inhabited

end Url

/-- An address. -/
structure Url where
  scheme : List Char
  username : List Char := []
  password : List Char := []
  host : Option Url.Host := none
  port : Option Nat := none
  path : Url.Path := .segments []
  query : Option (List Char) := none
  fragment : Option (List Char) := none
  deriving DecidableEq, Repr, Inhabited

namespace Url

/-- The default port of a special scheme; a scheme without one is not
special, but for `file`. -/
def defaultPort? (scheme : List Char) : Option Nat :=
  let s := String.ofList scheme
  if s = "http" ∨ s = "ws" then some 80
  else if s = "https" ∨ s = "wss" then some 443
  else if s = "ftp" then some 21
  else none

/-- Whether a scheme is that of files. -/
def isFileScheme (scheme : List Char) : Bool := scheme = "file".toList

/-- Whether a scheme is special. -/
def isSpecialScheme (scheme : List Char) : Bool :=
  (defaultPort? scheme).isSome || isFileScheme scheme

variable (u : Url)

/-- Whether an address is of a special scheme. -/
def isSpecial : Bool := isSpecialScheme u.scheme

/-- Whether nothing can be relative to the address. -/
def isOpaque : Bool :=
  match u.path with
  | .opaqueText _ => true
  | .segments _ => false

/-- The segments of the path, none if it has no segments. -/
def segments : List (List Char) :=
  match u.path with
  | .opaqueText _ => []
  | .segments parts => parts

/-- The user name and password before the host. -/
def renderUserinfo : List Char :=
  if u.username = [] ∧ u.password = [] then []
  else
    u.username ++ (if u.password = [] then [] else ':' :: u.password) ++ ['@']

/-- The host with what stands around it. -/
def renderAuthority : List Char :=
  match u.host with
  | none =>
      if isFileScheme u.scheme then ['/', '/']
      else
        match u.path with
        | .segments ([] :: _ :: _) => ['/', '.']
        | _ => []
  | some host =>
      '/' :: '/' :: (u.renderUserinfo ++ host.render
        ++ match u.port with
           | none => []
           | some n => ':' :: Nat.toDigits 10 n)

/-- The path, with a slash in front of each segment. -/
def renderPath : List Char :=
  match u.path with
  | .opaqueText text => text
  | .segments parts => parts.flatMap ('/' :: ·)

/-- The query, with its mark. -/
def renderQuery : List Char :=
  match u.query with
  | none => []
  | some q => '?' :: q

/-- The fragment, with its mark. -/
def renderFragment : List Char :=
  match u.fragment with
  | none => []
  | some f => '#' :: f

/-- The text of an address. -/
def render : List Char :=
  u.scheme ++ ':' :: (u.renderAuthority ++ u.renderPath ++ u.renderQuery ++ u.renderFragment)

/-- The text of an address, as a string. -/
def toText : String := String.ofList u.render

/-- The path and the query, as a request line has them. -/
def target : String := String.ofList (u.renderPath ++ u.renderQuery)

end Url

end VideoWall
