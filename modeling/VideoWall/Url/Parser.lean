/-
Reading addresses, alone or relative to another one.

Tabs and line breaks do not count anywhere, nor do spaces and control
characters at the ends. A special scheme takes backslashes for slashes
and any number of slashes before its host. Dot segments are resolved
while the path is read, also when they are written as escapes.
-/
import VideoWall.Url.Basic

namespace VideoWall.Url

-- ======================================================== preparation

/-- Removes control characters and spaces from both ends, and tabs and
line breaks everywhere. -/
def clean (s : List Char) : List Char :=
  let low (c : Char) : Bool := c.toNat ≤ 0x20
  (Text.dropEndWhile low (s.dropWhile low)).filter fun c => c ≠ '\t' && c ≠ '\n' && c ≠ '\r'

/-- A scheme, lower-cased, and what follows its colon. -/
def splitScheme? : List Char → Option (List Char × List Char)
  | [] => none
  | c :: rest =>
      if c.isAlpha then (go rest).map fun (s, r) => (c.toLower :: s, r) else none
where
  go : List Char → Option (List Char × List Char)
    | [] => none
    | ':' :: rest => some ([], rest)
    | c :: rest =>
        if c.isAlphanum || c = '+' || c = '-' || c = '.' then
          (go rest).map fun (s, r) => (c.toLower :: s, r)
        else none

/-- Whether a character ends the authority. -/
def endsAuthority (special : Bool) (c : Char) : Bool :=
  c = '/' || c = '?' || c = '#' || (special && c = '\\')

-- ========================================================== authority

/-- Cuts before the last `@` of the authority: what stands before it, if
there is one, and what stands after it. -/
def splitUserinfo (special : Bool) (s : List Char) : Option (List Char) × List Char :=
  let authority := s.takeWhile (!endsAuthority special ·)
  let rest := s.dropWhile (!endsAuthority special ·)
  match Text.splitOnce? '@' authority.reverse with
  | none => (none, s)
  | some (host, info) => (some info.reverse, host.reverse ++ rest)

/-- User name and password, encoded. Everything after the first colon
belongs to the password. -/
def userinfo (info : List Char) : List Char × List Char :=
  match Text.splitOnce? ':' info with
  | none => (encode userinfoSet info, [])
  | some (name, password) => (encode userinfoSet name, encode userinfoSet password)

/-- Cuts a text after its host: a colon outside of brackets ends it. -/
def splitHost (special : Bool) : (inBrackets : Bool) → List Char → List Char × List Char
  | _, [] => ([], [])
  | inBrackets, c :: rest =>
      if endsAuthority special c || (c = ':' && !inBrackets) then ([], c :: rest)
      else
        let inBrackets := if c = '[' then true else if c = ']' then false else inBrackets
        let (host, after) := splitHost special inBrackets rest
        (c :: host, after)

/-- Reads a port up to where the path begins. -/
def readPort : (acc : Option Nat) → List Char → Except ParseError (Option Nat × List Char)
  | acc, [] => .ok (acc, [])
  | acc, c :: rest =>
      match Numeral.digit? c with
      | some d =>
          let n := acc.getD 0 * 10 + d
          if n > 65535 then .error .invalidPort else readPort (some n) rest
      | none =>
          if c = '/' ∨ c = '\\' ∨ c = '?' ∨ c = '#' then .ok (acc, c :: rest)
          else .error .invalidPort

/-- The port after a host, without the default one, and the rest. -/
def portAfter (scheme : List Char) : List Char → Except ParseError (Option Nat × List Char)
  | ':' :: rest => do
      let (port, rest) ← readPort none rest
      pure (if port = defaultPort? scheme then none else port, rest)
  | rest => .ok (none, rest)

/-- The host of a scheme that is not `file`, with its port. -/
def hostAndPort (scheme s : List Char) : Except ParseError (Host × Option Nat × List Char) := do
  let special := isSpecialScheme scheme
  let (text, rest) := splitHost special false s
  if special && text = [] then throw .emptyHost
  let host ← if special then webHost text else opaqueHost text
  if host = .domain [] ∧ rest.head? = some ':' then throw .emptyHost
  let (port, rest) ← portAfter scheme rest
  pure (host, port, rest)

-- =============================================================== paths

/-- Cuts a path into segments, each with whether a slash ends it. -/
def splitSegments (isSlash : Char → Bool) : List Char → List (List Char × Bool)
  | [] => [([], false)]
  | c :: rest =>
      if isSlash c then ([], true) :: splitSegments isSlash rest
      else
        match splitSegments isSlash rest with
        | [] => [([c], false)]
        | (piece, ended) :: more => (c :: piece, ended) :: more

/-- Whether a written segment means the same directory. -/
def isSingleDot (s : List Char) : Bool :=
  s = ['.'] || s.map Char.toLower = "%2e".toList

/-- Whether a written segment means the directory above. -/
def isDoubleDot (s : List Char) : Bool :=
  let s := s.map Char.toLower
  s = "..".toList || s = ".%2e".toList || s = "%2e.".toList || s = "%2e%2e".toList

/-- Adds a written segment to a path. A dot segment that ends the path
leaves an empty segment behind. -/
def pushSegment (path : List (List Char)) (s : List Char) (ended : Bool) : List (List Char) :=
  if isDoubleDot s then
    if ended then path.dropLast else path.dropLast ++ [[]]
  else if isSingleDot s then
    if ended then path else path ++ [[]]
  else path ++ [s]

/-- Whether a written segment is a drive letter: a letter, and a colon or a
bar behind it. -/
def isDrive : List Char → Bool
  | [c, d] => c.isAlpha && (d = ':' || d = '|')
  | _ => false

/-- Adds a written segment to the path of a file. A drive letter that begins
the path is written with its colon, and no dots take one away. -/
def pushFileSegment (path : List (List Char)) (s : List Char) (ended : Bool) :
    List (List Char) :=
  if path = [] ∧ isDrive s = true then [s.take 1 ++ [':']]
  else if isDoubleDot s = true ∧ path.getLast?.any isDrive = true then
    if ended then path else path ++ [[]]
  else pushSegment path s ended

/-- Adds the segments of a relative path to a path. -/
def resolvePath (set : EncodeSet) (isSlash : Char → Bool) (path : List (List Char))
    (s : List Char) : List (List Char) :=
  (splitSegments isSlash s).foldl (fun path (piece, ended) =>
    pushSegment path (encode set piece) ended) path

/-- Whether a character separates segments. -/
def isSlash (special : Bool) (c : Char) : Bool := c = '/' || (special && c = '\\')

/-- Cuts off the query and the fragment. -/
def splitTail (special : Bool) (s : List Char) :
    List Char × Option (List Char) × Option (List Char) :=
  let path := s.takeWhile fun c => c ≠ '?' && c ≠ '#'
  let rest := s.dropWhile fun c => c ≠ '?' && c ≠ '#'
  match rest with
  | '?' :: rest =>
      match Text.splitOnce? '#' rest with
      | none => (path, some (encode (querySet special) rest), none)
      | some (q, f) => (path, some (encode (querySet special) q), some (encode fragmentSet f))
  | '#' :: f => (path, none, some (encode fragmentSet f))
  | _ => (path, none, none)

/-- The path that follows a host. A special address always has one. -/
def pathAfterHost (special : Bool) (s : List Char) : List (List Char) :=
  match s with
  | [] => if special then [[]] else []
  | c :: rest =>
      resolvePath pathSet (isSlash special) [] (if isSlash special c then rest else s)

/-- The path that follows the host of a file, as it is read. -/
def fileSegments (s : List Char) : List (List Char) :=
  let s := if s.head?.any (isSlash true) then s.drop 1 else s
  (splitSegments (isSlash true) s).foldl (fun path (piece, ended) =>
    pushFileSegment path (encode pathSet piece) ended) []

/-- The path of a file without empty segments in front. -/
def dropEmptyFront (path : List (List Char)) : List (List Char) :=
  match path.dropWhile (· = []) with
  | [] => [[]]
  | kept => kept

-- ============================================================= parsing

/-- The address after `//`: an authority, a path, and what follows. -/
def afterSlashes (scheme s : List Char) : Except ParseError Url := do
  let special := isSpecialScheme scheme
  let (info, rest) := splitUserinfo special s
  if info = some [] ∧ rest.head?.any (endsAuthority special) then throw .emptyHost
  let (username, password) := userinfo (info.getD [])
  let (host, port, rest) ← hostAndPort scheme rest
  if host = .domain [] ∧ (username ≠ [] ∨ password ≠ []) then throw .emptyHost
  let (path, query, fragment) := splitTail special rest
  pure
    { scheme, username, password, host := some host, port,
      path := .segments (pathAfterHost special path), query, fragment }

/-- The host and the path of a file address. Two slashes begin a host, which
`localhost` and a drive letter do not count as, and no host stands before a
path that begins with a drive letter. -/
def fileHostAndPath (s : List Char) : Except ParseError (Option Host × List (List Char)) := do
  let slash := isSlash true
  match s with
  | a :: b :: rest =>
      let text := rest.takeWhile (!slash ·)
      if !(slash a && slash b) then pure (none, fileSegments s)
      else if isDrive text then pure (none, fileSegments rest)
      else
        let host ← if text = [] then pure (Host.domain []) else webHost text
        let path := fileSegments (rest.dropWhile (!slash ·))
        if host = .domain "localhost".toList ∨ host = .domain [] ∨ path.head?.any isDrive then
          pure (none, path)
        else pure (some host, path)
  | _ => pure (none, fileSegments s)

/-- A `file` address after its colon. -/
def fileAddress (s : List Char) : Except ParseError Url := do
  let (before, query, fragment) := splitTail true s
  let (host, path) ← fileHostAndPath before
  pure
    { scheme := "file".toList, host, path := .segments (dropEmptyFront path), query, fragment }

/-- An address after its scheme, of a scheme that is not special. -/
def plainAddress (scheme s : List Char) : Except ParseError Url :=
  match s with
  | '/' :: '/' :: rest => afterSlashes scheme rest
  | '/' :: _ =>
      let (path, query, fragment) := splitTail false s
      .ok { scheme, path := .segments (pathAfterHost false path), query, fragment }
  | _ =>
      let (path, query, fragment) := splitTail false s
      .ok { scheme, path := .opaqueText (encode controls path), query, fragment }

/-- A reference relative to `base`, which has segments. -/
def relativeTo (base : Url) (s : List Char) : Except ParseError Url := do
  let special := base.isSpecial
  let slash := isSlash special
  match s with
  | [] => pure { base with fragment := none }
  | c :: rest =>
      let (path, query, fragment) := splitTail special s
      if c = '?' then pure { base with query, fragment }
      else if c = '#' then pure { base with fragment }
      else if slash c then
        match rest with
        | d :: _ =>
            if slash d then
              afterSlashes base.scheme (if special then s.dropWhile slash else s.drop 2)
            else
              pure { base with path := .segments (pathAfterHost special path), query, fragment }
        | [] => pure { base with path := .segments (pathAfterHost special path), query, fragment }
      else
        let directory := base.segments.dropLast
        pure
          { base with
            path := .segments (resolvePath pathSet slash directory path), query, fragment }

/-- An address with its scheme cut off. -/
def withScheme (base : Option Url) (scheme rest : List Char) : Except ParseError Url :=
  if isFileScheme scheme then fileAddress rest
  else if isSpecialScheme scheme then
    let slashes := (rest.takeWhile (isSlash true)).length
    match base with
    | some b =>
        if slashes < 2 ∧ b.scheme = scheme then relativeTo b rest
        else afterSlashes scheme (rest.dropWhile (isSlash true))
    | none => afterSlashes scheme (rest.dropWhile (isSlash true))
  else plainAddress scheme rest

/-- Reads an address, relative to `base` if there is one. -/
def parseFrom (base : Option Url) (s : List Char) : Except ParseError Url :=
  let s := clean s
  match splitScheme? s with
  | some (scheme, rest) => withScheme base scheme rest
  | none =>
      match base with
      | none => .error .relativeWithoutBase
      | some b =>
          if s.head? = some '#' then
            .ok { b with fragment := some (encode fragmentSet (s.drop 1)) }
          else if b.isOpaque then .error .relativeWithOpaqueBase
          else relativeTo b s

/-- Reads an address that is not relative. -/
def parse (s : List Char) : Except ParseError Url := parseFrom none s

/-- Reads an address relative to another one. -/
def join (base : Url) (s : List Char) : Except ParseError Url := parseFrom (some base) s

end VideoWall.Url
