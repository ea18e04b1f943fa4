/-
Requests and answers as the bytes that go over a connection. Every
request has a connection of its own, which the recorder closes after the
answer. The body of an answer is as long as its head says, or comes in
chunks, or ends where the connection does.
-/
import VideoWall.Recorder.Dialogue
import VideoWall.Text.Blank
import VideoWall.Text.Hex

namespace VideoWall.Recorder.Wire

-- ========================================================== requests

/-- A line of the head of a request. -/
def headLine (s : String) : String := s ++ "\x0d\n"

/-- A header, as a line. -/
def header (name value : String) : String := headLine (name ++ ": " ++ value)

/-- The host of an address, and its port if it is not the usual one. -/
def hostText (u : Url) : String :=
  String.ofList ((u.host.map Url.Host.render).getD [])
    ++ ((u.port.map fun n => ":" ++ toString n).getD "")

/-- The headers of a request with a body. -/
def bodyHeaders (body : String) : String :=
  header "content-type" "application/json" ++ header "content-length" (toString body.utf8ByteSize)

/-- A request as it is sent. -/
def requestText (r : Request) : String :=
  headLine (r.line ++ " HTTP/1.1") ++ header "host" (hostText r.url) ++ header "accept" "*/*"
    ++ header "connection" "close" ++ ((r.login.map fun l => header "authorization" l.header).getD "")
    ++ ((r.body.map bodyHeaders).getD "") ++ headLine "" ++ r.body.getD ""

-- =========================================================== answers

/-- Cuts at the first empty line, which belongs to neither part. -/
def cutHead? : List UInt8 → Option (List UInt8 × List UInt8)
  | 13 :: 10 :: 13 :: 10 :: rest => some ([], rest)
  | [] => none
  | b :: rest => (cutHead? rest).map fun (head, body) => (b :: head, body)

/-- Cuts at the first end of a line. -/
def cutLine? : List UInt8 → Option (List UInt8 × List UInt8)
  | 13 :: 10 :: rest => some ([], rest)
  | [] => none
  | b :: rest => (cutLine? rest).map fun (line, rest) => (b :: line, rest)

/-- The text of some bytes of a head, each of them a character. -/
def headChars (l : List UInt8) : List Char := l.map fun b => Char.ofNat b.toNat

/-- The head of an answer: its status, and its headers by their names in
small letters. -/
structure Head where
  status : Nat
  headers : List (String × String)

/-- The header in a line, its name in lower case. -/
def header? (line : List Char) : Option (String × String) :=
  (Text.splitOnce? ':' line).map fun (name, value) =>
    (String.ofList (name.map Char.toLower), String.ofList (Text.trim value))

/-- The head of an answer, if its first line has a status. -/
def Head.read? (bytes : List UInt8) : Option Head :=
  match Text.lines (headChars bytes) with
  | [] => none
  | first :: rest => do
      let status ← (Text.splitOn ' ' first)[1]?
      pure ⟨← (String.ofList status).toNat?, rest.filterMap header?⟩

/-- Puts the chunks of a body together, up to the empty one; `fuel`
bounds their number. -/
def chunks? : (fuel : Nat) → List UInt8 → Option (List UInt8)
  | 0, _ => none
  | fuel + 1, bytes => do
      let (line, rest) ← cutLine? bytes
      let size ← Text.Hex.toNat? ((headChars line).takeWhile (· ≠ ';'))
      if size = 0 then pure []
      else if rest.length < size + 2 then none
      else pure (rest.take size ++ (← chunks? fuel (rest.drop (size + 2))))

/-- The body of an answer, if all of it is there. `closed` says that
nothing more will come. -/
def body? (head : Head) (closed : Bool) (bytes : List UInt8) : Option (List UInt8) :=
  if head.headers.lookup "transfer-encoding" == some "chunked" then chunks? (bytes.length + 1) bytes
  else
    match (head.headers.lookup "content-length").bind String.toNat? with
    | some size => if size ≤ bytes.length then some (bytes.take size) else none
    | none => if closed then some bytes else none

/-- The answer in some bytes, if all of it is there. -/
def answer? (closed : Bool) (bytes : List UInt8) : Option Answer := do
  let (head, rest) ← cutHead? bytes
  let head ← Head.read? head
  if head.status = 204 ∨ head.status = 304 then pure (.reply head.status [])
  else pure (.reply head.status (← body? head closed rest))

end VideoWall.Recorder.Wire
