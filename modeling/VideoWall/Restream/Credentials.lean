/-
Restream addresses carry credentials; a restream session gets them
apart from its address. They are percent-encoded in the address, and an
escape that is none stays as it is written.
-/
import VideoWall.Text.Hex
import VideoWall.Text.Utf8
import VideoWall.Url.Edit

namespace VideoWall.Restream

open Text

-- ============================================================== escapes

/-- The byte that two bytes behind a `%` stand for. The sign that a number
may begin with is no digit. -/
def escaped? (a b : UInt8) : Option UInt8 := do
  let digits ← Utf8.decode? [a, b]
  let value ← Hex.readByte? digits
  if (Hex.digit? (Char.ofNat a.toNat)).isSome then some value else none

/-- The bytes that escaped bytes say. -/
def unescapeBytes : List UInt8 → List UInt8
  | [] => []
  | 0x25 :: a :: b :: rest =>
      match escaped? a b with
      | some value => value :: unescapeBytes rest
      | none => 0x25 :: unescapeBytes (a :: b :: rest)
  | byte :: rest => byte :: unescapeBytes rest

/-- The text that an escaped text says, with U+FFFD for bytes that are not
UTF-8. -/
def unescape (raw : List Char) : String :=
  String.ofList (Utf8.decodeLossy (unescapeBytes (Utf8.encode raw)))

-- ========================================================== credentials

/-- A user name and a password, in plain text. -/
structure Credentials where
  username : String
  password : String
  deriving DecidableEq, Repr

/-- What is said of an address that cannot do without its credentials. -/
def cannotStrip (u : Url) : String := "cannot strip credentials from " ++ u.toText

/-- Takes the credentials out of an address. Without a user name there
are none. -/
def takeCredentials (u : Url) : Except String (Url × Option Credentials) :=
  if u.username = [] then .ok (u, none)
  else if u.takesCredentials then
    .ok (u.withoutCredentials, some ⟨unescape u.username, unescape u.password⟩)
  else .error (cannotStrip u)

/-- What is said when a restream session cannot be opened. -/
def describeFailed : String := "RTSP DESCRIBE failed"

end VideoWall.Restream
