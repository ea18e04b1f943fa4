/-
Percent-encoding: which characters a part of an address cannot hold, how
they are written instead, and what an encoded text says.

Encoding writes the UTF-8 bytes of a character as `%` and two upper-case
digits. Decoding takes digits of either case and leaves every `%` that
two digits do not follow as it is.
-/
import VideoWall.Text.Utf8
import VideoWall.Text.Hex

namespace VideoWall.Url

/-- The characters that are written as escapes. -/
abbrev EncodeSet := Char → Bool

/-- Control characters and everything outside of ASCII. -/
def controls : EncodeSet := fun c => c.toNat < 0x20 || 0x7F ≤ c.toNat

/-- What a fragment cannot hold. -/
def fragmentSet : EncodeSet := fun c => controls c || " \"<>\x60".toList.contains c

/-- What a path cannot hold. -/
def pathSet : EncodeSet := fun c => fragmentSet c || "#?\x7b\x7d".toList.contains c

/-- What a user name or a password cannot hold. -/
def userinfoSet : EncodeSet := fun c => pathSet c || "/:;=@[\\]^|".toList.contains c

/-- What one segment of a path cannot hold when it is added by name. -/
def segmentSet (special : Bool) : EncodeSet := fun c =>
  pathSet c || c = '/' || c = '%' || (special && c = '\\')

/-- What a query cannot hold. -/
def querySet (special : Bool) : EncodeSet := fun c =>
  controls c || " \"#<>".toList.contains c || (special && c = '\'')

/-- A character as escapes, one for each of its bytes. -/
def escapeChar (c : Char) : List Char :=
  (Text.Utf8.encodeChar c).flatMap fun b => '%' :: Text.Hex.ofByteUpper b

/-- A character, escaped if it has to be. -/
def encodeChar (set : EncodeSet) (c : Char) : List Char :=
  if set c then escapeChar c else [c]

/-- A text with the characters of a set escaped. -/
def encode (set : EncodeSet) (s : List Char) : List Char := s.flatMap (encodeChar set)

/-- The bytes that an encoded text says. -/
def decodeBytes : List Char → List UInt8
  | [] => []
  | '%' :: a :: b :: rest =>
      match Text.Hex.digit? a, Text.Hex.digit? b with
      | some hi, some lo => (hi * 16 + lo).toUInt8 :: decodeBytes rest
      | _, _ => Text.Utf8.encodeChar '%' ++ decodeBytes (a :: b :: rest)
  | c :: rest => Text.Utf8.encodeChar c ++ decodeBytes rest

/-- The text that an encoded text says, with U+FFFD for bytes that are
not UTF-8. -/
def decode (s : List Char) : List Char := Text.Utf8.decodeLossy (decodeBytes s)

end VideoWall.Url
