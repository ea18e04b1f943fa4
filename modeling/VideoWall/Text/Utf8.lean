/-
UTF-8: the bytes of a text, and the two ways back. `decode?` refuses
ill-formed bytes; `decodeLossy` puts one replacement character for each
longest stretch that begins like a character and cannot become one.
-/
namespace VideoWall.Text.Utf8

/-- The bytes of one character, one to four of them. -/
def encodeChar (c : Char) : List UInt8 :=
  let n := c.toNat
  if n < 0x80 then [n.toUInt8]
  else if n < 0x800 then
    [(0xC0 + n / 64).toUInt8, (0x80 + n % 64).toUInt8]
  else if n < 0x10000 then
    [(0xE0 + n / 4096).toUInt8, (0x80 + n / 64 % 64).toUInt8,
     (0x80 + n % 64).toUInt8]
  else
    [(0xF0 + n / 262144).toUInt8, (0x80 + n / 4096 % 64).toUInt8,
     (0x80 + n / 64 % 64).toUInt8, (0x80 + n % 64).toUInt8]

/-- The bytes of a text. -/
def encode (s : List Char) : List UInt8 := s.flatMap encodeChar

/-- How many bytes a text has. -/
def size (s : List Char) : Nat := (s.map Char.utf8Size).foldr (· + ·) 0

/-- What a leading byte promises: how many bytes follow, and the range
of the first of them. The narrow ranges keep out overlong forms,
surrogates and numbers past the last character. -/
def lead? (b : UInt8) : Option (Nat × UInt8 × UInt8) :=
  if 0xC2 ≤ b && b ≤ 0xDF then some (1, 0x80, 0xBF)
  else if b == 0xE0 then some (2, 0xA0, 0xBF)
  else if b == 0xED then some (2, 0x80, 0x9F)
  else if 0xE1 ≤ b && b ≤ 0xEF then some (2, 0x80, 0xBF)
  else if b == 0xF0 then some (3, 0x90, 0xBF)
  else if b == 0xF4 then some (3, 0x80, 0x8F)
  else if 0xF1 ≤ b && b ≤ 0xF3 then some (3, 0x80, 0xBF)
  else none

/-- Reads `n` more bytes of a character whose number so far is `acc`,
the first of them between `lo` and `hi`. Gives the character, or nothing
when a byte does not fit, and the bytes after those that did. -/
def continueChar : (n : Nat) → (lo hi : UInt8) → (acc : Nat) →
    List UInt8 → Option Char × List UInt8
  | 0, _, _, acc, rest => (some (Char.ofNat acc), rest)
  | _ + 1, _, _, _, [] => (none, [])
  | n + 1, lo, hi, acc, b :: rest =>
      if lo ≤ b && b ≤ hi then
        continueChar n 0x80 0xBF (acc * 64 + b.toNat % 64) rest
      else (none, b :: rest)

/-- The first character and the bytes after it. The character is missing
when the bytes at the front are ill-formed; then the rest begins after
the longest stretch of them that looked like one character. -/
def step (b : UInt8) (rest : List UInt8) : Option Char × List UInt8 :=
  if b < 0x80 then (some (Char.ofNat b.toNat), rest)
  else
    match lead? b with
    | none => (none, rest)
    | some (n, lo, hi) =>
        let mask := if n = 1 then 32 else if n = 2 then 16 else 8
        continueChar n lo hi (b.toNat % mask) rest

/-- Decoding with at most `fuel` characters. -/
def decodeWithin : (fuel : Nat) → List UInt8 → List (Option Char)
  | 0, _ => []
  | _, [] => []
  | fuel + 1, b :: rest =>
      let (c, rest) := step b rest
      c :: decodeWithin fuel rest

/-- The text of well-formed bytes. -/
def decode? (bytes : List UInt8) : Option (List Char) :=
  (decodeWithin bytes.length bytes).mapM id

/-- The text of any bytes, with U+FFFD for what is ill-formed. -/
def decodeLossy (bytes : List UInt8) : List Char :=
  (decodeWithin bytes.length bytes).map (·.getD '\uFFFD')

end VideoWall.Text.Utf8
