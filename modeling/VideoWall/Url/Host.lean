/-
Hosts: domain names, IPv4 and IPv6 addresses.

A host of an ordinary web scheme is decoded and lower-cased, and a name
whose last part is a number must be an IPv4 address, in any of the
spellings that have ever been allowed. Other schemes keep their hosts as
they are written. An IPv6 address stands in brackets.
-/
import VideoWall.Url.Percent
import VideoWall.Text.Blank
import VideoWall.Numeral.Decimal

namespace VideoWall.Url

/-- Why a text is not an address. -/
inductive ParseError where
  | emptyHost
  | idna
  | invalidPort
  | invalidIpv4
  | invalidIpv6
  | invalidDomainCharacter
  | relativeWithoutBase
  | relativeWithOpaqueBase
  deriving DecidableEq, Repr

/-- The words for each cause. -/
def ParseError.message : ParseError → String
  | .emptyHost => "empty host"
  | .idna => "invalid international domain name"
  | .invalidPort => "invalid port number"
  | .invalidIpv4 => "invalid IPv4 address"
  | .invalidIpv6 => "invalid IPv6 address"
  | .invalidDomainCharacter => "invalid domain character"
  | .relativeWithoutBase => "relative URL without a base"
  | .relativeWithOpaqueBase => "relative URL with a cannot-be-a-base base"

/-- A host, by name or by number. -/
inductive Host where
  | domain (name : List Char)
  | ipv4 (address : Nat)
  | ipv6 (pieces : List Nat)
  deriving DecidableEq, Repr, Inhabited

-- ============================================================== IPv4

/-- A number of an IPv4 address: hexadecimal after `0x`, octal after
`0`, decimal otherwise. `none` is not a number. -/
def ipv4Number? (s : List Char) : Option Nat :=
  let inBase (base : Nat) (digits : List Char) : Option Nat :=
    digits.foldl (fun acc c => do
      let n ← acc
      let d ← Text.Hex.digit? c
      if d < base then pure (n * base + d) else none) (some 0)
  match s with
  | [] => none
  | '0' :: 'x' :: rest => inBase 16 rest
  | '0' :: 'X' :: rest => inBase 16 rest
  | '0' :: c :: rest => inBase 8 (c :: rest)
  | s => inBase 10 s

/-- The parts of a name, without an empty one at the end. -/
def dotParts (s : List Char) : List (List Char) :=
  let parts := Text.splitOn '.' s
  if parts.getLast? = some [] then parts.dropLast else parts

/-- Whether the last part of a name is a number. -/
def endsInNumber (s : List Char) : Bool :=
  match (dotParts s).getLast? with
  | none => false
  | some last =>
      (last ≠ [] && last.all (fun c => (Numeral.digit? c).isSome)) || (ipv4Number? last).isSome

/-- The address of up to four numbers, of which the last fills the bytes
that are left. -/
def ipv4? (s : List Char) : Option Nat := do
  let parts := dotParts s
  if parts.length > 4 then none
  else
    let numbers ← parts.mapM ipv4Number?
    let last ← numbers.getLast?
    let front := numbers.dropLast
    if last ≥ Nat.pow 256 (4 - front.length) ∨ front.any (· > 255) then none
    else
      let weights := [16777216, 65536, 256]
      pure (last + (List.zipWith (· * ·) front weights).foldr (· + ·) 0)

/-- The four bytes of an address with dots between. -/
def renderIpv4 (n : Nat) : List Char :=
  let byte (k : Nat) : List Char := Nat.toDigits 10 (n / Nat.pow 256 k % 256)
  byte 3 ++ '.' :: byte 2 ++ '.' :: byte 1 ++ '.' :: byte 0

-- ============================================================== IPv6

/-- The dotted decimal part at the end of an IPv6 address, as two
pieces. -/
def dottedTail? (s : List Char) : Option (List Nat) := do
  let parts := Text.splitOn '.' s
  if parts.length ≠ 4 then none
  else
    let bytes ← parts.mapM fun p =>
      if p = [] ∨ (p.length > 1 ∧ p.head? = some '0') then none
      else
        match Numeral.digitsWithin 255 .tooLarge 0 p with
        | .ok n => some n
        | .error _ => none
    match bytes with
    | [a, b, c, d] => some [a * 256 + b, c * 256 + d]
    | _ => none

/-- Groups of up to four hexadecimal digits between colons; the last may
be dotted decimal. -/
def groups? : List (List Char) → Option (List Nat)
  | [] => some []
  | [last] =>
      if last.contains '.' then dottedTail? last
      else if last = [] ∨ last.length > 4 then none
      else (Text.Hex.toNat? last).map ([·])
  | g :: rest => do
      if g = [] ∨ g.length > 4 then none
      else
        let n ← Text.Hex.toNat? g
        pure (n :: (← groups? rest))

/-- Cuts at the first two colons in a row. -/
def cutDoubleColon? : List Char → Option (List Char × List Char)
  | [] => none
  | ':' :: ':' :: rest => some ([], rest)
  | c :: rest => (cutDoubleColon? rest).map fun (a, b) => (c :: a, b)

/-- The groups of a part that may be empty. -/
def groupsOf? (s : List Char) : Option (List Nat) :=
  if s = [] then some [] else groups? (Text.splitOn ':' s)

/-- The eight pieces of an IPv6 address; two colons stand for as many
noughts as are missing, at least one. -/
def ipv6? (s : List Char) : Option (List Nat) := do
  match cutDoubleColon? s with
  | none =>
      let pieces ← groups? (Text.splitOn ':' s)
      if pieces.length = 8 then some pieces else none
  | some (front, back) =>
      if front.contains '.' then none
      else
        let a ← groupsOf? front
        let b ← groupsOf? back
        if a.length + b.length ≤ 7 then
          some (a ++ List.replicate (8 - a.length - b.length) 0 ++ b)
        else none

/-- How many noughts stand at the front. -/
def zeroRun : List Nat → Nat
  | 0 :: rest => zeroRun rest + 1
  | _ => 0

/-- The longest run of noughts, the first of the longest, as its place
and length. -/
def longestZeroRun (pieces : List Nat) : Nat × Nat :=
  (List.range pieces.length).foldl (fun (best : Nat × Nat) i =>
    let n := zeroRun (pieces.drop i)
    if n > best.2 then (i, n) else best) (0, 0)

/-- Pieces in hexadecimal with colons between. -/
def renderPieces (pieces : List Nat) : List Char :=
  List.intercalate [':'] (pieces.map (Nat.toDigits 16))

/-- The text of an IPv6 address, the longest run of noughts left out if
it has at least two. -/
def renderIpv6 (pieces : List Nat) : List Char :=
  let (start, count) := longestZeroRun pieces
  if count < 2 then renderPieces pieces
  else renderPieces (pieces.take start) ++ ':' :: ':' :: renderPieces (pieces.drop (start + count))

-- ===================================================== domain names

/-- Lower case beyond ASCII, for the alphabets whose capitals stand a
fixed distance before their small letters. -/
def lowerChar (c : Char) : Char :=
  let n := c.toNat
  if 'A' ≤ c && c ≤ 'Z' then c.toLower
  else if (0xC0 ≤ n && n ≤ 0xDE && n ≠ 0xD7) || (0x391 ≤ n && n ≤ 0x3A9)
      || (0x410 ≤ n && n ≤ 0x42F) then Char.ofNat (n + 32)
  else if 0x400 ≤ n && n ≤ 0x40F then Char.ofNat (n + 80)
  else if 0x100 ≤ n && n ≤ 0x137 && n % 2 = 0 && n ≠ 0x130 then Char.ofNat (n + 1)
  else c

/-- The form of a character that counts in a domain name: full-width
letters and full stops stand for the plain ones, and invisible ones for
nothing. -/
def canonical (c : Char) : List Char :=
  let n := c.toNat
  if n = 0xAD || n = 0x200B || n = 0x2060 || n = 0xFEFF || (0xFE00 ≤ n && n ≤ 0xFE0F) then []
  else if n = 0x3002 || n = 0xFF61 then ['.']
  else if 0xFF01 ≤ n && n ≤ 0xFF5E then [lowerChar (Char.ofNat (n - 0xFEE0))]
  else [lowerChar c]

/-- What a domain name of a web scheme cannot hold. -/
def forbiddenInDomain (c : Char) : Bool :=
  c.toNat ≤ 0x20 || c.toNat = 0x7F || "%#/:<>?@[\\]^|".toList.contains c

/-- How the bias adapts, once there are so many points. -/
def punycodeBias (delta points : Nat) (first : Bool) : Nat :=
  let delta := if first then delta / 700 else delta / 2
  let delta := delta + delta / points
  go 8 delta 0
where
  go : Nat → Nat → Nat → Nat
    | 0, delta, k => k + 36 * delta / (delta + 38)
    | fuel + 1, delta, k =>
        if delta > 455 then go fuel (delta / 35) (k + 36) else k + 36 * delta / (delta + 38)

/-- A base-36 digit of Punycode. -/
def punycodeDigit (n : Nat) : Char :=
  if n < 26 then Char.ofNat ('a'.toNat + n) else Char.ofNat ('0'.toNat + (n - 26))

/-- A delta as a variable-length number. -/
def punycodeNumber (bias : Nat) : (fuel q k : Nat) → List Char
  | 0, _, _ => []
  | fuel + 1, q, k =>
      let t := if k ≤ bias then 1 else if k ≥ bias + 26 then 26 else k - bias
      if q < t then [punycodeDigit q]
      else punycodeDigit (t + (q - t) % (36 - t)) :: punycodeNumber bias fuel ((q - t) / (36 - t)) (k + 36)

/-- The deltas of a label, one code point value after the other. -/
def punycodeDeltas (label : List Nat) : (fuel n delta bias handled basic : Nat) → List Char
  | 0, _, _, _, _, _ => []
  | fuel + 1, n, delta, bias, handled, basic =>
      match (label.filter (n ≤ ·)).min? with
      | none => []
      | some m =>
          let delta := delta + (m - n) * (handled + 1)
          let (out, delta, bias, handled) :=
            label.foldl (fun (acc : List Char × Nat × Nat × Nat) c =>
              let (out, delta, bias, handled) := acc
              if c < m then (out, delta + 1, bias, handled)
              else if c = m then
                (out ++ punycodeNumber bias 12 delta 36, 0,
                  punycodeBias delta (handled + 1) (handled = basic), handled + 1)
              else (out, delta, bias, handled)) ([], delta, bias, handled)
          out ++ punycodeDeltas label fuel (m + 1) (delta + 1) bias handled basic

/-- A label in ASCII: as it is, or in Punycode after `xn--`. -/
def asciiLabel (label : List Char) : List Char :=
  if label.all (·.toNat < 0x80) then label
  else
    let basic := label.filter (·.toNat < 0x80)
    "xn--".toList ++ basic ++ (if basic = [] then [] else ['-'])
      ++ punycodeDeltas (label.map Char.toNat) label.length 128 0 72 basic.length basic.length

/-- The ASCII form of a decoded domain name. -/
def domainToAscii? (s : List Char) : Option (List Char) :=
  let lowered := s.flatMap canonical
  let labels := Text.splitOn '.' lowered
  let name := List.intercalate ['.'] (labels.map asciiLabel)
  if name.any forbiddenInDomain then none
  else if labels.any (fun l => l = "xn--".toList) then none
  else some name

-- ============================================================= hosts

/-- A host in brackets, which is a number of version 6. -/
def bracketed (s : List Char) : Except ParseError Host :=
  if s.getLast? = some ']' then
    match ipv6? (s.dropLast.drop 1) with
    | some pieces => .ok (.ipv6 pieces)
    | none => .error .invalidIpv6
  else .error .invalidIpv6

/-- The host of a special scheme: a name is decoded and mapped, and one that
ends in a number has to be one. -/
def webHost (s : List Char) : Except ParseError Host :=
  if s.head? = some '[' then bracketed s
  else
    match (Text.Utf8.decode? (decodeBytes s)).bind domainToAscii? with
    | none => .error .idna
    | some [] => .error .emptyHost
    | some name =>
        if endsInNumber name then
          match ipv4? name with
          | some n => .ok (.ipv4 n)
          | none => .error .invalidIpv4
        else .ok (.domain name)

/-- What the host of any other scheme cannot hold. -/
def forbiddenInHost (c : Char) : Bool :=
  c = '\x00' || "\t\n\r #/:<>?@[\\]^|".toList.contains c

/-- The host of any other scheme. -/
def opaqueHost (s : List Char) : Except ParseError Host :=
  if s.head? = some '[' then bracketed s
  else if s.any forbiddenInHost then .error .invalidDomainCharacter
  else .ok (.domain (encode controls s))

/-- A host as it stands in an address. -/
def Host.render : Host → List Char
  | .domain name => name
  | .ipv4 n => renderIpv4 n
  | .ipv6 pieces => '[' :: (renderIpv6 pieces ++ [']'])

end VideoWall.Url
