/-
Numbers written in decimal, as command lines and playlists write them.

An integer is a sign and digits; too many digits are an overflow, no
digits an error of their own. A floating number may have digits on
either side of a point, an exponent, and may also be spelled `inf`,
`infinity` or `nan` in any case. It is read exactly and rounded once.
-/
import VideoWall.Numeral.Binary

namespace VideoWall.Numeral

-- ========================================================= integers

/-- Why a text is not an integer of the wanted range. -/
inductive IntegerError where
  | empty
  | invalidDigit
  | tooLarge
  | tooSmall
  deriving DecidableEq, Repr

/-- The words for each cause. -/
def IntegerError.message : IntegerError → String
  | .empty => "cannot parse integer from empty string"
  | .invalidDigit => "invalid digit found in string"
  | .tooLarge => "number too large to fit in target type"
  | .tooSmall => "number too small to fit in target type"

/-- The value of a decimal digit. -/
def digit? (c : Char) : Option Nat :=
  if '0' ≤ c && c ≤ '9' then some (c.toNat - '0'.toNat) else none

/-- Reads digits from the left and stops at the first that is none or
that takes the number past `bound`. -/
def digitsWithin (bound : Nat) (beyond : IntegerError) :
    (acc : Nat) → List Char → Except IntegerError Nat
  | acc, [] => .ok acc
  | acc, c :: rest =>
      match digit? c with
      | none => .error .invalidDigit
      | some d =>
          if acc * 10 + d ≤ bound then digitsWithin bound beyond (acc * 10 + d) rest
          else .error beyond

/-- A natural number up to `bound`, with an optional plus sign. -/
def readNat (bound : Nat) : List Char → Except IntegerError Nat
  | [] => .error .empty
  | ['+'] | ['-'] => .error .invalidDigit
  | '+' :: rest => digitsWithin bound .tooLarge 0 rest
  | rest => digitsWithin bound .tooLarge 0 rest

/-- An integer from `-(bound + 1)` to `bound`, with an optional sign. -/
def readInt (bound : Nat) : List Char → Except IntegerError Int
  | [] => .error .empty
  | ['+'] | ['-'] => .error .invalidDigit
  | '+' :: rest => (digitsWithin bound .tooLarge 0 rest).map Int.ofNat
  | '-' :: rest =>
      (digitsWithin (bound + 1) .tooSmall 0 rest).map fun n => -(n : Int)
  | rest => (digitsWithin bound .tooLarge 0 rest).map Int.ofNat

/-- The largest 64-bit natural number. -/
def maxWord64 : Nat := 18446744073709551615

/-- The largest 64-bit integer. -/
def maxInt64 : Nat := 9223372036854775807

-- ================================================ floating numbers

/-- Why a text is not a floating number. -/
inductive FloatError where
  | empty
  | invalid
  deriving DecidableEq, Repr

/-- The words for each cause. -/
def FloatError.message : FloatError → String
  | .empty => "cannot parse float from empty string"
  | .invalid => "invalid float literal"

/-- A floating literal before rounding. -/
inductive Literal where
  | nan
  | infinite
  | decimal (digits : Nat) (exponent : Int)

/-- The digits at the front of a text, as a number with their count. -/
def takeDigits : (acc count : Nat) → List Char → Nat × Nat × List Char
  | acc, count, [] => (acc, count, [])
  | acc, count, c :: rest =>
      match digit? c with
      | some d => takeDigits (acc * 10 + d) (count + 1) rest
      | none => (acc, count, c :: rest)

/-- The exponent part, which must be the whole rest of the text. -/
def exponent? : List Char → Option Int
  | [] => some 0
  | e :: rest =>
      if e = 'e' ∨ e = 'E' then
        let (negative, rest) : Bool × List Char :=
          match rest with
          | '-' :: rest => (true, rest)
          | '+' :: rest => (false, rest)
          | rest => (false, rest)
        match takeDigits 0 0 rest with
        | (_, 0, _) => none
        | (n, _, []) => some (if negative then -(n : Int) else n)
        | _ => none
      else none

/-- A literal without its sign. -/
def literal? (s : List Char) : Option Literal :=
  let word := s.map Char.toLower
  if word = "nan".toList then some .nan
  else if word = "inf".toList ∨ word = "infinity".toList then some .infinite
  else
    let (whole, wholeCount, rest) := takeDigits 0 0 s
    let (n, fractionCount, rest) : Nat × Nat × List Char :=
      match rest with
      | '.' :: rest => takeDigits whole 0 rest
      | rest => (whole, 0, rest)
    if wholeCount + fractionCount = 0 then none
    else (exponent? rest).map fun e => .decimal n (e - fractionCount)

/-- The bits of a literal in a format. Exponents far outside the range
of the format settle the answer without big powers. -/
def Format.ofLiteral (f : Format) (negative : Bool) : Literal → Nat
  | .nan => f.topField * Nat.pow 2 (f.precision - 1) + Nat.pow 2 (f.precision - 2)
  | .infinite => f.bits negative 0 (f.minExponent + f.topField)
  | .decimal n e =>
      let magnitude : Int := (Nat.toDigits 10 n).length + e
      if n = 0 ∨ magnitude < -400 then f.bits negative 0 f.minExponent
      else if magnitude > 400 then f.bits negative 0 (f.minExponent + f.topField)
      else if e ≥ 0 then f.nearest negative (n * Nat.pow 10 e.toNat) 1
      else f.nearest negative n (Nat.pow 10 (-e).toNat)

/-- The bits of the number that a text writes. -/
def Format.parse (f : Format) : List Char → Except FloatError Nat
  | [] => .error .empty
  | c :: rest =>
      let (negative, body) : Bool × List Char :=
        if c = '-' then (true, rest)
        else if c = '+' then (false, rest)
        else (false, c :: rest)
      match literal? body with
      | none => .error .invalid
      | some l => .ok (f.ofLiteral negative l)

/-- A double written in decimal. -/
def readFloat (s : List Char) : Except FloatError Float :=
  (double.parse s).map fun bits => Float.ofBits bits.toUInt64

/-- A single written in decimal, rounded once. -/
def readFloat32 (s : List Char) : Except FloatError Float32 :=
  (single.parse s).map fun bits => Float32.ofBits bits.toUInt32

end VideoWall.Numeral
