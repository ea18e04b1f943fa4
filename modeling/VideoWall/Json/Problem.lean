/-
What can be wrong with a JSON text: it ends too early, it is not JSON,
or it is JSON of another shape than the reader wants. A problem may know
how many bytes had been read when it was noticed; its message then ends
in a line and a column, which is the number of bytes of that line read.
-/
import VideoWall.Text.Utf8

namespace VideoWall.Json

/-- The three kinds of problems. -/
inductive Category where
  | premature
  | grammar
  | shape
  deriving DecidableEq, Repr

/-- What is wrong. -/
inductive Problem where
  | endInList
  | endInObject
  | endInText
  | endInValue
  | expectedColon
  | expectedListCommaOrEnd
  | expectedObjectCommaOrEnd
  | expectedWord
  | expectedValue
  | invalidEscape
  | invalidNumber
  | numberOutOfRange
  | controlCharacter
  | keyNotText
  | loneSurrogate
  | notUnicode
  | unexpectedEndOfEscape
  | trailingComma
  | trailingCharacters
  | tooDeep
  | wrongType (found expected : String)
  | wrongValue (found expected : String)
  | wrongLength (found : Nat) (expected : String)
  | missingField (name : String)
  | repeatedField (name : String)
  | unknownVariant (found : String) (known : List String)
  | rejected (reason : String)
  deriving DecidableEq, Repr

/-- What kind of problem it is. -/
def Problem.category : Problem → Category
  | .endInList | .endInObject | .endInText | .endInValue => .premature
  | .expectedColon | .expectedListCommaOrEnd | .expectedObjectCommaOrEnd
  | .expectedWord | .expectedValue | .invalidEscape | .invalidNumber
  | .numberOutOfRange | .controlCharacter | .keyNotText | .loneSurrogate | .notUnicode
  | .unexpectedEndOfEscape | .trailingComma | .trailingCharacters
  | .tooDeep => .grammar
  | _ => .shape

/-- Names in backquotes, as one of several choices. -/
def choices : List String → String
  | [] => "there are no variants"
  | [a] => "expected \x60" ++ a ++ "\x60"
  | [a, b] => "expected \x60" ++ a ++ "\x60 or \x60" ++ b ++ "\x60"
  | names => "expected one of " ++ ", ".intercalate (names.map fun n => "\x60" ++ n ++ "\x60")

/-- The words for a problem, without its place. -/
def Problem.words : Problem → String
  | .endInList => "EOF while parsing a list"
  | .endInObject => "EOF while parsing an object"
  | .endInText => "EOF while parsing a string"
  | .endInValue => "EOF while parsing a value"
  | .expectedColon => "expected \x60:\x60"
  | .expectedListCommaOrEnd => "expected \x60,\x60 or \x60]\x60"
  | .expectedObjectCommaOrEnd => "expected \x60,\x60 or \x60\x7d\x60"
  | .expectedWord => "expected ident"
  | .expectedValue => "expected value"
  | .invalidEscape => "invalid escape"
  | .invalidNumber => "invalid number"
  | .numberOutOfRange => "number out of range"
  | .controlCharacter =>
      "control character (\\u0000-\\u001F) found while parsing a string"
  | .keyNotText => "key must be a string"
  | .notUnicode => "invalid unicode code point"
  | .loneSurrogate => "lone leading surrogate in hex escape"
  | .unexpectedEndOfEscape => "unexpected end of hex escape"
  | .trailingComma => "trailing comma"
  | .trailingCharacters => "trailing characters"
  | .tooDeep => "recursion limit exceeded"
  | .wrongType found expected => "invalid type: " ++ found ++ ", expected " ++ expected
  | .wrongValue found expected => "invalid value: " ++ found ++ ", expected " ++ expected
  | .wrongLength found expected =>
      "invalid length " ++ toString found ++ ", expected " ++ expected
  | .missingField name => "missing field \x60" ++ name ++ "\x60"
  | .repeatedField name => "duplicate field \x60" ++ name ++ "\x60"
  | .unknownVariant found known => "unknown variant \x60" ++ found ++ "\x60, " ++ choices known
  | .rejected reason => reason

/-- A problem noticed after a number of bytes. -/
structure Fault where
  problem : Problem
  offset : Nat
  deriving DecidableEq, Repr

/-- A problem whose place may still be open. The reader of the record
around it settles the place. -/
structure Error where
  problem : Problem
  offset : Option Nat
  deriving DecidableEq, Repr

/-- The error of a fault, which has its place. -/
def Fault.error (f : Fault) : Error := ⟨f.problem, some f.offset⟩

/-- The error of a problem that belongs to no place. -/
def Problem.unplaced (p : Problem) : Error := ⟨p, none⟩

/-- Gives an open place. -/
def Error.placedAt (offset : Nat) (e : Error) : Error :=
  { e with offset := some (e.offset.getD offset) }

/-- The line and the column after `offset` bytes of a text, counted
from line one and column nought. -/
def place (offset : Nat) (s : List Char) : Nat × Nat :=
  go offset 1 0 s
where
  go : Nat → Nat → Nat → List Char → Nat × Nat
    | _, line, column, [] => (line, column)
    | left, line, column, c :: rest =>
        if left < c.utf8Size then (line, column + left)
        else if c = '\n' then go (left - 1) (line + 1) 0 rest
        else go (left - c.utf8Size) line (column + c.utf8Size) rest

/-- The message of an error in reading `s`. -/
def Error.message (s : List Char) (e : Error) : String :=
  match e.offset with
  | none => e.problem.words
  | some offset =>
      let (line, column) := place offset s
      e.problem.words ++ " at line " ++ toString line ++ " column " ++ toString column

end VideoWall.Json
