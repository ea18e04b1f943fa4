/-
JSON values and their text. Members keep the order in which they were
put, because the order of a record's fields is part of what is written.

There are three kinds of numbers: integers, which are written without a
point, and single and double precision values, which are written with
the fewest digits that read back in their own precision. Infinities and
NaN have no JSON number and are written as `null`.
-/
import VideoWall.Numeral.Shortest
import VideoWall.Text.Hex

namespace VideoWall.Json

/-- A number, with the precision it is held in. -/
inductive Number where
  | integer (n : Int)
  | single (x : Float32)
  | double (x : Float)
  deriving Inhabited

/-- A JSON value. -/
inductive Value where
  | null
  | bool (b : Bool)
  | number (n : Number)
  | text (s : String)
  | array (items : List Value)
  | object (members : List (String × Value))
  deriving Inhabited

namespace Value

/-- A whole number. -/
def int (n : Int) : Value := .number (.integer n)

/-- A number that counts. -/
def nat (n : Nat) : Value := .number (.integer n)

/-- A present value or `null`. -/
def ofOption {α : Type} (f : α → Value) : Option α → Value
  | none => .null
  | some a => f a

/-- The value of the first member of an object with the given name. -/
def get? (name : String) : Value → Option Value
  | .object members => (members.find? (·.1 == name)).map (·.2)
  | _ => none

end Value

-- ==================================================== number layout

/-- Where positional notation begins and ends: a value with its point
after `p` digits is written positionally when `least < p ≤ most`. -/
structure PointRange where
  least : Int
  most : Int

/-- The range for single precision. -/
def singlePoints : PointRange := ⟨-6, 13⟩

/-- The range for double precision. -/
def doublePoints : PointRange := ⟨-5, 16⟩

/-- So many noughts. -/
def zeros (count : Nat) : List Char := List.replicate count '0'

/-- A positive decimal: always with a point or an exponent. -/
def layoutDecimal (range : PointRange) (d : Numeral.Decimal) : List Char :=
  let ds := Nat.toDigits 10 d.digits
  let point : Int := ds.length + d.exponent
  if 0 ≤ d.exponent ∧ point ≤ range.most then
    ds ++ zeros d.exponent.toNat ++ ['.', '0']
  else if 0 < point ∧ point ≤ range.most then
    ds.take point.toNat ++ '.' :: ds.drop point.toNat
  else if range.least < point ∧ point ≤ 0 then
    '0' :: '.' :: (zeros (-point).toNat ++ ds)
  else
    let power := point - 1
    let sign := if power < 0 then '-' else '+'
    let fraction := if ds.length = 1 then [] else '.' :: ds.drop 1
    ds.take 1 ++ fraction ++ 'e' :: sign :: Nat.toDigits 10 power.natAbs

/-- A floating value of a format; `none` for infinities and NaN. -/
def layoutFloat? (f : Numeral.Format) (range : PointRange) :
    Numeral.Reading → Option (List Char)
  | .nan | .infinite _ => none
  | .finite negative m e =>
      let sign := if negative then ['-'] else []
      if m = 0 then some (sign ++ ['0', '.', '0'])
      else some (sign ++ layoutDecimal range (f.shortest m e))

/-- The text of a single, if it is finite. -/
def singleText? (x : Float32) : Option (List Char) :=
  layoutFloat? Numeral.single singlePoints (Numeral.readSingle x)

/-- The text of a double, if it is finite. -/
def doubleText? (x : Float) : Option (List Char) :=
  layoutFloat? Numeral.double doublePoints (Numeral.readDouble x)

/-- The decimal digits of an integer, with a minus sign if negative. -/
def intText (n : Int) : List Char :=
  if n < 0 then '-' :: Nat.toDigits 10 n.natAbs else Nat.toDigits 10 n.natAbs

/-- A number as text; what is no number is `null`. -/
def Number.render : Number → List Char
  | .integer n => intText n
  | .single x => (singleText? x).getD "null".toList
  | .double x => (doubleText? x).getD "null".toList

-- ============================================================= text

/-- One character inside quotes. Quotes, backslashes and control
characters are escaped, everything else stands for itself. -/
def escape (c : Char) : List Char :=
  if c = '"' then ['\\', '"']
  else if c = '\\' then ['\\', '\\']
  else if c.toNat < 0x20 then
    if c = '\n' then ['\\', 'n']
    else if c = '\r' then ['\\', 'r']
    else if c = '\t' then ['\\', 't']
    else if c.toNat = 8 then ['\\', 'b']
    else if c.toNat = 12 then ['\\', 'f']
    else ['\\', 'u', '0', '0', Text.Hex.lower (c.toNat / 16), Text.Hex.lower (c.toNat % 16)]
  else [c]

/-- A text between quotation marks, with its escapes. -/
def quote (s : List Char) : List Char := '"' :: (s.flatMap escape ++ ['"'])

mutual

/-- A value without white space. -/
def Value.render : Value → List Char
  | .null => "null".toList
  | .bool true => "true".toList
  | .bool false => "false".toList
  | .number n => n.render
  | .text s => quote s.toList
  | .array items => '[' :: (renderItems items ++ [']'])
  | .object members => '\x7b' :: (renderMembers members ++ ['\x7d'])

/-- The items of an array, separated by commas. -/
def renderItems : List Value → List Char
  | [] => []
  | [v] => v.render
  | v :: w :: rest => v.render ++ ',' :: renderItems (w :: rest)

/-- The members of an object, separated by commas. -/
def renderMembers : List (String × Value) → List Char
  | [] => []
  | [(k, v)] => quote k.toList ++ ':' :: v.render
  | (k, v) :: m :: rest =>
      quote k.toList ++ ':' :: (v.render ++ ',' :: renderMembers (m :: rest))

end

/-- A new line, indented by two spaces for each level. -/
def newline (level : Nat) : List Char := '\n' :: List.replicate (2 * level) ' '

mutual

/-- A value with every item and member on a line of its own. -/
def Value.renderPretty (level : Nat) : Value → List Char
  | .null => "null".toList
  | .bool true => "true".toList
  | .bool false => "false".toList
  | .number n => n.render
  | .text s => quote s.toList
  | .array [] => ['[', ']']
  | .array (v :: rest) =>
      '[' :: (prettyItems (level + 1) (v :: rest) ++ newline level ++ [']'])
  | .object [] => ['\x7b', '\x7d']
  | .object (m :: rest) =>
      '\x7b' :: (prettyMembers (level + 1) (m :: rest) ++ newline level ++ ['\x7d'])

/-- The items of an array, each on its line. -/
def prettyItems (level : Nat) : List Value → List Char
  | [] => []
  | [v] => newline level ++ v.renderPretty level
  | v :: w :: rest =>
      newline level ++ (v.renderPretty level ++ ',' :: prettyItems level (w :: rest))

/-- The members of an object, each on its line. -/
def prettyMembers (level : Nat) : List (String × Value) → List Char
  | [] => []
  | [(k, v)] => newline level ++ quote k.toList ++ ':' :: ' ' :: v.renderPretty level
  | (k, v) :: m :: rest =>
      newline level ++ quote k.toList
        ++ ':' :: ' ' :: (v.renderPretty level ++ ',' :: prettyMembers level (m :: rest))

end

/-- A value without white space. -/
def Value.compact (v : Value) : String := String.ofList v.render

/-- A value with a line for each part. -/
def Value.pretty (v : Value) : String := String.ofList (v.renderPretty 0)

end VideoWall.Json
