/-
Hexadecimal digits: values of digits, digits of bytes, bytes written as
numbers and bytes written as pairs of digits.
-/
namespace VideoWall.Text.Hex

/-- The value of a hexadecimal digit of either case. -/
def digit? (c : Char) : Option Nat :=
  if '0' ≤ c && c ≤ '9' then some (c.toNat - '0'.toNat)
  else if 'a' ≤ c && c ≤ 'f' then some (c.toNat - 'a'.toNat + 10)
  else if 'A' ≤ c && c ≤ 'F' then some (c.toNat - 'A'.toNat + 10)
  else none

/-- The lower-case digit of a number below sixteen. -/
def lower (n : Nat) : Char :=
  if n < 10 then Char.ofNat ('0'.toNat + n) else Char.ofNat ('a'.toNat + (n - 10))

/-- The upper-case digit of a number below sixteen. -/
def upper (n : Nat) : Char :=
  if n < 10 then Char.ofNat ('0'.toNat + n) else Char.ofNat ('A'.toNat + (n - 10))

/-- Lower-case digits are read as the numbers that they are written for. -/
theorem digit?_lower : ∀ n < 16, digit? (lower n) = some n := by
  decide

/-- Upper-case digits are, too. -/
theorem digit?_upper : ∀ n < 16, digit? (upper n) = some n := by
  decide

/-- A byte as two lower-case digits. -/
def ofByte (b : UInt8) : List Char :=
  [lower (b.toNat / 16), lower (b.toNat % 16)]

/-- A byte as two upper-case digits. -/
def ofByteUpper (b : UInt8) : List Char :=
  [upper (b.toNat / 16), upper (b.toNat % 16)]

/-- The digits of `n`, at least `width` of them. -/
def ofNat (width n : Nat) : List Char :=
  let digits := Nat.toDigits 16 n
  List.replicate (width - digits.length) '0' ++ digits

/-- The number that a list of digits writes, if all are digits. -/
def toNat? (s : List Char) : Option Nat :=
  s.foldl (fun acc c => do pure ((← acc) * 16 + (← digit? c))) (some 0)

/-- A number without the plus sign that may stand before its digits. -/
def unsigned : List Char → List Char
  | '+' :: c :: rest => c :: rest
  | s => s

/-- The byte that a number in base sixteen stands for. -/
def readByte? (s : List Char) : Option UInt8 :=
  let digits := unsigned s
  if digits = [] then none
  else (toNat? digits).bind fun n => if n < 256 then some n.toUInt8 else none

/-- The bytes that pairs of digits write. -/
def toBytes? : List Char → Option (List UInt8)
  | [] => some []
  | [_] => none
  | a :: b :: rest => do
      let hi ← digit? a
      let lo ← digit? b
      let tail ← toBytes? rest
      pure ((hi * 16 + lo).toUInt8 :: tail)

/-- Bytes as a text of digit pairs. -/
def ofBytes (bytes : List UInt8) : String :=
  String.ofList (bytes.flatMap ofByte)

end VideoWall.Text.Hex
