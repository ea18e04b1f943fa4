/-
From outlines to records.

A decoder takes an outline and gives a value or the first error. Scalars
report the wrong type with the place after the scalar; arrays and
objects report it at their first character, before anything inside them
is looked at. A record is read from an object, where the order of
members is free and unknown ones are skipped, or from an array of its
fields in order. What a missing field means is part of the field.
-/
import VideoWall.Json.Outline

namespace VideoWall.Json

/-- Reads a value of some type off an outline. -/
abbrev Decoder (α : Type) := Node → Except Error α

-- =========================================================== scalars

/-- A text as it is shown in a message: in quotes, with quotes,
backslashes and line breaks escaped. -/
def shown (s : String) : String :=
  let one (c : Char) : List Char :=
    if c = '"' then ['\\', '"']
    else if c = '\\' then ['\\', '\\']
    else if c = '\n' then ['\\', 'n']
    else if c = '\r' then ['\\', 'r']
    else if c = '\t' then ['\\', 't']
    else if c = '\x00' then ['\\', '0']
    else if c.toNat < 0x20 || c.toNat = 0x7F then
      "\\u\x7b".toList ++ Nat.toDigits 16 c.toNat ++ ['\x7d']
    else [c]
  String.ofList ('"' :: (s.toList.flatMap one ++ ['"']))

/-- A number as it is named in a message. -/
def Number.described : Number → String
  | .integer n => "integer \x60" ++ toString n ++ "\x60"
  | .single x => "floating point \x60" ++ String.ofList (Number.single x).render ++ "\x60"
  | .double x => "floating point \x60" ++ String.ofList (Number.double x).render ++ "\x60"

/-- The error of a value of another type than `expected`. -/
def Node.mismatch (expected : String) : Node → Error
  | .null stop => ⟨.wrongType "null" expected, some stop⟩
  | .bool b stop => ⟨.wrongType ("boolean \x60" ++ toString b ++ "\x60") expected, some stop⟩
  | .number (.ok n) stop => ⟨.wrongType n.described expected, some stop⟩
  | .number (.error f) _ => f.error
  | .text (.ok s) stop => ⟨.wrongType ("string " ++ shown s) expected, some stop⟩
  | .text (.error f) _ => f.error
  | .array start _ => ⟨.wrongType "sequence" expected, some start⟩
  | .object start _ => ⟨.wrongType "map" expected, some start⟩
  | .broken b => b.wanted.error

/-- A truth value. -/
def decodeBool : Decoder Bool
  | .bool b _ => .ok b
  | node => .error (node.mismatch "a boolean")

/-- A text, called `expected` in messages. -/
def decodeTextAs (expected : String) : Decoder String
  | .text (.ok s) _ => .ok s
  | node => .error (node.mismatch expected)

/-- A text, of which no more is said than that. -/
def decodeText : Decoder String := decodeTextAs "a string"

/-- An integer from `low` to `high`, called `expected` in messages. -/
def decodeInteger (low high : Int) (expected : String) : Decoder Int
  | .number (.ok (.integer n)) stop =>
      if low ≤ n ∧ n ≤ high then .ok n
      else .error ⟨.wrongValue (Number.integer n).described expected, some stop⟩
  | node => .error (node.mismatch expected)

/-- A natural number of `bits` bits. -/
def decodeNat (bits : Nat) (expected : String) : Decoder Nat := fun node =>
  (decodeInteger 0 (Nat.pow 2 bits - 1) expected node).map Int.toNat

/-- An integer of `bits` bits. -/
def decodeInt (bits : Nat) (expected : String) : Decoder Int :=
  decodeInteger (-(Nat.pow 2 (bits - 1))) (Nat.pow 2 (bits - 1) - 1) expected

/-- The single nearest to an integer. -/
def singleOfInt (n : Int) : Float32 :=
  Float32.ofBits (Numeral.single.nearest (n < 0) n.natAbs 1).toUInt32

/-- The double nearest to an integer. -/
def doubleOfInt (n : Int) : Float :=
  Float.ofBits (Numeral.double.nearest (n < 0) n.natAbs 1).toUInt64

/-- A number in single precision. -/
def Number.toSingle : Number → Float32
  | .integer n => singleOfInt n
  | .single x => x
  | .double x => x.toFloat32

/-- A number in double precision. -/
def Number.toDouble : Number → Float
  | .integer n => doubleOfInt n
  | .single x => x.toFloat
  | .double x => x

/-- A number, rounded to single precision. -/
def decodeSingle : Decoder Float32
  | .number (.ok n) _ => .ok n.toSingle
  | node => .error (node.mismatch "f32")

/-- A number in double precision. -/
def decodeDouble : Decoder Float
  | .number (.ok n) _ => .ok n.toDouble
  | node => .error (node.mismatch "f64")

/-- A value or `null`. -/
def decodeOption {α : Type} (d : Decoder α) : Decoder (Option α)
  | .null _ => .ok none
  | node => (d node).map some

/-- The items of an array, in order. -/
def Items.decode {α : Type} (d : Decoder α) : Items → Except Error (List α)
  | .item value settled rest => do
      let a ← (d value).mapError (Error.placedAt settled)
      pure (a :: (← rest.decode d))
  | .close _ => .ok []
  | .broken b => .error b.wanted.error

/-- An array of values. -/
def decodeList {α : Type} (d : Decoder α) : Decoder (List α)
  | .array _ items => items.decode d
  | node => .error (node.mismatch "a sequence")

-- =========================================================== records

/-- What it means that a field is not there: it keeps its default, it
keeps its default in an object but has its place in an array, or it is
an error. -/
inductive Absence where
  | keeps
  | keepsInObject
  | fails
  deriving DecidableEq, Repr

/-- A field of a record being read: its name and how it is put in. -/
structure Field (ρ : Type) where
  name : String
  absence : Absence
  put : Node → ρ → Except Error ρ

/-- A field that takes its value by a decoder and puts it into the record by
`set`. -/
def field {ρ α : Type} (name : String) (absence : Absence) (d : Decoder α)
    (set : α → ρ → ρ) : Field ρ :=
  ⟨name, absence, fun node r => (d node).map (set · r)⟩

/-- A record: its name, the value it starts from, and its fields in the
order in which an array gives them. -/
structure Record (ρ : Type) where
  name : String
  initial : ρ
  fields : List (Field ρ)

namespace Record

variable {ρ : Type} (record : Record ρ)

/-- A number of elements, in words. -/
def elements (n : Nat) : String := toString n ++ (if n = 1 then " element" else " elements")

/-- Reads the members of an object. `seen` holds the names of the fields
already put in. The error of a missing field comes to rest after the
closing brace. -/
def decodeMembers (seen : List String) (r : ρ) : Members → Except Error ρ
  | .close stop =>
      let missing := record.fields.find? fun f => f.absence = .fails ∧ f.name ∉ seen
      match missing with
      | some f => .error ⟨.missingField f.name, some stop⟩
      | none => .ok r
  | .broken b => .error b.wanted.error
  | .member (.error f) _ _ _ _ => .error f.error
  | .member (.ok key) keySettled value settled rest =>
      match record.fields.find? (·.name == key) with
      | none =>
          match value.skipFault? with
          | some f => .error f.error
          | none => decodeMembers seen r rest
      | some f =>
          if key ∈ seen then .error ⟨.repeatedField key, some keySettled⟩
          else
            match f.put value r with
            | .error e => .error (e.placedAt settled)
            | .ok r => decodeMembers (key :: seen) r rest

/-- Reads the items of an array into the fields that are left. -/
def decodeItems (left : List (Field ρ)) (r : ρ) : Items → Except Error ρ
  | .close stop =>
      match left.find? (·.absence ≠ .keeps) with
      | some f =>
          let count := record.fields.length - left.length
          let before := record.fields.findIdx (·.name == f.name)
          .error ⟨.wrongLength (max count before) ("struct " ++ record.name ++ " with "
            ++ elements record.fields.length), some stop⟩
      | none => .ok r
  | .broken b => .error b.wanted.error
  | .item value settled rest =>
      match left with
      | [] => .error ⟨.trailingCharacters, some settled⟩
      | f :: left =>
          match f.put value r with
          | .error e => .error (e.placedAt settled)
          | .ok r => decodeItems left r rest

/-- Reads the record. -/
def decode : Decoder ρ
  | .object _ members => record.decodeMembers [] record.initial members
  | .array _ items => record.decodeItems record.fields record.initial items
  | node => .error (node.mismatch ("struct " ++ record.name))

end Record

-- =========================================================== content

/-- How many arrays and objects may be open at once where a value is
read before its meaning is known. -/
def maxDepth : Nat := 127

mutual

/-- The value of an outline; `depth` is how much deeper it may go. -/
def Node.toValue (depth : Nat) : Node → Except Error Value
  | .null _ => .ok .null
  | .bool b _ => .ok (.bool b)
  | .number (.ok n) _ => .ok (.number n)
  | .number (.error f) _ => .error f.error
  | .text (.ok s) _ => .ok (.text s)
  | .text (.error f) _ => .error f.error
  | .array start items =>
      if depth = 0 then .error ⟨.tooDeep, some (start + 1)⟩
      else (items.toValues (depth - 1)).map .array
  | .object start members =>
      if depth = 0 then .error ⟨.tooDeep, some (start + 1)⟩
      else (members.toValues (depth - 1)).map .object
  | .broken b => .error b.wanted.error

/-- The values of the items of a list. -/
def Items.toValues (depth : Nat) : Items → Except Error (List Value)
  | .item value _ rest => do
      let v ← value.toValue depth
      pure (v :: (← rest.toValues depth))
  | .close _ => .ok []
  | .broken b => .error b.wanted.error

/-- The members of an object, with their values. -/
def Members.toValues (depth : Nat) : Members → Except Error (List (String × Value))
  | .member (.error f) _ _ _ _ => .error f.error
  | .member (.ok key) _ value _ rest => do
      let v ← value.toValue depth
      pure ((key, v) :: (← rest.toValues depth))
  | .close _ => .ok []
  | .broken b => .error b.wanted.error

end

mutual

/-- The outline of a value that is already known, without places. -/
def Node.ofValue : Value → Node
  | .null => .null 0
  | .bool b => .bool b 0
  | .number n => .number (.ok n) 0
  | .text s => .text (.ok s) 0
  | .array items => .array 0 (Items.ofValues items)
  | .object members => .object 0 (Members.ofValues members)

/-- The outline of known items. -/
def Items.ofValues : List Value → Items
  | [] => .close 0
  | v :: rest => .item (Node.ofValue v) 0 (Items.ofValues rest)

/-- The outline of known members. -/
def Members.ofValues : List (String × Value) → Members
  | [] => .close 0
  | (k, v) :: rest => .member (.ok k) 0 (Node.ofValue v) 0 (Members.ofValues rest)

end

/-- Reads a record off a value that is already known. Its errors have no
place. An array may not have more items than there are fields. -/
def Record.ofValue {ρ : Type} (record : Record ρ) (v : Value) : Except Error ρ :=
  let count := record.fields.length
  match v with
  | .array items =>
      match record.decodeItems record.fields record.initial (Items.ofValues (items.take count)) with
      | .error e => .error e.problem.unplaced
      | .ok r =>
          if count < items.length then
            .error (Problem.wrongLength items.length (Record.elements count ++ " in sequence")).unplaced
          else .ok r
  | v => (record.decode (Node.ofValue v)).mapError fun e => e.problem.unplaced

-- ============================================================= texts

/-- Reads a whole text: one value and nothing but white space after it. -/
def decode {α : Type} (d : Decoder α) (s : List Char) : Except Error α :=
  let (node, after) := outline s
  match d node with
  | .error e => .error e
  | .ok a =>
      match after.map Cursor.skip with
      | some ⟨_, []⟩ | none => .ok a
      | some c => .error (c.ahead .trailingCharacters).error

/-- Reads a whole text that comes as bytes. -/
def decodeBytes {α : Type} (d : Decoder α) (bytes : List UInt8) : Except Error α :=
  match Text.Utf8.decode? bytes with
  | none => .error Problem.notUnicode.unplaced
  | some s => decode d s

/-- Reads a value. -/
def parse (s : List Char) : Except Error Value := decode (Node.toValue maxDepth) s

end VideoWall.Json
