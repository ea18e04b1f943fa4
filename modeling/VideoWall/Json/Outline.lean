/-
Reading JSON text without knowing yet what it is for.

A reader of records notices the first thing that is wrong for it, and
that may be the wrong type of a member long before the text stops being
JSON. So the text is read into an outline first: a tree of what is
there, in order, with the place of everything and with a `broken` leaf
where the text cannot go on. A decoder walks the outline from the left
and reports what it meets first.

Some members are not wanted at all. A value that nobody looks at may be
less well-formed: an escape may be half of a surrogate pair, a number
may be out of range. The outline keeps these as faults of the leaf, and
a `broken` leaf has one fault for each way of reading.
-/
import VideoWall.Json.Problem
import VideoWall.Json.Value
import VideoWall.Numeral.Decimal

namespace VideoWall.Json

/-- Where the text cannot go on: for a reader that wants the value, and
for one that only skips it. -/
structure Break where
  wanted : Fault
  skipped : Fault

mutual

/-- What stands at one place of a text. `stop` is the number of bytes
read after it. -/
inductive Node where
  | null (stop : Nat)
  | bool (b : Bool) (stop : Nat)
  | number (value : Except Fault Number) (stop : Nat)
  | text (value : Except Fault String) (stop : Nat)
  | array (start : Nat) (items : Items)
  | object (start : Nat) (members : Members)
  | broken (b : Break)

/-- The items of an array. `settled` is where an error left open by the
item comes to rest. -/
inductive Items where
  | item (value : Node) (settled : Nat) (rest : Items)
  | close (stop : Nat)
  | broken (b : Break)

/-- The members of an object. `keySettled` and `settled` are where an
error left open by the key and by the value comes to rest. -/
inductive Members where
  | member (key : Except Fault String) (keySettled : Nat) (value : Node)
      (settled : Nat) (rest : Members)
  | close (stop : Nat)
  | broken (b : Break)

end

/-- The text from a place on: bytes read so far and what is left. -/
structure Cursor where
  offset : Nat
  rest : List Char

namespace Cursor

/-- A problem where the cursor is. -/
def here (c : Cursor) (p : Problem) : Fault := ⟨p, c.offset⟩

/-- A fault about the next character, which counts as seen. -/
def ahead (c : Cursor) (p : Problem) : Fault :=
  ⟨p, if c.rest.isEmpty then c.offset else c.offset + 1⟩

/-- A break at the next character, for whoever wants the value and for whoever
skips it. -/
def brokenAhead (c : Cursor) (p : Problem) : Break := ⟨c.ahead p, c.ahead p⟩

/-- Whether a character is white space. -/
def isSpace (c : Char) : Bool := c = ' ' || c = '\n' || c = '\t' || c = '\r'

/-- Skips white space. -/
def skipFrom (offset : Nat) : List Char → Cursor
  | [] => ⟨offset, []⟩
  | ch :: rest => if isSpace ch then skipFrom (offset + 1) rest else ⟨offset, ch :: rest⟩

/-- The cursor behind the white space that is next. -/
def skip (c : Cursor) : Cursor := skipFrom c.offset c.rest

/-- Where an error in the object around this place comes to rest: after
white space, and after the closing brace if that is next. -/
def settledInObject (c : Cursor) : Nat :=
  let c := c.skip
  if c.rest.head? = some '\x7d' then c.offset + 1 else c.offset

/-- Where an error in the array around this place comes to rest: after
white space and the closing bracket, or a comma and the white space
that follows it. -/
def settledInArray (c : Cursor) : Nat :=
  let c := c.skip
  match c.rest with
  | ']' :: _ => c.offset + 1
  | ',' :: rest => (skipFrom (c.offset + 1) rest).offset
  | _ => c.offset

end Cursor

-- ============================================================ words

/-- The rest of a fixed word such as `null`. -/
def word : (w : List Char) → Cursor → Except Fault Cursor
  | [], c => .ok c
  | w :: ws, c =>
      match c.rest with
      | [] => .error (c.here .endInValue)
      | ch :: rest =>
          if ch = w then word ws ⟨c.offset + 1, rest⟩
          else .error ⟨.expectedWord, c.offset + 1⟩

-- ============================================================ texts

/-- The characters that may follow a backslash, but for `u`. -/
def simpleEscape? (c : Char) : Option Char :=
  if c = '"' then some '"'
  else if c = '\\' then some '\\'
  else if c = '/' then some '/'
  else if c = 'b' then some '\x08'
  else if c = 'f' then some '\x0c'
  else if c = 'n' then some '\n'
  else if c = 'r' then some '\r'
  else if c = 't' then some '\t'
  else none

/-- What has been read of a text: its characters, last first, a leading
surrogate that waits for its other half, or the first fault that only a
reader who wants the text cares about. -/
inductive TextSoFar where
  | chars (reversed : List Char)
  | half (unit : Nat) (reversed : List Char)
  | faulty (f : Fault)

namespace TextSoFar

/-- Adds a character that was written at `offset`. -/
def push (offset : Nat) (c : Char) : TextSoFar → TextSoFar
  | .chars r => .chars (c :: r)
  | .half _ _ => .faulty ⟨.unexpectedEndOfEscape, offset + 1⟩
  | .faulty f => .faulty f

/-- Adds a simple escape whose backslash stood at `offset`. -/
def pushEscape (offset : Nat) (c : Char) : TextSoFar → TextSoFar
  | .chars r => .chars (c :: r)
  | .half _ _ => .faulty ⟨.unexpectedEndOfEscape, offset + 2⟩
  | .faulty f => .faulty f

/-- Adds the 16-bit unit of an escape that ends at `stop`. -/
def pushUnit (stop unit : Nat) : TextSoFar → TextSoFar
  | .chars r =>
      if 0xDC00 ≤ unit && unit ≤ 0xDFFF then .faulty ⟨.loneSurrogate, stop⟩
      else if 0xD800 ≤ unit && unit ≤ 0xDBFF then .half unit r
      else .chars (Char.ofNat unit :: r)
  | .half high r =>
      if 0xDC00 ≤ unit && unit ≤ 0xDFFF then
        .chars (Char.ofNat ((high - 0xD800) * 1024 + (unit - 0xDC00) + 0x10000) :: r)
      else .faulty ⟨.loneSurrogate, stop⟩
  | .faulty f => .faulty f

/-- The text at its closing quote, which stands at `offset`. -/
def finish (offset : Nat) : TextSoFar → Except Fault String
  | .chars r => .ok (String.ofList r.reverse)
  | .half _ _ => .error ⟨.unexpectedEndOfEscape, offset + 1⟩
  | .faulty f => .error f

/-- A fault of the grammar, unless an earlier one counts. -/
def orElse (f : Fault) : TextSoFar → Fault
  | .faulty earlier => earlier
  | _ => f

end TextSoFar

/-- A text as a wanting reader gets it, and the place after it. -/
abbrev ScannedText := Except Fault String × Except Fault Cursor

/-- A text that is broken: what was wrong with it before counts for whoever
wants it, but not for whoever skips it. -/
def brokenText (acc : TextSoFar) (wanted skipped : Fault) : ScannedText :=
  (.error (acc.orElse wanted), .error skipped)

/-- Reads a text after its opening quote. -/
def scanText (acc : TextSoFar) (offset : Nat) : List Char → ScannedText
  | [] => brokenText acc ⟨.endInText, offset⟩ ⟨.endInText, offset⟩
  | '"' :: rest => (acc.finish offset, .ok ⟨offset + 1, rest⟩)
  | ['\\'] => brokenText acc ⟨.endInText, offset + 1⟩ ⟨.endInText, offset + 1⟩
  | '\\' :: 'u' :: a :: b :: c :: d :: rest =>
      match Text.Hex.toNat? [a, b, c, d] with
      | some unit => scanText (acc.pushUnit (offset + 6) unit) (offset + 6) rest
      | none =>
          let f := ⟨.invalidEscape, offset + 6⟩
          brokenText acc f f
  | '\\' :: 'u' :: rest =>
      let left := Text.Utf8.size rest
      let f : Fault :=
        if left < 4 then ⟨.endInText, offset + 2 + left⟩ else ⟨.invalidEscape, offset + 6⟩
      brokenText acc f f
  | '\\' :: e :: rest =>
      match simpleEscape? e with
      | some ch => scanText (acc.pushEscape offset ch) (offset + 2) rest
      | none =>
          let f := ⟨.invalidEscape, offset + 2⟩
          brokenText acc f f
  | ch :: rest =>
      if ch.toNat < 0x20 then
        brokenText acc ⟨.controlCharacter, offset + 1⟩ ⟨.controlCharacter, offset⟩
      else scanText (acc.push offset ch) (offset + ch.utf8Size) rest

-- ========================================================== numbers

/-- A number as a wanting reader gets it, and the place after it. -/
abbrev ScannedNumber := Except Fault Number × Except Fault Cursor

/-- The digits at the front, and the place after them. -/
def digitRun (c : Cursor) : List Nat × Cursor :=
  go c.offset c.rest
where
  go (offset : Nat) : List Char → List Nat × Cursor
    | [] => ([], ⟨offset, []⟩)
    | ch :: rest =>
        match Numeral.digit? ch with
        | some d => let (ds, c) := go (offset + 1) rest; (d :: ds, c)
        | none => ([], ⟨offset, ch :: rest⟩)

/-- Takes digits into a significand for as long as it fits 64 bits.
Gives the significand and the number of digits taken. -/
def significand (acc : Nat) : List Nat → Nat × Nat
  | [] => (acc, 0)
  | d :: ds =>
      if acc * 10 + d ≤ Numeral.maxWord64 then
        let (n, count) := significand (acc * 10 + d) ds
        (n, count + 1)
      else (acc, 0)

/-- A power of ten in double precision, up to the largest there is. -/
def powerOfTen (n : Nat) : Float :=
  Float.ofBits (Numeral.double.nearest false (Nat.pow 10 n) 1).toUInt64

/-- Divides by `10 ^ 308` until the negative exponent is in the table of
powers. A significand in 64 bits is nought after two such steps. -/
def scaleDown : (fuel : Nat) → Float → Nat → Float
  | 0, x, _ => x
  | fuel + 1, x, n =>
      if n ≤ 308 then x / powerOfTen n
      else if x == 0.0 then x
      else scaleDown fuel (x / powerOfTen 308) (n - 308)

/-- The double of a significand and a power of ten: one multiplication
or division by the rounded power, so the last bit may be off. Too large
a value has none. -/
def fromParts? (n : Nat) (exponent : Int) : Option Float :=
  let x := n.toUInt64.toFloat
  if exponent < 0 then some (scaleDown 4 x exponent.natAbs)
  else if exponent.natAbs ≤ 308 then
    let y := x * powerOfTen exponent.natAbs
    if y.isInf then none else some y
  else if x == 0.0 then some x
  else none

/-- The double of the digits of a number with a point or an exponent, or
of one with too many digits. `exponent` is the written exponent. -/
def decimalParts? (whole fraction : List Nat) (exponent : Int) : Option Float :=
  let (n, taken) := significand 0 whole
  let dropped := whole.length - taken
  let (n, takenAfter) := significand n fraction
  fromParts? n (dropped - takenAfter + exponent)

/-- The largest written exponent, past which it counts as endless. -/
def maxExponent : Nat := 2147483647

/-- The value of exponent digits while it stays in range, and the number
of digits read. -/
def exponentValue (acc count : Nat) : List Nat → Except Nat Nat
  | [] => .ok acc
  | d :: ds =>
      if acc * 10 + d ≤ maxExponent then exponentValue (acc * 10 + d) (count + 1) ds
      else .error (count + 1)

/-- A number without point and exponent. -/
def wholeNumber (negative : Bool) (whole : List Nat) (stop : Nat) : Except Fault Number :=
  let (n, taken) := significand 0 whole
  let signed (x : Float) : Number := .double (if negative then -x else x)
  if taken < whole.length then
    match fromParts? n (whole.length - taken : Nat) with
    | some x => .ok (signed x)
    | none => .error ⟨.numberOutOfRange, stop⟩
  else if !negative then .ok (.integer n)
  else if n = 0 ∨ 9223372036854775808 < n then .ok (.double (-(n.toUInt64.toFloat)))
  else .ok (.integer (-(n : Int)))

/-- The exponent part, if there is one, of a number with these digits. -/
def scanExponent (negative : Bool) (whole fraction : List Nat) (pointed : Bool) (c : Cursor) :
    ScannedNumber :=
  let signed (x : Float) : Number := .double (if negative then -x else x)
  let finish (e : Int) (stop : Nat) : Except Fault Number :=
    match decimalParts? whole fraction e with
    | some x => .ok (signed x)
    | none => .error ⟨.numberOutOfRange, stop⟩
  let marked := match c.rest with
    | 'e' :: rest => some rest
    | 'E' :: rest => some rest
    | _ => none
  match marked with
  | none =>
      (if pointed then finish 0 c.offset else wholeNumber negative whole c.offset, .ok c)
  | some rest =>
      let (down, c) : Bool × Cursor :=
        match rest with
        | '+' :: rest => (false, ⟨c.offset + 2, rest⟩)
        | '-' :: rest => (true, ⟨c.offset + 2, rest⟩)
        | rest => (false, ⟨c.offset + 1, rest⟩)
      match digitRun c with
      | ([], _) =>
          let wanted := if c.rest.isEmpty then c.here .endInValue else c.ahead .invalidNumber
          (.error wanted, .error (c.ahead .invalidNumber))
      | (ds, stop) =>
          match exponentValue 0 0 ds with
          | .ok e => (finish (if down then -(e : Int) else e) stop.offset, .ok stop)
          | .error read =>
              let zero := (whole ++ fraction).all (· = 0)
              if !zero && !down then
                (.error ⟨.numberOutOfRange, c.offset + read⟩, .ok stop)
              else (.ok (signed 0.0), .ok stop)

/-- A number behind its sign. -/
def scanUnsigned (negative : Bool) (c : Cursor) : ScannedNumber :=
  match digitRun c with
  | ([], _) =>
      let wanted := if c.rest.isEmpty then c.here .endInValue else c.ahead .invalidNumber
      (.error wanted, .error (c.ahead .invalidNumber))
  | (0 :: _ :: _, _) =>
      let f := ⟨.invalidNumber, c.offset + 2⟩
      (.error f, .error f)
  | (whole, after) =>
      match after.rest with
      | '.' :: rest =>
          let point : Cursor := ⟨after.offset + 1, rest⟩
          match digitRun point with
          | ([], _) =>
              let p := if point.rest.isEmpty then .endInValue else .invalidNumber
              (.error (point.ahead p), .error (point.ahead .invalidNumber))
          | (fraction, after) => scanExponent negative whole fraction true after
      | _ => scanExponent negative whole [] false after

-- =========================================================== values

/-- What stands at a place, and the place after it if the text goes on. -/
abbrev Scanned := Node × Option Cursor

/-- The node of a text. -/
def textNode : ScannedText → Scanned
  | (wanted, .ok c) => (.text wanted c.offset, some c)
  | (.error wanted, .error skipped) => (.broken ⟨wanted, skipped⟩, none)
  | (.ok _, .error skipped) => (.broken ⟨skipped, skipped⟩, none)

/-- The node of a number. -/
def numberNode : ScannedNumber → Scanned
  | (wanted, .ok c) => (.number wanted c.offset, some c)
  | (.error wanted, .error skipped) => (.broken ⟨wanted, skipped⟩, none)
  | (.ok _, .error skipped) => (.broken ⟨skipped, skipped⟩, none)

/-- The node of a word, which ends where the cursor is. -/
def wordNode (node : Nat → Node) : Except Fault Cursor → Scanned
  | .ok c => (node c.offset, some c)
  | .error f => (.broken ⟨f, f⟩, none)

mutual

/-- Reads one value. `fuel` bounds the characters read; the length of
the text is enough. -/
def scanValue : (fuel : Nat) → Cursor → Scanned
  | 0, c => (.broken (c.skip.brokenAhead .endInValue), none)
  | fuel + 1, c =>
      let c := c.skip
      match c.rest with
      | [] => (.broken (c.brokenAhead .endInValue), none)
      | ch :: rest =>
          let next : Cursor := ⟨c.offset + 1, rest⟩
          if ch = 'n' then wordNode .null (word "ull".toList next)
          else if ch = 't' then wordNode (.bool true) (word "rue".toList next)
          else if ch = 'f' then wordNode (.bool false) (word "alse".toList next)
          else if ch = '"' then textNode (scanText (.chars []) next.offset rest)
          else if ch = '-' then numberNode (scanUnsigned true next)
          else if (Numeral.digit? ch).isSome then numberNode (scanUnsigned false c)
          else if ch = '[' then
            let (items, after) := scanItems fuel true next
            (.array c.offset items, after)
          else if ch = '\x7b' then
            let (members, after) := scanMembers fuel true next
            (.object c.offset members, after)
          else (.broken (c.brokenAhead .expectedValue), none)

/-- Reads the items of an array after its bracket or after an item. -/
def scanItems : (fuel : Nat) → (first : Bool) → Cursor → Items × Option Cursor
  | 0, _, c => (.broken (c.brokenAhead .endInList), none)
  | fuel + 1, first, c =>
      let c := c.skip
      let item (c : Cursor) : Items × Option Cursor :=
        match scanValue fuel c with
        | (node, none) => (.item node 0 (.close 0), none)
        | (node, some after) =>
            let (rest, stop) := scanItems fuel false after
            (.item node after.settledInArray rest, stop)
      match c.rest with
      | [] => (.broken (c.brokenAhead .endInList), none)
      | ']' :: rest => (.close (c.offset + 1), some ⟨c.offset + 1, rest⟩)
      | ch :: rest =>
          if first then item c
          else if ch ≠ ',' then (.broken (c.brokenAhead .expectedListCommaOrEnd), none)
          else
            let c : Cursor := Cursor.skipFrom (c.offset + 1) rest
            match c.rest with
            | ']' :: _ => (.broken ⟨c.ahead .trailingComma, c.ahead .expectedValue⟩, none)
            | _ => item c

/-- Reads the members of an object after its brace or after a member. -/
def scanMembers : (fuel : Nat) → (first : Bool) → Cursor → Members × Option Cursor
  | 0, _, c => (.broken (c.brokenAhead .endInObject), none)
  | fuel + 1, first, c =>
      let c := c.skip
      let member (offset : Nat) (rest : List Char) : Members × Option Cursor :=
        match scanText (.chars []) offset rest with
        | (wanted, .error skipped) =>
            let wanted := match wanted with
              | .error f => f
              | .ok _ => skipped
            (.broken ⟨wanted, skipped⟩, none)
        | (key, .ok after) =>
            let colon := after.skip
            match colon.rest with
            | ':' :: rest =>
                match scanValue fuel ⟨colon.offset + 1, rest⟩ with
                | (node, none) => (.member key after.settledInObject node 0 (.close 0), none)
                | (node, some last) =>
                    let (tail, stop) := scanMembers fuel false last
                    (.member key after.settledInObject node last.settledInObject tail, stop)
            | rest =>
                let p := if rest.isEmpty then .endInObject else .expectedColon
                (.member key after.settledInObject (.broken (colon.brokenAhead p)) 0
                  (.close 0), none)
      match c.rest with
      | [] => (.broken (c.brokenAhead .endInObject), none)
      | '\x7d' :: rest => (.close (c.offset + 1), some ⟨c.offset + 1, rest⟩)
      | ch :: rest =>
          if first then
            if ch = '"' then member (c.offset + 1) rest
            else (.broken (c.brokenAhead .keyNotText), none)
          else if ch ≠ ',' then (.broken (c.brokenAhead .expectedObjectCommaOrEnd), none)
          else
            let c : Cursor := Cursor.skipFrom (c.offset + 1) rest
            match c.rest with
            | '"' :: rest => member (c.offset + 1) rest
            | '\x7d' :: _ => (.broken ⟨c.ahead .trailingComma, c.ahead .keyNotText⟩, none)
            | [] => (.broken ⟨c.ahead .endInValue, c.ahead .endInObject⟩, none)
            | _ => (.broken (c.brokenAhead .keyNotText), none)

end

/-- The outline of a text, and what follows its value. -/
def outline (s : List Char) : Scanned := scanValue (s.length + 1) ⟨0, s⟩

-- ========================================================= skipping

mutual

/-- The fault that stops a reader who only skips the value. -/
def Node.skipFault? : Node → Option Fault
  | .broken b => some b.skipped
  | .array _ items => items.skipFault?
  | .object _ members => members.skipFault?
  | _ => none

/-- The fault that stops a reader who only skips the items. -/
def Items.skipFault? : Items → Option Fault
  | .item value _ rest => value.skipFault?.or rest.skipFault?
  | .close _ => none
  | .broken b => some b.skipped

/-- The fault that stops a reader who only skips the members. -/
def Members.skipFault? : Members → Option Fault
  | .member _ _ value _ rest => value.skipFault?.or rest.skipFault?
  | .close _ => none
  | .broken b => some b.skipped

end

end VideoWall.Json
