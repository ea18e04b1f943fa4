/-
How many tiles the wall has: one, a number of tiles on a grid as near to
a square as can be, or a grid of given size.

A layout is written as an object with its mode first. It may also be
read from an array, the mode and then the numbers.
-/
import VideoWall.Json.Decode

namespace VideoWall.Wall

open Json

/-- How the screen is divided: one tile, tiles for so many streams, or columns
and rows. -/
inductive Layout where
  | single
  | count (streams : Nat)
  | custom (columns rows : Nat)
  deriving DecidableEq, Repr

-- ====================================================== dimensions

/-- Halves the interval `[low, high)` that holds the square root, as
often as `fuel` allows. -/
def sqrtWithin (n : Nat) : (fuel low high : Nat) → Nat
  | 0, low, _ => low
  | fuel + 1, low, high =>
      if high ≤ low + 1 then low
      else
        let mid := (low + high) / 2
        if mid * mid ≤ n then sqrtWithin n fuel mid high else sqrtWithin n fuel low mid

/-- The square root, rounded down. -/
def squareRoot (n : Nat) : Nat := sqrtWithin n (n.log2 + 2) 0 (Nat.pow 2 (n.log2 / 2 + 1))

/-- The quotient, rounded up. -/
def ceilDiv (a b : Nat) : Nat := (a + b - 1) / b

/-- Columns and rows, near to a square, for more tiles than the table
of small numbers has. -/
def nearSquare (count : Nat) : Nat × Nat :=
  let root := squareRoot count
  let columns := if root * root = count then root else root + 1
  (columns, ceilDiv count columns)

/-- Columns and rows, near to a square, for a number of tiles. -/
def optimalGrid (count : Nat) : Nat × Nat :=
  if count ≤ 1 then (1, 1)
  else if count = 2 then (2, 1)
  else if count ≤ 4 then (2, 2)
  else if count ≤ 6 then (3, 2)
  else if count ≤ 9 then (3, 3)
  else if count ≤ 12 then (4, 3)
  else if count ≤ 16 then (4, 4)
  else if count ≤ 20 then (5, 4)
  else nearSquare count

namespace Layout

/-- Four tiles. -/
instance : Inhabited Layout := ⟨.count 4⟩

/-- The layout for a number key: one tile, or that many. -/
def preset (streams : Nat) : Layout := if streams ≤ 1 then .single else .count streams

/-- Columns and rows; a grid of given size has at least one of each. -/
def dimensions : Layout → Nat × Nat
  | .single => (1, 1)
  | .count streams => optimalGrid streams
  | .custom columns rows => (max columns 1, max rows 1)

/-- How many streams a page shows. -/
def pageSize : Layout → Nat
  | .single => 1
  | .count streams => max streams 1
  | .custom columns rows => max columns 1 * max rows 1

/-- Columns and rows as text. -/
def crossed (columns rows : Nat) : String := toString columns ++ "x" ++ toString rows

/-- How a layout is named on screen. -/
def label : Layout → String
  | .single => "1x1"
  | .count streams =>
      let (columns, rows) := optimalGrid streams
      toString streams ++ " (" ++ crossed columns rows ++ ")"
  | .custom columns rows => crossed columns rows

-- ============================================================= text

/-- A layout as a JSON value. -/
def toJson : Layout → Value
  | .single => .object [("mode", .text "single")]
  | .count streams => .object [("mode", .text "count"), ("streams", .nat streams)]
  | .custom columns rows =>
      .object [("mode", .text "custom"), ("columns", .nat columns), ("rows", .nat rows)]

/-- The modes by which layouts are told apart. -/
inductive Mode where
  | single
  | count
  | custom
  deriving DecidableEq, Repr

/-- The names of the modes. -/
def modeNames : List String := ["single", "count", "custom"]

/-- Reads a mode. A word that is none is reported right after it. -/
def decodeMode : Decoder Mode
  | .text (.ok word) stop =>
      match word with
      | "single" => .ok .single
      | "count" => .ok .count
      | "custom" => .ok .custom
      | _ => .error ⟨.unknownVariant word modeNames, some stop⟩
  | node => .error (node.mismatch "variant identifier")

/-- The number of tiles of a count layout. -/
def countReading : Record Nat where
  name := "variant GridLayout::Count"
  initial := 0
  fields := [field "streams" .fails (decodeNat 64 "usize") fun v _ => v]

/-- Columns and rows of a custom layout. -/
def customReading : Record (Nat × Nat) where
  name := "variant GridLayout::Custom"
  initial := (0, 0)
  fields :=
    [ field "columns" .fails (decodeNat 64 "usize") fun v s => (v, s.2),
      field "rows" .fails (decodeNat 64 "usize") fun v s => (s.1, v) ]

/-- Nothing, in an object with any members or in an empty array. -/
def nothingReading : Record Unit where
  name := "variant GridLayout::Single"
  initial := ()
  fields := []

/-- The layout of a mode and what was given beside it. -/
def ofContent (content : Value) : Mode → Except Error Layout
  | .single => (nothingReading.ofValue content).map fun _ => .single
  | .count => (countReading.ofValue content).map .count
  | .custom => (customReading.ofValue content).map fun (c, r) => .custom c r

/-- Finds the mode among the members of an object and keeps the rest,
last first. -/
def scanMembers (depth : Nat) (mode : Option Mode) (others : List (String × Value)) :
    Members → Except Error (Mode × List (String × Value))
  | .close stop =>
      match mode with
      | some mode => .ok (mode, others.reverse)
      | none => .error ⟨.missingField "mode", some stop⟩
  | .broken b => .error b.wanted.error
  | .member (.error f) _ _ _ _ => .error f.error
  | .member (.ok key) keySettled value settled rest =>
      if key = "mode" then
        if mode.isSome then .error ⟨.repeatedField "mode", some keySettled⟩
        else
          match decodeMode value with
          | .error e => .error (e.placedAt settled)
          | .ok mode => scanMembers depth (some mode) others rest
      else
        match value.toValue depth with
        | .error e => .error (e.placedAt settled)
        | .ok v => scanMembers depth mode ((key, v) :: others) rest

/-- Reads a layout, in which values may be nested `depth` deep. -/
def decode (depth : Nat) : Decoder Layout
  | .object _ members => do
      let (mode, others) ← scanMembers depth none [] members
      ofContent (.object others) mode
  | .array _ (.close stop) => .error ⟨.missingField "mode", some stop⟩
  | .array _ (.broken b) => .error b.wanted.error
  | .array _ (.item tag settled rest) => do
      let mode ← (decodeMode tag).mapError (Error.placedAt settled)
      let content ← rest.toValues depth
      ofContent (.array content) mode
  | node => .error (node.mismatch "internally tagged enum GridLayout")

end Layout

end VideoWall.Wall
