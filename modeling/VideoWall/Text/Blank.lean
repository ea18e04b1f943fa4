/-
White space and the small cuts of text that every reader in the library
is made of. Text is a list of characters here: the readers recurse on
it, and the lemmas about them follow that recursion.

The class of white space is Unicode's `White_Space` property, so a name
made of no-break spaces counts as blank just as one made of spaces does.
-/
namespace VideoWall.Text

-- ====================================================== white space

/-- Unicode's `White_Space` property. -/
def isBlank (c : Char) : Bool :=
  let n := c.toNat
  (9 ≤ n && n ≤ 13) || n == 0x20 || n == 0x85 || n == 0xA0 || n == 0x1680
    || (0x2000 ≤ n && n ≤ 0x200A) || n == 0x2028 || n == 0x2029
    || n == 0x202F || n == 0x205F || n == 0x3000

/-- Removes the longest suffix whose characters satisfy `p`. -/
def dropEndWhile (p : Char → Bool) (s : List Char) : List Char :=
  (s.reverse.dropWhile p).reverse

/-- Removes white space from both ends. -/
def trim (s : List Char) : List Char :=
  dropEndWhile isBlank (s.dropWhile isBlank)

-- ============================================================= cuts

/-- What follows `p` in a text that begins with it. -/
def stripPrefix? : (p s : List Char) → Option (List Char)
  | [], s => some s
  | _ :: _, [] => none
  | a :: p, b :: s => if a = b then stripPrefix? p s else none

/-- Cuts at the first occurrence of `sep`, which belongs to neither part. -/
def splitOnce? (sep : Char) : List Char → Option (List Char × List Char)
  | [] => none
  | c :: s =>
      if c = sep then some ([], s)
      else (splitOnce? sep s).map fun (a, b) => (c :: a, b)

/-- The pieces between the occurrences of `sep`; never the empty list. -/
def splitOn (sep : Char) : List Char → List (List Char)
  | [] => [[]]
  | c :: s =>
      if c = sep then [] :: splitOn sep s
      else
        match splitOn sep s with
        | [] => [[c]]
        | piece :: rest => (c :: piece) :: rest

/-- A line without the carriage return before its end. -/
def chompReturn (line : List Char) : List Char :=
  match line.reverse with
  | '\r' :: r => r.reverse
  | _ => line

/-- The lines of a text. A line ends at a line feed, which may follow a
carriage return; a text that ends in a line feed has no empty last line. -/
def lines (s : List Char) : List (List Char) :=
  let pieces := splitOn '\n' s
  let ended := pieces.dropLast.map chompReturn
  match pieces.getLast? with
  | some [] | none => ended
  | some last => ended ++ [last]

/-- Whether `pat` occurs in `s`. -/
def occurs (pat : List Char) : List Char → Bool
  | [] => pat.isEmpty
  | c :: s => (stripPrefix? pat (c :: s)).isSome || occurs pat s

/-- Replaces the occurrences of `pat`, found from the left without
overlap. `fuel` bounds the characters looked at. -/
def replaceWithin (fuel : Nat) (pat new : List Char) (s : List Char) :
    List Char :=
  match fuel, s with
  | 0, s => s
  | _, [] => []
  | fuel + 1, c :: s =>
      match stripPrefix? pat (c :: s) with
      | some rest => new ++ replaceWithin fuel pat new rest
      | none => c :: replaceWithin fuel pat new s

/-- Replaces every occurrence of the non-empty `pat` by `new`. -/
def replace (pat new s : List Char) : List Char :=
  replaceWithin s.length pat new s

/-- Text without white space at its ends. -/
def trimmed (s : String) : String := String.ofList (trim s.toList)

/-- Fills up with spaces on the right to at least `width` characters. -/
def padRight (width : Nat) (s : String) : String :=
  s ++ String.ofList (List.replicate (width - s.length) ' ')

end VideoWall.Text
