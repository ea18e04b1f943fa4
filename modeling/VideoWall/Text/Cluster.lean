/-
Clusters: what a reader takes for one character. A base comes with the
marks that lie on it; emoji that are joined, or coloured, are one; two
regional indicators are one flag.

A terminal shows a cluster in one or two columns. The clusters of a text
put together are the text again, so nothing is lost between two of them.
-/
import VideoWall.Text.Columns

namespace VideoWall.Text

/-- A control character, which nothing joins. -/
def isControl (c : Char) : Bool := c.toNat < 0x20 || (0x7F ≤ c.toNat && c.toNat ≤ 0x9F)

/-- An invisible character that stands by itself. -/
def standsAlone (c : Char) : Bool :=
  let n := c.toNat
  isControl c || n == 0xAD || n == 0x61C || n == 0x180E || n == 0x200B || n == 0x200E || n == 0x200F
    || (0x2028 ≤ n && n ≤ 0x202E) || (0x2060 ≤ n && n ≤ 0x206F) || n == 0xFEFF

/-- The character that joins two emoji. -/
def joiner : Char := '\u200d'

/-- The mark that asks for the emoji form of the character before it. -/
def emojiForm : Char := '\ufe0f'

/-- The marks that colour an emoji. -/
def isSkinTone (c : Char) : Bool := 0x1F3FB ≤ c.toNat && c.toNat ≤ 0x1F3FF

/-- Whether a character is half of a flag. -/
def isFlagLetter (c : Char) : Bool := 0x1F1E6 ≤ c.toNat && c.toNat ≤ 0x1F1FF

/-- Whether a character belongs to the cluster that ends in `last`;
`flag` says that the cluster is the first letter of a flag. -/
def joins (flag : Bool) (last c : Char) : Bool :=
  if last = '\r' ∧ c = '\n' then true
  else if standsAlone last || standsAlone c then false
  else isMark c || isSkinTone c || (last = joiner && charColumns c = 2) || (flag && isFlagLetter c)

/-- Cuts a text into clusters. `cluster` is the one begun, its last
character first; it is empty only at the beginning. -/
def clustersFrom : (cluster : List Char) → List Char → List (List Char)
  | [], [] => []
  | cluster, [] => [cluster.reverse]
  | [], c :: s => clustersFrom [c] s
  | last :: before, c :: s =>
      if joins (before.isEmpty && isFlagLetter last) last c then
        clustersFrom (c :: last :: before) s
      else (last :: before).reverse :: clustersFrom [c] s

/-- The clusters of a text. -/
def clusters (s : List Char) : List (List Char) := clustersFrom [] s

/-- The columns of a cluster. A control character takes one, and no
cluster takes more than two. -/
def clusterColumns : List Char → Nat
  | [] => 0
  | base :: marks =>
      if isControl base then 1
      else if marks.contains emojiForm then 2
      else min 2 (((base :: marks).map charColumns).foldr (· + ·) 0)

/-- How many columns a text takes. -/
def columns (s : List Char) : Nat := ((clusters s).map clusterColumns).foldr (· + ·) 0

end VideoWall.Text
