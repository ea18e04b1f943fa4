/-
What is reported to the user when something fails: what failed, and
behind it the causes, each one nearer to the root. The root may be a
text that was no JSON of the right shape; then the report knows how it
was wrong.
-/
import VideoWall.Json.Problem

namespace VideoWall

/-- A failure in words, the outermost first. -/
structure Report where
  chain : List String
  category : Option Json.Category := none
  deriving DecidableEq, Repr, Inhabited

namespace Report

/-- A report of one message. -/
def plain (message : String) : Report := ⟨[message], none⟩

/-- A report of a text that could not be read as JSON. -/
def ofJson (text : List Char) (e : Json.Error) : Report := ⟨[e.message text], e.problem.category⟩

/-- A report of what was being done when something failed. -/
def within (context : String) (r : Report) : Report := { r with chain := context :: r.chain }

/-- The message that says most generally what failed. -/
def outermost (r : Report) : String := r.chain.headD ""

/-- A report on one line. -/
def line (r : Report) : String := ": ".intercalate r.chain

/-- A number with spaces before it to fill `width` places. -/
def rightAligned (width n : Nat) : String :=
  let digits := Nat.toDigits 10 n
  String.ofList (List.replicate (width - digits.length) ' ' ++ digits)

/-- A cause, in a list with others. -/
def numbered (cause : Nat × String) : String := rightAligned 5 cause.1 ++ ": " ++ cause.2

/-- The causes on lines of their own, with numbers if there are several. -/
def causeLines : List String → List String
  | [] => []
  | [cause] => ["", "Caused by:", "    " ++ cause]
  | causes => "" :: "Caused by:" :: (List.range causes.length |>.zip causes).map numbered

/-- A report as the program ends with it. -/
def lines (r : Report) : List String := ("Error: " ++ r.outermost) :: causeLines (r.chain.drop 1)

end Report

end VideoWall
