/-
What can be written on a command line: commands within commands, each
with flags, which have names, and places, which have an order. Some
flags are shared by all commands. The faults are what can be wrong with
a line; asking for help or for the version ends the reading too.
-/
import VideoWall.Numeral.Decimal

namespace VideoWall.CommandLine

-- =========================================================== values

/-- What the value of a flag must be. -/
inductive Domain where
  | text
  | path
  | oneOf (choices : List String)
  | natural
  | integer
  | real
  deriving DecidableEq, Repr

/-- A value that has been read. -/
inductive Datum where
  | text (s : String)
  | natural (n : Nat)
  | integer (n : Int)
  | real (x : Float32)

/-- What is wrong with a command line, or why it is not carried out. -/
inductive Fault where
  | unknownArgument (argument : String)
  | unknownCommand (word : String)
  | invalidValue (flag : String)
  | malformedValue (flag value : String)
  | needlessValue (flag : String)
  | conflict (flag : String)
  | missingArgument (name : String)
  | missingCommand (command : String)
  | nothingGiven (command : String)
  | helpWanted (command : String)
  | versionWanted
  deriving DecidableEq, Repr

/-- What is said of a fault. -/
def Fault.message : Fault → String
  | .unknownArgument a => "unexpected argument '" ++ a ++ "' found"
  | .unknownCommand w => "unrecognized subcommand '" ++ w ++ "'"
  | .invalidValue f => "no valid value was supplied for '" ++ f ++ "'"
  | .malformedValue f v => "invalid value '" ++ v ++ "' for '" ++ f ++ "'"
  | .needlessValue f => "unexpected value for '" ++ f ++ "'"
  | .conflict f => "the argument '" ++ f ++ "' cannot be used here"
  | .missingArgument n => "the required argument '" ++ n ++ "' was not provided"
  | .missingCommand c => "'" ++ c ++ "' requires a subcommand but one was not provided"
  | .nothingGiven c | .helpWanted c => "usage of '" ++ c ++ "'"
  | .versionWanted => "version"

/-- Reads a value. An empty path is none. -/
def Domain.read (d : Domain) (flag s : String) : Except Fault Datum :=
  let malformed := Fault.malformedValue flag s
  match d with
  | .text => .ok (.text s)
  | .path => if s.isEmpty then .error (.invalidValue flag) else .ok (.text s)
  | .oneOf choices => if s ∈ choices then .ok (.text s) else .error (.invalidValue flag)
  | .natural =>
      match Numeral.readNat Numeral.maxWord64 s.toList with
      | .ok n => .ok (.natural n)
      | .error _ => .error malformed
  | .integer =>
      match Numeral.readInt Numeral.maxInt64 s.toList with
      | .ok n => .ok (.integer n)
      | .error _ => .error malformed
  | .real =>
      match Numeral.readFloat32 s.toList with
      | .ok x => .ok (.real x)
      | .error _ => .error malformed

-- ========================================================== grammar

/-- How a flag is used: it stands alone, or with one value, or with
values separated by commas and again and again. -/
inductive Shape where
  | alone
  | single (domain : Domain)
  | list (domain : Domain)
  deriving DecidableEq, Repr

/-- A flag: its value may begin with a hyphen only if `hyphens` is set.
If the flag is not given, the environment variable `setBy` gives its
value. -/
structure Flag where
  name : String
  shape : Shape
  hyphens : Bool := false
  setBy : Option String := none
  requires : List String := []
  excludes : List String := []

/-- A command: its flags, its places, all of which must be filled, and
the commands within it. -/
structure Grammar where
  name : String
  flags : List Flag := []
  places : List String := []
  commands : List Grammar := []
  commandRequired : Bool := false

/-- A whole command line: a command and the flags that may stand in any
command within it as well. -/
structure Interface where
  common : List Flag
  root : Grammar

/-- The word that asks for help about commands, where there are any. -/
def helpCommand : String := "help"

/-- The words that a command understands as commands. -/
def Grammar.words (g : Grammar) : List String :=
  if g.commands.isEmpty then [] else g.commands.map (·.name) ++ [helpCommand]

/-- The grammar of a subcommand. -/
def Grammar.command? (g : Grammar) (name : String) : Option Grammar :=
  g.commands.find? (·.name == name)

end VideoWall.CommandLine
