/-
Reading a command line, from left to right and from the outermost
command inwards.

A flag that needs a value is pending until the next argument; its value
is checked only when something else follows or the command ends. A
command is checked when everything within it has been read: so a fault
in an inner command is found before one in an outer command, and a fault
in the order of the arguments before one in what they are together.

A mistyped word is told from one that was never meant by how alike two words
are, as a share between zero and one: how many characters of each have a
partner in the other, not too far away, and how many of the partners stand
in the same order.
-/
import VideoWall.CommandLine.Grammar
import VideoWall.Text.Blank

namespace VideoWall.CommandLine

-- ========================================================== likeness

/-- A word in which some characters have a partner already. -/
abbrev Partnered := List (Char × Bool)

/-- Gives a character its partner: the first equal one that is still
free and whose place is at least `low` and below `high`. -/
def pairUp (c : Char) (low high : Nat) : (place : Nat) → Partnered → Option Partnered
  | _, [] => none
  | place, (d, paired) :: rest =>
      if low ≤ place && place < high && d == c && !paired then some ((d, true) :: rest)
      else (pairUp c low high (place + 1) rest).map ((d, paired) :: ·)

/-- Finds partners for the characters of a word from left to right, at
most `reach` places away: those that got one, and the other word. -/
def pairAll (reach : Nat) : (place : Nat) → List Char → Partnered → List Char × Partnered
  | _, [], other => ([], other)
  | place, c :: rest, other =>
      match pairUp c (place - reach) (place + reach + 1) 0 other with
      | none => pairAll reach (place + 1) rest other
      | some other =>
          let (paired, other) := pairAll reach (place + 1) rest other
          (c :: paired, other)

/-- How alike two words are. -/
def similarity (a b : List Char) : Float :=
  match a, b with
  | [], [] => 1
  | _, _ =>
      let (left, other) := pairAll (max a.length b.length / 2 - 1) 0 a (b.map (·, false))
      let right := (other.filter (·.2)).map (·.1)
      let moved := ((left.zip right).filter fun (c, d) => c != d).length / 2
      let share (n m : Nat) : Float := n.toFloat / m.toFloat
      let pairs := left.length
      if pairs = 0 then 0
      else (share pairs a.length + share pairs b.length + share (pairs - moved) pairs) / 3

/-- From where on two words are so alike that one may be meant by the
other. -/
def likeness : Float := 0.7

/-- Whether a word is so much like what was typed that it may have been meant.
-/
def mayMean (typed word : String) : Bool := likeness < similarity typed.toList word.toList

-- =========================================================== reading

/-- What is known of a flag or a place: its values, and whether they
were typed or come from the environment. -/
structure Entry where
  name : String
  data : List Datum
  typed : Bool := true

/-- What has been read of a command: the flag that waits to be recorded,
with its value if that has been seen, and the number of filled places. -/
structure Progress where
  entries : List Entry := []
  pending : Option (Flag × Option String) := none
  placed : Nat := 0

namespace Progress

/-- Whether there is an entry for an argument. -/
def has (p : Progress) (name : String) : Bool := p.entries.any (·.name == name)

/-- Adds values to what is known of a name. -/
def add (p : Progress) (name : String) (data : List Datum) (typed : Bool) : Progress :=
  if p.has name then
    { p with entries := p.entries.map fun e =>
        if e.name == name then { e with data := e.data ++ data } else e }
  else { p with entries := p.entries ++ [⟨name, data, typed⟩] }

/-- Records a flag. Only a list may be given twice. -/
def record (p : Progress) (f : Flag) (text : String) (typed : Bool) : Except Fault Progress :=
  match f.shape with
  | .alone =>
      if p.has f.name then .error (.conflict f.name) else .ok (p.add f.name [] typed)
  | .single d =>
      if p.has f.name then .error (.conflict f.name)
      else do pure (p.add f.name [← d.read f.name text] typed)
  | .list d => do
      let parts := (Text.splitOn ',' text.toList).map String.ofList
      pure (p.add f.name (← parts.mapM (d.read f.name)) typed)

/-- Records the flag that waits. One that got no value is a fault. -/
def settle (p : Progress) : Except Fault Progress :=
  match p.pending with
  | none => .ok p
  | some (f, none) => .error (.invalidValue f.name)
  | some (f, some text) => { p with pending := none }.record f text true

/-- The flag that still waits for its value. -/
def awaiting (p : Progress) : Option Flag :=
  match p.pending with
  | some (f, none) => some f
  | _ => none

end Progress

/-- What an argument leads to: the command goes on, another one begins,
help is wanted about the commands named next, or all that follows goes
into places. -/
inductive Turn where
  | on (p : Progress)
  | enter (g : Grammar)
  | help
  | onlyPlaces

/-- A command while it is read: `outermost` if it is the whole line. -/
structure Context where
  common : List Flag
  environment : String → Option String
  grammar : Grammar
  outermost : Bool

/-- Asks for the version, if all is well so far. -/
def askVersion (p : Progress) : Except Fault Turn := do
  let _ ← p.settle
  throw .versionWanted

namespace Context

variable (c : Context)

/-- Asks for help, if all is well so far. -/
def askHelp (p : Progress) : Except Fault Turn := do
  let _ ← p.settle
  throw (.helpWanted c.grammar.name)

/-- A word in front of which stand two hyphens, with what stands after
an equals sign. -/
def long (p : Progress) (name : String) (value : Option String) : Except Fault Turn := do
  match (c.grammar.flags ++ c.common).find? (·.name == name), value with
  | some f, value =>
      match f.shape, value with
      | .alone, some _ => throw (.needlessValue name)
      | .alone, none => pure (.on (← (← p.settle).record f "" true))
      | _, some text => pure (.on (← (← p.settle).record f text true))
      | _, none => pure (.on { ← p.settle with pending := some (f, none) })
  | none, value =>
      if name == "help" || (name == "version" && c.outermost) then
        if value.isSome then throw (.needlessValue name)
        else if name == "help" then c.askHelp p
        else askVersion p
      else throw (.unknownArgument ("--" ++ name))

/-- Letters in front of which stands one hyphen. -/
def short (p : Progress) (letters : List Char) : Except Fault Turn :=
  match letters with
  | 'h' :: _ => c.askHelp p
  | 'V' :: _ => if c.outermost then askVersion p else throw (.unknownArgument "-V")
  | _ => throw (.unknownArgument (String.ofList ('-' :: letters)))

/-- What is wrong with a word for which there is no place: it may be a
command that was mistyped, or be in the wrong place. -/
def misplaced (word : String) (afterDashes : Bool) : Fault :=
  let g := c.grammar
  if afterDashes && g.words.contains word then .unknownArgument word
  else if g.words.any (mayMean word) then .unknownCommand word
  else if !g.commands.isEmpty && g.places.isEmpty then .unknownCommand word
  else .unknownArgument word

/-- Fills the next place. -/
def place (p : Progress) (word : String) (afterDashes : Bool) : Except Fault Progress :=
  match c.grammar.places[p.placed]? with
  | none => .error (c.misplaced word afterDashes)
  | some name => do
      let p ← p.settle
      pure { p.add name [.text word] true with placed := p.placed + 1 }

/-- An argument that is a value or goes into a place. -/
def word (p : Progress) (argument : String) : Except Fault Turn := do
  match p.awaiting with
  | some f => pure (.on { p with pending := some (f, some argument) })
  | none => pure (.on (← c.place p argument false))

/-- An argument that is no command, by its hyphens. -/
def argument (p : Progress) (a : String) : Except Fault Turn :=
  match a.toList with
  | ['-', '-'] => .ok .onlyPlaces
  | '-' :: '-' :: rest =>
      match Text.splitOnce? '=' rest with
      | some (name, value) => c.long p (String.ofList name) (some (String.ofList value))
      | none => c.long p (String.ofList rest) none
  | '-' :: letter :: rest => c.short p (letter :: rest)
  | _ => c.word p a

/-- Where an argument leads. -/
def step (p : Progress) (a : String) : Except Fault Turn :=
  match p.awaiting with
  | some f => if f.hyphens then c.word p a else c.argument p a
  | none =>
      match c.grammar.command? a with
      | some g => .ok (.enter g)
      | none =>
          if c.grammar.words.contains a then .ok .help else c.argument p a

/-- Takes the flags that were not typed from the environment. -/
def fillIn (p : Progress) : Except Fault Progress :=
  (c.grammar.flags ++ c.common).foldlM (fun p f =>
    match f.setBy.bind c.environment with
    | some text => if p.has f.name then pure p else p.record f text false
    | none => pure p) p

/-- Checks a command of which everything is known. -/
def check (p : Progress) (hasInner : Bool) : Except Fault Unit := do
  let g := c.grammar
  if g.commandRequired && !hasInner then
    throw (if p.entries.isEmpty then .nothingGiven g.name else .missingCommand g.name)
  let given := g.flags.filter fun f => p.has f.name
  match given.find? fun f => f.excludes.any p.has with
  | some f => throw (.conflict f.name)
  | none => pure ()
  match g.places[p.placed]? with
  | some name => throw (.missingArgument name)
  | none => pure ()
  match (given.flatMap (·.requires)).find? fun name => !p.has name with
  | some name => throw (.missingArgument name)
  | none => pure ()

end Context

/-- Help about the commands that are named one after the other. -/
def helpAbout : Grammar → List String → Fault
  | g, [] => .helpWanted g.name
  | g, name :: rest =>
      match g.command? name with
      | some inner => helpAbout inner rest
      | none =>
          match rest with
          | [] => if g.words.contains name then .helpWanted name else .unknownCommand name
          | other :: _ => .unknownCommand (if g.words.contains name then other else name)

/-- A command that was read, with what is known about it. -/
structure Level where
  name : String
  entries : List Entry

/-- Ends the reading of a command, within which others have been read. -/
def Context.finish (c : Context) (p : Progress) (inner : List Level) :
    Except Fault (List Level) := do
  let p ← c.fillIn (← p.settle)
  c.check p !inner.isEmpty
  pure (⟨c.grammar.name, p.entries⟩ :: inner)

/-- Reads the arguments of a command: the commands, outermost first. -/
def readWithin (c : Context) (p : Progress) : List String → Except Fault (List Level)
  | [] => c.finish p []
  | a :: rest => do
      match ← c.step p a with
      | .on p => readWithin c p rest
      | .enter g => do
          let inner ← readWithin { c with grammar := g, outermost := false } {} rest
          c.finish p inner
      | .help => throw (helpAbout c.grammar rest)
      | .onlyPlaces => do
          c.finish (← rest.foldlM (fun p a => c.place p a true) p) []

/-- Reads a command line. -/
def Interface.read (i : Interface) (environment : String → Option String)
    (arguments : List String) : Except Fault (List Level) :=
  readWithin ⟨i.common, environment, i.root, true⟩ {} arguments

-- ========================================================== looking up

/-- The entry of an argument. -/
def Level.entryOf (l : Level) (name : String) : Option Entry := l.entries.find? (·.name == name)

/-- What is known of a shared flag: the innermost command decides, but
what was typed further out counts more than the environment. -/
def commonEntry (name : String) (levels : List Level) : Option Entry :=
  levels.foldl (fun (best : Option Entry) (l : Level) =>
    match best, l.entryOf name with
    | some b, some e => if b.typed && !e.typed then some b else some e
    | some b, none => some b
    | none, e => e) none

/-- The first text that was given. -/
def Entry.text? (e : Entry) : Option String :=
  e.data.findSome? fun
    | .text s => some s
    | _ => none

/-- A natural number that was given. -/
def Entry.natural? (e : Entry) : Option Nat :=
  e.data.findSome? fun
    | .natural n => some n
    | _ => none

/-- A real number that was given. -/
def Entry.real? (e : Entry) : Option Float32 :=
  e.data.findSome? fun
    | .real x => some x
    | _ => none

/-- The numbers that were given. -/
def Entry.integers (e : Entry) : List Int :=
  e.data.filterMap fun
    | .integer n => some n
    | _ => none

end VideoWall.CommandLine
