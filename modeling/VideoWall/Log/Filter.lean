/-
Which events are written to the log. A filter is a list of directives,
separated by commas:

* `warn` sets the level for all events,
* `wall::engine` or `wall::engine=debug` for the events whose target
  begins so,
* `[name]` or `[{field}]` after the target narrow it down to spans,
  and to events that carry the field.

Of the directives that care about an event the most specific one
decides. A text with one malformed directive is no filter at all.
-/
import VideoWall.Numeral.Decimal
import VideoWall.Text.Blank

namespace VideoWall.Log

-- =========================================================== levels

/-- How serious an event is. -/
inductive Level where
  | error
  | warn
  | info
  | debug
  | trace
  deriving DecidableEq, Repr

/-- A level as the log has it. -/
def Level.name : Level → String
  | .error => "ERROR"
  | .warn => "WARN"
  | .info => "INFO"
  | .debug => "DEBUG"
  | .trace => "TRACE"

/-- The place of a level, the most serious first. -/
def Level.rank : Level → Nat
  | .error => 1
  | .warn => 2
  | .info => 3
  | .debug => 4
  | .trace => 5

/-- How much is written: the levels up to a rank, none for zero. -/
abbrev Verbosity := Nat

/-- The verbosity that lets everything pass. -/
def everything : Verbosity := Level.trace.rank

/-- A text in small letters, as far as they are ASCII. -/
def lowered (s : List Char) : String := String.ofList (s.map Char.toLower)

/-- A verbosity by its number or its name. -/
def verbosity? (s : List Char) : Option Verbosity :=
  match Numeral.readNat Numeral.maxWord64 s with
  | .ok n => if n ≤ everything then some n else none
  | .error _ =>
      match lowered s with
      | "off" => some 0
      | "error" => some 1
      | "warn" => some 2
      | "info" => some 3
      | "debug" => some 4
      | "trace" => some 5
      | _ => none

/-- The verbosity after an equals sign; nothing there means everything. -/
def verbosityAfter? (s : List Char) : Option Verbosity :=
  if s.isEmpty then some everything else verbosity? s

-- ======================================================= directives

/-- What a directive asks of a field: that it is there, or also what its
value is. -/
structure Field where
  name : List Char
  hasValue : Bool
  deriving DecidableEq, Repr

/-- One directive of a filter. -/
structure Directive where
  target : Option (List Char) := none
  span : Option (List Char) := none
  fields : List Field := []
  verbosity : Verbosity := everything
  deriving DecidableEq, Repr

/-- Where the reading of a directive is, with the place at which the
word that is being read began. -/
inductive Reading where
  | start
  | levelOrTarget (since : Nat)
  | span (since : Nat)
  | field (since : Nat)
  | fields
  | target
  | level (since : Nat)
  deriving DecidableEq, Repr

/-- The characters between two places. -/
def cut (s : List Char) (low high : Nat) : List Char := (s.take high).drop low

/-- Whether a character may stand in the name of a level or a target. -/
def isWordChar (c : Char) : Bool := c.isAlphanum || 127 < c.toNat

/-- The field that a text asks for, with or without a value. -/
def fieldOf? (s : List Char) : Option Field :=
  if s.isEmpty then none
  else match Text.splitOnce? '=' s with
    | some (name, _) => some ⟨name, true⟩
    | none => some ⟨s, false⟩

/-- Reads the character at a place; words are cut out of `s`. -/
def advance (s : List Char) (place : Nat) (c : Char) :
    Reading → Directive → Option (Reading × Directive)
  | .start, d =>
      if c = '[' then some (.span (place + 1), d)
      else if c = '-' || c = ':' || c = '_' || isWordChar c then some (.levelOrTarget place, d)
      else none
  | .levelOrTarget since, d =>
      if c = '=' then some (.level (place + 1), { d with target := some (cut s since place) })
      else if c = '[' then some (.span (place + 1), { d with target := some (cut s since place) })
      else some (.levelOrTarget since, d)
  | .span since, d =>
      let name := cut s since place
      if c = ']' then some (.target, { d with span := some name })
      else if c = '\x7b' then
        some (.field (place + 1), { d with span := if name.isEmpty then none else some name })
      else some (.span since, d)
  | .field since, d =>
      if c = '\x7d' then
        (fieldOf? (cut s since place)).map fun f => (.fields, { d with fields := d.fields ++ [f] })
      else some (.field since, d)
  | .fields, d => if c = ']' then some (.target, d) else none
  | .target, d => if c = '=' then some (.level (place + 1), d) else none
  | .level since, d => some (.level since, d)

/-- Reads a directive from a place on, character by character. -/
def scan (s : List Char) : (place : Nat) → List Char → Reading → Directive →
    Option (Reading × Directive)
  | _, [], r, d => some (r, d)
  | place, c :: rest, r, d => do
      let (r, d) ← advance s place c r d
      scan s (place + 1) rest r d

/-- Reads a directive. Places are counted without the blanks around it,
and the words are cut out of the text with them. -/
def directive? (s : List Char) : Option Directive := do
  match ← scan s 0 (Text.trim s) .start {} with
  | (.levelOrTarget since, d) =>
      let word := s.drop since
      match verbosity? word with
      | some v => pure { d with verbosity := v }
      | none => pure { d with target := some word }
  | (.level since, d) => pure { d with verbosity := ← verbosityAfter? (s.drop since) }
  | (.target, d) => pure d
  | _ => none

-- ========================================================== filters

/-- What is written to the log. -/
structure Filter where
  directives : List Directive
  deriving DecidableEq, Repr

/-- The filter that lets everything up to a level pass. -/
def Filter.ofVerbosity (v : Verbosity) : Filter := ⟨[{ verbosity := v }]⟩

/-- Reads a filter. Without directives only errors are written. -/
def Filter.parse? (s : String) : Option Filter := do
  let pieces := (Text.splitOn ',' s.toList).filter (!·.isEmpty)
  match ← pieces.mapM directive? with
  | [] => pure (.ofVerbosity Level.error.rank)
  | directives => pure ⟨directives⟩

/-- The filter that a setting asks for; without a readable one the log
holds what is worth knowing. -/
def Filter.ofSetting (setting : Option String) : Filter :=
  (setting.bind Filter.parse?).getD (.ofVerbosity Level.info.rank)

/-- Something that happened, in a part of the program, with the names of
the values that are noted with it. -/
structure Event where
  level : Level
  target : String
  fields : List String := ["message"]
  text : String
  deriving Repr

/-- An event as a line of the log. -/
def Event.line (e : Event) : String := e.level.name ++ " " ++ e.target ++ ": " ++ e.text

/-- Whether a directive is about events, not only about what happens
within spans. -/
def Directive.concernsEvents (d : Directive) : Bool :=
  d.span.isNone && !d.fields.any (·.hasValue)

/-- Whether a directive is about an event. -/
def Directive.caresAbout (d : Directive) (e : Event) : Bool :=
  d.concernsEvents && (d.target.getD []).isPrefixOf e.target.toList &&
    d.fields.all fun f => e.fields.any (·.toList == f.name)

/-- Whether a directive is at least as specific as another: it has the
longer target, or the same and more fields. -/
def Directive.atLeastAsSpecific (d other : Directive) : Bool :=
  let length (d : Directive) : Nat := match d.target with
    | none => 0
    | some t => t.length + 1
  length other < length d || (length other == length d && other.fields.length ≤ d.fields.length)

/-- Whether an event is written: the most specific directive decides, and
the last one among equals. -/
def Filter.admits (f : Filter) (e : Event) : Bool :=
  let deciding := (f.directives.filter (·.caresAbout e)).foldl
    (fun (best : Option Directive) d =>
      match best with
      | none => some d
      | some b => if d.atLeastAsSpecific b then some d else some b) none
  match deciding with
  | none => false
  | some d => e.level.rank ≤ d.verbosity

end VideoWall.Log
