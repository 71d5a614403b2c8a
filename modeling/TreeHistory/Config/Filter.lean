import TreeHistory.Config.Regex
import TreeHistory.Text.Alphanumeric
import TreeHistory.Text.Blank
import TreeHistory.Text.Decimal

/-!
# Log filters

The variable `REVDEX_LOG` replaces the configured log level with a filter: directives separated by
commas, each a level alone or a target with an optional level, the target possibly carrying a
span and fields (`ingest[revision{id}]=trace`). A field value that is not a boolean or a number
is a regular expression the engine must take (`Regex.check`). Only whether a filter reads matters:
one that does not stops the command before the store is opened.

A directive is read one character at a time (`Directive.step`), as a small automaton reads it.
The characters read are those of the directive with blanks dropped from both ends, but each part
is cut from the directive as given, so blanks in front shift every part: ` x=info` has the
target ` ` and the level `=info`, which does not read.
-/

namespace TreeHistory

/-- How much a log filter lets through, from nothing to everything. -/
inductive LevelFilter where
  | off
  | error
  | warn
  | info
  | debug
  | trace
  deriving DecidableEq, Repr

namespace LevelFilter

/-- The level of a number from 0 (`off`) to 5 (`trace`). -/
def ofNumber? : Nat → Option LevelFilter
  | 0 => some .off
  | 1 => some .error
  | 2 => some .warn
  | 3 => some .info
  | 4 => some .debug
  | 5 => some .trace
  | _ => none

/-- Reads a level: a decimal number with an optional `+`, or a name in any case. -/
def parse? (text : String) : Option LevelFilter :=
  match (Text.readUnsigned 5 text).bind ofNumber? with
  | some level => some level
  | none =>
    match text.toLower with
    | "" => some .error
    | "error" => some .error
    | "warn" => some .warn
    | "info" => some .info
    | "debug" => some .debug
    | "trace" => some .trace
    | "off" => some .off
    | _ => none

end LevelFilter

/-- Why a log filter does not read. -/
inductive FilterError where
  /-- A directive is not of the filter's form. -/
  | invalid
  /-- A level is neither a name nor a number from 0 to 5. -/
  | level
  /-- A field's value is a pattern the expression engine refuses. -/
  | field (failure : Regex.Failure)
  deriving DecidableEq, Repr

/-- The text of a filter error. -/
def FilterError.message : FilterError → String
  | .invalid => "invalid filter directive"
  | .level =>
    "error parsing level filter: expected one of \"off\", \"error\", \"warn\", \"info\", " ++
      "\"debug\", \"trace\", or a number 0-5"
  | .field .unreadable => "invalid field filter: error building NFA"
  | .field .unicodeWordBoundary =>
    "invalid field filter: unsupported regex feature for DFAs: cannot build DFAs for regexes " ++
      "with Unicode word boundaries; switch to ASCII word boundaries, or heuristically enable " ++
      "Unicode word boundaries or use a different regex engine"

/-- Whether a text reads as a floating-point number; every integer does. -/
def isFloatText (text : String) : Bool :=
  let cs := match text.toList with
    | '+' :: rest | '-' :: rest => rest
    | cs => cs
  let lower := String.ofList (cs.map Char.toLower)
  if lower = "inf" ∨ lower = "infinity" ∨ lower = "nan" then true
  else
    let whole := cs.takeWhile Char.isDigit
    let cs := cs.drop whole.length
    let (fraction, cs) := match cs with
      | '.' :: rest =>
        let digits := rest.takeWhile Char.isDigit
        (digits, rest.drop digits.length)
      | _ => ([], cs)
    if whole.isEmpty ∧ fraction.isEmpty then false
    else
      match cs with
      | [] => true
      | e :: rest =>
        let digits := match rest with
          | '+' :: more | '-' :: more => more
          | more => more
        (e = 'e' ∨ e = 'E') ∧ Text.isDigits digits

/-- Why the value a field names is refused: a value that reads as a boolean or a number is
compared as one, and anything else is a pattern the engine may refuse. -/
def valueFailure (value : String) : Option Regex.Failure :=
  if value = "true" ∨ value = "false" ∨ isFloatText value then none else Regex.check value

/-- Why a field of a directive is refused. -/
def fieldFailure (field : String) : Option FilterError :=
  if field.isEmpty then some .invalid
  else
    match field.splitOn "=" with
    | _ :: value :: _ => (valueFailure value).map .field
    | _ => none

/-- One directive of a log filter. -/
structure Directive where
  level : LevelFilter := .trace
  target : Option String := none
  span : Option String := none
  fields : List String := []
  deriving DecidableEq, Repr

namespace Directive

/-- Where the reading of a directive stands; each part being read holds the byte offset it
starts at. -/
inductive State where
  /-- Nothing read yet. -/
  | start
  /-- A target, or a level alone. -/
  | levelOrTarget (start : Nat)
  /-- A span name inside brackets. -/
  | span (start : Nat)
  /-- A field inside braces. -/
  | field (start : Nat)
  /-- A field read: the closing bracket must come. -/
  | fields
  /-- A closing bracket read: only `=` may come. -/
  | target
  /-- The level, after `=`. -/
  | level (start : Nat)
  deriving DecidableEq, Repr

/-- Whether a character may open a directive other than with a bracket: a letter or number of
any script, `-`, `:` or `_`. -/
def opensTarget (c : Char) : Bool :=
  c = '-' || c = ':' || c = '_' || Text.isAlphanumeric c

/-- The text of a directive's bytes from offset `lo` to offset `hi`; an offset inside a
character does not read. -/
def cut (source : List UInt8) (lo hi : Nat) : Except FilterError String :=
  match String.fromUTF8? (ByteArray.mk ((source.drop lo).take (hi - lo)).toArray) with
  | some text => .ok text
  | none => .error .invalid

/-- Reads one character at a byte offset: the next state and what the directive holds then, or
the error. The parts are cut from `source`, the directive as given. -/
def step (source : List UInt8) (d : Directive) : State → Nat × Char →
    Except FilterError (Directive × State)
  | .start, (i, '[') => .ok (d, .span (i + 1))
  | .start, (i, c) => if opensTarget c then .ok (d, .levelOrTarget i) else .error .invalid
  | .levelOrTarget start, (i, '=') => do
    let target ← cut source start i
    .ok ({ d with target := some target }, .level (i + 1))
  | .levelOrTarget start, (i, '[') => do
    let target ← cut source start i
    .ok ({ d with target := some target }, .span (i + 1))
  | .levelOrTarget start, _ => .ok (d, .levelOrTarget start)
  | .target, (i, '=') => .ok (d, .level (i + 1))
  | .span start, (i, ']') => do
    let span ← cut source start i
    .ok ({ d with span := some span }, .target)
  | .span start, (i, '{') => do
    let span ← cut source start i
    .ok ({ d with span := if span.isEmpty then none else some span }, .field (i + 1))
  | .span start, _ => .ok (d, .span start)
  | .field start, (i, '}') => do
    let field ← cut source start i
    match fieldFailure field with
    | some e => .error e
    | none => .ok ({ d with fields := d.fields ++ [field] }, .fields)
  | .field start, _ => .ok (d, .field start)
  | .fields, (_, ']') => .ok (d, .target)
  | .level start, _ => .ok (d, .level start)
  | _, _ => .error .invalid

/-- Reads characters from a state, stopping at the first error. -/
def run (source : List UInt8) (d : Directive) (state : State) :
    List (Nat × Char) → Except FilterError (Directive × State)
  | [] => .ok (d, state)
  | c :: rest => do
    let (d, state) ← step source d state c
    run source d state rest

/-- A directive, when the reading ended in a state where it may end. -/
def finish (source : List UInt8) (d : Directive) : State → Except FilterError Directive
  | .levelOrTarget start => do
    let text ← cut source start source.length
    match LevelFilter.parse? text with
    | some level => .ok { d with level }
    | none => .ok { d with level := .trace, target := some text }
  | .level start => do
    let text ← cut source start source.length
    if text.isEmpty then .ok { d with level := .trace }
    else
      match LevelFilter.parse? text with
      | some level => .ok { d with level }
      | none => .error .level
  | .target => .ok d
  | _ => .error .invalid

/-- The characters of a text with the byte offset each starts at, counting from `i`. -/
def withOffsets : Nat → List Char → List (Nat × Char)
  | _, [] => []
  | i, c :: rest => (i, c) :: withOffsets (i + c.utf8Size) rest

/-- Reads a directive: its characters with blanks at its ends dropped, its parts cut from it as
given. -/
def parse (text : String) : Except FilterError Directive := do
  let source := text.toUTF8.toList
  let (d, state) ← run source {} .start (withOffsets 0 (Text.trimChars text.toList))
  finish source d state

end Directive

/-- Reads a filter: its directives between commas, empty ones skipped. -/
def parseFilter (text : String) : Except FilterError (List Directive) :=
  ((text.splitOn ",").filter (· ≠ "")).mapM Directive.parse

end TreeHistory
