import TreeHistory.Text.Alphanumeric
import TreeHistory.Text.Blank

/-!
# Patterns of field values

A log filter may compare a field's value with a regular expression, and the filter reads only if
the expression engine can build an automaton for the pattern. `check` reads a pattern the way the
engine does and says why it cannot: the pattern does not read (`Failure.unreadable`), or it asks
for a word boundary with the `u` flag on (`Failure.unicodeWordBoundary`).
-/

namespace TreeHistory
namespace Regex

/-- Why the engine refuses a pattern. -/
inductive Failure where
  /-- The pattern does not read, or reads to something the engine refuses. -/
  | unreadable
  /-- The pattern asks for a word boundary in Unicode mode. -/
  | unicodeWordBoundary
  deriving DecidableEq, Repr

/-- The flags in force at a place in a pattern. -/
structure Flags where
  /-- `u`: the pattern matches characters, not bytes. -/
  unicode : Bool := true
  /-- `x`: blanks and `#` comments are skipped. -/
  spaces : Bool := false
  deriving DecidableEq, Repr

/-- The last part read in the current sequence, which decides whether a repetition has
something to repeat: nothing, a group that only sets flags, or anything else. -/
inductive Last where
  | nothing
  | flags
  | item
  deriving DecidableEq, Repr

/-- What reading found besides the syntax: something the engine refuses once the pattern has
read, and a word boundary in Unicode mode. -/
structure Findings where
  refused : Bool := false
  unicodeBoundary : Bool := false
  deriving DecidableEq, Repr

/-- Both findings together. -/
def Findings.merge (a b : Findings) : Findings :=
  { refused := a.refused || b.refused, unicodeBoundary := a.unicodeBoundary || b.unicodeBoundary }

/-- Skips blanks and `#` comments, each running to the end of its line. -/
def skipComments : Nat → List Char → List Char
  | 0, cs => cs
  | _ + 1, [] => []
  | fuel + 1, c :: rest =>
    if Text.isBlank c then skipComments fuel rest
    else if c = '#' then skipComments fuel ((rest.dropWhile (· ≠ '\n')).drop 1)
    else c :: rest

/-- Skips what the `x` flag makes count for nothing, when it is on. -/
def skipSpace (flags : Flags) (cs : List Char) : List Char :=
  if flags.spaces then skipComments (cs.length + 1) cs else cs

/-- Skips blanks whatever the flags, and with the `x` flag the comments after each. -/
def skipBlanks (flags : Flags) : Nat → List Char → List Char
  | 0, cs => cs
  | _ + 1, [] => []
  | fuel + 1, c :: rest =>
    if Text.isBlank c then skipBlanks flags fuel (skipSpace flags rest) else c :: rest

/-- The value of a hexadecimal digit. -/
def hexValue? (c : Char) : Option Nat :=
  if '0' ≤ c ∧ c ≤ '9' then some (c.toNat - '0'.toNat)
  else if 'a' ≤ c ∧ c ≤ 'f' then some (c.toNat - 'a'.toNat + 10)
  else if 'A' ≤ c ∧ c ≤ 'F' then some (c.toNat - 'A'.toNat + 10)
  else none

/-- Whether a number is a Unicode scalar value: at most `0x10FFFF` and not a surrogate. -/
def isScalar (n : Nat) : Bool :=
  n ≤ 0x10FFFF && !(0xD800 ≤ n && n ≤ 0xDFFF)

/-- Reads `count` hexadecimal digits, each followed by what the flags skip, into `acc`. -/
def fixedHex (flags : Flags) : Nat → Nat → List Char → Option (Nat × List Char)
  | 0, acc, cs => some (acc, cs)
  | count + 1, acc, c :: rest => do
    let d ← hexValue? c
    fixedHex flags count (acc * 16 + d) (skipSpace flags rest)
  | _ + 1, _, [] => none

/-- Reads hexadecimal digits up to a `}`, each followed by what the flags skip: the digits'
value, whether there was one, and the pattern after the `}`. -/
def bracedHex (flags : Flags) : Nat → Nat → Bool → List Char → Option (Nat × Bool × List Char)
  | 0, _, _, _ => none
  | _ + 1, _, _, [] => none
  | fuel + 1, acc, any, c :: rest =>
    if c = '}' then some (acc, any, rest)
    else do
      let d ← hexValue? c
      bracedHex flags fuel (acc * 16 + d) true (skipSpace flags rest)

/-- A name with blanks, underscores and hyphens dropped, ASCII letters in lower case and other
characters past ASCII dropped, and a leading `is` dropped. -/
def normalizeName (name : List Char) : List Char :=
  let body := match name with
    | a :: b :: rest => if a.toLower = 'i' ∧ b.toLower = 's' then rest else name
    | _ => name
  (body.filter fun c => c ≠ ' ' ∧ c ≠ '_' ∧ c ≠ '-' ∧ c.toNat < 128).map Char.toLower

/-- The general categories and their short names, normalized, with the classes of every
character, of ASCII and of the assigned characters. -/
def categoryNames : List String :=
  ["any", "ascii", "assigned", "c", "other", "cc", "control", "cntrl", "cf", "format", "cn",
   "unassigned", "co", "privateuse", "cs", "surrogate", "l", "letter", "lc", "casedletter",
   "ll", "lowercaseletter", "lm", "modifierletter", "lo", "otherletter", "lt",
   "titlecaseletter", "lu", "uppercaseletter", "m", "mark", "combiningmark", "mc",
   "spacingmark", "me", "enclosingmark", "mn", "nonspacingmark", "n", "number", "nd",
   "decimalnumber", "digit", "nl", "letternumber", "no", "othernumber", "p", "punctuation",
   "punct", "pc", "connectorpunctuation", "pd", "dashpunctuation", "pe", "closepunctuation",
   "pf", "finalpunctuation", "pi", "initialpunctuation", "po", "otherpunctuation", "ps",
   "openpunctuation", "s", "symbol", "sc", "currencysymbol", "sk", "modifiersymbol", "sm",
   "mathsymbol", "so", "othersymbol", "z", "separator", "zl", "lineseparator", "zp",
   "paragraphseparator", "zs", "spaceseparator"]

/-- Whether a class name read after `\p` names a class: one of `categoryNames`. -/
def knownClass (name : List Char) : Bool :=
  categoryNames.contains (String.ofList (normalizeName name))

/-- What an escape stands for. -/
inductive Atom where
  /-- A character; `byte` when written as two hexadecimal digits after `\x`, which stand for a
  byte when the `u` flag is off. -/
  | char (c : Char) (byte : Bool)
  /-- `\d`, `\s`, `\w`, or their negations. -/
  | perl (negated : Bool)
  /-- A Unicode class, `\p` or `\P`. -/
  | unicode
  /-- An assertion; `boundary` for the word boundaries. -/
  | assertion (boundary : Bool)
  deriving DecidableEq, Repr

/-- The ASCII characters an escape may make literal: every one but letters, digits, `<` and
`>`. -/
def escapable (c : Char) : Bool :=
  c.toNat < 128 && !c.isAlphanum && c ≠ '<' && c ≠ '>'

/-- The letters of the special word boundaries `\b{start}` and the like. -/
def boundaryLetter (c : Char) : Bool :=
  c.isAlpha || c = '-'

/-- Reads the letters of a special word boundary, each followed by what the flags skip. -/
def boundaryName (flags : Flags) : Nat → List Char → List Char → List Char × List Char
  | 0, name, cs => (name.reverse, cs)
  | _ + 1, name, [] => (name.reverse, [])
  | fuel + 1, name, c :: rest =>
    if boundaryLetter c then boundaryName flags fuel (c :: name) (skipSpace flags rest)
    else (name.reverse, c :: rest)

/-- Reads an escape after its backslash: what it stands for and the pattern after it, or `none`
when it does not read. -/
def escape (flags : Flags) : List Char → Option (Atom × List Char)
  | [] => none
  | c :: rest =>
    if c.isDigit then none
    else if c = 'x' ∨ c = 'u' ∨ c = 'U' then
      match skipSpace flags rest with
      | [] => none
      | '{' :: more => do
        let (n, any, after) ← bracedHex flags (more.length + 1) 0 false (skipSpace flags more)
        if any ∧ isScalar n then some (.char (Char.ofNat n) false, skipSpace flags after) else none
      | digits => do
        let count := if c = 'x' then 2 else if c = 'u' then 4 else 8
        let (n, after) ← fixedHex flags count 0 digits
        if isScalar n then some (.char (Char.ofNat n) (c = 'x'), after) else none
    else if c = 'p' ∨ c = 'P' then
      match skipSpace flags rest with
      | [] => none
      | '{' :: more =>
        let name := more.takeWhile (· ≠ '}')
        match more.drop name.length with
        | '}' :: after =>
          if knownClass (name.filter fun c => !(flags.spaces && Text.isBlank c)) then
            some (.unicode, after)
          else none
        | _ => none
      | '\\' :: _ => none
      | letter :: after =>
        if knownClass [letter] then some (.unicode, skipSpace flags after) else none
    else if c = 'd' ∨ c = 's' ∨ c = 'w' then some (.perl false, rest)
    else if c = 'D' ∨ c = 'S' ∨ c = 'W' then some (.perl true, rest)
    else if escapable c then some (.char c false, rest)
    else if c = 'a' then some (.char '\x07' false, rest)
    else if c = 'f' then some (.char '\x0C' false, rest)
    else if c = 't' then some (.char '\t' false, rest)
    else if c = 'n' then some (.char '\n' false, rest)
    else if c = 'r' then some (.char '\r' false, rest)
    else if c = 'v' then some (.char '\x0B' false, rest)
    else if c = 'A' ∨ c = 'z' then some (.assertion false, rest)
    else if c = 'B' ∨ c = '<' ∨ c = '>' then some (.assertion true, rest)
    else if c = 'b' then
      match rest with
      | '{' :: more =>
        match skipSpace flags more with
        | [] => none
        | d :: after =>
          if !boundaryLetter d then some (.assertion true, rest)
          else
            match boundaryName flags (after.length + 2) [] (d :: after) with
            | (name, '}' :: after) =>
              if ["start", "end", "start-half", "end-half"].contains (String.ofList name) then
                some (.assertion true, after)
              else none
            | _ => none
      | _ => some (.assertion true, rest)
    else none

/-- What an escape outside a class adds to the findings. -/
def Atom.findings (flags : Flags) : Atom → Findings
  | .char c byte => { refused := !flags.unicode && byte && c.toNat ≥ 0x80 }
  | .perl negated => { refused := !flags.unicode && negated }
  | .unicode => { refused := !flags.unicode }
  | .assertion boundary => { unicodeBoundary := boundary && flags.unicode }

/-- What an item of a class adds to the findings: with the `u` flag off a class holds ASCII
only. -/
def Atom.classFindings (flags : Flags) : Atom → Findings
  | .char c _ => { refused := !flags.unicode && c.toNat ≥ 0x80 }
  | .perl negated => { refused := !flags.unicode && negated }
  | .unicode => { refused := !flags.unicode }
  | .assertion _ => {}

/-- Reads one item of a class: an escape or a character. -/
def classAtom (flags : Flags) : List Char → Option (Atom × List Char)
  | '\\' :: rest => escape flags rest
  | c :: rest => some (.char c false, rest)
  | [] => none

/-- The names of the ASCII classes written `[:name:]` inside a class. -/
def asciiClassNames : List String :=
  ["alnum", "alpha", "ascii", "blank", "cntrl", "digit", "graph", "lower", "print", "punct",
   "space", "upper", "word", "xdigit"]

/-- Reads an ASCII class `[:name:]` or `[:^name:]` at a `[` inside a class: whether it is
negated and the pattern after it, or `none` when there is none there. -/
def asciiClass : List Char → Option (Bool × List Char)
  | '[' :: ':' :: rest =>
    let (negated, rest) := match rest with
      | '^' :: more => (true, more)
      | _ => (false, rest)
    let name := rest.takeWhile (· ≠ ':')
    match rest.drop name.length with
    | ':' :: ']' :: after =>
      if asciiClassNames.contains (String.ofList name) then some (negated, after) else none
    | _ => none
  | _ => none

/-- Reads the `-` characters a class starts with, which stand for themselves; `none` when the
pattern ends. -/
def leadingDashes (flags : Flags) : Nat → Bool → List Char → Option (Bool × List Char)
  | 0, any, cs => some (any, cs)
  | _ + 1, _, [] => none
  | fuel + 1, any, c :: rest =>
    if c = '-' then
      match skipSpace flags rest with
      | [] => none
      | more => leadingDashes flags fuel true more
    else some (any, c :: rest)

/-- Reads the opening of a class after its `[`: whether it is negated, and the pattern after the
leading `-` characters and a first `]`, which stand for themselves. -/
def classOpen (flags : Flags) (cs : List Char) : Option (Bool × List Char) := do
  let cs := skipSpace flags cs
  if cs.isEmpty then none
  let (negated, cs) := match cs with
    | '^' :: rest => (true, skipSpace flags rest)
    | _ => (false, cs)
  if cs.isEmpty then none
  let (dashes, cs) ← leadingDashes flags (cs.length + 1) false cs
  match dashes, cs with
  | false, ']' :: rest =>
    let rest := skipSpace flags rest
    if rest.isEmpty then none else some (negated, rest)
  | _, _ => some (negated, cs)

/-- The next character after the current one, past what the flags skip. -/
def peekSpace (flags : Flags) : List Char → Option Char
  | _ :: rest => (skipSpace flags rest).head?
  | [] => none

/-- Reads the classes of a pattern from a `[` to the `]` that closes it, or `none`. -/
def readClass (flags : Flags) : Nat → Nat → Findings → List Char → Option (Findings × List Char)
  | 0, _, _, _ => none
  | fuel + 1, depth, found, cs =>
    match skipSpace flags cs with
    | [] => none
    | '[' :: rest =>
      match (if depth > 0 then asciiClass ('[' :: rest) else none) with
      | some (negated, after) =>
        readClass flags fuel depth (found.merge { refused := !flags.unicode && negated }) after
      | none => do
        let (negated, after) ← classOpen flags rest
        readClass flags fuel (depth + 1)
          (found.merge { refused := !flags.unicode && negated }) after
    | ']' :: rest =>
      if depth ≤ 1 then some (found, rest) else readClass flags fuel (depth - 1) found rest
    | '&' :: '&' :: rest => readClass flags fuel depth found rest
    | '-' :: '-' :: rest => readClass flags fuel depth found rest
    | '~' :: '~' :: rest => readClass flags fuel depth found rest
    | cs => do
      let (first, after) ← classAtom flags cs
      let after := skipSpace flags after
      if after.isEmpty then none
      let next := peekSpace flags after
      if after.head? ≠ some '-' ∨ next = some ']' ∨ next = some '-' then
        match first with
        | .assertion _ => none
        | atom => readClass flags fuel depth (found.merge (atom.classFindings flags)) after
      else
        let after := skipSpace flags (after.drop 1)
        if after.isEmpty then none
        let (last, after) ← classAtom flags after
        match first, last with
        | .char lo _, .char hi _ =>
          if lo ≤ hi then
            let found := (found.merge (first.classFindings flags)).merge (last.classFindings flags)
            readClass flags fuel depth found after
          else none
        | _, _ => none

/-- Reads decimal digits, each followed by what the flags skip. -/
def decimalDigits (flags : Flags) : Nat → List Char → List Char → List Char × List Char
  | 0, digits, cs => (digits.reverse, cs)
  | _ + 1, digits, [] => (digits.reverse, [])
  | fuel + 1, digits, c :: rest =>
    if c.isDigit then decimalDigits flags fuel (c :: digits) (skipSpace flags rest)
    else (digits.reverse, c :: rest)

/-- Reads a decimal count of a repetition that fits in 32 bits. -/
def readDecimal (flags : Flags) (cs : List Char) : Option Nat × List Char :=
  let cs := cs.dropWhile Text.isBlank
  let (digits, rest) := decimalDigits flags (cs.length + 1) [] cs
  let rest := skipBlanks flags (rest.length + 1) rest
  let value := digits.foldl (fun n c => n * 10 + (c.toNat - '0'.toNat)) 0
  (if digits.isEmpty ∨ value ≥ Nat.pow 2 32 then none else some value, rest)

/-- Reads a counted repetition after its `{`, or `none`. -/
def readCount (flags : Flags) (cs : List Char) : Option (List Char) := do
  let cs := skipSpace flags cs
  if cs.isEmpty then none
  let (low, cs) := readDecimal flags cs
  let cs ← match cs with
    | [] => none
    | ',' :: more =>
      match skipSpace flags more with
      | [] => none
      | '}' :: after => do
        let _ ← low
        pure ('}' :: after)
      | after => do
        let lo ← low
        let (high, after) := readDecimal flags after
        let hi ← high
        if lo ≤ hi then pure after else none
    | other => do
      let _ ← low
      pure other
  match cs with
  | '}' :: rest =>
    match skipSpace flags rest with
    | '?' :: after => some after
    | after => some after
  | _ => none

/-- Whether a character may stand in a group name: an underscore or a letter first; then also a
digit, a dot or a bracket. -/
def nameChar (first : Bool) (c : Char) : Bool :=
  c = '_' || Text.isAlphabetic c ||
    (!first && (c = '.' || c = '[' || c = ']' || Text.isNumeric c))

/-- Reads a group name up to its `>`: the name and the pattern after the `>`, or `none` when a
character may not stand in it or the pattern ends. -/
def readName (name : List Char) : List Char → Option (List Char × List Char)
  | [] => none
  | c :: rest =>
    if c = '>' then some (name.reverse, rest)
    else if nameChar name.isEmpty c then readName (c :: name) rest
    else none

/-- Turns a flag on or off; only `u` and `x` change how the rest reads. -/
def Flags.set (flags : Flags) (c : Char) (on : Bool) : Flags :=
  if c = 'u' then { flags with unicode := on }
  else if c = 'x' then { flags with spaces := on }
  else flags

/-- Reads the flags of a group after its `?` up to a `:` or `)`, or `none`. -/
def readFlags (flags : Flags) (seen : List Char) (negated lastNegation : Bool) :
    List Char → Option (Flags × Bool × List Char)
  | [] => none
  | c :: rest =>
    if c = ':' ∨ c = ')' then
      if lastNegation then none else some (flags, !seen.isEmpty, c :: rest)
    else if rest.isEmpty then none
    else if c = '-' then
      if negated then none else readFlags flags seen true true rest
    else if ['i', 'm', 's', 'U', 'u', 'R', 'x'].contains c ∧ !seen.contains c then
      readFlags (flags.set c !negated) (c :: seen) negated false rest
    else none

/-- Reads a pattern from a place in it: `stack` holds the flags to restore at each `)`, `names`
the group names used. -/
def readPattern : Nat → List Flags → Flags → Last → List String → Findings → List Char →
    Except Failure Findings
  | 0, _, _, _, _, _, _ => .error .unreadable
  | fuel + 1, stack, flags, last, names, found, cs =>
    match skipSpace flags cs with
    | [] => if stack.isEmpty then .ok found else .error .unreadable
    | '(' :: rest =>
      let rest := skipSpace flags rest
      match rest with
      | '?' :: '=' :: _ | '?' :: '!' :: _ | '?' :: '<' :: '=' :: _ | '?' :: '<' :: '!' :: _ =>
        .error .unreadable
      | '?' :: 'P' :: '<' :: more | '?' :: '<' :: more =>
        match readName [] more with
        | some (name, after) =>
          let name := String.ofList name
          if name.isEmpty ∨ names.contains name then .error .unreadable
          else readPattern fuel (flags :: stack) flags .nothing (name :: names) found after
        | none => .error .unreadable
      | '?' :: more =>
        match readFlags flags [] false false more with
        | some (set, true, ')' :: after) => readPattern fuel stack set .flags names found after
        | some (set, _, ':' :: after) =>
          readPattern fuel (flags :: stack) set .nothing names found after
        | _ => .error .unreadable
      | _ => readPattern fuel (flags :: stack) flags .nothing names found rest
    | ')' :: rest =>
      match stack with
      | saved :: stack => readPattern fuel stack saved .item names found rest
      | [] => .error .unreadable
    | '|' :: rest => readPattern fuel stack flags .nothing names found rest
    | '[' :: rest =>
      match readClass flags (rest.length + 2) 0 found ('[' :: rest) with
      | some (found, after) => readPattern fuel stack flags .item names found after
      | none => .error .unreadable
    | c :: rest =>
      if c = '?' ∨ c = '*' ∨ c = '+' then
        if last ≠ .item then .error .unreadable
        else
          let rest := match rest with
            | '?' :: more => more
            | _ => rest
          readPattern fuel stack flags .item names found rest
      else if c = '{' then
        if last ≠ .item then .error .unreadable
        else match readCount flags rest with
          | some after => readPattern fuel stack flags .item names found after
          | none => .error .unreadable
      else if c = '\\' then
        match escape flags rest with
        | some (atom, after) =>
          readPattern fuel stack flags .item names (found.merge (atom.findings flags)) after
        | none => .error .unreadable
      else if c = '.' then
        readPattern fuel stack flags .item names (found.merge { refused := !flags.unicode }) rest
      else readPattern fuel stack flags .item names found rest

/-- Checks a pattern: `none` when the engine builds its automaton, else why it does not. -/
def check (pattern : String) : Option Failure :=
  let cs := pattern.toList
  match readPattern (cs.length + 1) [] {} .nothing [] {} cs with
  | .error failure => some failure
  | .ok found =>
    if found.refused then some .unreadable
    else if found.unicodeBoundary then some .unicodeWordBoundary
    else none

end Regex
end TreeHistory
