/-!
# LIKE and GLOB patterns

`LIKE` patterns use `%` and `_`, compare ASCII letters without regard to case, and may name an
escape character; `GLOB` patterns use `*`, `?` and bracket classes, and compare case exactly.
After a run of wildcards the text is searched for the next literal. A failure that ran out of
text ends the search at once (`Outcome`), which keeps matching polynomial. Texts are read up to
their first NUL character.
-/

namespace TreeHistory
namespace Sql
namespace Pattern

/-- How a match ended. -/
inductive Outcome where
  | matched
  | noMatch
  /-- No match here, and none at any later place the wildcard before could start from. -/
  | exhausted
  deriving DecidableEq, Repr

/-- The wildcards of a kind of pattern; either may be turned off by an escape that equals it. -/
structure Syntax where
  many : Option Char
  one : Option Char
  /-- Whether brackets make classes, as in `GLOB`. -/
  classes : Bool
  /-- Whether ASCII letters match without regard to case, as in `LIKE`. -/
  noCase : Bool

/-- The syntax of `LIKE`. -/
def likeSyntax : Syntax := { many := some '%', one := some '_', classes := false, noCase := true }

/-- The syntax of `GLOB`. -/
def globSyntax : Syntax := { many := some '*', one := some '?', classes := true, noCase := false }

/-- Text up to its first NUL character. -/
def cString (text : List Char) : List Char := text.takeWhile (· ≠ '\x00')

/-- Whether a pattern character matches a text character as a literal. -/
def sameChar (s : Syntax) (c t : Char) : Bool :=
  c == t || (s.noCase && c.toNat < 128 && t.toNat < 128 && c.toLower == t.toLower)

/-- Reads the rest of a bracket class for a text character: whether the character was seen, and
the pattern after the closing `]`, or `none` when the class does not close. -/
def classRest (t : Char) : Char → Bool → List Char → Option (Bool × List Char)
  | _, _, [] => none
  | prior, seen, c :: rest =>
    if c = ']' then some (seen, rest)
    else if c = '-' ∧ prior ≠ '\x00' then
      match rest with
      | [] => none
      | ']' :: tail => classRest t c (seen || t == c) (']' :: tail)
      | hi :: more => classRest t '\x00' (seen || (prior ≤ t && t ≤ hi)) more
    else classRest t c (seen || t == c) rest
termination_by _ _ pattern => pattern.length

/-- Reads a bracket class after its `[` for a text character: whether the class lets it through,
and the pattern after the class. -/
def readClass (t : Char) (pattern : List Char) : Option (Bool × List Char) :=
  let (invert, pattern) := match pattern with
    | '^' :: rest => (true, rest)
    | _ => (false, pattern)
  let (seen, pattern) := match pattern with
    | ']' :: rest => (t == ']', rest)
    | _ => (false, pattern)
  (classRest t '\x00' seen pattern).map fun (seen, rest) => (seen != invert, rest)

/-- Skips the wildcards after a `%` or `*`; `none` when the text runs out at a single wildcard. -/
def skipWildcards (s : Syntax) : List Char → List Char → Option (List Char × List Char)
  | [], text => some ([], text)
  | c :: rest, text =>
    if some c = s.many then skipWildcards s rest text
    else if some c = s.one then
      match text with
      | _ :: more => skipWildcards s rest more
      | [] => none
    else some (c :: rest, text)

mutual

/-- Matches a pattern against text, with `escape` the escape character of `LIKE` or `[` for
`GLOB`. -/
def compare (s : Syntax) (escape : Option Char) : Nat → List Char → List Char → Outcome
  | 0, _, _ => .noMatch
  | fuel + 1, pattern, text =>
    match pattern with
    | [] => if text.isEmpty then .matched else .noMatch
    | c :: rest =>
      if some c = s.many then
        match skipWildcards s rest text with
        | none => .exhausted
        | some ([], _) => .matched
        | some (c :: after, text) =>
          if some c = escape then
            if s.classes then searchClass s escape fuel (c :: after) text
            else
              match after with
              | [] => .exhausted
              | e :: after => searchLiteral s escape fuel e after text
          else searchLiteral s escape fuel c after text
      else if some c = escape then
        if s.classes then
          match text with
          | [] => .noMatch
          | t :: more =>
            match readClass t rest with
            | some (true, after) => compare s escape fuel after more
            | _ => .noMatch
        else
          match rest, text with
          | e :: after, t :: more => if sameChar s e t then compare s escape fuel after more else .noMatch
          | _, _ => .noMatch
      else
        match text with
        | t :: more =>
          if sameChar s c t || some c = s.one then compare s escape fuel rest more else .noMatch
        | [] => .noMatch
termination_by fuel _ _ => (fuel, 0, 0)

/-- After wildcards, tries the rest of the pattern after each place in the text where its next
literal `c` occurs. -/
def searchLiteral (s : Syntax) (escape : Option Char) (fuel : Nat) (c : Char) (after : List Char) :
    List Char → Outcome
  | [] => .exhausted
  | t :: more =>
    if sameChar s c t then
      match compare s escape fuel after more with
      | .noMatch => searchLiteral s escape fuel c after more
      | outcome => outcome
    else searchLiteral s escape fuel c after more
termination_by text => (fuel, 1, text.length)

/-- After wildcards, tries a pattern that starts with a class at each place in the text. -/
def searchClass (s : Syntax) (escape : Option Char) (fuel : Nat) (pattern : List Char) :
    List Char → Outcome
  | [] => .exhausted
  | t :: more =>
    match compare s escape fuel pattern (t :: more) with
    | .noMatch => searchClass s escape fuel pattern more
    | outcome => outcome
termination_by text => (fuel, 1, text.length)

end

/-- Whether text matches a pattern. -/
def accepts (s : Syntax) (escape : Option Char) (pattern text : List Char) : Bool :=
  let pattern := cString pattern
  compare s escape (pattern.length + 1) pattern (cString text) == .matched

/-- `LIKE` with an optional escape character; an escape that is a wildcard turns that wildcard
off. -/
def like (escape : Option Char) (pattern text : List Char) : Bool :=
  let s := { likeSyntax with
    many := if escape = some '%' then none else likeSyntax.many
    one := if escape = some '_' then none else likeSyntax.one }
  accepts s escape pattern text

/-- `GLOB`. -/
def glob (pattern text : List Char) : Bool := accepts globSyntax (some '[') pattern text

end Pattern
end Sql
end TreeHistory
