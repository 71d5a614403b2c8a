import TreeHistory.Sql.Value

/-!
# Tokens of SQL text

`tokenize` splits SQL text into tokens, each with the span of characters it came from, so that a
constraint can name itself by its text. Blanks and comments separate tokens and are dropped. A
double-quoted name is kept apart, as it is read as a string where no column has that name. A `_`
between two digits of a number is dropped; anywhere else it makes the number an illegal token.
-/

namespace TreeHistory
namespace Sql

/-- What a token is. -/
inductive TokenKind where
  /-- A bare word: an identifier or a keyword. -/
  | word (text : String)
  /-- A name in double quotes. -/
  | quoted (text : String)
  /-- A name in brackets or backquotes. -/
  | bracketed (text : String)
  | string (text : String)
  | blob (bytes : List UInt8)
  /-- An integer literal as written, decimal or hexadecimal. -/
  | integer (text : String)
  /-- A literal with a fraction or an exponent, as written. -/
  | float (text : String)
  /-- A parameter: `?`, `?NNN`, `:name`, `@name` or `$name`. -/
  | param (text : String)
  | symbol (text : String)
  | illegal (text : String)
  deriving DecidableEq, Repr, Inhabited

/-- A token and the span `[start, stop)` of characters it came from. -/
structure Token where
  kind : TokenKind
  start : Nat
  stop : Nat
  deriving DecidableEq, Repr, Inhabited

/-- Characters that may continue an identifier. -/
def isIdentChar (c : Char) : Bool :=
  c.isAlphanum || c = '_' || c = '$' || c.toNat ≥ 128

/-- Characters that may start an identifier. -/
def isIdentStart (c : Char) : Bool :=
  c.isAlpha || c = '_' || c.toNat ≥ 128

/-- Whether a character is a hexadecimal digit. -/
def isHexDigit (c : Char) : Bool :=
  c.isDigit || ('a' ≤ c ∧ c ≤ 'f') || ('A' ≤ c ∧ c ≤ 'F')

/-- The value of a hexadecimal digit. -/
def hexValue (c : Char) : Nat :=
  if c.isDigit then c.toNat - 48
  else if 'a' ≤ c ∧ c ≤ 'f' then c.toNat - 87
  else c.toNat - 55

/-- The body of a quoted name or string after its opening quote, a doubled quote standing for
itself. -/
def readQuoted (close : Char) : List Char → List Char × Nat × Bool
  | [] => ([], 0, false)
  | c :: rest =>
    if c = close then
      match rest with
      | d :: more =>
        if d = close then
          let (body, used, closed) := readQuoted close more
          (close :: body, used + 2, closed)
        else ([], 1, true)
      | [] => ([], 1, true)
    else
      let (body, used, closed) := readQuoted close rest
      (c :: body, used + 1, closed)

/-- The length of the text a block comment covers after its opening `/*`, its closing `*/`
included when there is one. -/
def blockCommentLength : List Char → Nat
  | '*' :: '/' :: _ => 2
  | _ :: rest => blockCommentLength rest + 1
  | [] => 0

/-- The bytes of pairs of hexadecimal digits. -/
def hexBytes : List Char → List UInt8
  | a :: b :: rest => UInt8.ofNat (hexValue a * 16 + hexValue b) :: hexBytes rest
  | _ => []

/-- The length of a run of digits, which may be split by `_` separators, and whether a
separator is in it. -/
def digitRun (isDigitChar : Char → Bool) (text : List Char) : Nat × Bool :=
  let run := text.takeWhile fun c => isDigitChar c || c = '_'
  (run.length, run.contains '_')

/-- The length of a decimal number at the start of some text, and whether it has a fraction or
exponent and separators. -/
def numberLength (text : List Char) : Nat × Bool × Bool :=
  let (whole, split) := digitRun Char.isDigit text
  let rest := text.drop whole
  let (fraction, rest, isFloat, split) := match rest with
    | '.' :: more =>
      let (digits, more_split) := digitRun Char.isDigit more
      (digits + 1, more.drop digits, true, split || more_split)
    | _ => (0, rest, false, split)
  let (exponent, isFloat, split) := match rest with
    | e :: more =>
      if e = 'e' ∨ e = 'E' then
        let (sign, digitsFrom) := match more with
          | s :: after => if s = '+' ∨ s = '-' then (1, after) else (0, more)
          | [] => (0, more)
        if (digitsFrom.head?.map Char.isDigit).getD false then
          let (digits, exp_split) := digitRun Char.isDigit digitsFrom
          (1 + sign + digits, true, split || exp_split)
        else (0, isFloat, split)
      else (0, isFloat, split)
    | [] => (0, isFloat, split)
  (whole + fraction + exponent, isFloat, split)

/-- Whether every `_` of a number stands between two digits. -/
def separatorsValid (isDigitChar : Char → Bool) : Option Char → List Char → Bool
  | _, [] => true
  | before, '_' :: rest =>
    (before.map isDigitChar).getD false && (rest.head?.map isDigitChar).getD false &&
      separatorsValid isDigitChar (some '_') rest
  | _, c :: rest => separatorsValid isDigitChar (some c) rest

/-- The operators, longest first. -/
def operators : List String :=
  ["||", "<<", ">>", "<=", ">=", "==", "!=", "<>", "->>", "->",
   "(", ")", ";", "+", "-", "*", "/", "%", ",", "&", "|", "~", "<", ">", "=", ".", "!"]

/-- The token at the start of some text and how many characters it takes, or the number of
characters of blanks or comment to skip. -/
def nextToken (text : List Char) : Option TokenKind × Nat :=
  match text with
  | [] => (none, 0)
  | c :: rest =>
    if c = ' ' ∨ c = '\t' ∨ c = '\n' ∨ c = '\r' ∨ c.toNat = 12 then (none, 1)
    else if c = '-' ∧ rest.head? = some '-' then
      (none, 2 + ((rest.drop 1).takeWhile (· ≠ '\n')).length)
    else if c = '/' ∧ rest.head? = some '*' then (none, 2 + blockCommentLength (rest.drop 1))
    else if (c = 'x' ∨ c = 'X') ∧ rest.head? = some '\'' then
      let (body, used, closed) := readQuoted '\'' (rest.drop 1)
      if closed ∧ body.all isHexDigit ∧ body.length % 2 = 0 then
        (some (.blob (hexBytes body)), used + 2)
      else (some (.illegal (String.ofList (c :: '\'' :: body))), used + 2)
    else if c = '\'' then
      let (body, used, closed) := readQuoted '\'' rest
      if closed then (some (.string (String.ofList body)), used + 1)
      else (some (.illegal (String.ofList (c :: body))), used + 1)
    else if c = '"' then
      let (body, used, closed) := readQuoted '"' rest
      if closed then (some (.quoted (String.ofList body)), used + 1)
      else (some (.illegal (String.ofList (c :: body))), used + 1)
    else if c = '`' then
      let (body, used, closed) := readQuoted '`' rest
      if closed then (some (.bracketed (String.ofList body)), used + 1)
      else (some (.illegal (String.ofList (c :: body))), used + 1)
    else if c = '[' then
      let body := rest.takeWhile (· ≠ ']')
      if body.length < rest.length then (some (.bracketed (String.ofList body)), body.length + 2)
      else (some (.illegal (String.ofList (c :: body))), body.length + 1)
    else if c = '0' ∧ (rest.head? = some 'x' ∨ rest.head? = some 'X') ∧
        ((rest.drop 1).head?.map isHexDigit).getD false then
      let (digits, _) := digitRun isHexDigit (rest.drop 1)
      let length := digits + 2
      if ((text.drop length).head?.map isIdentChar).getD false then
        let tail := (text.drop length).takeWhile isIdentChar
        (some (.illegal (String.ofList (text.take (length + tail.length)))), length + tail.length)
      else
        let body := (rest.drop 1).take digits
        if separatorsValid isHexDigit none body then
          (some (.integer (String.ofList (text.take 2 ++ body.filter (· ≠ '_')))), length)
        else (some (.illegal (String.ofList (text.take length))), length)
    else if c.isDigit ∨ (c = '.' ∧ ((rest.head?.map Char.isDigit).getD false)) then
      let (length, isFloat, _) := numberLength text
      if ((text.drop length).head?.map isIdentChar).getD false then
        let tail := (text.drop length).takeWhile isIdentChar
        (some (.illegal (String.ofList (text.take (length + tail.length)))), length + tail.length)
      else
        let written := text.take length
        let literal := String.ofList (written.filter (· ≠ '_'))
        if separatorsValid Char.isDigit none written then
          (some (if isFloat then .float literal else .integer literal), length)
        else (some (.illegal (String.ofList written)), length)
    else if c = '?' then
      let digits := rest.takeWhile Char.isDigit
      (some (.param (String.ofList (c :: digits))), digits.length + 1)
    else if c = ':' ∨ c = '@' ∨ c = '$' then
      let name := rest.takeWhile isIdentChar
      if name.isEmpty then (some (.illegal (String.singleton c)), 1)
      else (some (.param (String.ofList (c :: name))), name.length + 1)
    else if isIdentStart c then
      let word := text.takeWhile isIdentChar
      (some (.word (String.ofList word)), word.length)
    else
      match operators.find? (fun op => op.toList.isPrefixOf text) with
      | some "!" => (some (.illegal "!"), 1)
      | some op => (some (.symbol op), op.length)
      | none => (some (.illegal (String.singleton c)), 1)

/-- Splits text into tokens; `fuel` bounds the steps, one per token or skipped run. -/
def tokensFrom : Nat → Nat → List Char → List Token
  | 0, _, _ => []
  | _ + 1, _, [] => []
  | fuel + 1, position, text =>
    match nextToken text with
    | (kind, used) =>
      let used := max used 1
      let rest := tokensFrom fuel (position + used) (text.drop used)
      match kind with
      | some kind => { kind := kind, start := position, stop := position + used } :: rest
      | none => rest

/-- The tokens of SQL text. -/
def tokenize (text : String) : Array Token :=
  let chars := text.toList
  (tokensFrom (chars.length + 1) 0 chars).toArray

/-- Whether a token is the keyword `word`, compared without case. -/
def Token.isKeyword (token : Token) (word : String) : Bool :=
  match token.kind with
  | .word text => text.toUpper == word
  | _ => false

/-- Whether a token is the operator `op`. -/
def Token.isSymbol (token : Token) (op : String) : Bool :=
  token.kind == .symbol op

end Sql
end TreeHistory
