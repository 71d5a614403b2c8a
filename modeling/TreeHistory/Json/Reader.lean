import TreeHistory.Json.Value
import TreeHistory.Text.Decimal

/-!
# Reading JSON text

`Json.parse` reads one JSON value that fills the whole text, following the grammar strictly, with
values nested at most 127 deep. Every two steps of the walk consume a character, so the budget of
two steps per character is never exhausted on a text that parses.
-/

namespace TreeHistory
namespace Json

/-- How deep arrays and objects may nest. -/
def maxDepth : Nat := 127

/-- The blanks of the JSON grammar: space, tab, line feed and carriage return. -/
def isSpace (c : Char) : Bool :=
  c = ' ' || c = '\t' || c = '\n' || c = '\r'

/-- Drops the leading blanks. -/
def skipSpace (cs : List Char) : List Char :=
  cs.dropWhile isSpace

/-- The value of a hexadecimal digit. -/
def hexValue? (c : Char) : Option Nat :=
  if '0' ≤ c ∧ c ≤ '9' then some (c.toNat - 48)
  else if 'a' ≤ c ∧ c ≤ 'f' then some (c.toNat - 87)
  else if 'A' ≤ c ∧ c ≤ 'F' then some (c.toNat - 55)
  else none

/-- The value of four hexadecimal digits. -/
def hex4? (a b c d : Char) : Option Nat := do
  let a ← hexValue? a
  let b ← hexValue? b
  let c ← hexValue? c
  let d ← hexValue? d
  pure (((a * 16 + b) * 16 + c) * 16 + d)

/-- Reads the rest of a string literal after its opening quote: the characters it stands for
and the text after its closing quote. -/
def readString : List Char → Option (List Char × List Char)
  | [] => none
  | '"' :: rest => some ([], rest)
  | '\\' :: 'u' :: a :: b :: c :: d :: rest => do
    let unit ← hex4? a b c d
    if 0xD800 ≤ unit ∧ unit < 0xDC00 then
      match rest with
      | '\\' :: 'u' :: e :: f :: g :: h :: more => do
        let low ← hex4? e f g h
        if 0xDC00 ≤ low ∧ low < 0xE000 then
          let code := 0x10000 + (unit - 0xD800) * 0x400 + (low - 0xDC00)
          let (chars, after) ← readString more
          pure (Char.ofNat code :: chars, after)
        else none
      | _ => none
    else if 0xDC00 ≤ unit ∧ unit < 0xE000 then none
    else do
      let (chars, after) ← readString rest
      pure (Char.ofNat unit :: chars, after)
  | '\\' :: e :: rest => do
    let c ← match e with
      | '"' => some '"'
      | '\\' => some '\\'
      | '/' => some '/'
      | 'b' => some (Char.ofNat 8)
      | 'f' => some (Char.ofNat 12)
      | 'n' => some '\n'
      | 'r' => some '\r'
      | 't' => some '\t'
      | _ => none
    let (chars, after) ← readString rest
    pure (c :: chars, after)
  | c :: rest =>
    if c.toNat < 0x20 then none
    else do
      let (chars, after) ← readString rest
      pure (c :: chars, after)

/-- Reads a number literal: an integer if it has neither fraction nor exponent. -/
def readNumber (cs : List Char) : Option (Json × List Char) :=
  let (negative, afterSign) := match cs with
    | '-' :: rest => (true, rest)
    | _ => (false, cs)
  let (intDigits, afterInt) := afterSign.span Char.isDigit
  if intDigits.isEmpty then none
  else if intDigits.head? = some '0' ∧ intDigits.length > 1 then none
  else
    let (fracPart, afterFrac) : Option (List Char) × List Char := match afterInt with
      | '.' :: rest =>
        let (digits, after) := rest.span Char.isDigit
        (some ('.' :: digits), after)
      | _ => (none, afterInt)
    let (expPart, afterExp) : Option (List Char) × List Char := match afterFrac with
      | e :: rest =>
        if e = 'e' ∨ e = 'E' then
          let (sign, afterExpSign) : List Char × List Char := match rest with
            | '+' :: more => (['+'], more)
            | '-' :: more => (['-'], more)
            | _ => ([], rest)
          let (digits, after) := afterExpSign.span Char.isDigit
          (some (e :: sign ++ digits), after)
        else (none, afterFrac)
      | [] => (none, afterFrac)
    let fracOk := match fracPart with
      | some part => part.length > 1
      | none => true
    let expOk := match expPart with
      | some part => (part.filter Char.isDigit).length > 0
      | none => true
    if !fracOk || !expOk then none
    else match fracPart, expPart with
      | none, none =>
        let magnitude : Int := Text.digitsValue intDigits
        some (.int (if negative then -magnitude else magnitude), afterExp)
      | _, _ =>
        let text := (if negative then ['-'] else []) ++ intDigits ++ (fracPart.getD []) ++
          (expPart.getD [])
        some (.number (String.ofList text), afterExp)

/-- Reads a literal word such as `null`. -/
def readWord (word : List Char) (value : Json) (cs : List Char) : Option (Json × List Char) :=
  if word.isPrefixOf cs then some (value, cs.drop word.length) else none

mutual

/-- Reads one value after blanks; `fuel` bounds the steps and `depth` the nesting. -/
def readValue : Nat → Nat → List Char → Option (Json × List Char)
  | 0, _, _ => none
  | fuel + 1, depth, cs =>
    match skipSpace cs with
    | '{' :: rest =>
      if depth = 0 then none
      else match skipSpace rest with
        | '}' :: after => some (.obj [], after)
        | _ => readMembers fuel (depth - 1) [] rest
    | '[' :: rest =>
      if depth = 0 then none
      else match skipSpace rest with
        | ']' :: after => some (.arr [], after)
        | _ => readItems fuel (depth - 1) [] rest
    | '"' :: rest => (readString rest).map fun (chars, after) => (.str (String.ofList chars), after)
    | 't' :: _ => readWord "true".toList (.bool true) (skipSpace cs)
    | 'f' :: _ => readWord "false".toList (.bool false) (skipSpace cs)
    | 'n' :: _ => readWord "null".toList .null (skipSpace cs)
    | other => readNumber other

/-- Reads the items of an array after `[` or a comma, with the items read so far reversed. -/
def readItems : Nat → Nat → List Json → List Char → Option (Json × List Char)
  | 0, _, _, _ => none
  | fuel + 1, depth, acc, cs =>
    match readValue fuel depth cs with
    | none => none
    | some (item, after) =>
      match skipSpace after with
      | ',' :: rest => readItems fuel depth (item :: acc) rest
      | ']' :: rest => some (.arr (item :: acc).reverse, rest)
      | _ => none

/-- Reads the members of an object after `{` or a comma, with the members read so far
reversed. -/
def readMembers : Nat → Nat → List (String × Json) → List Char → Option (Json × List Char)
  | 0, _, _, _ => none
  | fuel + 1, depth, acc, cs =>
    match skipSpace cs with
    | '"' :: rest =>
      match readString rest with
      | none => none
      | some (key, afterKey) =>
        match skipSpace afterKey with
        | ':' :: afterColon =>
          match readValue fuel depth afterColon with
          | none => none
          | some (value, after) =>
            let acc := (String.ofList key, value) :: acc
            match skipSpace after with
            | ',' :: rest => readMembers fuel depth acc rest
            | '}' :: rest => some (.obj acc.reverse, rest)
            | _ => none
        | _ => none
    | _ => none

end

/-- Reads a JSON value that fills the whole text, blanks around it allowed. -/
def parse (text : String) : Option Json :=
  let cs := text.toList
  match readValue (2 * cs.length + 2) maxDepth cs with
  | some (value, rest) => if (skipSpace rest).isEmpty then some value else none
  | none => none

end Json
end TreeHistory
