/-!
# JSON documents

The JSON functions read their arguments into `JsonNode` trees and write their results back as
text. A node keeps its numbers and strings in the text they were written with, so `1.50` stays as
it stood; only the forms standard JSON lacks are rewritten on the way out.
-/

namespace TreeHistory
namespace Sql

/-- How the body of a JSON string is written between its quotes. -/
inductive TextForm where
  /-- Characters only, none of which needs an escape. -/
  | plain
  /-- With the escapes of standard JSON. -/
  | escaped
  /-- With escapes or characters that only JSON5 allows. -/
  | extended
  /-- The characters of an SQL value, escaped only when written as JSON. -/
  | raw
  deriving DecidableEq, Repr

/-- A JSON string as it is written: its body and the form the body takes. -/
structure JsonText where
  body : String
  form : TextForm
  deriving DecidableEq, Repr

/-- A JSON document. Numbers and strings keep the text they were written with. -/
inductive JsonNode where
  | null
  | bool (value : Bool)
  /-- A decimal integer. -/
  | int (text : String)
  /-- A hexadecimal integer: `0x`, perhaps after a minus sign, and hexadecimal digits. -/
  | hex (text : String)
  /-- A decimal number with a fraction or an exponent. -/
  | real (text : String)
  /-- A decimal number whose point has no digit before or after it. -/
  | bareReal (text : String)
  | str (text : JsonText)
  | array (items : List JsonNode)
  | object (members : List (JsonText × JsonNode))

namespace JsonText

/-- The value of a hexadecimal digit; other characters count as 0. -/
def hexDigit (c : Char) : Nat :=
  if c.isDigit then c.toNat - 48
  else if 'a' ≤ c ∧ c ≤ 'f' then c.toNat - 87
  else if 'A' ≤ c ∧ c ≤ 'F' then c.toNat - 55
  else 0

/-- The value of a run of hexadecimal digits. -/
def hexValue (cs : List Char) : Nat := cs.foldl (fun n c => n * 16 + hexDigit c) 0

/-- The character of a code point; a surrogate, which no character has, gives the replacement
character. -/
def codePoint (n : Nat) : Char :=
  if 0xD800 ≤ n ∧ n ≤ 0xDFFF then Char.ofNat 0xFFFD else Char.ofNat n

/-- Whether a character ends a line inside a string: the line feed, the carriage return and the
two Unicode separators. -/
def isLineBreak (c : Char) : Bool :=
  c = '\n' ∨ c = '\r' ∨ c.toNat = 0x2028 ∨ c.toNat = 0x2029

/-- The characters after a run of line continuations, each a backslash and a line break, a
carriage return taking a line feed after it along. -/
def skipContinuations : Nat → List Char → List Char
  | 0, cs => cs
  | fuel + 1, cs =>
    match cs with
    | '\\' :: '\r' :: '\n' :: rest => skipContinuations fuel rest
    | '\\' :: c :: rest => if isLineBreak c then skipContinuations fuel rest else cs
    | _ => cs

/-- The character an escape stands for, read after its backslash, and the characters after it. -/
def escapeValue : Nat → List Char → Option Char × List Char
  | 0, cs => (none, cs)
  | fuel + 1, cs =>
    match cs with
    | [] => (none, [])
    | 'u' :: rest =>
      if rest.length < 4 then (none, [])
      else
        let v := hexValue (rest.take 4)
        let after := rest.drop 4
        match after with
        | '\\' :: 'u' :: more =>
          let lo := hexValue (more.take 4)
          if v / 1024 = 0xD800 / 1024 ∧ more.length ≥ 4 ∧ lo / 1024 = 0xDC00 / 1024 then
            (some (codePoint ((v % 1024) * 1024 + lo % 1024 + 0x10000)), more.drop 4)
          else (some (codePoint v), after)
        | _ => (some (codePoint v), after)
    | 'b' :: rest => (some (Char.ofNat 8), rest)
    | 'f' :: rest => (some (Char.ofNat 12), rest)
    | 'n' :: rest => (some '\n', rest)
    | 'r' :: rest => (some '\r', rest)
    | 't' :: rest => (some '\t', rest)
    | 'v' :: rest => (some (Char.ofNat 11), rest)
    | '0' :: rest => (some (Char.ofNat 0), rest)
    | 'x' :: rest =>
      if rest.length < 2 then (none, [])
      else (some (Char.ofNat (hexValue (rest.take 2))), rest.drop 2)
    | c :: rest =>
      if c = '\'' ∨ c = '"' ∨ c = '/' ∨ c = '\\' then (some c, rest)
      else if isLineBreak c then
        match skipContinuations (rest.length + 2) ('\\' :: c :: rest) with
        | [] => (some (Char.ofNat 0), [])
        | '\\' :: more => escapeValue fuel more
        | d :: more => (some d, more)
      else (none, rest)

/-- The characters a string body with escapes stands for. -/
def unescape : Nat → List Char → List Char
  | 0, _ => []
  | fuel + 1, cs =>
    match cs with
    | [] => []
    | '\\' :: rest =>
      let (c, after) := escapeValue (rest.length + 1) rest
      c.toList ++ unescape fuel after
    | c :: rest => c :: unescape fuel rest

/-- The characters a JSON string stands for. -/
def chars (t : JsonText) : List Char :=
  match t.form with
  | .plain | .raw => t.body.toList
  | _ => unescape (t.body.length + 1) t.body.toList

/-- The text a JSON string stands for. -/
def decoded (t : JsonText) : String := String.ofList t.chars

/-- Whether a string body has no escapes to read, so that it stands for its own characters. -/
def isLiteral (t : JsonText) : Bool := t.form = .plain ∨ t.form = .raw

/-- Whether two JSON strings stand for the same text, as member keys are matched. -/
def same (a b : JsonText) : Bool :=
  if a.isLiteral ∧ b.isLiteral then a.body = b.body else a.chars = b.chars

/-- A hexadecimal digit character, in lower case. -/
def hexChar (n : Nat) : Char := "0123456789abcdef".toList.getD n '0'

/-- A control character as a JSON escape: its short form where it has one, else `\u00XX`. -/
def controlEscape (c : Char) : List Char :=
  match c.toNat with
  | 8 => ['\\', 'b']
  | 9 => ['\\', 't']
  | 10 => ['\\', 'n']
  | 12 => ['\\', 'f']
  | 13 => ['\\', 'r']
  | n => ['\\', 'u', '0', '0', hexChar (n / 16), hexChar (n % 16)]

/-- Characters as a JSON string body. -/
def escapeChars : List Char → List Char
  | [] => []
  | c :: rest =>
    (if c = '"' ∨ c = '\\' then ['\\', c] else if c.toNat < 32 then controlEscape c else [c]) ++
      escapeChars rest

/-- A JSON5 string body in standard JSON. -/
def standardChars : List Char → List Char
  | [] => []
  | '"' :: rest => '\\' :: '"' :: standardChars rest
  | '\\' :: rest =>
    match rest with
    | [] => []
    | '\'' :: more => '\'' :: standardChars more
    | 'v' :: more => "\\u0009".toList ++ standardChars more
    | 'x' :: h1 :: h2 :: more => "\\u00".toList ++ [h1, h2] ++ standardChars more
    | '0' :: more => "\\u0000".toList ++ standardChars more
    | '\r' :: '\n' :: more => standardChars more
    | c :: more =>
      if isLineBreak c then standardChars more else '\\' :: c :: standardChars more
  | c :: rest => (if c.toNat < 32 then controlEscape c else [c]) ++ standardChars rest

/-- A JSON string written as standard JSON, with its quotes. -/
def quoted (t : JsonText) : String :=
  match t.form with
  | .plain | .escaped => "\"" ++ t.body ++ "\""
  | .extended => String.ofList ('"' :: standardChars t.body.toList ++ ['"'])
  | .raw => String.ofList ('"' :: escapeChars t.body.toList ++ ['"'])

end JsonText

namespace JsonNode

/-- A hexadecimal integer in decimal, its sign kept; one past 64 bits is written `9.0e999`. -/
def hexDecimal (text : String) : String :=
  let (sign, digits) := match text.toList with
    | '-' :: rest => ("-", rest.drop 2)
    | '+' :: rest => ("", rest.drop 2)
    | cs => ("", cs.drop 2)
  let (value, overflow) := digits.foldl (fun (acc : Nat × Bool) c =>
    if acc.2 then acc
    else if acc.1 / Nat.pow 2 60 ≠ 0 then (acc.1, true)
    else (acc.1 * 16 + JsonText.hexDigit c, false)) (0, false)
  sign ++ (if overflow then "9.0e999" else toString value)

/-- A number with a bare point, given the zero it lacks before or after the point. -/
def completeReal (text : String) : String :=
  let (sign, cs) := match text.toList with
    | '-' :: rest => (['-'], rest)
    | cs => ([], cs)
  let lead := if cs.head? = some '.' then ['0'] else []
  let rec fill : List Char → List Char
    | [] => []
    | '.' :: rest =>
      if (rest.head?.map Char.isDigit).getD false then '.' :: fill rest else '.' :: '0' :: fill rest
    | c :: rest => c :: fill rest
  String.ofList (sign ++ lead ++ fill cs)

mutual

/-- A document as compact JSON text, with no blanks. -/
def render : JsonNode → String
  | .null => "null"
  | .bool b => if b then "true" else "false"
  | .int t => t
  | .hex t => hexDecimal t
  | .real t => t
  | .bareReal t => completeReal t
  | .str t => t.quoted
  | .array items => "[" ++ renderItems items ++ "]"
  | .object members => "\x7b" ++ renderMembers members ++ "\x7d"

/-- The items of an array as JSON text, separated by commas. -/
def renderItems : List JsonNode → String
  | [] => ""
  | [item] => item.render
  | item :: rest => item.render ++ "," ++ renderItems rest

/-- The members of an object as JSON text, each key before a colon, separated by commas. -/
def renderMembers : List (JsonText × JsonNode) → String
  | [] => ""
  | [(key, value)] => key.quoted ++ ":" ++ value.render
  | (key, value) :: rest => key.quoted ++ ":" ++ value.render ++ "," ++ renderMembers rest

end

/-- A text repeated a number of times. -/
def repeatText (s : String) : Nat → String
  | 0 => ""
  | n + 1 => s ++ repeatText s n

mutual

/-- A document as indented JSON text. -/
def pretty (indent : String) (depth : Nat) : JsonNode → String
  | .array [] => "[]"
  | .array (item :: rest) =>
    "[\n" ++ prettyItems indent (depth + 1) (item :: rest) ++ "\n" ++ repeatText indent depth ++
      "]"
  | .object [] => "\x7b\x7d"
  | .object (member :: rest) =>
    "\x7b\n" ++ prettyMembers indent (depth + 1) (member :: rest) ++ "\n" ++
      repeatText indent depth ++ "\x7d"
  | node => node.render

/-- The items of an array as indented lines. -/
def prettyItems (indent : String) (depth : Nat) : List JsonNode → String
  | [] => ""
  | [item] => repeatText indent depth ++ item.pretty indent depth
  | item :: rest =>
    repeatText indent depth ++ item.pretty indent depth ++ ",\n" ++ prettyItems indent depth rest

/-- The members of an object as indented lines. -/
def prettyMembers (indent : String) (depth : Nat) : List (JsonText × JsonNode) → String
  | [] => ""
  | [(key, value)] => repeatText indent depth ++ key.quoted ++ ": " ++ value.pretty indent depth
  | (key, value) :: rest =>
    repeatText indent depth ++ key.quoted ++ ": " ++ value.pretty indent depth ++ ",\n" ++
      prettyMembers indent depth rest

end

/-- The name `json_type` gives a node's kind. -/
def typeName : JsonNode → String
  | .null => "null"
  | .bool true => "true"
  | .bool false => "false"
  | .int _ | .hex _ => "integer"
  | .real _ | .bareReal _ => "real"
  | .str _ => "text"
  | .array _ => "array"
  | .object _ => "object"

/-- Whether a node is an array or an object. -/
def isContainer : JsonNode → Bool
  | .array _ | .object _ => true
  | _ => false

end JsonNode

end Sql
end TreeHistory
