import TreeHistory.Json.Reader

/-!
# Reading TOML documents

`Toml.parse` reads a TOML 1.0 document into its table of values, or refuses it. Configuration
files only hold text, integers, arrays and tables, and no configuration key takes any other kind
of value, so the reader refuses floats, booleans, dates and arrays of tables at once; for the
kinds it keeps it follows the grammar exactly, including the rules on which keys and tables may
be defined.
-/

namespace TreeHistory
namespace Toml

/-- A value of a TOML document, as far as configuration files use them. -/
inductive Value where
  | str (s : String)
  | int (n : Int)
  | arr (items : List Value)
  | table (entries : List (String × Value))
  deriving Repr, Inhabited

/-- How a table came to exist, which decides how it may still be extended. -/
inductive TableKind where
  /-- Defined by a `[header]` line. -/
  | header
  /-- Created as the parent of a header, and not yet defined itself. -/
  | implicit
  /-- Created by a dotted key. -/
  | dotted
  deriving DecidableEq, Repr

/-- A document under construction: a finished value, or a table that may still grow. -/
inductive Node where
  | leaf (value : Value)
  | table (kind : TableKind) (entries : List (String × Node))
  deriving Inhabited

mutual

/-- The value a node stands for. -/
def Node.toValue : Node → Value
  | .leaf value => value
  | .table _ entries => .table (Node.entriesToValue entries)

/-- The values of the entries of a table. -/
def Node.entriesToValue : List (String × Node) → List (String × Value)
  | [] => []
  | (key, node) :: rest => (key, node.toValue) :: Node.entriesToValue rest

end

/-- Space and tab, the only blanks inside a line. -/
def isSpace (c : Char) : Bool :=
  c = ' ' || c = '\t'

/-- Drops the leading spaces and tabs. -/
def skipSpace (cs : List Char) : List Char :=
  cs.dropWhile isSpace

/-- The characters allowed raw in comments and strings: tab and everything but the other
control characters of ASCII. -/
def isPlainChar (c : Char) : Bool :=
  c = '\t' || (0x20 ≤ c.toNat && c.toNat != 0x7F)

/-- The characters of bare keys. -/
def isBareKeyChar (c : Char) : Bool :=
  c.isAlphanum || c = '_' || c = '-'

/-- The end of a line after a value or a header: blanks, an optional comment, then a line
break or the end of the text. Gives the text after the line break. -/
def lineEnd (cs : List Char) : Option (List Char) :=
  let cs := skipSpace cs
  let cs := match cs with
    | '#' :: rest => rest.dropWhile isPlainChar
    | _ => cs
  match cs with
  | [] => some []
  | '\n' :: rest => some rest
  | '\r' :: '\n' :: rest => some rest
  | _ => none

mutual

/-- Skips blanks, line breaks and comments, as allowed between the items of an array. -/
def skipGaps : List Char → Option (List Char)
  | ' ' :: rest => skipGaps rest
  | '\t' :: rest => skipGaps rest
  | '\n' :: rest => skipGaps rest
  | '\r' :: '\n' :: rest => skipGaps rest
  | '#' :: rest => skipComment rest
  | cs => some cs

/-- Skips the rest of a comment and goes on skipping gaps after its line break. -/
def skipComment : List Char → Option (List Char)
  | [] => some []
  | '\n' :: rest => skipGaps rest
  | '\r' :: '\n' :: rest => skipGaps rest
  | c :: rest => if isPlainChar c then skipComment rest else none

end

/-- The value of a list of hexadecimal digits. -/
def hexValue? (digits : List Char) : Option Nat :=
  digits.foldlM (fun acc d => (Json.hexValue? d).map (acc * 16 + ·)) 0

/-- The character with a code point given by escaped hexadecimal digits, if it is a Unicode
scalar value. -/
def scalar? (digits : List Char) : Option Char := do
  let n ← hexValue? digits
  if n < 0xD800 ∨ (0xE000 ≤ n ∧ n ≤ 0x10FFFF) then some (Char.ofNat n) else none

/-- The character of a one-letter escape. -/
def simpleEscape? : Char → Option Char
  | 'b' => some (Char.ofNat 8)
  | 't' => some '\t'
  | 'n' => some '\n'
  | 'f' => some (Char.ofNat 12)
  | 'r' => some '\r'
  | '"' => some '"'
  | '\\' => some '\\'
  | _ => none

/-- Reads the rest of a basic string after its opening quote: its characters and the text
after the closing quote. -/
def basicString : List Char → Option (List Char × List Char)
  | [] => none
  | '"' :: rest => some ([], rest)
  | '\\' :: 'u' :: a :: b :: c :: d :: rest => do
    let ch ← scalar? [a, b, c, d]
    let (chars, after) ← basicString rest
    pure (ch :: chars, after)
  | '\\' :: 'U' :: a :: b :: c :: d :: e :: f :: g :: h :: rest => do
    let ch ← scalar? [a, b, c, d, e, f, g, h]
    let (chars, after) ← basicString rest
    pure (ch :: chars, after)
  | '\\' :: e :: rest => do
    let ch ← simpleEscape? e
    let (chars, after) ← basicString rest
    pure (ch :: chars, after)
  | c :: rest =>
    if isPlainChar c then do
      let (chars, after) ← basicString rest
      pure (c :: chars, after)
    else none

/-- Whether a line break follows, after blanks: the mark of a line-ending backslash. -/
def breaksLine (cs : List Char) : Bool :=
  match skipSpace cs with
  | '\n' :: _ => true
  | '\r' :: '\n' :: _ => true
  | _ => false

mutual

/-- Reads the rest of a multi-line basic string after its opening quotes. -/
def multiBasic : List Char → Option (List Char × List Char)
  | [] => none
  | '"' :: '"' :: '"' :: '"' :: '"' :: rest => some (['"', '"'], rest)
  | '"' :: '"' :: '"' :: '"' :: rest => some (['"'], rest)
  | '"' :: '"' :: '"' :: rest => some ([], rest)
  | '\\' :: 'u' :: a :: b :: c :: d :: rest => do
    let ch ← scalar? [a, b, c, d]
    let (chars, after) ← multiBasic rest
    pure (ch :: chars, after)
  | '\\' :: 'U' :: a :: b :: c :: d :: e :: f :: g :: h :: rest => do
    let ch ← scalar? [a, b, c, d, e, f, g, h]
    let (chars, after) ← multiBasic rest
    pure (ch :: chars, after)
  | '\\' :: e :: rest =>
    if breaksLine (e :: rest) then trimBreak (e :: rest)
    else do
      let ch ← simpleEscape? e
      let (chars, after) ← multiBasic rest
      pure (ch :: chars, after)
  | '\n' :: rest => do
    let (chars, after) ← multiBasic rest
    pure ('\n' :: chars, after)
  | '\r' :: '\n' :: rest => do
    let (chars, after) ← multiBasic rest
    pure ('\n' :: chars, after)
  | c :: rest =>
    if isPlainChar c then do
      let (chars, after) ← multiBasic rest
      pure (c :: chars, after)
    else none

/-- Drops the blanks and line breaks after a line-ending backslash, then reads on. -/
def trimBreak : List Char → Option (List Char × List Char)
  | ' ' :: rest => trimBreak rest
  | '\t' :: rest => trimBreak rest
  | '\n' :: rest => trimBreak rest
  | '\r' :: '\n' :: rest => trimBreak rest
  | cs => multiBasic cs

end

/-- Reads the rest of a literal string after its opening quote. -/
def literalString : List Char → Option (List Char × List Char)
  | [] => none
  | '\'' :: rest => some ([], rest)
  | c :: rest =>
    if isPlainChar c then do
      let (chars, after) ← literalString rest
      pure (c :: chars, after)
    else none

/-- Reads the rest of a multi-line literal string after its opening quotes and first line
break. -/
def multiLiteral : List Char → Option (List Char × List Char)
  | [] => none
  | '\'' :: '\'' :: '\'' :: '\'' :: '\'' :: rest => some (['\'', '\''], rest)
  | '\'' :: '\'' :: '\'' :: '\'' :: rest => some (['\''], rest)
  | '\'' :: '\'' :: '\'' :: rest => some ([], rest)
  | '\n' :: rest => do
    let (chars, after) ← multiLiteral rest
    pure ('\n' :: chars, after)
  | '\r' :: '\n' :: rest => do
    let (chars, after) ← multiLiteral rest
    pure ('\n' :: chars, after)
  | c :: rest =>
    if isPlainChar c then do
      let (chars, after) ← multiLiteral rest
      pure (c :: chars, after)
    else none

/-- Drops the line break right after the opening quotes of a multi-line string. -/
def dropFirstBreak : List Char → List Char
  | '\n' :: rest => rest
  | '\r' :: '\n' :: rest => rest
  | cs => cs

/-- Reads a string of any of the four forms. -/
def string? : List Char → Option (String × List Char)
  | '"' :: '"' :: '"' :: rest =>
    (multiBasic (dropFirstBreak rest)).map fun (chars, after) => (String.ofList chars, after)
  | '"' :: rest => (basicString rest).map fun (chars, after) => (String.ofList chars, after)
  | '\'' :: '\'' :: '\'' :: rest =>
    (multiLiteral (dropFirstBreak rest)).map fun (chars, after) => (String.ofList chars, after)
  | '\'' :: rest => (literalString rest).map fun (chars, after) => (String.ofList chars, after)
  | _ => none

/-- Reads one key: bare, or a basic or literal string on one line. -/
def simpleKey (cs : List Char) : Option (String × List Char) :=
  match cs with
  | '"' :: rest => (basicString rest).map fun (chars, after) => (String.ofList chars, after)
  | '\'' :: rest => (literalString rest).map fun (chars, after) => (String.ofList chars, after)
  | _ =>
    let (name, after) := cs.span isBareKeyChar
    if name.isEmpty then none else some (String.ofList name, after)

/-- Reads a key and the dotted keys after it; `fuel` bounds the number of parts. -/
def keyPath : Nat → List Char → Option (List String × List Char)
  | 0, _ => none
  | fuel + 1, cs => do
    let (key, after) ← simpleKey cs
    match skipSpace after with
    | '.' :: rest => do
      let (keys, more) ← keyPath fuel (skipSpace rest)
      pure (key :: keys, more)
    | _ => pure ([key], after)

/-- Digits of the given base with single underscores between them, as the TOML integer forms
write them. -/
def digitRun (isDigit : Char → Bool) (cs : List Char) : Option (List Char × List Char) :=
  let (run, after) := cs.span fun c => isDigit c || c = '_'
  match run.head?, run.getLast? with
  | some first, some last =>
    if isDigit first && isDigit last && !(run.zip run.tail).any (fun (a, b) => a = '_' && b = '_')
    then some (run.filter isDigit, after)
    else none
  | _, _ => none

/-- The value of digits in a base. -/
def digitsIn (base : Nat) (digits : List Char) : Nat :=
  digits.foldl (fun acc d => acc * base + ((Json.hexValue? d).getD 0)) 0

/-- The integers a TOML integer may stand for: those of 64 signed bits. -/
def inRange (n : Int) : Bool :=
  -9223372036854775808 ≤ n && n ≤ 9223372036854775807

/-- Reads an integer literal. -/
def integer? (cs : List Char) : Option (Int × List Char) :=
  let radix (base : Nat) (isDigit : Char → Bool) (rest : List Char) :=
    (digitRun isDigit rest).bind fun (digits, after) =>
      let n : Int := digitsIn base digits
      if inRange n then some (n, after) else none
  let decimal (negative : Bool) (rest : List Char) :=
    (digitRun Char.isDigit rest).bind fun (digits, after) =>
      if digits.head? = some '0' ∧ digits.length > 1 then none
      else
        let magnitude : Int := digitsIn 10 digits
        let n := if negative then -magnitude else magnitude
        if inRange n then some (n, after) else none
  match cs with
  | '0' :: 'x' :: rest => radix 16 (fun c => (Json.hexValue? c).isSome) rest
  | '0' :: 'o' :: rest => radix 8 (fun c => '0' ≤ c && c ≤ '7') rest
  | '0' :: 'b' :: rest => radix 2 (fun c => c = '0' || c = '1') rest
  | '+' :: rest => decimal false rest
  | '-' :: rest => decimal true rest
  | _ => decimal false cs

/-- The node under a key. -/
def lookup (key : String) (entries : List (String × Node)) : Option Node :=
  (entries.find? (·.1 == key)).map (·.2)

/-- Replaces the node under a key. -/
def replace (key : String) (node : Node) (entries : List (String × Node)) :
    List (String × Node) :=
  entries.map fun (k, n) => if k == key then (k, node) else (k, n)

/-- Defines the value of a possibly dotted key in a table. -/
def insertDotted :
    List String → Value → List (String × Node) → Option (List (String × Node))
  | [], _, _ => none
  | [key], value, entries =>
    match lookup key entries with
    | none => some (entries ++ [(key, .leaf value)])
    | some _ => none
  | key :: rest, value, entries =>
    match lookup key entries with
    | none => do
      let sub ← insertDotted rest value []
      pure (entries ++ [(key, .table .dotted sub)])
    | some (.table .dotted sub) => do
      let sub ← insertDotted rest value sub
      pure (replace key (.table .dotted sub) entries)
    | some _ => none

/-- Defines the table a header names, creating its parents as implicit tables. -/
def defineHeader : List String → List (String × Node) → Option (List (String × Node))
  | [], _ => none
  | [key], entries =>
    match lookup key entries with
    | none => some (entries ++ [(key, .table .header [])])
    | some (.table .implicit sub) => some (replace key (.table .header sub) entries)
    | some _ => none
  | key :: rest, entries =>
    match lookup key entries with
    | none => do
      let sub ← defineHeader rest []
      pure (entries ++ [(key, .table .implicit sub)])
    | some (.table kind sub) => do
      let sub ← defineHeader rest sub
      pure (replace key (.table kind sub) entries)
    | some (.leaf _) => none

/-- Defines a key in the table of the current section. -/
def insertAt : List String → List String → Value → List (String × Node) →
    Option (List (String × Node))
  | [], keys, value, entries => insertDotted keys value entries
  | key :: rest, keys, value, entries =>
    match lookup key entries with
    | some (.table kind sub) => do
      let sub ← insertAt rest keys value sub
      pure (replace key (.table kind sub) entries)
    | _ => none

mutual

/-- Reads one value; `fuel` bounds the nesting and the items. -/
def value : Nat → List Char → Option (Value × List Char)
  | 0, _ => none
  | fuel + 1, cs =>
    match cs with
    | '[' :: rest => items fuel [] rest
    | '{' :: rest =>
      match skipSpace rest with
      | '}' :: after => some (.table [], after)
      | _ => members fuel [] (skipSpace rest)
    | '"' :: _ => (string? cs).map fun (s, after) => (.str s, after)
    | '\'' :: _ => (string? cs).map fun (s, after) => (.str s, after)
    | _ => (integer? cs).map fun (n, after) => (.int n, after)

/-- Reads the items of an array after `[` or a comma, with the items read so far reversed. -/
def items : Nat → List Value → List Char → Option (Value × List Char)
  | 0, _, _ => none
  | fuel + 1, acc, cs => do
    let cs ← skipGaps cs
    match cs with
    | ']' :: rest => pure (.arr acc.reverse, rest)
    | _ => do
      let (item, after) ← value fuel cs
      let after ← skipGaps after
      match after with
      | ',' :: rest => items fuel (item :: acc) rest
      | ']' :: rest => pure (.arr (item :: acc).reverse, rest)
      | _ => none

/-- Reads the pairs of an inline table after `{` or a comma, with the table built so far. -/
def members : Nat → List (String × Node) → List Char → Option (Value × List Char)
  | 0, _, _ => none
  | fuel + 1, acc, cs => do
    let (keys, afterKey) ← keyPath fuel cs
    match skipSpace afterKey with
    | '=' :: rest => do
      let (v, after) ← value fuel (skipSpace rest)
      let acc ← insertDotted keys v acc
      match skipSpace after with
      | ',' :: more => members fuel acc (skipSpace more)
      | '}' :: more => pure (.table (Node.entriesToValue acc), more)
      | _ => none
    | _ => none

end

/-- Reads the lines of a document into its table; `current` is the key path of the last
header. -/
def lines :
    Nat → List String → List (String × Node) → List Char → Option (List (String × Node))
  | 0, _, _, _ => none
  | fuel + 1, current, entries, cs =>
    match skipSpace cs with
    | [] => some entries
    | '\n' :: rest => lines fuel current entries rest
    | '\r' :: '\n' :: rest => lines fuel current entries rest
    | '#' :: rest => (lineEnd ('#' :: rest)).bind (lines fuel current entries)
    | '[' :: '[' :: _ => none
    | '[' :: rest => do
      let (path, after) ← keyPath fuel (skipSpace rest)
      match skipSpace after with
      | ']' :: more => do
        let entries ← defineHeader path entries
        let next ← lineEnd more
        lines fuel path entries next
      | _ => none
    | line => do
      let (keys, after) ← keyPath fuel line
      match skipSpace after with
      | '=' :: more => do
        let (v, rest) ← value fuel (skipSpace more)
        let entries ← insertAt current keys v entries
        let next ← lineEnd rest
        lines fuel current entries next
      | _ => none

/-- Reads a TOML document into its top-level table, or `none` if it is not valid TOML of the
kinds that configuration files use. A byte order mark in front is allowed. -/
def parse (text : String) : Option (List (String × Value)) :=
  let cs := match text.toList with
    | c :: rest => if c.toNat = 0xFEFF then rest else c :: rest
    | [] => []
  (lines (2 * cs.length + 2) [] [] cs).map Node.entriesToValue

end Toml
end TreeHistory
