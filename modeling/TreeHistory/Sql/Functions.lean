import TreeHistory.Sql.Calendar
import TreeHistory.Sql.Pattern

/-!
# Built-in functions

The scalar functions of the database, the `LIKE` and `GLOB` patterns, and collations. Text
functions count characters; `lower` and `upper` change ASCII letters only. `arity` says which
functions exist and how many arguments each takes, so that a call to an unknown function is
refused before the statement runs.
-/

namespace TreeHistory
namespace Sql

/-- The longest pattern `LIKE` and `GLOB` accept, in bytes. -/
def patternLimit : Nat := 50000

/-- `like(pattern, text, escape)` and `glob(pattern, text)`: 1 or 0, or `NULL` when an argument
is. -/
def patternCall (glob : Bool) (pattern text : Value) (escape : Option Value) :
    Except String Value := do
  if (Value.textBytes (pattern.toText?.getD "")).length > patternLimit then
    throw "LIKE or GLOB pattern too complex"
  let escapeChar ← match escape with
    | some e =>
      if e.isNull then return .null
      match Pattern.cString e.chars with
      | [c] => pure (some c)
      | _ => throw "ESCAPE expression must be a single character"
    | none => pure none
  if pattern.isNull ∨ text.isNull then return .null
  let hit := if glob then Pattern.glob pattern.chars text.chars
    else Pattern.like escapeChar pattern.chars text.chars
  pure (.int (if hit then 1 else 0))

/-- Drops the trailing spaces of text, as the `RTRIM` collation does. -/
def dropTrailingSpaces (s : String) : String :=
  String.ofList (s.toList.reverse.dropWhile (· = ' ')).reverse

/-- Compares two values under a collation: `NOCASE` folds ASCII case, `RTRIM` ignores trailing
spaces; both only for two texts. -/
def compareWith (collation : String) (a b : Value) : Ordering :=
  match a, b with
  | .text s, .text t =>
    if collation = "NOCASE" then Value.compare (.text s.toLower) (.text t.toLower)
    else if collation = "RTRIM" then
      Value.compare (.text (dropTrailingSpaces s)) (.text (dropTrailingSpaces t))
    else Value.compare a b
  | _, _ => Value.compare a b

/-- The aggregate functions and the numbers of arguments they take. -/
def isAggregate (name : String) (argc : Nat) : Bool :=
  match name.toLower with
  | "count" => argc ≤ 1
  | "sum" | "total" | "avg" => argc = 1
  | "min" | "max" => argc = 1
  | "group_concat" | "string_agg" => argc = 1 ∨ argc = 2
  | "json_group_array" | "jsonb_group_array" => argc = 1
  | "json_group_object" | "jsonb_group_object" => argc = 2
  | _ => false

/-- The numbers of arguments each function takes; `none` for a function that does not exist. -/
def arity (name : String) : Option (Nat → Bool) :=
  match name.toLower with
  | "count" => some (· ≤ 1)
  | "sum" | "total" | "avg" => some (· = 1)
  | "group_concat" => some (fun n => n = 1 ∨ n = 2)
  | "string_agg" => some (· = 2)
  | "min" | "max" => some (· ≥ 1)
  | "abs" | "length" | "lower" | "upper" | "typeof" | "hex" | "quote" | "unicode" | "zeroblob"
  | "likely" | "unlikely" | "octet_length" | "sign" | "soundex" | "randomblob" | "subtype" =>
    some (· = 1)
  | "ifnull" | "nullif" | "instr" | "likelihood" | "sqlite_log" => some (· = 2)
  | "unhex" | "load_extension" => some (fun n => n = 1 ∨ n = 2)
  | "random" | "sqlite_version" | "sqlite_source_id" => some (· = 0)
  | "replace" => some (· = 3)
  | "iif" | "if" => some (· ≥ 2)
  | "coalesce" => some (· ≥ 2)
  | "trim" | "ltrim" | "rtrim" | "round" => some (fun n => n = 1 ∨ n = 2)
  | "substr" | "substring" => some (fun n => n = 2 ∨ n = 3)
  | "like" => some (fun n => n = 2 ∨ n = 3)
  | "glob" => some (· = 2)
  | "char" | "concat" | "printf" | "format" => some (fun _ => true)
  | "changes" | "total_changes" | "last_insert_rowid" => some (· = 0)
  | "date" | "time" | "datetime" | "julianday" | "unixepoch" | "strftime" => some (fun _ => true)
  | "current_date" | "current_time" | "current_timestamp" => some (· = 0)
  | "timediff" => some (· = 2)
  | "concat_ws" => some (· ≥ 1)
  | "json" | "jsonb" | "json_quote" | "json_error_position" => some (· = 1)
  | "json_array" | "jsonb_array" | "json_object" | "jsonb_object" | "json_extract"
  | "jsonb_extract" | "json_insert" | "jsonb_insert" | "json_replace" | "jsonb_replace"
  | "json_set" | "jsonb_set" | "json_remove" | "jsonb_remove" => some (fun _ => true)
  | "json_array_length" | "json_pretty" | "json_type" | "json_valid" =>
    some (fun n => n = 1 ∨ n = 2)
  | "json_patch" | "jsonb_patch" | "->" | "->>" => some (· = 2)
  | "json_group_array" | "jsonb_group_array" => some (· = 1)
  | "json_group_object" | "jsonb_group_object" => some (· = 2)
  | _ => none

/-- Where `substr` starts and how many items it takes. -/
def substrBounds (len start : Int) (count : Option Int) : Int × Int :=
  let (p2, negative) : Int × Bool := match count with
    | some n => if n < 0 then (if -n > Double.maxInt then n else -n, true) else (n, false)
    | none => (1000000000, false)
  let (p1, p2) : Int × Int :=
    if start < 0 then
      let p1 := start + len
      if p1 < 0 then (0, if p2 < 0 then 0 else p2 + p1) else (p1, p2)
    else if start > 0 then (start - 1, p2)
    else (0, if p2 > 0 then p2 - 1 else p2)
  if negative then
    let p1' := p1 - p2
    if p1' < 0 then (0, p2 + p1') else (p1', p2)
  else (p1, p2)

/-- `substr`: characters (bytes of a blob) from a position counted from 1, a negative position
counting from the end. -/
def substring (v : Value) (start : Int) (count : Option Int) : Value :=
  match v with
  | .blob [] => .null
  | .blob bytes =>
    let (p1, p2) := substrBounds bytes.length start count
    .blob ((bytes.drop p1.toNat).take p2.toNat)
  | _ =>
    let chars := Pattern.cString v.chars
    let (p1, p2) := substrBounds chars.length start count
    .text (String.ofList ((chars.drop p1.toNat).take p2.toNat))

/-- Drops the characters of a set from the ends of text; the set is read up to its first NUL
character. -/
def trimChars (set : List Char) (left right : Bool) (s : String) : String :=
  let set := Pattern.cString set
  let chars := s.toList
  let chars := if left then chars.dropWhile (· ∈ set) else chars
  let chars := if right then (chars.reverse.dropWhile (· ∈ set)).reverse else chars
  String.ofList chars

/-- The upper-case hexadecimal digits of bytes. -/
def hexText (bytes : List UInt8) : String :=
  let digit (n : Nat) : Char := if n < 10 then Char.ofNat (48 + n) else Char.ofNat (55 + n)
  String.ofList (bytes.flatMap fun b => [digit (b.toNat / 16), digit (b.toNat % 16)])

/-- The bytes a value reads as: a blob's own, anything else its text in UTF-8. -/
def Value.bytes : Value → List UInt8
  | .blob bytes => bytes
  | v => Value.textBytes (v.toText?.getD "")

/-- A double written as an SQL literal: fifteen significant digits when they read back as the
same double, else as many as it takes, in exponent notation. -/
def quoteReal (x : Float) : String :=
  let short := (Printf.printf [.text "%!0.15g", .real x]).toText?.getD ""
  if (scanReal short.toList).1 == x then short
  else (Printf.printf [.text "%!0.20e", .real x]).toText?.getD ""

/-- A value written as an SQL literal; text is read up to its first NUL character. -/
def quoteValue : Value → String
  | .null => "NULL"
  | .int n => toString n
  | .real x => quoteReal x
  | .text s => "'" ++ (String.ofList (Pattern.cString s.toList)).replace "'" "''" ++ "'"
  | .blob bytes => "X'" ++ hexText bytes ++ "'"

/-- Where one text first occurs in another, counted from 1; 0 when it does not. -/
def findFrom {α : Type} [BEq α] (needle : List α) : List α → Nat → Nat
  | [], _ => if needle.isEmpty then 1 else 0
  | x :: rest, i =>
    if needle.isPrefixOf (x :: rest) then i + 1 else findFrom needle rest (i + 1)

/-- Replaces every occurrence of a nonempty text in another. -/
def replaceAll (needle replacement : List Char) : Nat → List Char → List Char
  | 0, text => text
  | _ + 1, [] => []
  | fuel + 1, c :: rest =>
    if needle.isPrefixOf (c :: rest) then replacement ++ replaceAll needle replacement fuel ((c :: rest).drop needle.length)
    else c :: replaceAll needle replacement fuel rest

/-- Rounds a double to a number of decimal places, halves away from zero. -/
def roundTo (x : Float) (places : Nat) : Float :=
  if x < -4503599627370496.0 ∨ x > 4503599627370496.0 then x
  else if places = 0 then Double.ofInt (Double.toInt64 (x + (if x < 0 then -0.5 else 0.5)))
  else
    let text := (Printf.printf [.text "%!.*f", .int places, .real x]).toText?.getD ""
    (scanReal text.toList).1

/-- `iif(c1, v1, c2, v2, ..., else)`: the value after the first true condition, else the last
argument of an odd count, else `NULL`. -/
def chooseFirst : List Value → Value
  | [] => .null
  | [otherwise] => otherwise
  | c :: v :: rest => if c.truth? == some true then v else chooseFirst rest

/-- The arguments of `iif` as (condition, value) pairs, and the last argument of an odd count. -/
def pairsOf {α : Type} : List α → List (α × α) × Option α
  | [] => ([], none)
  | [otherwise] => ([], some otherwise)
  | c :: v :: rest =>
    let (pairs, otherwise) := pairsOf rest
    ((c, v) :: pairs, otherwise)

/-- The greatest or least of values, text compared under a collation; `NULL` when any is
`NULL`. Of equal values the greatest is the first and the least the last. -/
def extremeOf (greatest : Bool) (collation : String) : List Value → Value
  | [] => .null
  | v :: rest =>
    if v.isNull ∨ rest.any Value.isNull then .null
    else rest.foldl (fun best w =>
      match compareWith collation w best with
      | .gt => if greatest then w else best
      | .lt => if greatest then best else w
      | .eq => if greatest then best else w) v

/-- The longest text or blob a value may hold, in bytes. -/
def lengthLimit : Nat := 1000000000

/-- The version of the database engine the functions and messages follow. -/
def engineVersion : String := "3.48.0"

/-- The check-in of the engine's sources. -/
def engineSourceId : String :=
  "2025-01-14 11:05:00 d2fe6b05f38d9d7cd78c5d252e99ac59f1aea071d669830c1ffe4e8966e84010"

/-- Whether a character is an ASCII hexadecimal digit. -/
def isHexChar (c : Char) : Bool :=
  c.isDigit || ('a' ≤ c && c ≤ 'f') || ('A' ≤ c && c ≤ 'F')

/-- The value of an ASCII hexadecimal digit. -/
def hexCharValue (c : Char) : Nat :=
  if c.isDigit then c.toNat - 48 else if c ≤ 'F' then c.toNat - 55 else c.toNat - 87

/-- `unhex`: the bytes that pairs of hexadecimal digits spell. -/
def unhexChars (pass : List Char) : List Char → Option (List UInt8)
  | [] => some []
  | c :: rest =>
    if isHexChar c then
      match rest with
      | d :: more =>
        if isHexChar d then
          (unhexChars pass more).map ((hexCharValue c * 16 + hexCharValue d).toUInt8 :: ·)
        else none
      | [] => none
    else if pass.contains c then unhexChars pass rest
    else none

/-- The digit a byte's letter stands for in a soundex code, its high bit ignored: 0 for a vowel,
`h`, `w`, `y` and anything but a letter. -/
def soundexDigit (b : UInt8) : Nat :=
  let c := b.toNat % 128
  let upper := if 97 ≤ c ∧ c ≤ 122 then c - 32 else c
  if 65 ≤ upper ∧ upper ≤ 90 then
    [0, 1, 2, 3, 0, 1, 2, 0, 0, 2, 2, 4, 5, 5, 0, 1, 2, 6, 2, 3, 0, 1, 0, 2, 0, 2].getD (upper - 65) 0
  else 0

/-- The soundex code of text, `?000` when it has no ASCII letter. -/
def soundex (bytes : List UInt8) : String :=
  let isLetter (b : UInt8) : Bool := (65 ≤ b && b ≤ 90) || (97 ≤ b && b ≤ 122)
  match (bytes.takeWhile (· ≠ 0)).dropWhile (!isLetter ·) with
  | [] => "?000"
  | first :: rest =>
    let step (acc : List Nat × Nat) (b : UInt8) : List Nat × Nat :=
      let (digits, previous) := acc
      let code := soundexDigit b
      if digits.length ≥ 3 then acc
      else if code = 0 then (digits, 0)
      else if code = previous then acc
      else (digits ++ [code], code)
    let digits := ((first :: rest).foldl step ([], soundexDigit first)).1
    String.ofList (Char.toUpper (Char.ofNat first.toNat) ::
      (digits ++ List.replicate (3 - digits.length) 0).map fun d => Char.ofNat (48 + d))

/-- Applies a scalar function to its arguments, or gives the error it raises. -/
def callScalar (name : String) (args : List Value) : Except String Value :=
  match name.toLower, args with
  | "abs", [v] =>
    match v with
    | .null => pure .null
    | .int n =>
      if n = Double.minInt then throw "integer overflow" else pure (.int n.natAbs)
    | _ => pure (.real v.toReal.abs)
  | "length", [v] =>
    match v with
    | .null => pure .null
    | .blob bytes => pure (.int bytes.length)
    | _ => pure (.int (Pattern.cString v.chars).length)
  | "octet_length", [v] =>
    match v with
    | .null => pure .null
    | _ => pure (.int v.bytes.length)
  | "lower", [v] => pure (match v.toText? with
    | some s => .text (String.map Char.toLower s)
    | none => .null)
  | "upper", [v] => pure (match v.toText? with
    | some s => .text (String.map Char.toUpper s)
    | none => .null)
  | "typeof", [v] => pure (.text v.storageClass.typeName)
  | "hex", [v] => pure (.text (hexText v.bytes))
  | "quote", [v] => pure (.text (quoteValue v))
  | "unicode", [v] => pure (match Pattern.cString v.chars with
    | c :: _ => .int c.toNat
    | [] => .null)
  | "char", vs => pure (.text (String.ofList (vs.map fun v =>
      let n := v.toInt
      if n < 0 ∨ n > 0x10FFFF then Char.ofNat 0xFFFD else Char.ofNat n.toNat)))
  | "zeroblob", [v] =>
    if v.toInt > lengthLimit then throw "string or blob too big"
    else pure (.blob (List.replicate v.toInt.toNat 0))
  | "likely", [v] | "unlikely", [v] | "likelihood", [v, _] => pure v
  | "unhex", v :: rest =>
    match v, rest with
    | .null, _ | _, [.null] => pure .null
    | _, _ =>
      let pass := (rest.head?.map Value.chars).getD []
      pure ((unhexChars pass (Pattern.cString v.chars)).map Value.blob |>.getD .null)
  | "soundex", [v] => pure (.text (if v.isNull then "?000" else soundex v.bytes))
  | "random", [] => pure (.int (-7105888023525381312))
  | "randomblob", [v] =>
    if v.toInt > lengthLimit then throw "string or blob too big"
    else pure (.blob ((List.range (max v.toInt 1).toNat).map fun i => (i * 167 + 91).toUInt8))
  | "sqlite_version", [] => pure (.text engineVersion)
  | "sqlite_source_id", [] => pure (.text engineSourceId)
  | "sqlite_log", [_, _] => pure .null
  | "subtype", [_] => pure (.int 0)
  | "load_extension", _ => throw "not authorized"
  | "sign", [v] =>
    match v.numericAffinity false with
    | .int n => pure (.int (if n > 0 then 1 else if n < 0 then -1 else 0))
    | .real x => pure (.int (if x > 0 then 1 else if x < 0 then -1 else 0))
    | _ => pure .null
  | "ifnull", [a, b] => pure (if a.isNull then b else a)
  | "coalesce", vs => pure ((vs.find? fun v => !v.isNull).getD .null)
  | "nullif", [a, b] => pure (if Value.compare a b == .eq then .null else a)
  | "iif", vs | "if", vs => pure (chooseFirst vs)
  | "instr", [a, b] =>
    match a, b with
    | .null, _ | _, .null => pure .null
    | .blob x, .blob y => pure (.int (findFrom y x 0))
    | _, _ => pure (.int (findFrom b.chars a.chars 0))
  | "replace", [a, b, c] =>
    match a, b, c with
    | .null, _, _ | _, .null, _ | _, _, .null => pure .null
    | _, _, _ =>
      if b.chars.isEmpty then pure (.text (String.ofList a.chars))
      else pure (.text (String.ofList (replaceAll b.chars c.chars (a.chars.length + 1) a.chars)))
  | "trim", [v] => pure ((v.toText?.map fun s => Value.text (trimChars [' '] true true s)).getD .null)
  | "ltrim", [v] => pure ((v.toText?.map fun s => Value.text (trimChars [' '] true false s)).getD .null)
  | "rtrim", [v] => pure ((v.toText?.map fun s => Value.text (trimChars [' '] false true s)).getD .null)
  | "trim", [v, set] => pure (match v.toText?, set.toText? with
    | some s, some t => .text (trimChars t.toList true true s)
    | _, _ => .null)
  | "ltrim", [v, set] => pure (match v.toText?, set.toText? with
    | some s, some t => .text (trimChars t.toList true false s)
    | _, _ => .null)
  | "rtrim", [v, set] => pure (match v.toText?, set.toText? with
    | some s, some t => .text (trimChars t.toList false true s)
    | _, _ => .null)
  | "substr", v :: start :: rest | "substring", v :: start :: rest =>
    if v.isNull ∨ start.isNull ∨ rest.any Value.isNull then pure .null
    else pure (substring v start.toInt (rest.head?.map Value.toInt))
  | "round", v :: rest =>
    if v.isNull ∨ rest.any Value.isNull then pure .null
    else
      let places := ((rest.head?.map fun n => Printf.int32 n.toInt).getD 0)
      pure (.real (roundTo v.toReal (if places < 0 then 0 else min places.toNat 30)))
  | "like", pattern :: text :: rest => patternCall false pattern text rest.head?
  | "glob", [pattern, text] => patternCall true pattern text none
  | "min", vs => pure (extremeOf false "BINARY" vs)
  | "max", vs => pure (extremeOf true "BINARY" vs)
  | "concat", vs => pure (.text (String.join (vs.filterMap Value.toText?)))
  | "printf", vs | "format", vs => pure (Printf.printf vs)
  | "date", vs | "current_date", vs => pure (Calendar.date vs)
  | "time", vs | "current_time", vs => pure (Calendar.time vs)
  | "datetime", vs | "current_timestamp", vs => pure (Calendar.datetime vs)
  | "julianday", vs => pure (Calendar.julianday vs)
  | "unixepoch", vs => pure (Calendar.unixepoch vs)
  | "strftime", vs => pure (Calendar.strftime vs)
  | "timediff", vs => pure (Calendar.timediff vs)
  | "concat_ws", sep :: vs =>
    match sep.toText? with
    | some s => pure (.text (s.intercalate (vs.filterMap Value.toText?)))
    | none => pure .null
  | other, _ => throw ("no such function: " ++ other)

end Sql
end TreeHistory
