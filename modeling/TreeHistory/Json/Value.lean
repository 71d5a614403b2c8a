/-!
# JSON values

The values of JSON, as the index reads them from change feeds and writes them on its command
line. Integer literals are kept as integers of any size; object members stay in written order and
may repeat, so that a reader can refuse repeated names. `render` writes a value compactly.
-/

namespace TreeHistory

/-- A JSON value. -/
inductive Json where
  | null
  | bool (value : Bool)
  /-- A number written without fraction or exponent. -/
  | int (value : Int)
  /-- A number written with a fraction or an exponent, as written. -/
  | number (text : String)
  | str (value : String)
  | arr (items : List Json)
  /-- Members in written order, repeats kept. -/
  | obj (members : List (String × Json))
  deriving Repr, Inhabited

namespace Json

/-- The hexadecimal digit of a number below sixteen, in lowercase. -/
def hexDigit (n : Nat) : Char :=
  if n < 10 then Char.ofNat (48 + n) else Char.ofNat (87 + n)

/-- How one character is written inside a JSON string. -/
def escapeChar (c : Char) : List Char :=
  if c = '"' then ['\\', '"']
  else if c = '\\' then ['\\', '\\']
  else if c = '\n' then ['\\', 'n']
  else if c = '\r' then ['\\', 'r']
  else if c = '\t' then ['\\', 't']
  else if c.toNat = 8 then ['\\', 'b']
  else if c.toNat = 12 then ['\\', 'f']
  else if c.toNat < 0x20 then ['\\', 'u', '0', '0', hexDigit (c.toNat / 16), hexDigit (c.toNat % 16)]
  else [c]

/-- A text as a JSON string literal. -/
def quote (s : String) : String :=
  String.ofList ('"' :: s.toList.flatMap escapeChar ++ ['"'])

mutual

/-- The compact text of a value. -/
def render : Json → String
  | .null => "null"
  | .bool true => "true"
  | .bool false => "false"
  | .int value => toString value
  | .number text => text
  | .str value => quote value
  | .arr items => "[" ++ renderItems items ++ "]"
  | .obj members => "\x7b" ++ renderMembers members ++ "\x7d"

/-- The items of an array, separated by commas. -/
def renderItems : List Json → String
  | [] => ""
  | [item] => render item
  | item :: rest => render item ++ "," ++ renderItems rest

/-- The members of an object, separated by commas. -/
def renderMembers : List (String × Json) → String
  | [] => ""
  | [(key, value)] => quote key ++ ":" ++ render value
  | (key, value) :: rest => quote key ++ ":" ++ render value ++ "," ++ renderMembers rest

end

/-- The value of the first member named `key`, if the value is an object that has one. -/
def get? (value : Json) (key : String) : Option Json :=
  match value with
  | .obj members => (members.find? (fun member => member.1 == key)).map (·.2)
  | _ => none

/-- A text value, as an option. -/
def str? : Json → Option String
  | .str value => some value
  | _ => none

/-- An integer value, as an option. -/
def int? : Json → Option Int
  | .int value => some value
  | _ => none

/-- A boolean value, as an option. -/
def bool? : Json → Option Bool
  | .bool value => some value
  | _ => none

/-- The items of an array value, as an option. -/
def arr? : Json → Option (List Json)
  | .arr items => some items
  | _ => none

/-- A text value or `null`. -/
def ofOption (value : Option String) : Json :=
  match value with
  | some text => .str text
  | none => .null

end Json
end TreeHistory
