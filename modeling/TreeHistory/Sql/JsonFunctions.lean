import TreeHistory.Sql.JsonNode.Read
import TreeHistory.Sql.JsonNode.Binary
import TreeHistory.Sql.JsonNode.Path
import TreeHistory.Sql.Value

/-!
# The JSON functions

The SQL functions that read and build JSON documents, from JSON text or the binary form, giving
compact JSON text back (or the binary form, for the `jsonb` functions). Text a JSON function
gives back is marked as JSON (`MarkedValue`): passed to another JSON function it is taken as JSON,
where other text becomes a JSON string.
-/

namespace TreeHistory
namespace Sql

/-- A value, and whether it is JSON text that a JSON function gave back. -/
structure MarkedValue where
  value : Value
  json : Bool := false

namespace JsonFunction

/-- The error of a text that holds no JSON document. -/
def malformed : String := "malformed JSON"

/-- The error of a blob that does not hold a document in the binary form. -/
def blobError : String := "JSON cannot hold BLOB values"

/-- The error of a path that cannot be read, the path quoted as an SQL string. -/
def badPathError (path : String) : String :=
  "bad JSON path: '" ++ path.replace "'" "''" ++ "'"

/-- `NULL`, unmarked. -/
def nullResult : MarkedValue := ⟨.null, false⟩

/-- A double written inside JSON: as its text, and the infinities as `9.0e+999` and its
negation, which read back as infinities. -/
def realText (x : Float) : String :=
  match Double.decode x with
  | some _ => Double.render x
  | none => if x < 0 then "-9.0e+999" else "9.0e+999"

/-- Text as a JSON string, with its quotes. -/
def quoteText (s : String) : String :=
  String.ofList ('"' :: JsonText.escapeChars s.toList ++ ['"'])

/-- A value written as JSON: text marked as JSON as it is, other text as a string. -/
def jsonText (v : MarkedValue) : Except String String :=
  match v.value with
  | .null => pure "null"
  | .int n => pure (toString n)
  | .real x => pure (realText x)
  | .text s => pure (if v.json then s else quoteText s)
  | .blob bytes =>
    match JsonNode.decode bytes with
    | some node => pure node.render
    | none => throw blobError

/-- A value as a node to put into a document. -/
def toNode (v : MarkedValue) : Except String JsonNode :=
  match v.value with
  | .null => pure .null
  | .int n => pure (.int (toString n))
  | .real x =>
    pure (.real (match Double.decode x with
      | some _ => Double.render x
      | none => if x < 0 then "-9e999" else "9e999"))
  | .text s =>
    if v.json then
      match JsonNode.read s with
      | .ok parsed => pure parsed.node
      | .error _ => throw malformed
    else pure (.str ⟨s, .raw⟩)
  | .blob bytes =>
    match JsonNode.decode bytes with
    | some node => pure node
    | none => throw blobError

/-- The document JSON text holds; an empty text holds none. -/
def readDocument (s : String) : Except String (Option JsonNode) :=
  if s.isEmpty then throw malformed
  else
    match JsonNode.read s with
    | .ok parsed => pure (some parsed.node)
    | .error _ => throw malformed

/-- The document an argument holds: none for `NULL`; a blob in the binary form as it is; any
other value read as JSON text, the bytes of another blob included. -/
def documentOf (v : Value) : Except String (Option JsonNode) :=
  match v with
  | .null => pure none
  | .blob bytes =>
    match JsonNode.decode bytes with
    | some node => pure (some node)
    | none => readDocument (Value.bytesText bytes)
  | _ => readDocument (v.toText?.getD "")

/-- A double from the text of a JSON number, which must read as a number. -/
def realValue (text : String) : Except String Value :=
  let (x, code) := scanReal text.toList
  if code ≤ 0 then throw malformed else pure (.real x)

/-- An SQL value from the text of a JSON integer. -/
def intValue (text : String) : Except String Value :=
  let (negative, digits) := match text.toList with
    | '-' :: rest => (true, rest)
    | cs => (false, cs)
  let signed (n : Int) : Int := if negative then -n else n
  match digits with
  | [] => throw malformed
  | '0' :: x :: rest =>
    if x = 'x' ∨ x = 'X' then
      let significant := rest.dropWhile (· = '0')
      let hexDigits := significant.takeWhile JsonRead.isHexChar
      if hexDigits.length > 16 then realValue text
      else if hexDigits.length < significant.length then throw malformed
      else
        let u := JsonText.hexValue hexDigits
        if u ≥ Nat.pow 2 63 then
          let r := Double.ofInt u
          pure (.real (if negative then -r else r))
        else pure (.int (signed u))
    else decimal negative digits signed
  | _ => decimal negative digits signed
where
  /-- A decimal integer's digits as a value. -/
  decimal (negative : Bool) (digits : List Char) (signed : Int → Int) : Except String Value :=
    let (n, code) := scanInt digits
    if code = 0 then pure (.int (signed n))
    else if code = 3 ∧ negative then pure (.int Double.minInt)
    else if code = 1 then throw malformed
    else realValue text

/-- A node as an SQL value. Arrays and objects are their JSON text, or in the binary form when
`binary`. -/
def sqlValue (binary : Bool) : JsonNode → Except String Value
  | .null => pure .null
  | .bool b => pure (.int (if b then 1 else 0))
  | .int t => intValue t
  | .hex t => intValue t
  | .real t => realValue t
  | .bareReal t => realValue t
  | .str t => pure (.text t.decoded)
  | node => pure (if binary then .blob node.encode else .text node.render)

/-- A document a function gives back: as JSON text, marked as JSON, or in the binary form. -/
def documentResult (binary : Bool) (node : JsonNode) : MarkedValue :=
  if binary then ⟨.blob node.encode, false⟩ else ⟨.text node.render, true⟩

/-- JSON text a function built, given back as it is, or in the binary form of the document it
holds. -/
def textResult (binary : Bool) (text : String) : Except String MarkedValue :=
  if binary then
    match JsonNode.read text with
    | .ok parsed => pure ⟨.blob parsed.node.encode, false⟩
    | .error _ => throw malformed
  else pure ⟨.text text, true⟩

/-- Follows a path, its text starting with `$`, into a document. -/
def follow (doc : JsonNode) (path : String) : PathResult JsonNode :=
  doc.lookup (path.length + 1) (path.toList.drop 1)

/-- `json(X)`: the document `X` holds. -/
def document (binary : Bool) (args : List MarkedValue) : Except String MarkedValue := do
  match args with
  | [x] =>
    match ← documentOf x.value with
    | some doc => pure (documentResult binary doc)
    | none => pure nullResult
  | _ => pure nullResult

/-- `json_array(...)`: the array of the arguments. -/
def array (binary : Bool) (args : List MarkedValue) : Except String MarkedValue := do
  let items ← args.mapM jsonText
  textResult binary ("[" ++ ",".intercalate items ++ "]")

/-- The pairs of a list: its first and second items, its third and fourth, and so on. -/
def pairs {α : Type} : List α → List (α × α)
  | a :: b :: rest => (a, b) :: pairs rest
  | _ => []

/-- `json_object(K1, V1, ...)`: the object of the keys and values; every key must be text. -/
def object (binary : Bool) (args : List MarkedValue) : Except String MarkedValue := do
  if args.length % 2 = 1 then throw "json_object() requires an even number of arguments"
  let members := pairs args
  if members.any fun (k, _) => k.value.storageClass ≠ .text then
    throw "json_object() labels must be TEXT"
  let texts ← members.mapM fun (k, v) => do
    pure (quoteText (k.value.toText?.getD "") ++ ":" ++ (← jsonText v))
  textResult binary ("\x7b" ++ ",".intercalate texts ++ "\x7d")

/-- `json_array_length(X, P)`: the number of items of the array at the path, 0 for a node that is
not an array, and `NULL` when the path finds nothing. -/
def arrayLength (args : List MarkedValue) : Except String MarkedValue := do
  match args with
  | x :: rest =>
    let some doc ← documentOf x.value | pure nullResult
    let found ← match rest with
      | [p] =>
        match p.value.toText? with
        | none => pure none
        | some path =>
          if !path.startsWith "$" then throw (badPathError path)
          match follow doc path with
          | .found node => pure (some node)
          | .missing => pure none
          | .badPath => throw (badPathError path)
      | _ => pure (some doc)
    match found with
    | some (.array items) => pure ⟨.int items.length, false⟩
    | some _ => pure ⟨.int 0, false⟩
    | none => pure nullResult
  | [] => pure nullResult

/-- How an extraction gives back what it finds. -/
inductive Extraction where
  /-- As an SQL value, arrays and objects as JSON text marked as JSON. -/
  | value
  /-- As an SQL value, arrays and objects in the binary form. -/
  | binary
  /-- As JSON text, marked as JSON. -/
  | json
  /-- As an SQL value, arrays and objects as unmarked JSON text. -/
  | sql
  deriving DecidableEq

/-- The path an argument of the arrow operators stands for when it does not start with `$`. -/
def abbreviatedPath (v : Value) (text : String) : String :=
  match v with
  | .int _ => "$[" ++ (if text.startsWith "-" then "#" else "") ++ text ++ "]"
  | _ =>
    if text.all fun c => c.isAlphanum ∨ c = '_' then "$." ++ text
    else if text.startsWith "[" ∧ text.length ≥ 3 ∧ text.endsWith "]" then "$" ++ text
    else "$.\"" ++ text ++ "\""

/-- Follows a path argument of an extraction: none for a `NULL` path, and else the node found,
if any. -/
def findPath (how : Extraction) (doc : JsonNode) (arg : Value) :
    Except String (Option (Option JsonNode)) :=
  match arg.toText? with
  | none => pure none
  | some text =>
    let path := if text.startsWith "$" then text
      else if how = .json ∨ how = .sql then abbreviatedPath arg text
      else ""
    if !path.startsWith "$" then throw (badPathError text)
    else
      match follow doc path with
      | .found node => pure (some (some node))
      | .missing => pure (some none)
      | .badPath => throw (badPathError text)

/-- The JSON text of what each path finds, null for nothing; none when a path is `NULL`. -/
def gather (how : Extraction) (doc : JsonNode) : List MarkedValue →
    Except String (Option (List String))
  | [] => pure (some [])
  | p :: rest => do
    match ← findPath how doc p.value with
    | none => pure none
    | some found =>
      let text := match found with
        | some node => node.render
        | none => "null"
      match ← gather how doc rest with
      | some texts => pure (some (text :: texts))
      | none => pure none

/-- `json_extract(X, P, ...)` and the arrow operators. -/
def extract (how : Extraction) (args : List MarkedValue) : Except String MarkedValue := do
  match args with
  | x :: p :: more =>
    let some doc ← documentOf x.value | pure nullResult
    match more with
    | [] =>
      match ← findPath how doc p.value with
      | some (some node) =>
        match how with
        | .json => pure ⟨.text node.render, true⟩
        | .sql => pure ⟨← sqlValue false node, false⟩
        | .value => pure ⟨← sqlValue false node, node.isContainer⟩
        | .binary => pure ⟨← sqlValue true node, false⟩
      | _ => pure nullResult
    | _ =>
      match ← gather how doc (p :: more) with
      | some texts => textResult (how = .binary) ("[" ++ ",".intercalate texts ++ "]")
      | none => pure nullResult
  | _ => pure nullResult

/-- Applies the edits of path and value pairs in turn. A `NULL` path is skipped, a path that
finds nothing changes nothing, and `$` alone names the whole document. -/
def editEach (mode : EditMode) (doc : JsonNode) :
    List (MarkedValue × MarkedValue) → Except String JsonNode
  | [] => pure doc
  | (p, v) :: rest => do
    match p.value.toText? with
    | none => editEach mode doc rest
    | some path =>
      if !path.startsWith "$" then throw (badPathError path)
      let value ← toNode v
      if path.length = 1 then editEach mode (if mode = .insert then doc else value) rest
      else
        match JsonNode.edit mode value (path.length + 1) (path.toList.drop 1) doc with
        | .found (some edited) => editEach mode edited rest
        | .found none | .missing => editEach mode doc rest
        | .badPath => throw (badPathError path)

/-- `json_set`, `json_insert` and `json_replace`: the document with each path set to the value
after it. -/
def edit (mode : EditMode) (binary : Bool) (name : String) (args : List MarkedValue) :
    Except String MarkedValue := do
  match args with
  | [] => pure nullResult
  | x :: rest =>
    if rest.length % 2 = 1 then throw ("json_" ++ name ++ "() needs an odd number of arguments")
    let some doc ← documentOf x.value | pure nullResult
    pure (documentResult binary (← editEach mode doc (pairs rest)))

/-- Removes the places the paths name in turn; none when a path is `NULL` or is `$` alone. -/
def removeEach (doc : JsonNode) : List MarkedValue → Except String (Option JsonNode)
  | [] => pure (some doc)
  | p :: rest => do
    match p.value.toText? with
    | none => pure none
    | some path =>
      if !path.startsWith "$" then throw (badPathError path)
      if path.length = 1 then return none
      match JsonNode.edit .remove .null (path.length + 1) (path.toList.drop 1) doc with
      | .found (some edited) => removeEach edited rest
      | .found none | .missing => removeEach doc rest
      | .badPath => throw (badPathError path)

/-- `json_remove(X, P, ...)`: the document without the places the paths name. -/
def remove (binary : Bool) (args : List MarkedValue) : Except String MarkedValue := do
  match args with
  | [] => pure nullResult
  | x :: paths =>
    let some doc ← documentOf x.value | pure nullResult
    match ← removeEach doc paths with
    | some doc => pure (documentResult binary doc)
    | none => pure nullResult

/-- `json_patch(T, P)`: the patch merged into the target. -/
def patch (binary : Bool) (args : List MarkedValue) : Except String MarkedValue := do
  match args with
  | [t, p] =>
    let some target ← documentOf t.value | pure nullResult
    let some patch ← documentOf p.value | pure nullResult
    pure (documentResult binary (target.merge patch))
  | _ => pure nullResult

/-- `json_type(X, P)`: the kind of the node at the path, `NULL` when it finds nothing. -/
def typeOf (args : List MarkedValue) : Except String MarkedValue := do
  match args with
  | x :: rest =>
    let some doc ← documentOf x.value | pure nullResult
    match rest with
    | [p] =>
      match p.value.toText? with
      | none => pure nullResult
      | some path =>
        if !path.startsWith "$" then throw (badPathError path)
        match follow doc path with
        | .found node => pure ⟨.text node.typeName, false⟩
        | .missing => pure nullResult
        | .badPath => throw (badPathError path)
    | _ => pure ⟨.text doc.typeName, false⟩
  | [] => pure nullResult

/-- Whether JSON text is valid under the flags of `json_valid`: 1 accepts standard JSON, 2 JSON5
as well. -/
def textValid (flags : Nat) (s : String) : Bool :=
  if flags % 4 = 0 ∨ s.isEmpty then false
  else
    match JsonNode.read s with
    | .ok parsed => flags / 2 % 2 = 1 ∨ !parsed.nonstandard
    | .error _ => false

/-- `json_valid(X, FLAGS)`: 1 when `X` is valid as the flags ask, 0 when not. -/
def valid (args : List MarkedValue) : Except String MarkedValue := do
  let flags ← match args with
    | [_, f] =>
      let n := f.value.toInt
      if n < 1 ∨ n > 15 then throw "FLAGS parameter to json_valid() must be between 1 and 15"
      else pure n.toNat
    | _ => pure 1
  let truth (b : Bool) : MarkedValue := ⟨.int (if b then 1 else 0), false⟩
  match (args.head?.map (·.value) : Option Value) with
  | none | some .null => pure nullResult
  | some (.blob bytes) =>
    if JsonNode.mayBeBinary bytes then
      if flags / 4 % 2 = 1 then pure (truth true)
      else if flags / 8 % 2 = 1 then pure (truth (JsonNode.decode bytes).isSome)
      else pure (truth false)
    else pure (truth (textValid flags (Value.bytesText bytes)))
  | some v => pure (truth (textValid flags (v.toText?.getD "")))

/-- `json_quote(X)`: `X` as JSON. -/
def quote (args : List MarkedValue) : Except String MarkedValue := do
  match args with
  | [x] => pure ⟨.text (← jsonText x), true⟩
  | _ => pure nullResult

/-- `json_error_position(X)`: 0 when `X` holds a document, else the position of the first
character that could not be read, counted from 1. -/
def errorPosition (args : List MarkedValue) : Except String MarkedValue := do
  match (args.head?.map (·.value) : Option Value) with
  | none | some .null => pure nullResult
  | some v =>
    match v with
    | .blob bytes =>
      if JsonNode.mayBeBinary bytes then
        pure ⟨.int (if (JsonNode.decode bytes).isSome then 0 else 1), false⟩
      else pure ⟨.int (position (Value.bytesText bytes)), false⟩
    | _ => pure ⟨.int (position (v.toText?.getD "")), false⟩
where
  /-- The error position of a text, 0 when it holds a document. -/
  position (s : String) : Nat :=
    match JsonNode.read s with
    | .ok _ => 0
    | .error p => p + 1

/-- `json_pretty(X, INDENT)`: the document indented, by four spaces when no indent is given. -/
def prettyText (args : List MarkedValue) : Except String MarkedValue := do
  match args with
  | x :: rest =>
    let some doc ← documentOf x.value | pure nullResult
    let indent := (rest.head?.bind (·.value.toText?)).getD "    "
    pure ⟨.text (doc.pretty indent 0), false⟩
  | [] => pure nullResult

/-- The names of the scalar JSON functions and operators. -/
def isScalar (name : String) : Bool :=
  ["json", "jsonb", "json_array", "jsonb_array", "json_object", "jsonb_object",
    "json_array_length", "json_error_position", "json_extract", "jsonb_extract", "->", "->>",
    "json_insert", "jsonb_insert", "json_replace", "jsonb_replace", "json_set", "jsonb_set",
    "json_remove", "jsonb_remove", "json_patch", "jsonb_patch", "json_pretty", "json_quote",
    "json_type", "json_valid"].contains name.toLower

/-- The names of the aggregate JSON functions. -/
def isAggregate (name : String) : Bool :=
  ["json_group_array", "jsonb_group_array", "json_group_object", "jsonb_group_object"].contains
    name.toLower

/-- Applies a scalar JSON function to its arguments, or gives the error it raises. -/
def call (name : String) (args : List MarkedValue) : Except String MarkedValue :=
  match name.toLower with
  | "json" => document false args
  | "jsonb" => document true args
  | "json_array" => array false args
  | "jsonb_array" => array true args
  | "json_object" => object false args
  | "jsonb_object" => object true args
  | "json_array_length" => arrayLength args
  | "json_error_position" => errorPosition args
  | "json_extract" => extract .value args
  | "jsonb_extract" => extract .binary args
  | "->" => extract .json args
  | "->>" => extract .sql args
  | "json_insert" => edit .insert false "insert" args
  | "jsonb_insert" => edit .insert true "insert" args
  | "json_replace" => edit .replace false "replace" args
  | "jsonb_replace" => edit .replace true "replace" args
  | "json_set" => edit .set false "set" args
  | "jsonb_set" => edit .set true "set" args
  | "json_remove" => remove false args
  | "jsonb_remove" => remove true args
  | "json_patch" => patch false args
  | "jsonb_patch" => patch true args
  | "json_pretty" => prettyText args
  | "json_quote" => quote args
  | "json_type" => typeOf args
  | "json_valid" => valid args
  | other => throw ("no such function: " ++ other)

/-- The key of a row of `json_group_object` as JSON: its text up to any NUL, as a string; a
`NULL` key writes nothing. -/
def groupKey (v : Value) : String :=
  match v.toText? with
  | some s => quoteText (String.ofList (s.toList.takeWhile (· ≠ Char.ofNat 0)))
  | none => ""

/-- Applies an aggregate JSON function to the arguments of the rows of a group. -/
def aggregate (name : String) (rows : List (List MarkedValue)) : Except String MarkedValue := do
  let lower := name.toLower
  let binary := lower.startsWith "jsonb"
  if lower = "json_group_object" ∨ lower = "jsonb_group_object" then
    let texts ← rows.mapM fun row => do
      match row with
      | [k, v] => pure (groupKey k.value ++ ":" ++ (← jsonText v))
      | _ => pure ""
    textResult binary ("\x7b" ++ ",".intercalate texts ++ "\x7d")
  else
    let texts ← rows.mapM fun row => jsonText (row.head?.getD nullResult)
    textResult binary ("[" ++ ",".intercalate texts ++ "]")

end JsonFunction

end Sql
end TreeHistory
