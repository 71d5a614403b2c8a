import TreeHistory.Json.Value

/-!
# The records of a change feed

Each line of a change feed is one JSON object with exactly the members `revision`, `author`,
`date`, `message` and `changes`, none twice; or an array of those values in order, the optional
ones at the end left out. `RevisionLine.ofJson` reads a value of that shape and refuses anything
else.
-/

namespace TreeHistory

/-- A change as it stands in the feed. -/
structure ChangeLine where
  path : String
  action : String
  kind : String
  copyFromPath : Option String
  copyFromRev : Option Int
  data : Option String
  deriving DecidableEq, Repr

/-- A revision as it stands in the feed. -/
structure RevisionLine where
  revision : Int
  author : Option String
  date : String
  message : String
  changes : List ChangeLine
  deriving DecidableEq, Repr

namespace FeedShape

/-- Whether an integer fits in 64 signed bits. -/
def isInt64 (n : Int) : Bool := -9223372036854775808 ≤ n && n ≤ 9223372036854775807

/-- A 64-bit integer. -/
def int64 : Json → Option Int
  | .int n => if isInt64 n then some n else none
  | _ => none

/-- A text. -/
def text : Json → Option String
  | .str s => some s
  | _ => none

/-- A value or `null`. -/
def nullable {α : Type} (read : Json → Option α) : Json → Option (Option α)
  | .null => some none
  | value => (read value).map some

/-- Whether every member name is one of `names` and none is repeated. -/
def membersOk (names : List String) (members : List (String × Json)) : Bool :=
  members.all (fun member => names.contains member.1) && (members.map (·.1)).Nodup

/-- A required member read with `read`. -/
def required {α : Type} (members : List (String × Json)) (name : String)
    (read : Json → Option α) : Option α :=
  match members.find? (·.1 == name) with
  | some (_, value) => read value
  | none => none

/-- An optional member read with `read`, `fallback` when absent. -/
def optional {α : Type} (members : List (String × Json)) (name : String)
    (read : Json → Option α) (fallback : α) : Option α :=
  match members.find? (·.1 == name) with
  | some (_, value) => read value
  | none => some fallback

/-- A required item of an array record. -/
def item {α : Type} (items : List Json) (index : Nat) (read : Json → Option α) : Option α :=
  match items[index]? with
  | some value => read value
  | none => none

/-- An optional item of an array record, `fallback` when the array ends before it. -/
def itemOr {α : Type} (items : List Json) (index : Nat) (read : Json → Option α)
    (fallback : α) : Option α :=
  match items[index]? with
  | some value => read value
  | none => some fallback

end FeedShape

open FeedShape in
/-- Reads a change of the feed's shape. -/
def ChangeLine.ofJson : Json → Option ChangeLine
  | .obj members =>
    if !membersOk ["path", "action", "kind", "copy_from_path", "copy_from_rev", "data"] members
    then none
    else do
      let path ← required members "path" text
      let action ← required members "action" text
      let kind ← required members "kind" text
      let copyFromPath ← optional members "copy_from_path" (nullable text) none
      let copyFromRev ← optional members "copy_from_rev" (nullable int64) none
      let data ← optional members "data" (nullable text) none
      pure { path := path, action := action, kind := kind, copyFromPath := copyFromPath,
             copyFromRev := copyFromRev, data := data }
  | .arr items =>
    if items.length < 3 ∨ items.length > 6 then none
    else do
      let path ← item items 0 text
      let action ← item items 1 text
      let kind ← item items 2 text
      let copyFromPath ← itemOr items 3 (nullable text) none
      let copyFromRev ← itemOr items 4 (nullable int64) none
      let data ← itemOr items 5 (nullable text) none
      pure { path := path, action := action, kind := kind, copyFromPath := copyFromPath,
             copyFromRev := copyFromRev, data := data }
  | _ => none

open FeedShape in
/-- Reads the changes of a revision. -/
def ChangeLine.listOfJson : Json → Option (List ChangeLine)
  | .arr items => items.mapM ChangeLine.ofJson
  | _ => none

open FeedShape in
/-- Reads a revision of the feed's shape. -/
def RevisionLine.ofJson : Json → Option RevisionLine
  | .obj members =>
    if !membersOk ["revision", "author", "date", "message", "changes"] members then none
    else do
      let revision ← required members "revision" int64
      let author ← optional members "author" (nullable text) none
      let date ← required members "date" text
      let message ← optional members "message" text ""
      let changes ← optional members "changes" ChangeLine.listOfJson []
      pure { revision := revision, author := author, date := date, message := message,
             changes := changes }
  | .arr items =>
    if items.length < 3 ∨ items.length > 5 then none
    else do
      let revision ← item items 0 int64
      let author ← item items 1 (nullable text)
      let date ← item items 2 text
      let message ← itemOr items 3 text ""
      let changes ← itemOr items 4 ChangeLine.listOfJson []
      pure { revision := revision, author := author, date := date, message := message,
             changes := changes }
  | _ => none

end TreeHistory
