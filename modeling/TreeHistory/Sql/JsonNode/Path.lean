import TreeHistory.Sql.JsonNode

/-!
# Paths into JSON documents

A path names a place in a document: after `$` come steps `.key` for a member and `[n]`, `[#]` or
`[#-n]` for an item of an array. A path is read one step at a time as it is followed, so a
malformed step after one that finds nothing does not make it fail. Edits follow a path the same
way; merging a patch follows the patch.
-/

namespace TreeHistory
namespace Sql

/-- What following a path finds: a value, nothing, or a step that cannot be read. -/
inductive PathResult (α : Type) where
  | found (value : α)
  | missing
  | badPath

/-- How an edit changes the place a path names. -/
inductive EditMode where
  /-- Drops the member or item there. -/
  | remove
  /-- Adds a value where there is none, and leaves one that is there. -/
  | insert
  /-- Puts a value in place of one that is there, and adds none. -/
  | replace
  /-- Puts a value in place of one that is there, or adds it where there is none. -/
  | set
  deriving DecidableEq, Repr

/-- Whether an edit adds a value where the path finds none. -/
def EditMode.adds : EditMode → Bool
  | .insert | .set => true
  | _ => false

namespace JsonNode

/-- Reads the key of a member step after its dot, and whether it stands for itself. -/
def keyStep (path : List Char) : Option (List Char × Bool × List Char) :=
  match path with
  | '"' :: more =>
    let key := more.takeWhile (· ≠ '"')
    match more.drop key.length with
    | '"' :: rest => some (key, !key.contains '\\', rest)
    | _ => none
  | _ =>
    let key := path.takeWhile fun c => c ≠ '.' ∧ c ≠ '['
    if key.isEmpty then none else some (key, true, path.drop key.length)

/-- The value of decimal digits in 32-bit arithmetic. -/
def digitsValue (cs : List Char) : Nat :=
  cs.foldl (fun n c => (n * 10 + (c.toNat - 48)) % Nat.pow 2 32) 0

/-- Reads an index step after its bracket, for an array of `count` items. -/
def indexStep (count : Nat) (path : List Char) : PathResult (Nat × List Char) :=
  let digits := path.takeWhile Char.isDigit
  match digits, path.drop digits.length with
  | _ :: _, ']' :: rest => .found (digitsValue digits, rest)
  | _, _ =>
    match path with
    | '#' :: '-' :: d :: more =>
      if d.isDigit then
        let back := (d :: more).takeWhile Char.isDigit
        let n := digitsValue back
        if n > count then .missing
        else
          match (d :: more).drop back.length with
          | ']' :: rest => .found (count - n, rest)
          | _ => .badPath
      else .badPath
    | '#' :: ']' :: rest => .found (count, rest)
    | _ => .badPath

/-- Whether a key of a path names a member's key. A key with backslashes is read for its
escapes first. -/
def keyMatches (key : List Char) (literal : Bool) (label : JsonText) : Bool :=
  JsonText.same ⟨String.ofList key, if literal then .plain else .escaped⟩ label

/-- The key an edit gives a member it adds: the path's key, escaped when it is written out
unless it has backslashes, which are taken as escapes. -/
def addedKey (key : List Char) (literal : Bool) : JsonText :=
  ⟨String.ofList key, if literal then .raw else .extended⟩

/-- Follows the steps of a path, its `$` already read. -/
def lookup : Nat → List Char → JsonNode → PathResult JsonNode
  | _, [], node => .found node
  | 0, _ :: _, _ => .badPath
  | fuel + 1, '.' :: path, node =>
    match keyStep path with
    | none => .badPath
    | some (key, literal, rest) =>
      match node with
      | .object members =>
        match members.find? (fun m => keyMatches key literal m.1) with
        | some (_, value) => lookup fuel rest value
        | none => .missing
      | _ => .missing
  | fuel + 1, '[' :: path, node =>
    match node with
    | .array items =>
      match indexStep items.length path with
      | .found (k, rest) =>
        match items[k]? with
        | some item => lookup fuel rest item
        | none => .missing
      | .missing => .missing
      | .badPath => .badPath
    | _ => .missing
  | _ + 1, _ :: _, _ => .badPath

/-- The empty container that the rest of a path asks an edit to build: an object before a
member step, an array otherwise. -/
def emptyFor (rest : List Char) : JsonNode :=
  if rest.head? = some '.' then .object [] else .array []

/-- Edits a document at the end of a path, its `$` already read. Gives the document after the
edit, or none when the edit removes the node the path names itself. -/
def edit (mode : EditMode) (value : JsonNode) : Nat → List Char → JsonNode →
    PathResult (Option JsonNode)
  | _, [], node =>
    .found (match mode with
      | .remove => none
      | .insert => some node
      | _ => some value)
  | 0, _ :: _, _ => .badPath
  | fuel + 1, '.' :: path, node =>
    match keyStep path with
    | none => .badPath
    | some (key, literal, rest) =>
      match node with
      | .object members =>
        match members.findIdx? (fun m => keyMatches key literal m.1) with
        | some idx =>
          match members[idx]? with
          | some (label, child) =>
            match edit mode value fuel rest child with
            | .found none => .found (some (.object (members.eraseIdx idx)))
            | .found (some child) => .found (some (.object (members.set idx (label, child))))
            | .missing => .missing
            | .badPath => .badPath
          | none => .missing
        | none =>
          if !mode.adds then .missing
          else
            match (if rest.isEmpty then .found (some value)
                else edit mode value fuel rest (emptyFor rest)) with
            | .found (some added) =>
              .found (some (.object (members ++ [(addedKey key literal, added)])))
            | .found none => .missing
            | .missing => .missing
            | .badPath => .badPath
      | _ => .missing
  | fuel + 1, '[' :: path, node =>
    match node with
    | .array items =>
      match indexStep items.length path with
      | .found (k, rest) =>
        match items[k]? with
        | some child =>
          match edit mode value fuel rest child with
          | .found none => .found (some (.array (items.eraseIdx k)))
          | .found (some child) => .found (some (.array (items.set k child)))
          | .missing => .missing
          | .badPath => .badPath
        | none =>
          if k ≠ items.length ∨ !mode.adds then .missing
          else
            match (if rest.isEmpty then .found (some value)
                else edit mode value fuel rest (emptyFor rest)) with
            | .found (some added) => .found (some (.array (items ++ [added])))
            | .found none => .missing
            | .missing => .missing
            | .badPath => .badPath
      | .missing => .missing
      | .badPath => .badPath
    | _ => .missing
  | _ + 1, _ :: _, _ => .badPath

mutual

/-- A document with a patch merged into it. -/
def merge (target : JsonNode) : JsonNode → JsonNode
  | .object patch =>
    .object (mergeMembers (match target with
      | .object members => members
      | _ => []) patch)
  | patch => patch

/-- The members of an object with the members of a patch merged into them in turn. -/
def mergeMembers (target : List (JsonText × JsonNode)) :
    List (JsonText × JsonNode) → List (JsonText × JsonNode)
  | [] => target
  | (key, value) :: rest =>
    let target := match target.findIdx? (fun m => JsonText.same key m.1), value with
      | some idx, .null => target.eraseIdx idx
      | some idx, _ => target.modify idx fun (k, old) => (k, merge old value)
      | none, .null => target
      | none, .object _ => target ++ [(key, merge (.object []) value)]
      | none, _ => target ++ [(key, value)]
    mergeMembers target rest

end

end JsonNode

end Sql
end TreeHistory
