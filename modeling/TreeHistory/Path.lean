import TreeHistory.Text.Blank
import TreeHistory.Text.Quoted

/-!
# Repository paths

A repository path names a node of the versioned tree: `/` is the root, and every other node is
`/` followed by its segments joined with `/`. `normalize` brings a raw path to that form, `split`
cuts it at its last slash into parent and name, and `join` puts them back together.
-/

namespace TreeHistory

/-- Why a path was refused. -/
inductive PathError where
  /-- The path is empty after trimming. -/
  | empty
  /-- A segment is `.` or `..`; the path is the trimmed input. -/
  | invalidSegment (path segment : String)
  /-- The trimmed path holds a control character. -/
  | containsControl (path : String)
  /-- The root path was asked for its parent. -/
  | rootHasNoParent
  deriving DecidableEq, Repr

namespace PathError

/-- The text of a path error. -/
def message : PathError → String
  | .empty => "path must not be empty"
  | .invalidSegment path segment =>
    "path segment " ++ Text.quote segment ++ " is not allowed in " ++ path
  | .containsControl path => "path contains control characters: " ++ Text.quote path
  | .rootHasNoParent => "the repository root has no parent"

end PathError

namespace Path

/-- The path of the repository root. -/
def root : String := "/"

/-- Splits a character list at every slash; `n` slashes give `n + 1` pieces. -/
def splitSlash : List Char → List (List Char)
  | [] => [[]]
  | c :: cs =>
    if c = '/' then [] :: splitSlash cs
    else match splitSlash cs with
      | [] => [[c]]
      | piece :: pieces => (c :: piece) :: pieces

/-- The non-empty pieces between slashes. -/
def segments (cs : List Char) : List (List Char) :=
  (splitSlash cs).filter (fun piece => !piece.isEmpty)

/-- A segment that refers to the current or the parent directory. -/
def isDotSegment (segment : List Char) : Bool :=
  segment == ['.'] || segment == ['.', '.']

/-- The characters of a path with the given segments: `/` for none, else each segment after a
slash. -/
def renderChars : List (List Char) → List Char
  | [] => ['/']
  | segs => segs.flatMap (fun seg => '/' :: seg)

/-- Brings a raw path to its canonical form, or says why it cannot be one. -/
def normalize (raw : String) : Except PathError String :=
  let trimmed := Text.trimChars raw.toList
  if trimmed.isEmpty then .error .empty
  else if trimmed.any Text.isControl then .error (.containsControl (String.ofList trimmed))
  else
    match (segments trimmed).find? isDotSegment with
    | some seg => .error (.invalidSegment (String.ofList trimmed) (String.ofList seg))
    | none => .ok (String.ofList (renderChars (segments trimmed)))

/-- The characters before the last slash and after it, or `none` without a slash. -/
def breakLast (cs : List Char) : Option (List Char × List Char) :=
  match cs.reverse.span (fun c => c != '/') with
  | (_, []) => none
  | (nameRev, _ :: parentRev) => some (parentRev.reverse, nameRev.reverse)

/-- Cuts a path at its last slash into the parent path and the name. -/
def split (path : String) : Except PathError (String × String) :=
  if path = root then .error .rootHasNoParent
  else
    match breakLast path.toList with
    | none => .error (.invalidSegment path path)
    | some ([], name) => .ok (root, String.ofList name)
    | some (parent, name) => .ok (String.ofList parent, String.ofList name)

/-- The path of the child `name` of `parent`. -/
def join (parent name : String) : String :=
  if parent = root then "/" ++ name else parent ++ "/" ++ name

@[simp] theorem join_root (name : String) : join root name = "/" ++ name := by
  simp [join]

end Path
end TreeHistory
