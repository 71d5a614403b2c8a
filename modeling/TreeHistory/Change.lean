import TreeHistory.Revision
import TreeHistory.Text.Blank
import TreeHistory.Text.Quoted

/-!
# Changes, node kinds and records

The vocabulary of the index: the kind of a node, the action a change applies to a path, how a
node descends from its predecessor, and the records the store keeps. Kind and action codes are
read without regard to surrounding blanks or ASCII case; predecessor types are read exactly.
A node record covers the revisions of its window `[revMin, revMax]`, and is live while its
window is open at `Revnum.head`.
-/

namespace TreeHistory

/-- A code that does not name a kind, an action or a predecessor type, with the text as given. -/
inductive CodeError where
  | unknownChangeType (value : String)
  | unknownNodeKind (value : String)
  | unknownPredecessorType (value : String)
  deriving DecidableEq, Repr

namespace CodeError

/-- The text of a code error. -/
def message : CodeError → String
  | .unknownChangeType value => "unknown change type code " ++ Text.quote value
  | .unknownNodeKind value => "unknown node kind " ++ Text.quote value
  | .unknownPredecessorType value => "unknown predecessor type " ++ Text.quote value

end CodeError

/-- What a node is. -/
inductive NodeKind where
  | file
  | dir
  | none
  | unknown
  deriving DecidableEq, Repr

namespace NodeKind

/-- The stored spelling of a kind. -/
def name : NodeKind → String
  | .file => "file"
  | .dir => "dir"
  | .none => "none"
  | .unknown => "unknown"

/-- Reads a kind, ignoring surrounding blanks and ASCII case; `directory` also names `dir`. -/
def parse (value : String) : Except CodeError NodeKind :=
  match (Text.trim value).toLower with
  | "file" => .ok .file
  | "dir" => .ok .dir
  | "directory" => .ok .dir
  | "none" => .ok .none
  | "unknown" => .ok .unknown
  | _ => .error (.unknownNodeKind value)

/-- Whether the kind is `file`. -/
def isFile (kind : NodeKind) : Bool := kind == .file

/-- Whether the kind is `dir`. -/
def isDir (kind : NodeKind) : Bool := kind == .dir

end NodeKind

/-- What a change does to its path. -/
inductive ChangeAction where
  | added
  | modified
  | deleted
  | replaced
  deriving DecidableEq, Repr

namespace ChangeAction

/-- The one-letter code of an action. -/
def code : ChangeAction → String
  | .added => "A"
  | .modified => "M"
  | .deleted => "D"
  | .replaced => "R"

/-- Reads an action from its letter, verb or participle, ignoring surrounding blanks and ASCII
case. -/
def parse (value : String) : Except CodeError ChangeAction :=
  match (Text.trim value).toLower with
  | "a" | "add" | "added" => .ok .added
  | "m" | "modify" | "modified" => .ok .modified
  | "d" | "delete" | "deleted" => .ok .deleted
  | "r" | "replace" | "replaced" => .ok .replaced
  | _ => .error (.unknownChangeType value)

end ChangeAction

/-- How a node descends from its predecessor: copied by an event, or inherited as part of a
copied directory. -/
inductive PredecessorType where
  | copy
  | inherit
  deriving DecidableEq, Repr

namespace PredecessorType

/-- The stored spelling of a predecessor type. -/
def name : PredecessorType → String
  | .copy => "copy"
  | .inherit => "inherit"

/-- Reads a predecessor type exactly as stored. -/
def parse (value : String) : Except CodeError PredecessorType :=
  match value with
  | "copy" => .ok .copy
  | "inherit" => .ok .inherit
  | _ => .error (.unknownPredecessorType value)

end PredecessorType

/-- The node a node descends from, and how. -/
structure Predecessor where
  id : NodeId
  type : PredecessorType
  deriving DecidableEq, Repr

/-- One window of a node: its identity, place and kind over the revisions `[revMin, revMax]`. -/
structure NodeRecord where
  id : NodeId
  revMin : Revnum
  revMax : Revnum
  parent : NodeId
  predecessor : Option Predecessor
  name : String
  path : String
  kind : NodeKind
  deriving DecidableEq, Repr

namespace NodeRecord

/-- The window is still open. -/
def isLive (record : NodeRecord) : Bool := record.revMax == Revnum.head

/-- The window holds revision `r`. -/
def covers (record : NodeRecord) (r : Revnum) : Bool :=
  decide (record.revMin ≤ r) && decide (r ≤ record.revMax)

end NodeRecord

/-- One window of a file's content. -/
structure ContentRecord where
  node : NodeId
  revMin : Revnum
  revMax : Revnum
  data : Option String
  deriving DecidableEq, Repr

/-- The metadata of a revision. -/
structure RevisionInfo where
  id : Revnum
  author : Option String
  dateMs : Int
  message : String
  deriving DecidableEq, Repr

/-- Where a copied path comes from. -/
structure CopySource where
  path : String
  revision : Revnum
  deriving DecidableEq, Repr

/-- One event of a change set. -/
structure Change where
  path : String
  action : ChangeAction
  kind : NodeKind
  copyFrom : Option CopySource := Option.none
  data : Option String := Option.none
  deriving DecidableEq, Repr

/-- The changes of one revision. -/
structure ChangeSet where
  info : RevisionInfo
  changes : List Change
  deriving DecidableEq, Repr

/-- The revision a change set makes. -/
def ChangeSet.revision (changeSet : ChangeSet) : Revnum := changeSet.info.id

/-- The name of a kind is already trimmed and in lowercase. -/
theorem NodeKind.trim_toLower_name (kind : NodeKind) :
    (Text.trim kind.name).toLower = kind.name := by
  cases kind <;> decide +kernel

theorem NodeKind.parse_name (kind : NodeKind) : NodeKind.parse kind.name = .ok kind := by
  rw [NodeKind.parse, NodeKind.trim_toLower_name]
  cases kind <;> rfl

@[simp] theorem PredecessorType.parse_name (type : PredecessorType) :
    PredecessorType.parse type.name = .ok type := by
  cases type <;> rfl

end TreeHistory
