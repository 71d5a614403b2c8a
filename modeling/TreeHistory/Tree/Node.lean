import TreeHistory.Change

/-!
# Live nodes

A live node of the current revision's tree, with its children as name and id pairs in ascending
order of name.
-/

namespace TreeHistory

/-- Children by name, ascending, each name once. -/
abbrev Children := List (String × NodeId)

namespace Children

/-- The id of the child called `name`. -/
def find? (children : Children) (name : String) : Option NodeId :=
  (List.find? (fun entry => entry.1 == name) children).map (·.2)

/-- Adds a child at its place in name order; the name must not be taken yet. -/
def insert (name : String) (id : NodeId) : Children → Children
  | [] => [(name, id)]
  | entry :: rest =>
    if name < entry.1 then (name, id) :: entry :: rest else entry :: insert name id rest

/-- Removes the child called `name`. -/
def erase (children : Children) (name : String) : Children :=
  List.filter (fun entry => entry.1 != name) children

end Children

/-- What a new node is made of. -/
structure NewNode where
  id : NodeId
  revMin : Revnum
  path : String
  kind : NodeKind
  predecessor : Option Predecessor
  deriving DecidableEq, Repr

/-- A node of the current tree. -/
structure LiveNode where
  id : NodeId
  revMin : Revnum
  parent : NodeId
  name : String
  path : String
  kind : NodeKind
  predecessor : Option Predecessor
  children : Children
  deriving DecidableEq, Repr

namespace LiveNode

/-- The repository root: id 0, path `/`, an empty name, a directory since revision 0. -/
def root : LiveNode :=
  { id := NodeId.root, revMin := 0, parent := NodeId.root, name := "", path := "/",
    kind := .dir, predecessor := none, children := [] }

/-- Whether the node is the root. -/
def isRoot (node : LiveNode) : Bool := node.id == NodeId.root

/-- The node's window as a record that is still open. -/
def toRecord (node : LiveNode) : NodeRecord :=
  { id := node.id, revMin := node.revMin, revMax := Revnum.head, parent := node.parent,
    predecessor := node.predecessor, name := node.name, path := node.path, kind := node.kind }

@[simp] theorem toRecord_id (node : LiveNode) : node.toRecord.id = node.id := rfl

@[simp] theorem toRecord_revMax (node : LiveNode) : node.toRecord.revMax = Revnum.head := rfl

end LiveNode
end TreeHistory
