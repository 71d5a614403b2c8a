import TreeHistory.Path
import TreeHistory.Tree.Node

/-!
# The live tree

The current revision's tree: an arena of live nodes, the root included, and an index from paths
to ids. Nodes are created under a live directory and dropped once they have no children. Every
operation either succeeds or changes nothing, and says why it failed with a `TreeError`.
`ofRecords` rebuilds a tree from stored live records.
-/

namespace TreeHistory

/-- Why an operation on the live tree failed. -/
inductive TreeError where
  /-- No live node has this path. -/
  | nodeNotFound (path : String)
  /-- No node of the arena has this id. -/
  | unknownNode (id : NodeId)
  /-- The id is taken in the arena. -/
  | duplicateId (id : NodeId)
  /-- The directory at `parent` already has a child called `name`. -/
  | duplicateChild (parent name : String)
  /-- The directory at `parent` has no child called `name`. -/
  | notAChild (parent name : String)
  /-- The node at `path` still has `count` children. -/
  | hasChildren (path : String) (count : Nat)
  /-- The node at `path` cannot hold children. -/
  | notADirectory (path : String)
  /-- A stored record names another parent than the one its path gives. -/
  | parentMismatch (id : NodeId) (path : String) (expected actual : NodeId)
  /-- The root cannot be replaced or removed. -/
  | rootImmutable
  /-- A path could not be split. -/
  | invalidPath (error : PathError)
  deriving DecidableEq, Repr

namespace TreeError

/-- The text of a tree error. -/
def message : TreeError → String
  | .nodeNotFound path => "no current node at " ++ path
  | .unknownNode id => "node " ++ toString id ++ " is not in the current tree"
  | .duplicateId id => "node id " ++ toString id ++ " is already allocated"
  | .duplicateChild parent name => parent ++ " already has a child named " ++ Text.quote name
  | .notAChild parent name => Text.quote name ++ " is not a child of " ++ parent
  | .hasChildren path count => path ++ " still has " ++ toString count ++ " live children"
  | .notADirectory path => path ++ " is not a directory"
  | .parentMismatch id path expected actual =>
    "node " ++ toString id ++ " at " ++ path ++ " names parent " ++ toString expected ++ " but " ++
      toString actual ++ " is current"
  | .rootImmutable => "the repository root cannot be replaced or removed"
  | .invalidPath error => error.message

end TreeError

/-- The current revision's tree: the arena of nodes and the path index. -/
structure LiveTree where
  /-- Every node of the arena, the root included. -/
  nodes : List LiveNode
  /-- Which id each indexed path names. -/
  paths : List (String × NodeId)
  deriving Repr

namespace LiveTree

/-- The tree that holds only the root. -/
def empty : LiveTree :=
  { nodes := [LiveNode.root], paths := [(Path.root, NodeId.root)] }

/-- The node with id `id`. -/
def node? (tree : LiveTree) (id : NodeId) : Option LiveNode :=
  tree.nodes.find? (fun node => node.id == id)

/-- The id the path index gives for `path`. -/
def pathId? (tree : LiveTree) (path : String) : Option NodeId :=
  (tree.paths.find? (fun entry => entry.1 == path)).map (·.2)

/-- The live node at `path`. -/
def find? (tree : LiveTree) (path : String) : Option LiveNode :=
  (tree.pathId? path).bind tree.node?

/-- The live node at `path`, or `nodeNotFound`. -/
def get (tree : LiveTree) (path : String) : Except TreeError LiveNode :=
  match tree.find? path with
  | some node => .ok node
  | none => .error (.nodeNotFound path)

/-- The number of nodes besides the root. -/
def size (tree : LiveTree) : Nat := tree.nodes.length - 1

/-- The nodes besides the root, in ascending order of id. -/
def nonRoot (tree : LiveTree) : List LiveNode :=
  (tree.nodes.filter (fun node => !node.isRoot)).mergeSort (fun a b => a.id ≤ b.id)

/-- The paths of the children of the node at `path`, in name order. -/
def childPaths (tree : LiveTree) (path : String) : Except TreeError (List String) := do
  let node ← tree.get path
  pure (node.children.map (fun entry => Path.join node.path entry.1))

/-- Changes the node with id `id`. -/
def update (tree : LiveTree) (id : NodeId) (change : LiveNode → LiveNode) : LiveTree :=
  { tree with nodes := tree.nodes.map (fun node => if node.id == id then change node else node) }

/-- Records `child` under `name` in the children of `parent`. -/
def addChild (tree : LiveTree) (parent : NodeId) (name : String) (child : NodeId) :
    Except TreeError LiveTree :=
  match tree.node? parent with
  | none => .error (.unknownNode parent)
  | some node =>
    if (node.children.find? name).isSome then .error (.duplicateChild node.path name)
    else .ok (tree.update parent fun node => { node with children := node.children.insert name child })

/-- Takes the child called `name` out of the children of `parent`, giving its id. -/
def removeChild (tree : LiveTree) (parent : NodeId) (name : String) :
    Except TreeError (LiveTree × NodeId) :=
  match tree.node? parent with
  | none => .error (.unknownNode parent)
  | some node =>
    match node.children.find? name with
    | none => .error (.notAChild node.path name)
    | some child =>
      .ok (tree.update parent (fun node => { node with children := node.children.erase name }), child)

/-- Creates a node under the live directory its path names, and indexes its path. -/
def create (tree : LiveTree) (new : NewNode) : Except TreeError (LiveTree × LiveNode) := do
  if (tree.node? new.id).isSome then throw (.duplicateId new.id)
  let (parentPath, name) ← (Path.split new.path).mapError TreeError.invalidPath
  let parent ← tree.get parentPath
  if !parent.kind.isDir then throw (.notADirectory parent.path)
  let tree ← tree.addChild parent.id name new.id
  let node : LiveNode :=
    { id := new.id, revMin := new.revMin, parent := parent.id, name := name, path := new.path,
      kind := new.kind, predecessor := new.predecessor, children := [] }
  pure ({ nodes := tree.nodes ++ [node],
          paths := (new.path, new.id) :: tree.paths.filter (fun entry => entry.1 != new.path) },
        node)

/-- Removes the childless, non-root live node at `path` from its parent, the path index and the
arena, giving the removed node. -/
def drop (tree : LiveTree) (path : String) : Except TreeError (LiveTree × LiveNode) := do
  let node ← tree.get path
  if node.isRoot then throw .rootImmutable
  if node.children.length > 0 then throw (.hasChildren path node.children.length)
  let (tree, _) ← tree.removeChild node.parent node.name
  pure ({ nodes := tree.nodes.filter (fun other => other.id != node.id),
          paths := tree.paths.filter (fun entry => entry.1 != path) }, node)

/-- Creates a node for a stored record and checks the parent it names. -/
def addRecord (tree : LiveTree) (record : NodeRecord) : Except TreeError LiveTree := do
  let (tree, node) ← tree.create
    { id := record.id, revMin := record.revMin, path := record.path, kind := record.kind,
      predecessor := record.predecessor }
  if node.parent != record.parent then
    throw (.parentMismatch node.id node.path record.parent node.parent)
  pure tree

/-- Rebuilds a tree from live records, created in the order given. -/
def ofRecords (records : List NodeRecord) : Except TreeError LiveTree :=
  records.foldlM addRecord empty

end LiveTree
end TreeHistory
