import TreeHistory.Ingest.Schedule
import TreeHistory.Store.Query

/-!
# Applying a revision to the live tree

An ingestor holds the live tree, the last node id handed out, and the schedule of the revision
being applied. `apply` checks the revision number, normalizes every path, sorts the changes by
path (changes to one path keep their order), and applies them one by one:

* the root may only be modified, which does nothing;
* modifying a live file sets its content, the last setting winning;
* deleting drops the children first, then the node;
* adding creates the node under a fresh id, its copy source found in the live tree or else in
  the store; copying a directory also copies what the store had under the source;
* replacing deletes the node, which must exist, then adds.

Errors keep the effects of the changes before the failing one.
-/

namespace TreeHistory

/-- The live tree, the last id handed out, and the schedule of the revision being applied. -/
structure Ingestor where
  tree : LiveTree := LiveTree.empty
  lastId : NodeId := NodeId.root
  schedule : Schedule := {}
  deriving Repr

/-- Steps of an ingestor that may fail, keeping what they did before the failure. -/
abbrev IngestM := ExceptT IndexError (StateM Ingestor)

/-- A resolved copy source: the node and its kind. -/
structure Source where
  id : NodeId
  kind : NodeKind
  deriving DecidableEq, Repr

namespace Ingestor

/-- Runs steps on an ingestor: the ingestor after them, and their result. -/
def run {α : Type} (ingestor : Ingestor) (steps : IngestM α) : Ingestor × Except IndexError α :=
  let (result, ingestor) := (steps.run).run ingestor
  (ingestor, result)

/-- Fails with a tree error as a violation. -/
def ofTree {α : Type} : Except TreeError α → IngestM α
  | .ok a => pure a
  | .error e => throw (.fatal (.tree e))

/-- Fails with a store error. -/
def ofStore {α : Type} : Except StoreError α → IngestM α
  | .ok a => pure a
  | .error e => throw (.store e)

/-- Normalizes a path, failing with a violation. -/
def normalize (raw : String) : IngestM String :=
  match Path.normalize raw with
  | .ok path => pure path
  | .error e => throw (.fatal (.invalidPath e))

/-- Changes the schedule. -/
def updateSchedule (change : Schedule → Schedule) : IngestM Unit :=
  modify fun s => { s with schedule := change s.schedule }

/-- Hands out the next node id. -/
def allocate : IngestM NodeId := do
  let s ← get
  set { s with lastId := NodeId.next s.lastId }
  pure (NodeId.next s.lastId)

/-- Creates a node in the live tree. -/
def createNode (new : NewNode) : IngestM Unit := do
  let s ← get
  let (tree, _) ← ofTree (s.tree.create new)
  set { s with tree := tree }

/-- Deletes the node at `path` and everything under it; `fuel` bounds the depth. -/
def delete : Nat → String → IngestM Unit
  | 0, _ => pure ()
  | fuel + 1, path => do
    let children ← ofTree ((← get).tree.childPaths path)
    children.forM fun child => delete fuel child
    let s ← get
    let (tree, node) ← ofTree (s.tree.drop path)
    let (schedule, wasCreated) :=
      ({ s.schedule with content := s.schedule.content.erase node.id } : Schedule).discard node.id
    let schedule :=
      if wasCreated then schedule
      else { schedule with outdated := schedule.outdated ++ [(node.id, node.kind)] }
    set { s with tree := tree, schedule := schedule }

/-- Deletes the node at `path` and everything under it. -/
def deleteTree (path : String) : IngestM Unit := do
  delete ((← get).tree.paths.length + 1) path

/-- Finds the node a copy takes as its source. -/
def resolveSource (store : Store) (revision : Revnum) (copy : CopySource) : IngestM Source := do
  let path ← normalize copy.path
  if copy.revision < 1 ∨ copy.revision ≥ revision then
    throw (.fatal (.invalidEvent path "copy source revision must precede the revision being indexed"))
  if let some node := (← get).tree.find? path then
    if node.revMin ≤ copy.revision then return { id := node.id, kind := node.kind }
  match ← ofStore (store.lookupPath path copy.revision) with
  | some record =>
    if record.covers copy.revision then pure { id := record.id, kind := record.kind }
    else throw (.fatal (.predecessorUnresolved path copy.revision))
  | none => throw (.fatal (.predecessorUnresolved path copy.revision))

/-- Copies what the store had under `source` at `copyRevision` to under `target`; `fuel` bounds
the depth. -/
def deepCopy (store : Store) (revision : Revnum) :
    Nat → String → NodeId → Revnum → IngestM Unit
  | 0, _, _, _ => pure ()
  | fuel + 1, target, source, copyRevision => do
    let children ← ofStore (store.children source copyRevision)
    children.forM fun child => do
      let id ← allocate
      let path := Path.join target child.name
      createNode { id := id, revMin := revision, path := path, kind := child.kind,
                   predecessor := some { id := child.id, type := .inherit } }
      updateSchedule fun schedule =>
        { schedule.create id with synthesized := schedule.synthesized ++ [id] }
      if child.kind.isDir then deepCopy store revision fuel path child.id copyRevision

/-- Creates the node of an added or replacing change. -/
def add (store : Store) (revision : Revnum) (path : String) (change : Change) : IngestM Unit := do
  let source ← match change.copyFrom with
    | some copy => some <$> resolveSource store revision copy
    | none => pure none
  let kind := match change.kind, source with
    | .unknown, some source => source.kind
    | kind, _ => kind
  let id ← allocate
  createNode { id := id, revMin := revision, path := path, kind := kind,
               predecessor := source.map fun source => { id := source.id, type := .copy } }
  updateSchedule (·.create id)
  if kind.isFile && change.data.isSome then
    updateSchedule fun schedule =>
      { schedule with content := schedule.content.set id { data := change.data } }
  match source, change.copyFrom with
  | some source, some copy =>
    if kind.isDir then
      deepCopy store revision (store.nodeCount + 1) path source.id copy.revision
  | _, _ => pure ()

/-- Sets the content of the live file at `path`; other kinds are left alone. -/
def modifyFile (path : String) (change : Change) : IngestM Unit := do
  let node ← ofTree ((← get).tree.get path)
  if node.kind.isFile then
    updateSchedule fun schedule =>
      { schedule with content := schedule.content.set node.id { data := change.data } }

/-- Applies one change at its normalized path. -/
def applyChange (store : Store) (revision : Revnum) (path : String) (change : Change) :
    IngestM Unit :=
  if path = Path.root then
    match change.action with
    | .modified => pure ()
    | _ => throw (.fatal (.invalidEvent path "the repository root can only be modified"))
  else
    match change.action with
    | .modified => modifyFile path change
    | .deleted => deleteTree path
    | .added => do
      let s ← get
      let synthesized := match s.tree.find? path with
        | some node => s.schedule.synthesized.contains node.id
        | none => false
      if synthesized then deleteTree path
      add store revision path change
    | .replaced => do
      deleteTree path
      add store revision path change

/-- Changes paired with their normalized paths, sorted by path, changes to one path in their
given order. -/
def sortByPath (changes : List (String × Change)) : List (String × Change) :=
  changes.mergeSort fun a b => a.1 ≤ b.1

/-- Applies a change set to the live tree, against the store as it is before the revision. -/
def apply (store : Store) (changeSet : ChangeSet) : IngestM Unit := do
  let revision := changeSet.revision
  if revision < 1 ∨ revision = Revnum.head then throw (.fatal (.invalidRevision revision))
  if !(← get).schedule.isEmpty then
    throw (.fatal (.invalidEvent Path.root "previous revision was never planned"))
  updateSchedule fun schedule => { schedule with revision := some revision }
  let normalized ← changeSet.changes.mapM fun change => do
    let path ← normalize change.path
    pure (path, change)
  (sortByPath normalized).forM fun (path, change) => applyChange store revision path change

/-- Turns the schedule into the revision's plan and starts a new schedule. -/
def takePlan : IngestM Plan := do
  let s ← get
  set { s with schedule := ({} : Schedule) }
  match Schedule.plan s.tree s.schedule with
  | .ok plan => pure plan
  | .error e => throw e

end Ingestor
end TreeHistory
