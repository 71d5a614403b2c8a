import TreeHistory.Indexer.Error

/-!
# Schedules and revision plans

While a revision is applied, its schedule collects what the store must learn: the nodes whose
windows close, the nodes created (with those still alive), those made by copying a directory,
the content set for files, and how many nodes were created and dropped again. `Schedule.plan`
turns it into the revision's plan.
-/

namespace TreeHistory

/-- The content a file gets. -/
structure ContentBody where
  data : Option String
  deriving DecidableEq, Repr

/-- Content by node id, ascending, each id once. -/
abbrev ContentMap := List (NodeId × ContentBody)

namespace ContentMap

/-- The content set for `id`. -/
def get? (map : ContentMap) (id : NodeId) : Option ContentBody :=
  (List.find? (fun entry => entry.1 == id) map).map (·.2)

/-- Removes the content of `id`. -/
def erase (map : ContentMap) (id : NodeId) : ContentMap :=
  List.filter (fun entry => entry.1 != id) map

/-- Sets the content of `id`, replacing what was set before. -/
def set (map : ContentMap) (id : NodeId) (body : ContentBody) : ContentMap :=
  let rest := map.erase id
  List.filter (fun entry => entry.1 < id) rest ++ [(id, body)] ++
    List.filter (fun entry => id < entry.1) rest

end ContentMap

/-- What a revision has done so far. -/
structure Schedule where
  revision : Option Revnum := none
  outdated : List (NodeId × NodeKind) := []
  created : List NodeId := []
  createdSet : List NodeId := []
  synthesized : List NodeId := []
  content : ContentMap := []
  discarded : Nat := 0
  deriving Repr

/-- A node the revision creates, with the content to store for it. -/
structure CreatedNode where
  record : NodeRecord
  content : Option ContentBody
  deriving DecidableEq, Repr

/-- What the store must do for one revision. -/
structure Plan where
  revision : Option Revnum
  outdated : List (NodeId × NodeKind)
  created : List CreatedNode
  modified : List (NodeId × ContentBody)
  discarded : Nat
  deriving DecidableEq, Repr

namespace Schedule

/-- A schedule with nothing to store; the revision number alone does not count. -/
def isEmpty (schedule : Schedule) : Bool :=
  schedule.outdated.isEmpty && schedule.createdSet.isEmpty && schedule.content.isEmpty

/-- Records a created node. -/
def create (schedule : Schedule) (id : NodeId) : Schedule :=
  { schedule with created := schedule.created ++ [id], createdSet := schedule.createdSet ++ [id] }

/-- Forgets a node created in this revision, if it was; says whether it was. -/
def discard (schedule : Schedule) (id : NodeId) : Schedule × Bool :=
  if schedule.createdSet.contains id then
    ({ schedule with createdSet := schedule.createdSet.erase id,
                     synthesized := schedule.synthesized.erase id,
                     discarded := schedule.discarded + 1 }, true)
  else (schedule, false)

/-- The content a created file gets: what was set for it, else an empty body if it has no
predecessor; other kinds get none. -/
def createdContent (content : ContentMap) (node : LiveNode) : Option ContentBody :=
  if node.kind.isFile then
    match content.get? node.id with
    | some body => some body
    | none => if node.predecessor.isNone then some { data := none } else none
  else none

/-- The created nodes still alive, in creation order, with their content. -/
def createdNodes (tree : LiveTree) (schedule : Schedule) : Except IndexError (List CreatedNode) :=
  (schedule.created.filter schedule.createdSet.contains).mapM fun id =>
    match tree.node? id with
    | some node =>
      .ok { record := node.toRecord, content := createdContent schedule.content node }
    | none => .error (.fatal (.tree (.unknownNode id)))

/-- The plan of a schedule over the live tree it was applied to. -/
def plan (tree : LiveTree) (schedule : Schedule) : Except IndexError Plan := do
  let created ← createdNodes tree schedule
  pure { revision := schedule.revision, outdated := schedule.outdated, created := created,
         modified := schedule.content.filter fun entry =>
           !created.any (fun node => node.record.id == entry.1 && node.record.kind.isFile),
         discarded := schedule.discarded }

end Schedule
end TreeHistory
