import TreeHistory.Json.Value
import TreeHistory.Tree.Basic
import TreeHistory.Store.Query
import TreeHistory.Store.Transaction
import TreeHistory.Ingest.Schedule
import TreeHistory.Indexer.Basic
import TreeHistory.Config.Basic

/-!
# JSON forms of the index's values

How revisions, records, live nodes, trees, stores, plans and summaries are written as JSON. A
revision is a number, except the live sentinel, which is the text `HEAD`.
-/

namespace TreeHistory

/-- A revision as a number, or `HEAD` for the live sentinel. -/
def Revnum.toJson (r : Revnum) : Json :=
  if r = Revnum.head then .str "HEAD" else .int r

/-- A predecessor as its id and type. -/
def Predecessor.toJson (predecessor : Predecessor) : Json :=
  .obj [("id", .int predecessor.id), ("type", .str predecessor.type.name)]

/-- An optional predecessor, `null` when absent. -/
def Predecessor.toJson? : Option Predecessor → Json
  | some predecessor => predecessor.toJson
  | none => .null

/-- A node record. -/
def NodeRecord.toJson (record : NodeRecord) : Json :=
  .obj [("id", .int record.id), ("kind", .str record.kind.name), ("name", .str record.name),
    ("parent", .int record.parent), ("path", .str record.path),
    ("predecessor", Predecessor.toJson? record.predecessor),
    ("rev_max", Revnum.toJson record.revMax), ("rev_min", Revnum.toJson record.revMin)]

/-- A content record. -/
def ContentRecord.toJson (record : ContentRecord) : Json :=
  .obj [("data", Json.ofOption record.data), ("node", .int record.node),
    ("rev_max", Revnum.toJson record.revMax), ("rev_min", Revnum.toJson record.revMin)]

/-- A live node with its children. -/
def LiveNode.toJson (node : LiveNode) : Json :=
  .obj [("children", .arr (node.children.map fun entry => .arr [.str entry.1, .int entry.2])),
    ("id", .int node.id), ("kind", .str node.kind.name), ("name", .str node.name),
    ("parent", .int node.parent), ("path", .str node.path),
    ("predecessor", Predecessor.toJson? node.predecessor), ("rev_min", Revnum.toJson node.revMin)]

/-- A tree: its size, its root, and its other nodes by ascending id. -/
def LiveTree.toJson (tree : LiveTree) : Json :=
  let root := (tree.node? NodeId.root).getD LiveNode.root
  .obj [("len", .int tree.size), ("nodes", .arr (tree.nonRoot.map LiveNode.toJson)),
    ("root", root.toJson)]

/-- A revision's metadata. -/
def RevisionInfo.toJson (info : RevisionInfo) : Json :=
  .obj [("author", Json.ofOption info.author), ("date_ms", .int info.dateMs),
    ("id", .int info.id), ("message", .str info.message)]

/-- The statement counts of a revision's writers. -/
def WriteCounts.toJson (counts : WriteCounts) : Json :=
  .obj [("content_inserts", .int counts.contentInserts),
    ("content_outdates", .int counts.contentOutdates), ("node_inserts", .int counts.nodeInserts),
    ("node_outdates", .int counts.nodeOutdates)]

/-- An optional revision, `null` when absent. -/
def Revnum.toJson? : Option Revnum → Json
  | some r => Revnum.toJson r
  | none => .null

/-- A node record with its content windows, or with what reading them gave instead. -/
def NodeRecord.withContent (record : NodeRecord) (content : Json) : Json :=
  match record.toJson with
  | .obj members => .obj (("content", content) :: members)
  | other => other

/-- The store's listing: its last revision and its node rows by ascending id, each with its
content windows. -/
def Store.toJson (err : StoreError → Json) (store : Store) : Json :=
  let (last, rows) := store.listing
  .obj [("last_revision", match last with
      | .ok r => Revnum.toJson? r
      | .error e => err e),
    ("nodes", .arr (rows.map fun row => match row with
      | .ok (record, .ok content) => record.withContent (.arr (content.map ContentRecord.toJson))
      | .ok (record, .error e) => record.withContent (err e)
      | .error e => err e))]

/-- A content body as an object with its data. -/
def ContentBody.toJson (body : ContentBody) : Json :=
  .obj [("data", Json.ofOption body.data)]

/-- A revision plan. -/
def Plan.toJson (plan : Plan) : Json :=
  .obj [("created", .arr (plan.created.map fun node =>
      .obj [("content", (node.content.map ContentBody.toJson).getD .null),
        ("record", node.record.toJson)])),
    ("discarded", .int plan.discarded),
    ("modified", .arr (plan.modified.map fun entry =>
      .arr [.int entry.1, Json.ofOption entry.2.data])),
    ("outdated", .arr (plan.outdated.map fun entry => .arr [.int entry.1, .str entry.2.name])),
    ("revision", Revnum.toJson? plan.revision)]

/-- What indexing a revision did. -/
def RevisionSummary.toJson (summary : RevisionSummary) : Json :=
  .obj [("contents_modified", .int summary.contentsModified),
    ("discarded", .int summary.discarded), ("events", .int summary.events),
    ("nodes_created", .int summary.nodesCreated), ("nodes_outdated", .int summary.nodesOutdated),
    ("revision", Revnum.toJson summary.revision), ("rows", summary.rows.toJson)]

/-- A revision's outcome: its summary, or the text `skipped`. -/
def Outcome.toJson : Outcome → Json
  | .skipped => .str "skipped"
  | .committed summary => summary.toJson

/-- What a run did. -/
def RunSummary.toJson (summary : RunSummary) : Json :=
  .obj [("committed", .int summary.committed),
    ("contents_modified", .int summary.contentsModified),
    ("last_revision", (summary.lastRevision.map Json.int).getD .null),
    ("nodes_created", .int summary.nodesCreated), ("nodes_outdated", .int summary.nodesOutdated),
    ("retries", .int summary.retries), ("skipped", .int summary.skipped)]

/-- A change of a change set, with its action as a letter. -/
def Change.toJson (change : Change) : Json :=
  .obj [("action", .str change.action.code),
    ("copy_from", match change.copyFrom with
      | some copy => .obj [("path", .str copy.path), ("revision", .int copy.revision)]
      | none => .null),
    ("data", Json.ofOption change.data), ("kind", .str change.kind.name),
    ("path", .str change.path)]

/-- A change set with its revision's metadata. -/
def ChangeSet.toJson (changeSet : ChangeSet) : Json :=
  .obj [("author", Json.ofOption changeSet.info.author),
    ("changes", .arr (changeSet.changes.map Change.toJson)),
    ("date_ms", .int changeSet.info.dateMs), ("message", .str changeSet.info.message),
    ("revision", .int changeSet.info.id)]

/-- The logging settings. -/
def LoggingConfig.toJson (logging : LoggingConfig) : Json :=
  .obj [("format", .str logging.format.name), ("level", .str logging.level)]

/-- The settings of the indexer, under their names in configuration files. -/
def Config.toJson (config : Config) : Json :=
  .obj [("batch_size", .int config.batchSize), ("logging", config.logging.toJson),
    ("max_retries", .int config.maxRetries), ("storage_dir", .str config.storageDir)]

end TreeHistory
