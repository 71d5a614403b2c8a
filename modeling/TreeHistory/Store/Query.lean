import TreeHistory.Store.Basic

/-!
# Point-in-time queries

What the store answers about the tree at a revision. `lookupPath` gives the newest window a path
opened at or before a revision; `nodeAt` asks in addition that it still holds the revision;
`children` lists the windows under a parent that hold the revision, by name and then id.
-/

namespace TreeHistory
namespace Store

/-- Reads a node row as a record. -/
def readNode (row : ResultRow) : Except StoreError NodeRecord := do
  let predecessorId ← row.intOpt 4
  let predecessorType ← row.textOpt 5
  let predecessor ← match predecessorId, predecessorType with
    | some id, some type =>
      match PredecessorType.parse type with
      | .ok type => pure (some { id := id, type := type : Predecessor })
      | .error e => throw (.invalidRow e)
    | none, none => pure none
    | _, _ => throw (.invalidInput "predecessor without type")
  let kind ← row.text 8
  let id ← row.int 0
  let revMin ← row.int 1
  let revMax ← row.int 2
  let parent ← row.int 3
  let name ← row.text 6
  let path ← row.text 7
  let kind ← (NodeKind.parse kind).mapError StoreError.invalidRow
  pure { id := id, revMin := revMin, revMax := revMax, parent := parent,
         predecessor := predecessor, name := name, path := path, kind := kind }

/-- The node records of a query's rows, stopping at the first that cannot be read. -/
def nodes (store : Store) (lookup : Lookup) : Except StoreError (List NodeRecord) := do
  (resultRows (← store.read lookup)).mapM readNode

/-- The node record of a query's first row. -/
def firstNode (store : Store) (lookup : Lookup) : Except StoreError (Option NodeRecord) := do
  match resultRows (← store.read lookup) with
  | row :: _ => some <$> readNode row
  | [] => pure none

/-- The newest window of `path` that opened at or before `revision`. -/
def lookupPath (store : Store) (path : String) (revision : Revnum) :
    Except StoreError (Option NodeRecord) :=
  store.firstNode (.lookupPath path revision)

/-- The newest window of `path` that holds `revision`. -/
def nodeAt (store : Store) (path : String) (revision : Revnum) :
    Except StoreError (Option NodeRecord) :=
  store.firstNode (.nodeAt path revision)

/-- The id of the newest window of `path` that opened at or before `revision`. -/
def resolvePath (store : Store) (path : String) (revision : Revnum) : Except StoreError NodeId := do
  match ← store.lookupPath path revision with
  | some record => pure record.id
  | none => throw (.pathNotFound path revision)

/-- The windows under `parent` that hold `revision`, by name and then id. -/
def children (store : Store) (parent : NodeId) (revision : Revnum) :
    Except StoreError (List NodeRecord) :=
  store.nodes (.children parent revision)

/-- The first row of node `id`. -/
def node (store : Store) (id : NodeId) : Except StoreError (Option NodeRecord) :=
  store.firstNode (.node id)

/-- Every window of `path`, in order of opening. -/
def pathHistory (store : Store) (path : String) : Except StoreError (List NodeRecord) :=
  store.nodes (.pathHistory path)

/-- Every live window, by path. -/
def liveNodes (store : Store) : Except StoreError (List NodeRecord) :=
  store.nodes .liveNodes

/-- Every content window of `node`, in order of opening. -/
def contentHistory (store : Store) (node : NodeId) : Except StoreError (List ContentRecord) := do
  (resultRows (← store.read (.contentHistory node))).mapM fun row => do
    let node ← row.int 0
    let revMin ← row.int 1
    let revMax ← row.int 2
    let data ← row.textOpt 3
    pure { node := node, revMin := revMin, revMax := revMax, data := data }

/-- The metadata of revision `id`. -/
def revision (store : Store) (id : Revnum) : Except StoreError (Option RevisionInfo) := do
  match resultRows (← store.read (.revision id)) with
  | row :: _ =>
    let id ← row.int 0
    let author ← row.textOpt 1
    let dateMs ← row.int 2
    let message ← row.text 3
    pure (some { id := id, author := author, dateMs := dateMs, message := message })
  | [] => pure none

/-- The largest of a query's single optional integer. -/
def maximum (store : Store) (lookup : Lookup) : Except StoreError (Option Int) := do
  match resultRows (← store.read lookup) with
  | row :: _ => row.intOpt 0
  | [] => pure none

/-- The largest revision recorded. -/
def lastRevision (store : Store) : Except StoreError (Option Revnum) :=
  store.maximum .lastRevision

/-- The largest node id stored, or 0. -/
def maxNodeId (store : Store) : Except StoreError NodeId := do
  pure ((← store.maximum .maxNodeId).getD 0)

/-- The node ids a listing of the store goes through: ids from 1 up to the largest stored id,
but no further than this. -/
def listingLimit : Int := 20000

/-- The ids of node rows that a listing up to `top` meets, ascending and each once: the id
values that are integers, or doubles holding an integer, from 1 to `top`. -/
def listingIds (store : Store) (top : Int) : List Int :=
  let values := match store.select (fixedQuery "SELECT id FROM node") [] with
    | .ok rel => rel.rows.filterMap List.head?
    | .error _ => []
  let ids := values.filterMap fun v => match v with
    | .int n => some n
    | .real x => Sql.Double.exactInt? x
    | _ => none
  ((ids.filter fun id => 1 ≤ id ∧ id ≤ top).mergeSort (· ≤ ·)).eraseDups

/-- A node record with its content windows or the failure of reading them, or the failure of
reading the record. -/
def listedNode (store : Store) (id : NodeId) :
    Option (Except StoreError (NodeRecord × Except StoreError (List ContentRecord))) :=
  match store.node id with
  | .ok (some record) => some (.ok (record, store.contentHistory record.id))
  | .ok none => none
  | .error e => some (.error e)

/-- The listing of the store: its last revision, and its node rows by id, each with its content
windows. -/
def listing (store : Store) :
    Except StoreError (Option Revnum) ×
      List (Except StoreError (NodeRecord × Except StoreError (List ContentRecord))) :=
  let top := min ((store.maxNodeId.toOption).getD 0) listingLimit
  (store.lastRevision, (store.listingIds top).filterMap store.listedNode)

/-- The number of node rows, which bounds the depth of any walk over them. -/
def nodeCount (store : Store) : Nat :=
  ((store.database.table? "node").map (·.rows.length)).getD 0

end Store
end TreeHistory
