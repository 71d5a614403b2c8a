import TreeHistory.Change
import TreeHistory.Sql.Connection

/-!
# The row store

The history of the tree as rows of a database: node rows, each one window `[rev_min, rev_max]` of a
node; content rows, each one window of a file's content; revision rows; and the state row. Live
rows have `rev_max = Revnum.head`.
-/

namespace TreeHistory

/-- A failure of the operating system, as the index reports it. -/
inductive OsError where
  | notFound
  | alreadyExists
  | notADirectory
  | isADirectory
  | invalidText
  | other (description : String)
  deriving DecidableEq, Repr

namespace OsError

def message : OsError → String
  | .notFound => "No such file or directory (os error 2)"
  | .alreadyExists => "File exists (os error 17)"
  | .notADirectory => "Not a directory (os error 20)"
  | .isADirectory => "Is a directory (os error 21)"
  | .invalidText => "stream did not contain valid UTF-8"
  | .other description => description

end OsError

/-- Why a store operation failed. -/
inductive StoreError where
  | io (error : OsError)
  /-- The database refused a statement, or a row did not read as expected; its message. -/
  | sql (message : String)
  /-- A caller broke a rule of the store's interface. -/
  | invalidInput (reason : String)
  /-- A stored row holds a code the index does not know. -/
  | invalidRow (error : CodeError)
  | pathNotFound (path : String) (revision : Revnum)
  /-- A node has no live row that can be closed at the revision. -/
  | noLiveRow (node : NodeId)
  /-- The database was made by something else, or for another schema. -/
  | resetRequired (reason : String)
  deriving DecidableEq, Repr

namespace StoreError

def message : StoreError → String
  | .io error => "io: " ++ error.message
  | .sql message => "sqlite: " ++ message
  | .invalidInput reason => "invalid input: " ++ reason
  | .invalidRow error => "invalid row: " ++ error.message
  | .pathNotFound path revision => "no node at " ++ path ++ " as of " ++ Revnum.display revision
  | .noLiveRow node => "node " ++ toString node ++ " has no live row to outdate"
  | .resetRequired reason => "RESET_REQUIRED: " ++ reason

def code : StoreError → String
  | .io _ => "IO"
  | .sql _ => "SQLITE"
  | .invalidInput _ => "INVALID_INPUT"
  | .invalidRow _ => "INVALID_ROW"
  | .pathNotFound .. => "PATH_NOT_FOUND"
  | .noLiveRow _ => "NO_LIVE_ROW"
  | .resetRequired _ => "RESET_REQUIRED"

/-- Failures of the engine or the system, which a retry may not meet again. -/
def isTransient : StoreError → Bool
  | .io _ => true
  | .sql _ => true
  | _ => false

end StoreError

/-- The tables of the index's schema. -/
def tableNames : List String := ["index_state", "revision", "node", "content"]

/-- The schema version this index writes. -/
def schemaVersion : Int := 1

/-- The statements that create the index's tables and indexes where they are missing. -/
def schemaScript : String :=
  "CREATE TABLE IF NOT EXISTS index_state (
     singleton INTEGER PRIMARY KEY CHECK(singleton = 1),
     schema_version INTEGER NOT NULL,
     created_at_ms INTEGER NOT NULL,
     updated_at_ms INTEGER NOT NULL
   );
   CREATE TABLE IF NOT EXISTS revision (
     id INTEGER PRIMARY KEY,
     author TEXT,
     date_ms INTEGER NOT NULL,
     message TEXT NOT NULL
   );
   CREATE TABLE IF NOT EXISTS node (
     id INTEGER PRIMARY KEY,
     rev_min INTEGER NOT NULL,
     rev_max INTEGER NOT NULL,
     parent INTEGER NOT NULL,
     predecessor INTEGER,
     predecessor_type TEXT,
     name TEXT NOT NULL,
     path TEXT NOT NULL,
     node_type TEXT NOT NULL,
     CHECK(rev_min <= rev_max),
     CHECK((predecessor IS NULL) = (predecessor_type IS NULL))
   );
   CREATE INDEX IF NOT EXISTS idx_node_path_rev ON node(path, rev_min);
   CREATE INDEX IF NOT EXISTS idx_node_parent_rev ON node(parent, rev_min);
   CREATE INDEX IF NOT EXISTS idx_node_rev_max ON node(rev_max);
   CREATE TABLE IF NOT EXISTS content (
     node INTEGER NOT NULL,
     rev_min INTEGER NOT NULL,
     rev_max INTEGER NOT NULL,
     data TEXT,
     PRIMARY KEY(node, rev_min),
     FOREIGN KEY(node) REFERENCES node(id)
       ON DELETE CASCADE DEFERRABLE INITIALLY DEFERRED,
     CHECK(rev_min <= rev_max)
   );
   CREATE INDEX IF NOT EXISTS idx_content_node_rev_max ON content(node, rev_max);"

def fixedStatement (text : String) : Sql.Stmt :=
  match Sql.Parse.script text with
  | .ok [stmt] => stmt
  | _ => .noop

def fixedQuery (text : String) : Sql.Query :=
  match fixedStatement text with
  | .select q => q
  | _ => .values []

/-- Records the schema version in the state row, making the row if there is none. -/
def seedStatement : Sql.Stmt :=
  fixedStatement ("INSERT INTO index_state(singleton, schema_version, created_at_ms, " ++
    "updated_at_ms) VALUES (1, ?1, ?2, ?2) ON CONFLICT(singleton) DO UPDATE SET " ++
    "schema_version=excluded.schema_version, updated_at_ms=excluded.updated_at_ms")

/-- The tables of the database that are not the engine's own. -/
def tablesQuery : Sql.Query :=
  fixedQuery "SELECT name FROM sqlite_master WHERE type='table' AND name NOT LIKE 'sqlite_%'"

/-- The schema version of the state row. -/
def versionQuery : Sql.Query :=
  fixedQuery "SELECT schema_version FROM index_state WHERE singleton=1"

/-- Empties the index's tables. -/
def clearScript : String :=
  "DELETE FROM content; DELETE FROM node; DELETE FROM revision; DELETE FROM index_state;"

/-- A row of a query's result, read column by column with the types the index expects. -/
structure ResultRow where
  columns : List Sql.Column
  values : List Sql.Value

namespace ResultRow

/-- The failure of reading a column as a type it does not hold. -/
def mismatch (row : ResultRow) (i : Nat) (v : Sql.Value) : StoreError :=
  .sql ("Invalid column type " ++ v.storageClass.name ++ " at index: " ++ toString i ++
    ", name: " ++ ((row.columns[i]?).map (·.name)).getD "")

def value (row : ResultRow) (i : Nat) : Sql.Value := (row.values[i]?).getD .null

def int (row : ResultRow) (i : Nat) : Except StoreError Int :=
  match row.value i with
  | .int n => .ok n
  | v => .error (row.mismatch i v)

def intOpt (row : ResultRow) (i : Nat) : Except StoreError (Option Int) :=
  match row.value i with
  | .null => .ok none
  | .int n => .ok (some n)
  | v => .error (row.mismatch i v)

def text (row : ResultRow) (i : Nat) : Except StoreError String :=
  match row.value i with
  | .text s => .ok s
  | v => .error (row.mismatch i v)

def textOpt (row : ResultRow) (i : Nat) : Except StoreError (Option String) :=
  match row.value i with
  | .null => .ok none
  | .text s => .ok (some s)
  | v => .error (row.mismatch i v)

end ResultRow

/-- The rows of a query's result. -/
def resultRows (rel : Sql.Relation) : List ResultRow :=
  rel.rows.map fun values => { columns := rel.columns, values := values }

def intValue : Option Int → Sql.Value
  | some n => .int n
  | none => .null

def textValue : Option String → Sql.Value
  | some s => .text s
  | none => .null

/-- A node record as the values of its row, in the order of the table's columns. -/
def NodeRecord.values (r : NodeRecord) : List Sql.Value :=
  [.int r.id, .int r.revMin, .int r.revMax, .int r.parent, intValue (r.predecessor.map (·.id)),
    textValue (r.predecessor.map (·.type.name)), .text r.name, .text r.path, .text r.kind.name]

/-- A content record as the values of its row. -/
def ContentRecord.values (r : ContentRecord) : List Sql.Value :=
  [.int r.node, .int r.revMin, .int r.revMax, textValue r.data]

/-- Revision metadata as the values of its row. -/
def RevisionInfo.values (info : RevisionInfo) : List Sql.Value :=
  [.int info.id, textValue info.author, .int info.dateMs, .text info.message]

/-- One write to the store. -/
inductive Statement where
  | insertRevision (info : RevisionInfo)
  | insertNode (record : NodeRecord)
  /-- Closes the live window of `node` at `revMax`. -/
  | outdateNode (node : NodeId) (revMax : Revnum)
  /-- Adds a live content row of `node` from `revMin`. -/
  | insertContent (node : NodeId) (revMin : Revnum) (data : Option String)
  /-- Closes the live content windows of `node` at `revMax`. -/
  | outdateContent (node : NodeId) (revMax : Revnum)
  deriving DecidableEq, Repr

namespace Statement

def insertRevisionSql : Sql.Stmt :=
  fixedStatement "INSERT INTO revision(id, author, date_ms, message) VALUES (?1, ?2, ?3, ?4)"

def insertNodeSql : Sql.Stmt :=
  fixedStatement ("INSERT INTO node(id, rev_min, rev_max, parent, predecessor, predecessor_type, " ++
    "name, path, node_type) VALUES (?1, ?2, ?3, ?4, ?5, ?6, ?7, ?8, ?9)")

def outdateNodeSql : Sql.Stmt :=
  fixedStatement "UPDATE node SET rev_max=?2 WHERE id=?1 AND rev_max=?3 AND rev_min<=?2"

def insertContentSql : Sql.Stmt :=
  fixedStatement "INSERT INTO content(node, rev_min, rev_max, data) VALUES (?1, ?2, ?3, ?4)"

def outdateContentSql : Sql.Stmt :=
  fixedStatement "UPDATE content SET rev_max=?2 WHERE node=?1 AND rev_max=?3 AND rev_min<=?2"

/-- The SQL statement of a write and its parameters. -/
def sql : Statement → Sql.Stmt × List Sql.Value
  | .insertRevision info => (insertRevisionSql, info.values)
  | .insertNode r => (insertNodeSql, r.values)
  | .outdateNode node revMax => (outdateNodeSql, [.int node, .int revMax, .int Revnum.head])
  | .insertContent node revMin data =>
    (insertContentSql,
      ContentRecord.values { node := node, revMin := revMin, revMax := Revnum.head, data := data })
  | .outdateContent node revMax => (outdateContentSql, [.int node, .int revMax, .int Revnum.head])

end Statement

/-- One of the store's queries: the point-in-time lookups, the histories, and the largest ids. -/
inductive Lookup where
  /-- The newest window of a path opened by a revision. -/
  | lookupPath (path : String) (revision : Revnum)
  /-- The newest window of a path that holds a revision. -/
  | nodeAt (path : String) (revision : Revnum)
  /-- The windows under a parent that hold a revision. -/
  | children (parent : NodeId) (revision : Revnum)
  /-- The rows of a node id. -/
  | node (id : NodeId)
  /-- The windows of a path. -/
  | pathHistory (path : String)
  /-- The live windows. -/
  | liveNodes
  /-- The content windows of a node. -/
  | contentHistory (node : NodeId)
  /-- The row of a revision. -/
  | revision (id : Revnum)
  /-- The largest revision id. -/
  | lastRevision
  /-- The largest node id. -/
  | maxNodeId
  deriving DecidableEq, Repr

namespace Lookup

/-- The columns of a node row, in the order a query gives them. -/
def nodeColumns : String :=
  "id, rev_min, rev_max, parent, predecessor, predecessor_type, name, path, node_type"

def lookupPathQuery : Sql.Query :=
  fixedQuery ("SELECT " ++ nodeColumns ++ " FROM node WHERE path=?1 AND rev_min<=?2 " ++
    "ORDER BY rev_min DESC, id DESC LIMIT 1")

def nodeAtQuery : Sql.Query :=
  fixedQuery ("SELECT " ++ nodeColumns ++ " FROM node WHERE path=?1 AND rev_min<=?2 AND " ++
    "?2<=rev_max ORDER BY rev_min DESC, id DESC LIMIT 1")

def childrenQuery : Sql.Query :=
  fixedQuery ("SELECT " ++ nodeColumns ++ " FROM node WHERE parent=?1 AND rev_min<=?2 AND " ++
    "?2<=rev_max ORDER BY name ASC, id ASC")

def nodeQuery : Sql.Query := fixedQuery ("SELECT " ++ nodeColumns ++ " FROM node WHERE id=?1")

def pathHistoryQuery : Sql.Query :=
  fixedQuery ("SELECT " ++ nodeColumns ++ " FROM node WHERE path=?1 ORDER BY rev_min ASC, id ASC")

def liveNodesQuery : Sql.Query :=
  fixedQuery ("SELECT " ++ nodeColumns ++ " FROM node WHERE rev_max=?1 ORDER BY path ASC")

def contentHistoryQuery : Sql.Query :=
  fixedQuery "SELECT node, rev_min, rev_max, data FROM content WHERE node=?1 ORDER BY rev_min ASC"

def revisionQuery : Sql.Query :=
  fixedQuery "SELECT id, author, date_ms, message FROM revision WHERE id=?1"

def lastRevisionQuery : Sql.Query := fixedQuery "SELECT MAX(id) FROM revision"

def maxNodeIdQuery : Sql.Query := fixedQuery "SELECT MAX(id) FROM node"

/-- The SQL query of a lookup and its parameters. -/
def sql : Lookup → Sql.Query × List Sql.Value
  | .lookupPath path r => (lookupPathQuery, [.text path, .int r])
  | .nodeAt path r => (nodeAtQuery, [.text path, .int r])
  | .children parent r => (childrenQuery, [.int parent, .int r])
  | .node n => (nodeQuery, [.int n])
  | .pathHistory path => (pathHistoryQuery, [.text path])
  | .liveNodes => (liveNodesQuery, [.int Revnum.head])
  | .contentHistory n => (contentHistoryQuery, [.int n])
  | .revision n => (revisionQuery, [.int n])
  | .lastRevision => (lastRevisionQuery, [])
  | .maxNodeId => (maxNodeIdQuery, [])

end Lookup

/-- What the index asks of the SQL engine: its writes, its queries, and transactions. -/
structure Engine where
  write : Sql.Connection → Statement → Sql.Connection × Except String Nat
  read : Sql.Connection → Lookup → Except String Sql.Relation
  begin : Sql.Connection → Sql.Connection × Except String Unit
  commit : Sql.Connection → Sql.Connection × Except String Unit

namespace Engine

/-- Runs a statement of the connection's SQL engine, keeping its failure message. -/
def execute (conn : Sql.Connection) (stmt : Sql.Stmt) (params : List Sql.Value) :
    Sql.Connection × Except String Sql.Outcome :=
  conn.execute params.toArray stmt

/-- The SQL engine: every request is its SQL text run on the connection. -/
def sqlite : Engine where
  write conn statement :=
    match execute conn statement.sql.1 statement.sql.2 with
    | (conn, .ok outcome) => (conn, .ok outcome.changes)
    | (conn, .error message) => (conn, .error message)
  read conn lookup :=
    match Sql.runQuery Sql.defaultFuel { db := conn.db, params := lookup.sql.2.toArray } lookup.sql.1 with
    | .ok rel => .ok rel
    | .error failure => .error failure.message
  begin conn :=
    match execute conn .begin [] with
    | (conn, result) => (conn, result.map fun _ => ())
  commit conn :=
    match execute conn .commit [] with
    | (conn, result) => (conn, result.map fun _ => ())

end Engine

/-- A database, the connection the index holds to it, and the engine that serves it. -/
structure Store where
  conn : Sql.Connection
  engine : Engine := Engine.sqlite

namespace Store

/-- The store over a database, with foreign keys enforced. -/
def ofDatabase (db : Sql.Database) : Store := { conn := { db := { db with foreignKeys := true } } }

def database (store : Store) : Sql.Database := store.conn.db

def run (store : Store) (stmt : Sql.Stmt) (params : List Sql.Value) :
    Store × Except StoreError Sql.Outcome :=
  let (conn, result) := store.conn.execute params.toArray stmt
  ({ store with conn := conn }, result.mapError StoreError.sql)

/-- Runs the statements of a script until one fails. -/
def batch (store : Store) (text : String) : Store × Except StoreError Unit :=
  match store.conn.runScript text with
  | (conn, none) => ({ store with conn := conn }, .ok ())
  | (conn, some message) => ({ store with conn := conn }, .error (.sql message))

/-- Runs one of the index's writes, giving the number of rows it changed. -/
def write (store : Store) (statement : Statement) : Store × Except StoreError Nat :=
  match store.engine.write store.conn statement with
  | (conn, result) => ({ store with conn := conn }, result.mapError StoreError.sql)

/-- The rows of one of the index's queries. -/
def read (store : Store) (lookup : Lookup) : Except StoreError Sql.Relation :=
  (store.engine.read store.conn lookup).mapError StoreError.sql

def begin (store : Store) : Store × Except StoreError Unit :=
  match store.engine.begin store.conn with
  | (conn, result) => ({ store with conn := conn }, result.mapError StoreError.sql)

def commit (store : Store) : Store × Except StoreError Unit :=
  match store.engine.commit store.conn with
  | (conn, result) => ({ store with conn := conn }, result.mapError StoreError.sql)

/-- The result of a query with parameters. -/
def select (store : Store) (q : Sql.Query) (params : List Sql.Value) :
    Except StoreError Sql.Relation :=
  match Sql.runQuery Sql.defaultFuel { db := store.conn.db, params := params.toArray } q with
  | .ok rel => .ok rel
  | .error f => .error (.sql f.message)

/-- Records the schema version in the state row. -/
def seed (store : Store) : Store × Except StoreError Unit :=
  match store.run seedStatement [.int schemaVersion, .int 0] with
  | (store, result) => (store, result.map fun _ => ())

/-- Creates the tables and indexes that are missing and records the schema version. -/
def install (store : Store) : Store × Except StoreError Unit :=
  match store.batch schemaScript with
  | (store, .ok ()) => store.seed
  | failed => failed

/-- Checks a database: it has no tables of its own, or the index's tables and schema version. -/
def preflight (store : Store) : Except StoreError Unit := do
  let names ← (resultRows (← store.select tablesQuery [])).mapM (·.text 0)
  if names.isEmpty then return ()
  if names.any (fun t => !tableNames.contains t) then
    throw (.resetRequired "unsupported tables detected")
  if tableNames.any (fun t => !names.contains t) then
    throw (.resetRequired "required table is missing")
  match resultRows (← store.select versionQuery []) with
  | [] => throw (.resetRequired "schema state row is missing")
  | row :: _ =>
    if (← row.int 0) = schemaVersion then pure ()
    else throw (.resetRequired "schema version mismatch")

/-- Opens a stored database: checks it, then installs what is missing. -/
def openStored (db : Sql.Database) : Except StoreError Store := do
  let store := ofDatabase db
  store.preflight
  match store.install with
  | (store, .ok ()) => pure store
  | (_, .error e) => throw e

/-- A store in a fresh database. -/
def fresh : Store :=
  match (ofDatabase {}).install with
  | (store, _) => store

/-- Empties the tables and records the version again, in one transaction. -/
def reset (store : Store) : Except StoreError Store := do
  let (opened, began) := store.run .begin []
  let _ ← began
  let (cleared, result) := opened.batch clearScript
  let _ ← result
  let (seeded, result) := cleared.seed
  let _ ← result
  let (committed, result) := seeded.run .commit []
  let _ ← result
  pure committed

/-- The database as a connection closing it leaves it. -/
def close (store : Store) : Sql.Database := store.conn.close

end Store
end TreeHistory
