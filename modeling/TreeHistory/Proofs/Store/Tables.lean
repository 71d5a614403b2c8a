import TreeHistory.Store.Transaction
import TreeHistory.Store.Query
import TreeHistory.Proofs.Except

/-!
# The index's tables and lawful engines

The index relies not on one SQL engine but on laws over `Tables`, the rows of the revision, node
and content tables: `Tables.write` is what each write does, `Tables.Answers` what each query may
answer, and a commit fails exactly when a content row names no node. An engine is `Lawful` when
some view of its connections as tables follows these laws; the store's operations then act on the
tables as the laws say (`Store.Holds`).
-/

namespace TreeHistory

/-- The rows of the index's tables, as records. -/
structure Tables where
  revisions : List RevisionInfo := []
  nodes : List NodeRecord := []
  contents : List ContentRecord := []
  deriving DecidableEq, Repr

namespace Tables

/-- The node rows that closing the live window of `node` at `revMax` selects. -/
def closesNode (node : NodeId) (revMax : Revnum) (row : NodeRecord) : Bool :=
  row.id == node && row.revMax == Revnum.head && decide (row.revMin ≤ revMax)

/-- The content rows that closing the live content of `node` at `revMax` selects. -/
def closesContent (node : NodeId) (revMax : Revnum) (row : ContentRecord) : Bool :=
  row.node == node && row.revMax == Revnum.head && decide (row.revMin ≤ revMax)

/-- What a write does to the tables, and the number of rows it changed or the engine's message. A
refused write leaves the tables as they were. -/
def write (tables : Tables) : Statement → Tables × Except String Nat
  | .insertRevision info =>
    if tables.revisions.any (·.id == info.id) then
      (tables, .error "UNIQUE constraint failed: revision.id")
    else ({ tables with revisions := tables.revisions ++ [info] }, .ok 1)
  | .insertNode record =>
    if record.revMax < record.revMin then (tables, .error "CHECK constraint failed: rev_min <= rev_max")
    else if tables.nodes.any (·.id == record.id) then
      (tables, .error "UNIQUE constraint failed: node.id")
    else ({ tables with nodes := tables.nodes ++ [record] }, .ok 1)
  | .outdateNode node revMax =>
    ({ tables with nodes := tables.nodes.map fun row =>
        if closesNode node revMax row then { row with revMax := revMax } else row },
      .ok (tables.nodes.countP (closesNode node revMax)))
  | .insertContent node revMin data =>
    if Revnum.head < revMin then (tables, .error "CHECK constraint failed: rev_min <= rev_max")
    else if tables.contents.any (fun row => row.node == node && row.revMin == revMin) then
      (tables, .error "UNIQUE constraint failed: content.node, content.rev_min")
    else
      ({ tables with contents := tables.contents ++
          [{ node := node, revMin := revMin, revMax := Revnum.head, data := data }] }, .ok 1)
  | .outdateContent node revMax =>
    ({ tables with contents := tables.contents.map fun row =>
        if closesContent node revMax row then { row with revMax := revMax } else row },
      .ok (tables.contents.countP (closesContent node revMax)))

/-- One of the index's writes with its check of the rows changed, as `Store.exec` runs it. -/
def exec (tables : Tables) (statement : Statement) : Tables × Except StoreError Unit :=
  match tables.write statement with
  | (tables, .ok changes) => (tables, statement.verify changes)
  | (tables, .error message) => (tables, .error (.sql message))

/-- Writes in order until one fails, as `Store.execAll` runs them. -/
def execAll (tables : Tables) : List Statement → Tables × Option StoreError
  | [] => (tables, none)
  | statement :: rest =>
    match tables.exec statement with
    | (tables, .ok ()) => execAll tables rest
    | (tables, .error e) => (tables, some e)

/-- The deferred foreign key holds: every content row names a node row. -/
def keysHold (tables : Tables) : Bool :=
  tables.contents.all fun row => tables.nodes.any (·.id == row.node)

/-- `rows` encodes the records of `matching`, each once, in an order `before` allows. -/
def Listed {α : Type} (encode : α → List Sql.Value) (before : α → α → Prop)
    (matching : List α) (rows : List (List Sql.Value)) : Prop :=
  ∃ listed : List α, rows = listed.map encode ∧ listed.Perm matching ∧ listed.Pairwise before

/-- `rows` is the row of the newest of `matching` by `(revMin, id)`, or no row when nothing
matches. -/
def Newest (matching : List NodeRecord) (rows : List (List Sql.Value)) : Prop :=
  matching = [] ∧ rows = [] ∨
    ∃ best ∈ matching, rows = [best.values] ∧
      ∀ other ∈ matching, other.revMin < best.revMin ∨ other.revMin = best.revMin ∧ other.id ≤ best.id

/-- The rows a query may give over the tables: those its `WHERE` selects, in an order its
`ORDER BY` allows, the first of them where it has `LIMIT 1`. -/
def Answers (tables : Tables) : Lookup → List (List Sql.Value) → Prop
  | .lookupPath path r =>
    Newest (tables.nodes.filter fun row => row.path == path && decide (row.revMin ≤ r))
  | .nodeAt path r => Newest (tables.nodes.filter fun row => row.path == path && row.covers r)
  | .children parent r =>
    Listed NodeRecord.values (fun a b => a.name < b.name ∨ a.name = b.name ∧ a.id ≤ b.id)
      (tables.nodes.filter fun row => row.parent == parent && row.covers r)
  | .node id => Listed NodeRecord.values (fun _ _ => True) (tables.nodes.filter (·.id == id))
  | .pathHistory path =>
    Listed NodeRecord.values (fun a b => a.revMin < b.revMin ∨ a.revMin = b.revMin ∧ a.id ≤ b.id)
      (tables.nodes.filter (·.path == path))
  | .liveNodes =>
    Listed NodeRecord.values (fun a b => a.path ≤ b.path) (tables.nodes.filter NodeRecord.isLive)
  | .contentHistory node =>
    Listed ContentRecord.values (fun a b => a.revMin ≤ b.revMin)
      (tables.contents.filter (·.node == node))
  | .revision id => Listed RevisionInfo.values (fun _ _ => True) (tables.revisions.filter (·.id == id))
  | .lastRevision => fun rows => rows = [[intValue (tables.revisions.map (·.id)).max?]]
  | .maxNodeId => fun rows => rows = [[intValue (tables.nodes.map (·.id)).max?]]

end Tables

/-- An engine that keeps the index's tables as the schema says and answers its queries as their
SQL says, seen through a view of its connections as tables. -/
structure Engine.Lawful (engine : Engine) where
  /-- The tables a connection holds, where it holds the index's schema. -/
  tables : Sql.Connection → Option Tables
  /-- Whether a transaction is open on the connection. -/
  inTransaction : Sql.Connection → Bool
  write : ∀ conn t statement, tables conn = some t →
    tables (engine.write conn statement).1 = some (t.write statement).1 ∧
      (engine.write conn statement).2 = (t.write statement).2 ∧
      inTransaction (engine.write conn statement).1 = inTransaction conn
  read : ∀ conn t lookup, tables conn = some t →
    ∃ rel, engine.read conn lookup = .ok rel ∧ t.Answers lookup rel.rows
  begin : ∀ conn t, tables conn = some t → inTransaction conn = false →
    (engine.begin conn).2 = .ok () ∧ tables (engine.begin conn).1 = some t ∧
      inTransaction (engine.begin conn).1 = true
  commit : ∀ conn t, tables conn = some t → inTransaction conn = true →
    (engine.commit conn).2 =
        (if t.keysHold then .ok () else .error "FOREIGN KEY constraint failed") ∧
      (t.keysHold → tables (engine.commit conn).1 = some t ∧
        inTransaction (engine.commit conn).1 = false)
  /-- The database's node table has a row for each node row of the view. -/
  nodeCount : ∀ conn t, tables conn = some t →
    ((conn.db.table? "node").map (·.rows.length)).getD 0 = t.nodes.length

namespace Store

variable {engine : Engine} (lawful : engine.Lawful)

/-- The store runs on the lawful engine, holds the tables `t`, and has a transaction open
exactly when `txOpen`. -/
structure Holds (store : Store) (t : Tables) (txOpen : Bool) : Prop where
  engine : store.engine = engine
  tables : lawful.tables store.conn = some t
  inTransaction : lawful.inTransaction store.conn = txOpen

variable {lawful} {store : Store} {t : Tables} {txOpen : Bool}

theorem Holds.write (holds : store.Holds lawful t txOpen) (statement : Statement) :
    (store.write statement).1.Holds lawful (t.write statement).1 txOpen ∧
      (store.write statement).2 = (t.write statement).2.mapError StoreError.sql := by
  obtain ⟨tables, result, same⟩ := lawful.write store.conn t statement holds.tables
  unfold Store.write
  rw [holds.engine]
  generalize engine.write store.conn statement = outcome at tables result same ⊢
  obtain ⟨conn, answer⟩ := outcome
  simp only at tables result same ⊢
  subst result
  exact ⟨⟨rfl, tables, same.trans holds.inTransaction⟩, rfl⟩

theorem Holds.exec (holds : store.Holds lawful t txOpen) (statement : Statement) :
    (store.exec statement).1.Holds lawful (t.exec statement).1 txOpen ∧
      (store.exec statement).2 = (t.exec statement).2 := by
  obtain ⟨written, result⟩ := holds.write statement
  unfold Store.exec Tables.exec
  generalize store.write statement = outcome at written result ⊢
  generalize t.write statement = expected at written result ⊢
  obtain ⟨after, answer⟩ := outcome
  obtain ⟨tablesAfter, expectedAnswer⟩ := expected
  simp only at written result ⊢
  subst result
  cases expectedAnswer <;> exact ⟨written, rfl⟩

theorem Holds.execAll (holds : store.Holds lawful t txOpen) (statements : List Statement) :
    (store.execAll statements).1.Holds lawful (t.execAll statements).1 txOpen ∧
      (store.execAll statements).2 = (t.execAll statements).2 := by
  induction statements generalizing store t with
  | nil => exact ⟨holds, rfl⟩
  | cons statement rest restHolds =>
    obtain ⟨executed, result⟩ := holds.exec statement
    unfold Store.execAll Tables.execAll
    generalize store.exec statement = outcome at executed result ⊢
    generalize t.exec statement = expected at executed result ⊢
    obtain ⟨after, answer⟩ := outcome
    obtain ⟨tablesAfter, expectedAnswer⟩ := expected
    simp only at executed result ⊢
    rw [result]
    cases expectedAnswer with
    | ok u => exact restHolds executed
    | error e => exact ⟨executed, rfl⟩

theorem Holds.read (holds : store.Holds lawful t txOpen) (lookup : Lookup) :
    ∃ rel, store.read lookup = .ok rel ∧ t.Answers lookup rel.rows := by
  obtain ⟨rel, read, answers⟩ := lawful.read store.conn t lookup holds.tables
  refine ⟨rel, ?_, answers⟩
  simp only [Store.read, holds.engine, read, Except.mapError_ok]

theorem Holds.begin (holds : store.Holds lawful t false) :
    store.begin.1.Holds lawful t true ∧ store.begin.2 = .ok () := by
  obtain ⟨began, tables, opened⟩ := lawful.begin store.conn t holds.tables holds.inTransaction
  unfold Store.begin
  rw [holds.engine]
  generalize engine.begin store.conn = outcome at began tables opened ⊢
  obtain ⟨conn, answer⟩ := outcome
  simp only at began tables opened ⊢
  subst began
  exact ⟨⟨rfl, tables, opened⟩, rfl⟩

theorem Holds.commit (holds : store.Holds lawful t true) (keys : t.keysHold = true) :
    store.commit.1.Holds lawful t false ∧ store.commit.2 = .ok () := by
  obtain ⟨committed, closed⟩ := lawful.commit store.conn t holds.tables holds.inTransaction
  rw [if_pos keys] at committed
  obtain ⟨tables, notOpen⟩ := closed keys
  unfold Store.commit
  rw [holds.engine]
  generalize engine.commit store.conn = outcome at committed tables notOpen ⊢
  obtain ⟨conn, answer⟩ := outcome
  simp only at committed tables notOpen ⊢
  subst committed
  exact ⟨⟨rfl, tables, notOpen⟩, rfl⟩

theorem Holds.nodeCount (holds : store.Holds lawful t txOpen) : store.nodeCount = t.nodes.length :=
  lawful.nodeCount store.conn t holds.tables

/-- A node row reads back as the record it was written from. -/
@[simp] theorem readNode_values (columns : List Sql.Column) (record : NodeRecord) :
    readNode { columns := columns, values := record.values } = .ok record := by
  obtain ⟨id, revMin, revMax, parent, predecessor, name, path, kind⟩ := record
  cases predecessor with
  | none =>
    simp [readNode, NodeRecord.values, ResultRow.intOpt, ResultRow.textOpt, ResultRow.text,
      ResultRow.int, ResultRow.value, intValue, textValue, NodeKind.parse_name, bind, Except.bind,
      pure, Except.pure]
  | some predecessor =>
    simp [readNode, NodeRecord.values, ResultRow.intOpt, ResultRow.textOpt, ResultRow.text,
      ResultRow.int, ResultRow.value, intValue, textValue, NodeKind.parse_name, bind, Except.bind,
      pure, Except.pure]

theorem mapM_readNode (columns : List Sql.Column) (records : List NodeRecord) :
    (records.map fun record => ({ columns := columns, values := record.values } : ResultRow)).mapM
      readNode = .ok records := by
  induction records with
  | nil => rfl
  | cons record rest restRead =>
    simp [List.mapM_cons, restRead, bind, Except.bind, pure, Except.pure]

/-- A query whose rows list node records reads back those records. -/
theorem Holds.nodes (holds : store.Holds lawful t txOpen) {lookup : Lookup}
    {before : NodeRecord → NodeRecord → Prop} {matching : List NodeRecord}
    (listed : ∀ rows, t.Answers lookup rows → Tables.Listed NodeRecord.values before matching rows) :
    ∃ records, store.nodes lookup = .ok records ∧ records.Perm matching ∧
      records.Pairwise before := by
  obtain ⟨rel, read, answers⟩ := holds.read lookup
  obtain ⟨records, rows, perm, sorted⟩ := listed rel.rows answers
  refine ⟨records, ?_, perm, sorted⟩
  simp only [Store.nodes, read, resultRows, rows, List.map_map, bind, Except.bind]
  exact mapM_readNode rel.columns records

/-- The live rows, in order of path. -/
theorem Holds.liveNodes (holds : store.Holds lawful t txOpen) :
    ∃ records, store.liveNodes = .ok records ∧ records.Perm (t.nodes.filter NodeRecord.isLive) ∧
      records.Pairwise fun a b => a.path ≤ b.path :=
  holds.nodes fun _ answers => answers

/-- The rows under `parent` that hold `revision`, in order of name and then id. -/
theorem Holds.children (holds : store.Holds lawful t txOpen) (parent : NodeId)
    (revision : Revnum) :
    ∃ records, store.children parent revision = .ok records ∧
      records.Perm (t.nodes.filter fun row => row.parent == parent && row.covers revision) ∧
      records.Pairwise fun a b => a.name < b.name ∨ a.name = b.name ∧ a.id ≤ b.id :=
  holds.nodes fun _ answers => answers

/-- A query that gives the newest of its rows reads back that record, or nothing. -/
theorem Holds.firstNode (holds : store.Holds lawful t txOpen) {lookup : Lookup}
    {matching : List NodeRecord} (newest : ∀ rows, t.Answers lookup rows → Tables.Newest matching rows) :
    matching = [] ∧ store.firstNode lookup = .ok none ∨
      ∃ best ∈ matching, store.firstNode lookup = .ok (some best) ∧
        ∀ other ∈ matching, other.revMin < best.revMin ∨
          other.revMin = best.revMin ∧ other.id ≤ best.id := by
  obtain ⟨rel, read, answers⟩ := holds.read lookup
  rcases newest rel.rows answers with ⟨none, rows⟩ | ⟨best, bestMem, rows, bestNewest⟩
  · left
    refine ⟨none, ?_⟩
    simp [Store.firstNode, read, resultRows, rows, bind, Except.bind, pure, Except.pure]
  · right
    refine ⟨best, bestMem, ?_, bestNewest⟩
    simp [Store.firstNode, read, resultRows, rows, bind, Except.bind, Functor.map, Except.map]

/-- The largest of a query's single integer, where the lawful answer is that integer or `NULL`. -/
theorem Holds.maximum (holds : store.Holds lawful t txOpen) {lookup : Lookup} {largest : Option Int}
    (single : ∀ rows, t.Answers lookup rows → rows = [[intValue largest]]) :
    store.maximum lookup = .ok largest := by
  obtain ⟨rel, read, answers⟩ := holds.read lookup
  have rows := single rel.rows answers
  cases largest <;>
    simp [Store.maximum, read, resultRows, rows, intValue, ResultRow.intOpt, ResultRow.value,
      bind, Except.bind]

theorem Holds.lastRevision (holds : store.Holds lawful t txOpen) :
    store.lastRevision = .ok (t.revisions.map (·.id)).max? :=
  holds.maximum fun _ answers => answers

theorem Holds.maxNodeId (holds : store.Holds lawful t txOpen) :
    store.maxNodeId = .ok ((t.nodes.map (·.id)).max?.getD 0) := by
  have largest : store.maximum .maxNodeId = .ok (t.nodes.map (·.id)).max? :=
    holds.maximum fun _ answers => answers
  simp [Store.maxNodeId, largest, bind, Except.bind, pure, Except.pure]

end Store
end TreeHistory
