import TreeHistory.Sql.Prepare
import TreeHistory.Sql.Parser

/-!
# Connections

A connection runs statements on a database one at a time. Each statement is atomic: when it
aborts, the database is as it was before it; a `ROLLBACK` undoes the whole open transaction.
Outside an explicit transaction every statement commits on its own; inside one, `COMMIT` fails
while a deferred foreign key is broken. A database can be written out as a script that makes it
again (`Database.toScript`).
-/

namespace TreeHistory
namespace Sql

/-- A database with the state of a connection to it. -/
structure Connection where
  db : Database
  /-- The database as it was when the open transaction began. -/
  savepoint : Option Database := none
  /-- The marks of `SAVEPOINT`, the newest first, each with the database as it was then. -/
  marks : List (String × Database) := []
  /-- Whether the open transaction was opened by a `SAVEPOINT`, which its `RELEASE` commits. -/
  markOpened : Bool := false

/-- What a statement gives back: the rows it wrote, and the rows of a query. -/
structure Outcome where
  changes : Nat := 0
  relation : Option Relation := none

/-- The rows of a table from a query's result, numbered from 1. -/
def rowsOf (rel : Relation) : List Row :=
  rel.rows.zipIdx.map fun (values, i) => { rowid := i + 1, values := values }

/-- The declared type a column of a query's result gets in `CREATE TABLE ... AS`. -/
def typeOfAffinity : Affinity → String
  | .integer => "INT"
  | .text => "TEXT"
  | .numeric => "NUM"
  | .real => "REAL"
  | .blob => ""

/-- A name quoted for SQL text. -/
def quoteName (name : String) : String := "\"" ++ name.replace "\"" "\"\"" ++ "\""

/-- The keywords of SQL, which a name must be quoted to be read as. -/
def keywords : List String :=
  ["ABORT", "ACTION", "ADD", "AFTER", "ALL", "ALTER", "ALWAYS", "ANALYZE", "AND", "AS", "ASC",
   "ATTACH", "AUTOINCREMENT", "BEFORE", "BEGIN", "BETWEEN", "BY", "CASCADE", "CASE", "CAST",
   "CHECK", "COLLATE", "COLUMN", "COMMIT", "CONFLICT", "CONSTRAINT", "CREATE", "CROSS",
   "CURRENT", "CURRENT_DATE", "CURRENT_TIME", "CURRENT_TIMESTAMP", "DATABASE", "DEFAULT",
   "DEFERRABLE", "DEFERRED", "DELETE", "DESC", "DETACH", "DISTINCT", "DO", "DROP", "EACH", "ELSE",
   "END", "ESCAPE", "EXCEPT", "EXCLUDE", "EXCLUSIVE", "EXISTS", "EXPLAIN", "FAIL", "FILTER",
   "FIRST", "FOLLOWING", "FOR", "FOREIGN", "FROM", "FULL", "GENERATED", "GLOB", "GROUP", "GROUPS",
   "HAVING", "IF", "IGNORE", "IMMEDIATE", "IN", "INDEX", "INDEXED", "INITIALLY", "INNER",
   "INSERT", "INSTEAD", "INTERSECT", "INTO", "IS", "ISNULL", "JOIN", "KEY", "LAST", "LEFT", "LIKE",
   "LIMIT", "MATCH", "MATERIALIZED", "NATURAL", "NO", "NOT", "NOTHING", "NOTNULL", "NULL",
   "NULLS", "OF", "OFFSET", "ON", "OR", "ORDER", "OTHERS", "OUTER", "OVER", "PARTITION", "PLAN",
   "PRAGMA", "PRECEDING", "PRIMARY", "QUERY", "RAISE", "RANGE", "RECURSIVE", "REFERENCES",
   "REGEXP", "REINDEX", "RELEASE", "RENAME", "REPLACE", "RESTRICT", "RETURNING", "RIGHT",
   "ROLLBACK", "ROW", "ROWS", "SAVEPOINT", "SELECT", "SET", "TABLE", "TEMP", "TEMPORARY", "THEN",
   "TIES", "TO", "TRANSACTION", "TRIGGER", "UNBOUNDED", "UNION", "UNIQUE", "UPDATE", "USING",
   "VACUUM", "VALUES", "VIEW", "VIRTUAL", "WHEN", "WHERE", "WINDOW", "WITH", "WITHOUT"]

/-- A name as a generated statement writes it: bare when it is a plain word and no keyword,
quoted otherwise. -/
def plainName (name : String) : String :=
  let chars := name.toList
  let bare := !chars.isEmpty && chars.all (fun c => (c.isAlphanum && c.toNat < 128) || c = '_') &&
    !(chars.head?.map Char.isDigit).getD false && !keywords.contains name.toUpper
  if bare then name else quoteName name

/-- The statement that makes a table of columns with these names and affinities, as a table made
from a query is recorded. -/
def createTableText (name : String) (columns : List (String × Affinity)) : String :=
  let width := columns.foldl (fun n (c, _) => n + c.length + (c.toList.filter (· = '"')).length + 7)
    (name.length + (name.toList.filter (· = '"')).length + 2)
  let (first, between, last) := if width < 50 then ("", ",", ")") else ("\n  ", ",\n  ", "\n)")
  let typed := columns.map fun (c, a) =>
    plainName c ++ (match a with
      | .blob => ""
      | .text => " TEXT"
      | .numeric => " NUM"
      | .integer => " INT"
      | .real => " REAL")
  "CREATE TABLE " ++ plainName name ++ "(" ++ first ++ between.intercalate typed ++ last

/-- The text of a `CREATE` statement with the name that follows some keyword replaced, as a rename
rewrites it. -/
def renameAfter (keyword : String) (sql newName : String) : String :=
  let tokens := tokenize sql
  let chars := sql.toList
  let skip := ["TEMP", "TEMPORARY", "UNIQUE", "IF", "NOT", "EXISTS"]
  let rec find : List Token → Bool → Option Token
    | [], _ => none
    | t :: rest, seen =>
      if seen then
        if skip.any (t.isKeyword ·) then find rest true else some t
      else find rest (t.isKeyword keyword)
  match find tokens.toList false with
  | some t => String.ofList (chars.take t.start) ++ quoteName newName ++ String.ofList (chars.drop t.stop)
  | none => sql

namespace Database

/-- Whether a table or view has a name. -/
def hasRelation (db : Database) (name : String) : Bool :=
  (db.table? name).isSome || db.views.any (fun v => sameName v.name name)

/-- `CREATE TABLE`. -/
def createTable (db : Database) (temp ifNotExists : Bool) (name : String) (columns : List ColumnDef)
    (constraints : List TableConstraint) (options : TableOptions) (sql : String) :
    Except String Database := do
  if name.toLower.startsWith "sqlite_" then
    throw ("object name reserved for internal use: " ++ name)
  if db.hasRelation name then
    if ifNotExists then return db
    else throw ((if (db.table? name).isSome then "table " else "view ") ++ name ++ " already exists")
  if db.indexes.any (fun i => sameName i.name name) then
    throw ("there is already an index named " ++ name)
  let td ← TableDef.build name columns constraints options temp sql
  pure { db with tables := db.tables ++ [{ schema := td }] }

/-- `CREATE TABLE ... AS`: a table with the columns and rows of a query's result. -/
def createTableAs (db : Database) (temp ifNotExists : Bool) (name : String) (rel : Relation) :
    Except String Database := do
  if db.hasRelation name then
    if ifNotExists then return db
    else throw ("table " ++ name ++ " already exists")
  let columns : List Column := (tableColumns rel.columns).map fun c =>
    { name := c.name, type := typeOfAffinity c.affinity, affinity := c.affinity }
  let text := createTableText name (columns.map fun c => (c.name, c.affinity))
  let td : TableDef := { name := name, columns := columns, temp := temp, sql := text }
  let rows := (rowsOf rel).map fun r =>
    { r with values := (List.zip columns r.values).map fun (c, v) => v.applyAffinity c.affinity }
  pure { db with tables := db.tables ++ [{ schema := td, rows := rows }] }

/-- `CREATE INDEX`: the table must exist and the columns be its own; a unique index must hold for
the rows already there. -/
def createIndex (db : Database) (unique ifNotExists : Bool) (name table : String)
    (columns : List Expr) (filter : Option Expr) (sql : String) : Except String Database := do
  let t ← match db.table? table with
    | some t => pure t
    | none => throw ("no such table: main." ++ table)
  if db.indexes.any (fun i => sameName i.name name) then
    if ifNotExists then return db
    else throw ("index " ++ name ++ " already exists")
  if db.hasRelation name then throw ("there is already a table named " ++ name)
  let shape : Shape := { name := t.schema.name, columns := t.schema.columns }
  for e in columns do checkExpr [[shape]] defaultFuel e
  if let some f := filter then checkExpr [[shape]] defaultFuel f
  let index : Index := { name := name, table := t.schema.name, columns := columns,
                         unique := unique, filter := filter, temp := t.schema.temp, sql := sql }
  if unique then
    let check := t.schema.indexCheck { index with columns := columns }
    let ctx : Context := {}
    let clash := (t.rows.anyM fun row => do
      match ← keyValues ctx (t.schema.rowFrame row) check with
      | some vs => pure (← clashOf ctx t.schema t.rows check vs (some row.rowid)).isSome
      | none => pure false).run.run db
    match clash.1 with
    | .ok true => throw ("UNIQUE constraint failed: " ++ check.label)
    | .ok false => pure ()
    | .error f => throw f.message
  pure { db with indexes := db.indexes ++ [index] }

/-- `CREATE VIEW`. -/
def createView (db : Database) (temp ifNotExists : Bool) (name : String) (columns : List String)
    (query : Query) (sql : String) : Except String Database := do
  if db.hasRelation name then
    if ifNotExists then return db
    else throw ((if (db.table? name).isSome then "table " else "view ") ++ name ++ " already exists")
  pure { db with views := db.views ++
    [{ name := name, columns := columns, query := query, temp := temp, sql := sql }] }

/-- `CREATE TRIGGER`: the table must exist. -/
def createTrigger (db : Database) (temp ifNotExists : Bool) (name : String) (time : TriggerTime)
    (event : TriggerEvent) (table : String) (condition : Option Expr) (body : List Stmt)
    (sql : String) : Except String Database := do
  if db.triggers.any (fun t => sameName t.name name) then
    if ifNotExists then return db
    else throw ("trigger " ++ name ++ " already exists")
  let trigger : Trigger :=
    { name := name, table := table, time := time, event := event, condition := condition,
      body := body, temp := temp, sql := sql }
  match db.table? table with
  | some t =>
    if time == .insteadOf then throw ("cannot create INSTEAD OF trigger on table: " ++ table)
    let trigger := { trigger with table := t.schema.name, temp := temp || t.schema.temp }
    pure { db with triggers := db.triggers ++ [trigger] }
  | none =>
    if db.views.any (fun v => sameName v.name table) then
      if time != .insteadOf then
        throw ("cannot create " ++ (if time == .before then "BEFORE" else "AFTER") ++
          " trigger on view: " ++ table)
      pure { db with triggers := db.triggers ++ [trigger] }
    else throw ("no such table: main." ++ table)

/-- `DROP`. Dropping a table drops its indexes and triggers. -/
def dropObject (db : Database) (kind : ObjectKind) (ifExists : Bool) (name : String) :
    Except String Database :=
  match kind with
  | .table =>
    match db.table? name with
    | some t =>
      let n := t.schema.name
      .ok { db with tables := db.tables.filter (fun u => !sameName u.schema.name n),
                    indexes := db.indexes.filter (fun i => !sameName i.table n),
                    triggers := db.triggers.filter (fun r => !sameName r.table n) }
    | none =>
      if db.views.any (fun v => sameName v.name name) then
        .error ("use DROP VIEW to delete view " ++ name)
      else if ifExists then .ok db else .error ("no such table: " ++ name)
  | .index =>
    if db.indexes.any (fun i => sameName i.name name) then
      .ok { db with indexes := db.indexes.filter (fun i => !sameName i.name name) }
    else if ifExists then .ok db else .error ("no such index: " ++ name)
  | .view =>
    if db.views.any (fun v => sameName v.name name) then
      .ok { db with views := db.views.filter (fun v => !sameName v.name name),
                    triggers := db.triggers.filter (fun r => !sameName r.table name) }
    else if (db.table? name).isSome then .error ("use DROP TABLE to delete table " ++ name)
    else if ifExists then .ok db else .error ("no such view: " ++ name)
  | .trigger =>
    if db.triggers.any (fun t => sameName t.name name) then
      .ok { db with triggers := db.triggers.filter (fun t => !sameName t.name name) }
    else if ifExists then .ok db else .error ("no such trigger: " ++ name)

/-- `ALTER TABLE ... RENAME TO`: the table, its indexes and triggers, and the foreign keys that
name it follow the new name. -/
def renameTable (db : Database) (old new : String) : Except String Database := do
  let t ← match db.table? old with
    | some t => pure t
    | none => throw ("no such table: " ++ old)
  if db.hasRelation new || db.indexes.any (fun i => sameName i.name new) then
    throw ("there is already another table or index with this name: " ++ new)
  let n := t.schema.name
  let schema := { t.schema with name := new, sql := renameAfter "TABLE" t.schema.sql new }
  let follow (fk : ForeignKey) : ForeignKey :=
    if sameName fk.parent n then { fk with parent := new } else fk
  let retable (u : Table) : Table :=
    let u := if sameName u.schema.name n then { u with schema := schema } else u
    { u with schema := { u.schema with foreignKeys := u.schema.foreignKeys.map follow } }
  let reindex (i : Index) : Index :=
    if sameName i.table n then { i with table := new, sql := renameAfter "ON" i.sql new } else i
  let retrigger (r : Trigger) : Trigger :=
    if sameName r.table n then { r with table := new, sql := renameAfter "ON" r.sql new } else r
  pure { db with tables := db.tables.map retable, indexes := db.indexes.map reindex,
                 triggers := db.triggers.map retrigger }

/-- `ALTER TABLE ... RENAME COLUMN`. -/
def renameColumn (db : Database) (table old new : String) : Except String Database := do
  let t ← match db.table? table with
    | some t => pure t
    | none => throw ("no such table: " ++ table)
  let i ← match t.schema.columnIndex? old with
    | some i => pure i
    | none => throw ("no such column: \"" ++ old ++ "\"")
  if (t.schema.columnIndex? new).isSome then throw ("duplicate column name: " ++ new)
  let columns := t.schema.columns.zipIdx.map fun (c, j) => if i = j then { c with name := new } else c
  pure (db.setTable { t with schema := { t.schema with columns := columns } })

/-- `ALTER TABLE ... ADD COLUMN`: the rows there get the column's default. -/
def addColumn (db : Database) (table : String) (column : ColumnDef) : Except String Database := do
  let t ← match db.table? table with
    | some t => pure t
    | none => throw ("no such table: " ++ table)
  if (t.schema.columnIndex? column.name).isSome then
    throw ("duplicate column name: " ++ column.name)
  if column.constraints.any (fun | .primaryKey .. => true | _ => false) then
    throw "Cannot add a PRIMARY KEY column"
  if column.constraints.any (fun | .unique .. => true | _ => false) then
    throw "Cannot add a UNIQUE column"
  let built ← match TableDef.build t.schema.name [column] [] { strict := t.schema.strict } false "" with
    | .ok built => pure built
    | .error m => throw ("error in table " ++ t.schema.name ++ " after add column: " ++ m)
  let c := (built.columns.head?).getD { name := column.name }
  let default ← match c.default with
    | some d =>
      match eval defaultFuel { db := db } d with
      | .ok v => pure (v.applyAffinity c.affinity)
      | .error f => throw f.message
    | none => pure .null
  if c.notNull.isSome ∧ default.isNull ∧ !t.rows.isEmpty then
    throw "Cannot add a NOT NULL column with default value NULL"
  let position := t.schema.columns.length
  let shift (positions : List Nat) : List Nat := positions.map fun _ => position
  let schema := { t.schema with
    columns := t.schema.columns ++ [c],
    checks := t.schema.checks ++ built.checks,
    foreignKeys := t.schema.foreignKeys ++ built.foreignKeys.map fun fk =>
      { fk with columns := shift fk.columns } }
  pure (db.setTable { schema := schema, rows := t.rows.map fun r =>
    { r with values := r.values ++ [default] } })

/-- `ALTER TABLE ... DROP COLUMN`: a column that is part of a key or foreign key stays. -/
def dropColumn (db : Database) (table column : String) : Except String Database := do
  let t ← match db.table? table with
    | some t => pure t
    | none => throw ("no such table: " ++ table)
  let i ← match t.schema.columnIndex? column with
    | some i => pure i
    | none => throw ("no such column: \"" ++ column ++ "\"")
  if t.schema.rowidColumn = some i ∨ t.schema.keys.any (fun k => k.primary ∧ k.columns.contains i) then
    throw ("cannot drop PRIMARY KEY column: \"" ++ column ++ "\"")
  if t.schema.keys.any (fun k => k.columns.contains i) then
    throw ("cannot drop UNIQUE column: \"" ++ column ++ "\"")
  if t.schema.foreignKeys.any (fun fk => fk.columns.contains i) then
    throw ("error in table " ++ t.schema.name ++ " after drop column: unknown column \"" ++
      column ++ "\" in foreign key definition")
  if t.schema.columns.length ≤ 1 then
    throw ("cannot drop column \"" ++ column ++ "\": no other columns exist")
  let down (j : Nat) : Nat := if j > i then j - 1 else j
  let schema := { t.schema with
    columns := t.schema.columns.eraseIdx i,
    rowidColumn := t.schema.rowidColumn.map down,
    keys := t.schema.keys.map fun k => { k with columns := k.columns.map down },
    foreignKeys := t.schema.foreignKeys.map fun fk => { fk with columns := fk.columns.map down } }
  pure (db.setTable { schema := schema, rows := t.rows.map fun r =>
    { r with values := r.values.eraseIdx i } })

/-- The truth a `PRAGMA` value gives: `ON`, `TRUE`, `YES` or a number that is not zero. -/
def pragmaTruth : Expr → Option Bool
  | .column _ n _ =>
    let n := n.toLower
    if n = "on" ∨ n = "true" ∨ n = "yes" then some true
    else if n = "off" ∨ n = "false" ∨ n = "no" then some false else none
  | .literal (.text s) =>
    let n := s.toLower
    if n = "on" ∨ n = "true" ∨ n = "yes" then some true
    else if n = "off" ∨ n = "false" ∨ n = "no" then some false else none
  | .integer text => some (text.toNat?.any (· ≠ 0))
  | _ => none

/-- The integer a `PRAGMA` value gives. -/
def pragmaInt : Expr → Option Int
  | .integer text => text.toInt?
  | .unary .neg (.integer text) => text.toInt?.map (-·)
  | .literal (.text s) => s.toInt?
  | _ => none

end Database

namespace Connection

/-- Whether a transaction is open. -/
def inTransaction (c : Connection) : Bool := c.savepoint.isSome

/-- Runs a schema statement. -/
def define (c : Connection) (params : Array Value) (stmt : Stmt) : Except String Database :=
  let db := c.db
  match stmt with
  | .createTable temp quiet name columns constraints options sql =>
    db.createTable temp quiet name columns constraints options sql
  | .createTableAs temp quiet name query _ =>
    if db.hasRelation name then db.createTableAs temp quiet name { columns := [], rows := [] }
    else do
      checkStatement db (.select query)
      match runQuery defaultFuel { db := db, params := params } query with
      | .ok rel => db.createTableAs temp quiet name rel
      | .error f => .error f.message
  | .createIndex unique quiet name table columns filter sql =>
    db.createIndex unique quiet name table columns filter sql
  | .createView temp quiet name columns query sql => db.createView temp quiet name columns query sql
  | .createTrigger temp quiet name time event table condition body sql =>
    db.createTrigger temp quiet name time event table condition body sql
  | .drop kind quiet name => db.dropObject kind quiet name
  | .renameTable table new => db.renameTable table new
  | .renameColumn table old new => db.renameColumn table old new
  | .addColumn table column => db.addColumn table column
  | .dropColumn table column => db.dropColumn table column
  | .pragma name value =>
    match name.toLower, value with
    | "foreign_keys", some v =>
      match Database.pragmaTruth v with
      | some on => .ok (if c.inTransaction then db else { db with foreignKeys := on })
      | none => .ok db
    | "user_version", some v => .ok { db with userVersion := (Database.pragmaInt v).getD db.userVersion }
    | _, _ => .ok db
  | _ => .ok db

/-- Runs a statement that reads or writes rows, atomically. -/
def write (c : Connection) (params : Array Value) (stmt : Stmt) :
    Connection × Except String Outcome :=
  let before := c.db
  let ctx : Context := { params := params, override := match stmt with
    | .insert conflict .. => conflict
    | .update conflict .. => conflict
    | _ => none }
  let work : Exec Outcome := match stmt with
    | .select q => do
      let rel ← liftEval (runQuery defaultFuel (ctx.env (← get)) q)
      pure { relation := some rel }
    | other => do
      let n ← runStmt defaultFuel ctx other
      modify (·.counted n)
      pure { changes := n }
  let (result, after) := (work.run).run { c.db with statementViolations := 0 }
  let failed (message : String) : Connection × Except String Outcome :=
    ({ c with db := before }, .error message)
  let deferred := if c.inTransaction then after.deferredViolations else 0
  let settled := { after with statementViolations := 0, deferredViolations := deferred }
  match result with
  | .ok outcome =>
    if after.statementViolations > 0 then failed "FOREIGN KEY constraint failed"
    else if !c.inTransaction ∧ after.deferredViolations > 0 then
      failed "FOREIGN KEY constraint failed"
    else ({ c with db := settled }, .ok outcome)
  | .error (.abort m) => failed m
  | .error (.fail m) => ({ c with db := settled }, .error m)
  | .error (.rollback m) =>
    match c.savepoint with
    | some saved => ({ db := saved }, .error m)
    | none => failed m
  | .error .ignore => ({ c with db := after }, .ok {})

/-- Commits the open transaction, unless writes it deferred left a foreign key unmatched. -/
def settle (c : Connection) : Connection × Except String Outcome :=
  if c.db.deferredViolations > 0 then (c, .error "FOREIGN KEY constraint failed")
  else ({ db := { c.db with deferredViolations := 0 } }, .ok {})

/-- Runs a statement. -/
def execute (c : Connection) (params : Array Value) (stmt : Stmt) :
    Connection × Except String Outcome :=
  match stmt with
  | .begin =>
    if c.inTransaction then (c, .error "cannot start a transaction within a transaction")
    else ({ c with savepoint := some c.db }, .ok {})
  | .commit =>
    match c.savepoint with
    | none => (c, .error "cannot commit - no transaction is active")
    | some _ => c.settle
  | .rollback =>
    match c.savepoint with
    | none => (c, .error "cannot rollback - no transaction is active")
    | some saved => ({ db := { saved with deferredViolations := 0 } }, .ok {})
  | .savepoint name =>
    if c.inTransaction then ({ c with marks := (name, c.db) :: c.marks }, .ok {})
    else ({ c with savepoint := some c.db, marks := [(name, c.db)], markOpened := true }, .ok {})
  | .release name =>
    match c.marks.findIdx? (fun m => sameName m.1 name) with
    | none => (c, .error ("no such savepoint: " ++ name))
    | some i =>
      let marks := c.marks.drop (i + 1)
      if marks.isEmpty ∧ c.markOpened then c.settle
      else ({ c with marks := marks }, .ok {})
  | .rollbackTo name =>
    match c.marks.find? (fun m => sameName m.1 name), c.marks.findIdx? (fun m => sameName m.1 name) with
    | some (_, saved), some i => ({ c with db := saved, marks := c.marks.drop i }, .ok {})
    | _, _ => (c, .error ("no such savepoint: " ++ name))
  | .insert .. | .update .. | .delete .. | .select .. =>
    match checkStatement c.db stmt with
    | .ok () => c.write params stmt
    | .error m => (c, .error m)
  | .noop => (c, .ok {})
  | other =>
    match c.define params other with
    | .ok db => ({ c with db := db }, .ok {})
    | .error m => (c, .error m)

/-- Runs the statements of a script in order until one fails; gives the failure's message. -/
def runScript (c : Connection) (text : String) : Connection × Option String :=
  let cursor := Parse.cursorOf text
  let rec go : Nat → Connection → Nat → Connection × Option String
    | 0, c, _ => (c, none)
    | fuel + 1, c, pos =>
      match Parse.statementAt cursor pos with
      | .ok (some stmt, next) =>
        match c.execute #[] stmt with
        | (c, .ok _) => go fuel c next
        | (c, .error m) => (c, some m)
      | .ok (none, _) => (c, none)
      | .error m => (c, some m)
  go (cursor.tokens.size + 1) c 0

/-- Closes a connection: a transaction left open is undone, and temporary objects and the
connection's settings go. -/
def close (c : Connection) : Database :=
  (c.savepoint.getD c.db).disconnect

end Connection

/-- A value as an SQL literal that reads back as the same value. -/
def literalOf : Value → String
  | .real x => Double.renderExact x
  | v => quoteValue v

namespace Database

/-- A script that makes the database again: its tables with their rows (each with its row id,
when the table has row ids), then its indexes, views and triggers. -/
def toScript (db : Database) : String :=
  let kept := db.disconnect
  let tables := kept.tables.map fun t =>
    let rowid := if t.schema.withoutRowid then [] else ["rowid"]
    let columns := ", ".intercalate (rowid ++ t.schema.columns.map (quoteName ·.name))
    let inserts := t.rows.map fun r =>
      let id := if t.schema.withoutRowid then [] else [toString r.rowid]
      "INSERT INTO " ++ quoteName t.schema.name ++ "(" ++ columns ++ ") VALUES (" ++
        ", ".intercalate (id ++ r.values.map literalOf) ++ ");\n"
    t.schema.sql ++ ";\n" ++ String.join inserts
  let others := kept.indexes.map (·.sql) ++ kept.views.map (·.sql) ++ kept.triggers.map (·.sql)
  String.join tables ++ String.join (others.map (· ++ ";\n")) ++
    (if kept.userVersion ≠ 0 then "PRAGMA user_version = " ++ toString kept.userVersion ++ ";\n"
     else "")

/-- The database a script makes, run on a fresh connection that enforces foreign keys from the
start when asked to, with the first failure if any. -/
def ofScript (text : String) (enforceKeys : Bool) : Database × Option String :=
  let (c, failure) := ({ db := { foreignKeys := enforceKeys } } : Connection).runScript text
  (c.close, failure)

end Database

end Sql
end TreeHistory
