import TreeHistory.Sql.Syntax

/-!
# Tables and the database

A database is its tables, indexes, views and triggers, in the order they were made, each table's
rows in order of row id. An `INTEGER PRIMARY KEY` column is the row id itself. Names match
without regard to ASCII case.
-/

namespace TreeHistory
namespace Sql

/-- Whether two names are the same, without regard to ASCII case. -/
def sameName (a b : String) : Bool := a.toLower == b.toLower

/-- The truth value a bare name stands for when it is `TRUE` or `FALSE` and no column has
that name. -/
def truthWord? (name : String) : Option Bool :=
  if sameName name "true" then some true
  else if sameName name "false" then some false
  else none

/-- The types a column of a strict table may be declared with. -/
inductive StrictType where
  | int
  | integer
  | real
  | text
  | blob
  | any
  deriving DecidableEq, Repr

namespace StrictType

/-- The strict type a declared type names, in any case. -/
def ofName? (type : String) : Option StrictType :=
  match type.toUpper with
  | "INT" => some .int
  | "INTEGER" => some .integer
  | "REAL" => some .real
  | "TEXT" => some .text
  | "BLOB" => some .blob
  | "ANY" => some .any
  | _ => none

def name : StrictType → String
  | .int => "INT"
  | .integer => "INTEGER"
  | .real => "REAL"
  | .text => "TEXT"
  | .blob => "BLOB"
  | .any => "ANY"

/-- The affinity of a column of a strict type: `ANY` keeps values as they are. -/
def affinity : StrictType → Affinity
  | .int | .integer => .integer
  | .real => .real
  | .text => .text
  | .blob | .any => .blob

/-- Whether a column of a strict type may hold a value, once converted: `NULL`, or a value of the
type's storage class. -/
def admits : StrictType → Value → Bool
  | _, .null | .any, _ => true
  | .int, .int _ | .integer, .int _ => true
  | .real, .real _ => true
  | .text, .text _ => true
  | .blob, .blob _ => true
  | _, _ => false

end StrictType

/-- The name a strict table's messages give the storage class of a value. -/
def Value.className : Value → String
  | .null => "NULL"
  | .int _ => "INT"
  | .real _ => "REAL"
  | .text _ => "TEXT"
  | .blob _ => "BLOB"

structure Column where
  name : String
  type : String := ""
  affinity : Affinity := .blob
  strictType : Option StrictType := none
  /-- How a `NOT NULL` constraint resolves, when there is one. -/
  notNull : Option (Option Conflict) := none
  default : Option Expr := none
  collation : String := "BINARY"
  /-- The expression a generated column's value is computed from, out of the row's others. -/
  generated : Option Expr := none
  deriving Repr

/-- A set of columns whose values no two rows may share: a primary key or a unique constraint. -/
structure UniqueKey where
  columns : List Nat
  conflict : Option Conflict := none
  primary : Bool := false
  descending : List Nat := []
  deriving Repr

/-- A `CHECK` constraint and the name it fails with. -/
structure Check where
  label : String
  condition : Expr
  deriving Repr

/-- A foreign key of a table: its columns, by position, and the parent they name. -/
structure ForeignKey where
  columns : List Nat
  parent : String
  parentColumns : List String
  onDelete : KeyAction := .noAction
  onUpdate : KeyAction := .noAction
  deferred : Bool := false
  deriving Repr

/-- The foreign key a `REFERENCES` clause makes of columns. -/
def ForeignKey.ofReferences (columns : List Nat) (target : References) : ForeignKey :=
  { columns := columns, parent := target.table, parentColumns := target.columns,
    onDelete := target.onDelete, onUpdate := target.onUpdate, deferred := target.deferred }

structure TableDef where
  name : String
  columns : List Column
  rowidColumn : Option Nat := none
  /-- How a clash of row ids resolves, as the row id column's key declares. -/
  rowidConflict : Option Conflict := none
  keys : List UniqueKey := []
  checks : List Check := []
  foreignKeys : List ForeignKey := []
  autoincrement : Bool := false
  /-- A table without row ids, whose primary key columns may not be `NULL`. -/
  withoutRowid : Bool := false
  strict : Bool := false
  temp : Bool := false
  sql : String := ""
  deriving Repr

structure Row where
  rowid : Int
  values : List Value
  deriving Repr, Inhabited

structure Table where
  schema : TableDef
  rows : List Row := []
  deriving Repr

/-- An index; a unique index is a key of its table. -/
structure Index where
  name : String
  table : String
  columns : List Expr
  unique : Bool
  /-- The condition of a partial index: only the rows it holds for are in the index. -/
  filter : Option Expr := none
  temp : Bool := false
  sql : String := ""
  deriving Repr

structure Trigger where
  name : String
  table : String
  time : TriggerTime
  event : TriggerEvent
  condition : Option Expr
  body : List Stmt
  temp : Bool := false
  sql : String := ""
  deriving Repr

/-- A view: a named query, and the names it gives the query's columns, if it names them. -/
structure View where
  name : String
  columns : List String := []
  query : Query
  temp : Bool := false
  sql : String := ""
  deriving Repr

/-- A database and the state of the connection to it. -/
structure Database where
  tables : List Table := []
  indexes : List Index := []
  views : List View := []
  triggers : List Trigger := []
  foreignKeys : Bool := false
  /-- Broken deferred foreign keys in the open transaction. -/
  deferredViolations : Int := 0
  /-- Broken immediate foreign keys in the running statement. -/
  statementViolations : Int := 0
  userVersion : Int := 0
  /-- The row id of the row last inserted into a table with row ids. -/
  lastInsertRowid : Int := 0
  /-- The rows the insert, update or delete that finished last wrote. -/
  changes : Int := 0
  /-- The rows all finished inserts, updates and deletes wrote, those of triggers included. -/
  totalChanges : Int := 0
  deriving Repr

instance : Inhabited Database := ⟨{}⟩

namespace TableDef

def columnIndex? (t : TableDef) (name : String) : Option Nat :=
  t.columns.findIdx? (fun c => sameName c.name name)

def column? (t : TableDef) (i : Nat) : Option Column := t.columns[i]?

def isGenerated (t : TableDef) (i : Nat) : Bool :=
  ((t.column? i).bind (·.generated)).isSome

/-- The generated columns of a table, with the expressions they are computed from. -/
def generatedColumns (t : TableDef) : List (Nat × Expr) :=
  t.columns.zipIdx.filterMap fun (c, i) => c.generated.map (i, ·)

/-- The name of the column at a position, qualified by the table, as constraint messages give it. -/
def qualified (t : TableDef) (i : Nat) : String :=
  t.name ++ "." ++ ((t.column? i).map (·.name)).getD "rowid"

/-- The primary key's columns: the row id column, or the columns of the declared key. -/
def primaryColumns (t : TableDef) : List Nat :=
  match t.rowidColumn with
  | some i => [i]
  | none => ((t.keys.find? (·.primary)).map (·.columns)).getD []

end TableDef

/-- Whether a declared type and order make a primary key column the row id. -/
def isRowidType (type : String) : Bool := type.toUpper == "INTEGER"

def columnPosition (columns : List ColumnDef) (name : String) : Option Nat :=
  columns.findIdx? (fun c => sameName c.name name)

/-- A table from its `CREATE TABLE` parts; fails for a column named twice or an unknown key column. -/
def TableDef.build (name : String) (columns : List ColumnDef) (constraints : List TableConstraint)
    (options : TableOptions) (temp : Bool) (sql : String) : Except String TableDef := do
  let withoutRowid := options.withoutRowid
  let names := columns.map (·.name.toLower)
  if let some (c, _) := columns.zipIdx.find? (fun (c, i) => (names.take i).contains c.name.toLower) then
    throw ("duplicate column name: " ++ c.name)
  let position (n : String) : Except String Nat :=
    match columnPosition columns n with
    | some i => pure i
    | none => throw ("no such column: " ++ n)
  let base : List Column := columns.map fun c =>
    let notNull := c.constraints.findSome? fun
      | .notNull conflict => some conflict
      | _ => none
    let default := c.constraints.findSome? fun
      | .default value => some value
      | _ => none
    let collation := (c.constraints.findSome? fun
      | .collate name => some name.toUpper
      | _ => none).getD "BINARY"
    let generated := c.constraints.findSome? fun
      | .generated value _ => some value
      | _ => none
    let strictType := if options.strict then StrictType.ofName? c.type else none
    { name := c.name, type := c.type,
      affinity := (strictType.map StrictType.affinity).getD (Affinity.ofType c.type),
      strictType := strictType, notNull := notNull, default := default, collation := collation,
      generated := generated }
  if options.strict then
    for c in columns do
      if c.type.isEmpty then throw ("missing datatype for " ++ name ++ "." ++ c.name)
      if (StrictType.ofName? c.type).isNone then
        throw ("unknown datatype for " ++ name ++ "." ++ c.name ++ ": \"" ++ c.type ++ "\"")
  -- keys and the row id column, in the order they are written
  let mut rowidColumn : Option Nat := none
  let mut rowidConflict : Option Conflict := none
  let mut keys : List UniqueKey := []
  let mut checks : List Check := []
  let mut foreignKeys : List ForeignKey := []
  let mut autoincrement := false
  let mut primarySeen := false
  for (c, i) in columns.zipIdx do
    let mut hasDefault := false
    let mut isGenerated := false
    let mut isKey := false
    for constraint in c.constraints do
      match constraint with
      | .primaryKey descending conflict auto =>
        if primarySeen then throw ("table \"" ++ name ++ "\" has more than one primary key")
        primarySeen := true
        isKey := true
        if isGenerated then throw "generated columns cannot be part of the PRIMARY KEY"
        if isRowidType c.type ∧ ¬descending then
          rowidColumn := some i
          rowidConflict := conflict
          autoincrement := auto
        else
          if auto then throw "AUTOINCREMENT is only allowed on an INTEGER PRIMARY KEY"
          keys := keys ++ [{ columns := [i], conflict := conflict, primary := true,
                             descending := if descending then [i] else [] }]
      | .unique conflict => keys := keys ++ [{ columns := [i], conflict := conflict }]
      | .check label condition => checks := checks ++ [{ label := label, condition := condition }]
      | .references target =>
        foreignKeys := foreignKeys ++ [ForeignKey.ofReferences [i] target]
      | .default _ =>
        if isGenerated then throw "cannot use DEFAULT on a generated column"
        hasDefault := true
      | .generated _ _ =>
        if hasDefault then throw ("error in generated column \"" ++ c.name ++ "\"")
        isGenerated := true
        if isKey then throw "generated columns cannot be part of the PRIMARY KEY"
      | _ => pure ()
  for constraint in constraints do
    match constraint with
    | .primaryKey keyColumns conflict auto =>
      if primarySeen then throw ("table \"" ++ name ++ "\" has more than one primary key")
      primarySeen := true
      if keyColumns.any fun n => ((columnPosition columns n).bind fun i =>
          (base[i]?).bind (·.generated)).isSome then
        throw "generated columns cannot be part of the PRIMARY KEY"
      let positions ← keyColumns.mapM position
      match positions with
      | [i] =>
        if isRowidType ((columns[i]?.map (·.type)).getD "") then
          rowidColumn := some i
          rowidConflict := conflict
          autoincrement := auto
        else
          if auto then throw "AUTOINCREMENT is only allowed on an INTEGER PRIMARY KEY"
          keys := keys ++ [{ columns := [i], conflict := conflict, primary := true }]
      | _ =>
        if auto then throw "AUTOINCREMENT is only allowed on an INTEGER PRIMARY KEY"
        keys := keys ++ [{ columns := positions, conflict := conflict, primary := true }]
    | .unique keyColumns conflict =>
      let positions ← keyColumns.mapM position
      keys := keys ++ [{ columns := positions, conflict := conflict }]
    | .check label condition => checks := checks ++ [{ label := label, condition := condition }]
    | .foreignKey keyColumns target =>
      let positions ← keyColumns.mapM position
      foreignKeys := foreignKeys ++ [ForeignKey.ofReferences positions target]
  if autoincrement ∧ withoutRowid then
    throw "AUTOINCREMENT not allowed on WITHOUT ROWID tables"
  if withoutRowid ∧ !primarySeen then throw ("PRIMARY KEY missing on table " ++ name)
  if base.all (·.generated.isSome) then throw "must have at least one non-generated column"
  let primary := ((keys.find? (·.primary)).map (·.columns)).getD rowidColumn.toList
  let base := if withoutRowid then
      base.zipIdx.map fun (c, i) =>
        if i ∈ primary ∧ c.notNull.isNone then { c with notNull := some none } else c
    else base
  pure { name := name, columns := base, rowidColumn := if withoutRowid then none else rowidColumn,
         rowidConflict := rowidConflict,
         keys := if withoutRowid ∧ rowidColumn.isSome then
           keys ++ (rowidColumn.toList.map fun i => { columns := [i], primary := true })
           else keys,
         checks := checks, foreignKeys := foreignKeys, autoincrement := autoincrement,
         withoutRowid := withoutRowid, strict := options.strict, temp := temp, sql := sql }

namespace Database

def table? (db : Database) (name : String) : Option Table :=
  db.tables.find? (fun t => sameName t.schema.name name)

def setTable (db : Database) (table : Table) : Database :=
  { db with tables := db.tables.map fun t =>
      if sameName t.schema.name table.schema.name then table else t }

def uniqueIndexes (db : Database) (table : String) : List Index :=
  db.indexes.filter fun i => i.unique && sameName i.table table

def triggersOn (db : Database) (table : String) : List Trigger :=
  db.triggers.filter fun t => sameName t.table table

def hasObject (db : Database) (name : String) : Bool :=
  db.tables.any (fun t => sameName t.schema.name name) ||
  db.indexes.any (fun i => sameName i.name name) ||
  db.views.any (fun v => sameName v.name name) ||
  db.triggers.any (fun t => sameName t.name name)

/-- The names of the tables that are kept with the database, in the order they were made. -/
def tableNames (db : Database) : List String :=
  (db.tables.filter fun t => !t.schema.temp).map (·.schema.name)

/-- Drops what lives only as long as a connection: temporary objects and settings. -/
def disconnect (db : Database) : Database :=
  { tables := db.tables.filter (fun t => !t.schema.temp),
    indexes := db.indexes.filter (fun i => !i.temp),
    views := db.views.filter (fun v => !v.temp),
    triggers := db.triggers.filter (fun t => !t.temp),
    userVersion := db.userVersion }

end Database

/-- Inserts a row into rows kept in order of row id. -/
def insertByRowid (row : Row) : List Row → List Row
  | [] => [row]
  | r :: rest => if row.rowid < r.rowid then row :: r :: rest else r :: insertByRowid row rest

end Sql
end TreeHistory
