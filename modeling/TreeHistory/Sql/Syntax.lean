import TreeHistory.Sql.Value

/-!
# The syntax of SQL statements

Statements as the parser builds them, names as written. Integer literals keep their text, since
`-9223372036854775808` is an integer while `9223372036854775808` is not.
-/

namespace TreeHistory
namespace Sql

/-- Prefix operators. -/
inductive UnaryOp where
  | neg
  | pos
  | bitNot
  | not
  deriving DecidableEq, Repr

/-- Infix operators. -/
inductive BinaryOp where
  | or
  | and
  | eq
  | ne
  | lt
  | le
  | gt
  | ge
  | is
  | isNot
  | concat
  | arith (op : ArithOp)
  | bit (op : BitOp)
  deriving DecidableEq, Repr

/-- Pattern operators. -/
inductive PatternOp where
  | like
  | glob
  deriving DecidableEq, Repr

/-- What `RAISE` does. -/
inductive RaiseAction where
  | ignore
  | rollback
  | abort
  | fail
  deriving DecidableEq, Repr

/-- How a compound query combines its parts. -/
inductive CompoundOp where
  | union
  | unionAll
  | intersect
  | except
  deriving DecidableEq, Repr

/-- How two sources are joined: inner, left, right or full. -/
inductive JoinKind where
  | inner
  | left
  | cross
  | right
  | full
  deriving DecidableEq, Repr

def JoinKind.keepsRight : JoinKind → Bool
  | .right | .full => true
  | _ => false

def JoinKind.keepsLeft : JoinKind → Bool
  | .left | .full => true
  | _ => false

/-- What a window frame counts in: rows, values of the one order term, or groups of peers. -/
inductive FrameUnit where
  | rows
  | range
  | groups
  deriving DecidableEq, Repr

/-- Where a frame starts or ends, in the order its ends may follow one another. -/
inductive BoundKind where
  | unboundedPreceding
  | preceding
  | currentRow
  | following
  | unboundedFollowing
  deriving DecidableEq, Repr

/-- The rows `EXCLUDE` leaves out of a frame; `unstated`, with no clause, leaves out nothing. -/
inductive FrameExclusion where
  | unstated
  | noOthers
  | currentRow
  | group
  | ties
  deriving DecidableEq, Repr

mutual

inductive Expr where
  | literal (value : Value)
  | integer (text : String)
  | float (text : String)
  | param (index : Nat)
  /-- A column and its qualifier; a double-quoted name (`quoted`) with no column is a string. -/
  | column (table : Option String) (name : String) (quoted : Bool)
  | unary (op : UnaryOp) (operand : Expr)
  | binary (op : BinaryOp) (left right : Expr)
  | isNull (operand : Expr) (negated : Bool)
  | between (operand low high : Expr) (negated : Bool)
  | inList (operand : Expr) (items : List Expr) (negated : Bool)
  | inQuery (operand : Expr) (query : Query) (negated : Bool)
  | pattern (op : PatternOp) (operand pattern : Expr) (escape : Option Expr) (negated : Bool)
  | case (operand : Option Expr) (branches : List (Expr × Expr)) (otherwise : Option Expr)
  | cast (operand : Expr) (type : String)
  | call (name : String) (args : List Expr) (distinct : Bool) (star : Bool)
  | collate (operand : Expr) (collation : String)
  | raise (action : RaiseAction) (message : String)
  | subquery (query : Query)
  | exists (query : Query)
  | row (items : List Expr)
  /-- Column `index` of the first row of a subquery, `NULL` when it has none. -/
  | field (query : Query) (index width : Nat)
  | clauses (call : Expr) (condition : Option Expr) (orderBy : List (Expr × Bool × Option Bool))
  /-- A call with an `OVER` clause; `id` tells it from the other windows of its statement. -/
  | window (id : Nat) (name : String) (args : List Expr) (star : Bool) (filter : Option Expr)
      (overClause : Window)

structure FrameBound where
  kind : BoundKind
  offset : Option Expr

structure WindowFrame where
  unit : FrameUnit
  start : FrameBound
  finish : FrameBound
  exclude : FrameExclusion
  implicit : Bool

structure Window where
  name : Option String
  base : Option String
  partitionBy : List Expr
  orderBy : List (Expr × Bool × Option Bool)
  frame : WindowFrame

inductive Query where
  | select (distinct : Bool) (columns : List ResultColumn) (source : Option Source)
      (filter : Option Expr) (groupBy : List Expr) (having : Option Expr)
      (windows : List (String × Window))
  | values (rows : List (List Expr))
  | compound (op : CompoundOp) (left right : Query)
  /-- A query with its order and limits: each term descending or not, `NULL` first or last. -/
  | ordered (body : Query) (orderBy : List (Expr × Bool × Option Bool)) (limit offset : Option Expr)

/-- A column of a query's result. -/
inductive ResultColumn where
  | all
  | allOf (table : String)
  | expr (value : Expr) (aliasName : Option String) (text : String)

/-- Where a query's rows come from. -/
inductive Source where
  | table (name : String) (aliasName : Option String)
  | query (query : Query) (aliasName : Option String)
  | join (kind : JoinKind) (natural : Bool) (left right : Source) (on : Option Expr)
      (usingColumns : List String)
  /-- A common table of a `WITH` clause, with the names it gives its columns (none: its query's). -/
  | common (name : String) (columns : List String) (query : Query) (aliasName : Option String)
  /-- A common table whose query reads the table itself. -/
  | recursive (name : String) (columns : List String) (query : Query) (aliasName : Option String)
  /-- Where a recursive select reads its own table: the row being expanded; `setup` gives columns. -/
  | working (name : String) (columns : List String) (setup : Query) (aliasName : Option String)

end

deriving instance Repr for Expr, FrameBound, WindowFrame, Window, Query, ResultColumn, Source

instance : Inhabited Expr := ⟨.literal .null⟩

def Window.mapTerms (f : Expr → Expr) (w : Window) : Window :=
  { w with
    partitionBy := w.partitionBy.map f
    orderBy := w.orderBy.map fun (e, d, n) => (f e, d, n)
    frame := { w.frame with
      start := { w.frame.start with offset := w.frame.start.offset.map f }
      finish := { w.frame.finish with offset := w.frame.finish.offset.map f } } }
instance : Inhabited Query := ⟨.values []⟩

/-- How a statement resolves a broken constraint. -/
inductive Conflict where
  | rollback
  | abort
  | fail
  | ignore
  | replace
  deriving DecidableEq, Repr

/-- What a foreign key does when its parent row goes or changes. -/
inductive KeyAction where
  | noAction
  | restrict
  | setNull
  | setDefault
  | cascade
  deriving DecidableEq, Repr

structure References where
  table : String
  columns : List String
  onDelete : KeyAction := .noAction
  onUpdate : KeyAction := .noAction
  deferred : Bool := false
  deriving Repr

/-- A constraint written on a column. -/
inductive ColumnConstraint where
  | primaryKey (descending : Bool) (conflict : Option Conflict) (autoincrement : Bool)
  | notNull (conflict : Option Conflict)
  | unique (conflict : Option Conflict)
  | check (label : String) (condition : Expr)
  | default (value : Expr)
  | collate (name : String)
  | references (target : References)
  | generated (value : Expr) (stored : Bool)
  deriving Repr

structure ColumnDef where
  name : String
  type : String
  constraints : List ColumnConstraint
  deriving Repr

/-- A constraint written after the columns. -/
inductive TableConstraint where
  | primaryKey (columns : List String) (conflict : Option Conflict) (autoincrement : Bool)
  | unique (columns : List String) (conflict : Option Conflict)
  | check (label : String) (condition : Expr)
  | foreignKey (columns : List String) (target : References)
  deriving Repr

/-- What an `ON CONFLICT` clause of an insert does. -/
inductive UpsertAction where
  | nothing
  | update (assignments : List (String × Expr)) (filter : Option Expr)
  deriving Repr

structure Upsert where
  target : Option (List String)
  action : UpsertAction
  deriving Repr

/-- Where the rows of an insert come from. -/
inductive InsertSource where
  | query (query : Query)
  | defaults
  deriving Repr

/-- When a trigger fires. -/
inductive TriggerTime where
  | before
  | after
  | insteadOf
  deriving DecidableEq, Repr

/-- What fires a trigger; an update trigger may name the columns it watches. -/
inductive TriggerEvent where
  | insert
  | delete
  | update (columns : Option (List String))
  deriving DecidableEq, Repr

/-- The kinds of schema objects. -/
inductive ObjectKind where
  | table
  | index
  | view
  | trigger
  deriving DecidableEq, Repr

/-- The options written after the columns of a table. -/
structure TableOptions where
  /-- `WITHOUT ROWID`: kept in primary key order, with no row ids. -/
  withoutRowid : Bool := false
  /-- `STRICT`: each column has a strict type its values must have. -/
  strict : Bool := false
  deriving Repr

/-- A statement; `sql` fields hold the text of a `CREATE`. -/
inductive Stmt where
  | createTable (temp ifNotExists : Bool) (name : String) (columns : List ColumnDef)
      (constraints : List TableConstraint) (options : TableOptions) (sql : String)
  | createTableAs (temp ifNotExists : Bool) (name : String) (query : Query) (sql : String)
  | createIndex (unique ifNotExists : Bool) (name table : String) (columns : List Expr)
      (filter : Option Expr) (sql : String)
  | createView (temp ifNotExists : Bool) (name : String) (columns : List String) (query : Query)
      (sql : String)
  | createTrigger (temp ifNotExists : Bool) (name : String) (time : TriggerTime)
      (event : TriggerEvent) (table : String) (condition : Option Expr) (body : List Stmt)
      (sql : String)
  | drop (kind : ObjectKind) (ifExists : Bool) (name : String)
  | renameTable (table newName : String)
  | renameColumn (table old new : String)
  | addColumn (table : String) (column : ColumnDef)
  | dropColumn (table column : String)
  | insert (conflict : Option Conflict) (table : String) (columns : Option (List String))
      (source : InsertSource) (upserts : List Upsert)
  | update (conflict : Option Conflict) (table : String) (assignments : List (String × Expr))
      (filter : Option Expr)
  | delete (table : String) (filter : Option Expr)
  | select (query : Query)
  | pragma (name : String) (value : Option Expr)
  | begin
  | commit
  | rollback
  /-- `SAVEPOINT name`: marks the database, opening a transaction if none is open. -/
  | savepoint (name : String)
  /-- `RELEASE name`: drops a mark and the ones after it. -/
  | release (name : String)
  /-- `ROLLBACK TO name`: goes back to a mark, keeping it. -/
  | rollbackTo (name : String)
  /-- A statement with no effect on rows: `ANALYZE`, `VACUUM`, `REINDEX` and the like. -/
  | noop
  deriving Repr

instance : Inhabited Stmt := ⟨.noop⟩

end Sql
end TreeHistory
