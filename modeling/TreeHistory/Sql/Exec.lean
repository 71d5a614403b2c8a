import TreeHistory.Sql.Eval

/-!
# Changing rows

`INSERT`, `UPDATE` and `DELETE`, row by row, with everything a write sets off: `BEFORE` triggers;
`NOT NULL`, `CHECK` and uniqueness constraints; foreign keys; the write; `AFTER` triggers. A broken
constraint resolves by the statement's `OR` clause, else the constraint's `ON CONFLICT`, else by
aborting. Enforced foreign keys are counted: a statement fails when its own count is left above
zero, a commit when the transaction's is.
-/

namespace TreeHistory
namespace Sql

/-- A statement's work: it changes the database and may fail, keeping the changes made before. -/
abbrev Exec := ExceptT Failure (StateM Database)

/-- An evaluation as a step of a statement. -/
def liftEval {α : Type} : Eval α → Exec α
  | .ok a => pure a
  | .error f => throw f

/-- What a statement runs with. -/
structure Context where
  params : Array Value := #[]
  /-- The `NEW` and `OLD` rows of the trigger the statement is part of. -/
  scope : List Frame := []
  inTrigger : Bool := false
  /-- The triggers running, which do not fire again. -/
  active : List String := []
  /-- The `OR` clause of the outermost statement, which overrides those of trigger statements. -/
  override : Option Conflict := none

/-- The environment a context evaluates in. -/
def Context.env (ctx : Context) (db : Database) : Env :=
  { db := db, params := ctx.params, scopes := if ctx.scope.isEmpty then [] else [ctx.scope],
    inTrigger := ctx.inTrigger }

/-- Evaluates an expression on some frames. -/
def evalOn (ctx : Context) (frames : List Frame) (e : Expr) : Exec Value := do
  let db ← get
  liftEval (eval defaultFuel ((ctx.env db).push frames) e)

/-- Evaluates an expression over a row, with an upsert's would-be row seen as `excluded`. -/
def evalBeside (ctx : Context) (row aside : Frame) (e : Expr) : Exec Value := do
  let db ← get
  liftEval (eval defaultFuel (((ctx.env db).push [aside]).push [row]) e)

/-- Checks the names of an expression against some frames' shapes. -/
def checkOn (ctx : Context) (shapes : List Shape) (e : Expr) : Exec Unit := do
  let db ← get
  liftEval (abortWith (checkExpr (shapes :: (ctx.env db).shapes) defaultFuel e))

/-- The table a statement writes. -/
def tableFor (ctx : Context) (name : String) : Exec Table := do
  let db ← get
  match db.table? name with
  | some t => pure t
  | none =>
    if db.views.any (fun v => sameName v.name name) then
      throw (.abort ("cannot modify " ++ name ++ " because it is a view"))
    else throw (.abort ("no such table: " ++ (if ctx.inTrigger then "main." else "") ++ name))

/-- A row of a table as a frame under a name. -/
def TableDef.frameOf (td : TableDef) (name : String) (rowid : Int) (values : List Value) : Frame :=
  { shape := { name := name, columns := td.columns, hasRowid := !td.withoutRowid },
    values := values, rowid := rowid }

/-- A stored row as a frame under its table's name. -/
def TableDef.rowFrame (td : TableDef) (row : Row) : Frame := td.frameOf td.name row.rowid row.values

/-- The row with a row id. -/
def Table.row? (t : Table) (rowid : Int) : Option Row := t.rows.find? (·.rowid == rowid)

/-- The row id a new row gets: one more than the largest, or at the largest the smallest free one. -/
def Table.nextRowid (t : Table) : Int :=
  match t.rows.getLast? with
  | none => 1
  | some last =>
    if last.rowid < Double.maxInt then max (last.rowid + 1) 1
    else
      let used := t.rows.map (·.rowid)
      let free : Option Nat := (List.range (used.length + 1)).find? fun k =>
        !used.contains ((k : Int) + 1)
      ((free.getD 0 : Nat) : Int) + 1

/-- Changes a table by a function. -/
def modifyTable (name : String) (f : Table → Table) : Exec Unit :=
  modify fun db => match db.table? name with
    | some t => db.setTable (f t)
    | none => db

/-- Removes the row with a row id. -/
def removeRow (name : String) (rowid : Int) : Exec Unit :=
  modifyTable name fun t => { t with rows := t.rows.filter (·.rowid != rowid) }

/-- Writes a row in its place by row id. -/
def putRow (name : String) (row : Row) : Exec Unit :=
  modifyTable name fun t => { t with rows := insertByRowid row (t.rows.filter (·.rowid != row.rowid)) }

/-- How a broken constraint resolves. -/
def resolution (override own : Option Conflict) : Conflict :=
  (override.orElse fun _ => own).getD .abort

/-- Fails a statement as a resolution says; `IGNORE` passes over the row. -/
def breakWith {α : Type} (c : Conflict) (message : String) : Exec α :=
  match c with
  | .rollback => throw (.rollback message)
  | .fail => throw (.fail message)
  | .ignore => throw .ignore
  | _ => throw (.abort message)

/-- Replaces the value at a position. -/
def setAt (values : List Value) (i : Option Nat) (v : Value) : List Value :=
  match i with
  | some i => values.set i v
  | none => values

/-- The message for an update that assigns a generated column. -/
def generatedUpdate (td : TableDef) (i : Nat) : String :=
  "cannot UPDATE generated column \"" ++ ((td.column? i).map (·.name)).getD "" ++ "\""

/-- Computes the generated columns of a row, in as many rounds as there are such columns. -/
def computeGenerated (ctx : Context) (td : TableDef) (rowid : Int) (values : List Value) :
    Exec (List Value) := do
  let generated := td.generatedColumns
  let mut values := values
  for _ in generated do
    for (i, e) in generated do
      let v ← evalOn ctx [td.frameOf td.name rowid values] e
      values := values.set i (v.applyAffinity (((td.column? i).map (·.affinity)).getD .blob))
  pure values

/-- One part of a key: a column under a collation, or an expression of an index. -/
inductive KeyPart where
  | column (index : Nat) (collation : String)
  | expr (e : Expr) (collation : String)
  deriving Repr

/-- A key no two rows may share. -/
structure KeyCheck where
  parts : List KeyPart
  conflict : Option Conflict := none
  /-- What a clash reports after `UNIQUE constraint failed: `. -/
  label : String
  /-- The rows a partial index covers. -/
  filter : Option Expr := none
  deriving Repr

/-- The columns of a key made of columns only. -/
def KeyCheck.columns (k : KeyCheck) : Option (List Nat) :=
  k.parts.mapM fun
    | .column i _ => some i
    | .expr .. => none

/-- The collations of a key's parts. -/
def KeyCheck.collations (k : KeyCheck) : List String :=
  k.parts.map fun
    | .column _ c => c
    | .expr _ c => c

/-- The label of a key of columns: the qualified names, joined by commas. -/
def columnsLabel (td : TableDef) (columns : List Nat) : String :=
  ", ".intercalate (columns.map td.qualified)

/-- A key of the table's own definition. -/
def TableDef.keyCheck (td : TableDef) (k : UniqueKey) : KeyCheck :=
  { parts := k.columns.map fun i => .column i ((td.column? i).map (·.collation) |>.getD "BINARY"),
    conflict := k.conflict, label := columnsLabel td k.columns }

/-- The key a unique index makes. -/
def TableDef.indexCheck (td : TableDef) (index : Index) : KeyCheck :=
  let parts := index.columns.map fun e =>
    let (bare, collation) := match e with
      | .collate x c => (x, some c.toUpper)
      | _ => (e, none)
    match bare with
    | .column none n _ =>
      match td.columnIndex? n with
      | some i =>
        KeyPart.column i (collation.getD ((td.column? i).map (·.collation) |>.getD "BINARY"))
      | none => .expr bare (collation.getD "BINARY")
    | _ => .expr bare (collation.getD "BINARY")
  let check : KeyCheck := { parts := parts, label := "", filter := index.filter }
  { check with
    label := match check.columns with
      | some cols => columnsLabel td cols
      | none => "index '" ++ index.name ++ "'" }

/-- The keys of a table in the order a write checks them: the newest first. -/
def Database.keyChecks (db : Database) (td : TableDef) : List KeyCheck :=
  (td.keys.map td.keyCheck ++ (db.uniqueIndexes td.name).map td.indexCheck).reverse

/-- The values a row has for a key, or `none` when a value is `NULL` or a partial index leaves the
row out. -/
def keyValues (ctx : Context) (frame : Frame) (k : KeyCheck) : Exec (Option (List Value)) := do
  let inside ← match k.filter with
    | some f => do pure ((← evalOn ctx [frame] f).truth? == some true)
    | none => pure true
  if !inside then return none
  let vs ← k.parts.mapM fun
    | .column i _ => pure ((frame.values[i]?).getD .null)
    | .expr e _ => evalOn ctx [frame] e
  pure (if vs.any Value.isNull then none else some vs)

/-- The first other row that has the same values for a key. -/
def clashOf (ctx : Context) (td : TableDef) (rows : List Row) (k : KeyCheck) (values : List Value)
    (self : Option Int) : Exec (Option Row) :=
  rows.findM? fun row => do
    if some row.rowid == self then pure false
    else match ← keyValues ctx (td.rowFrame row) k with
      | some other =>
        pure ((List.zip (List.zip k.collations values) other).all fun ((c, a), b) =>
          compareWith c a b == .eq)
      | none => pure false

/-- What a write checks for uniqueness: the row id, or a key. -/
inductive Uniqueness where
  | rowid
  | key (check : KeyCheck)
  deriving Repr

/-- Whether an upsert's target names a uniqueness check. -/
def targets (td : TableDef) (target : List String) : Uniqueness → Bool
  | .rowid =>
    match target with
    | [n] => isRowidName n || (td.rowidColumn.bind td.column?).any (sameName ·.name n)
    | _ => false
  | .key k =>
    match k.columns, target.mapM td.columnIndex? with
    | some cols, some named =>
      cols.length == named.length && cols.all named.contains && named.all cols.contains
    | _, _ => false

/-- The upsert clause that handles a clash: the first naming the check or having no target. -/
def upsertFor (td : TableDef) (upserts : List Upsert) (u : Uniqueness) : Option Upsert :=
  upserts.find? fun clause => match clause.target with
    | none => true
    | some target => targets td target u

/-- The order of a write's uniqueness checks: row id, keys newest first, the upsert's key first. -/
def uniquenessOrder (db : Database) (td : TableDef) (upserts : List Upsert) : List Uniqueness :=
  let keys := (db.keyChecks td).map Uniqueness.key
  let all := Uniqueness.rowid :: keys
  match upserts.head?.bind (·.target) with
  | some target =>
    match keys.find? (targets td target) with
    | some first =>
      first :: all.filter fun u => match u, first with
        | .key k, .key f => k.label != f.label
        | _, _ => true
    | none => all
  | none => all

/-- The foreign keys that name a table as their parent, with their child tables. -/
def Database.referencing (db : Database) (parent : String) : List (TableDef × ForeignKey) :=
  db.tables.flatMap fun t =>
    (t.schema.foreignKeys.filter fun fk => sameName fk.parent parent).map (t.schema, ·)

/-- The unique column sets of a table: its keys and unique indexes of plain columns. -/
def Database.uniqueSets (db : Database) (td : TableDef) : List (List Nat) :=
  td.keys.map (·.columns) ++ ((db.uniqueIndexes td.name).filterMap fun i =>
    if i.filter.isSome then none else (td.indexCheck i).columns)

/-- Where a foreign key's parent key is: `none` for the parent's row id, or its columns. -/
def parentKey (db : Database) (child parent : TableDef) (fk : ForeignKey) :
    Except String (Option (List Nat)) :=
  let mismatch := "foreign key mismatch - \"" ++ child.name ++ "\" referencing \"" ++
    parent.name ++ "\""
  if fk.parentColumns.isEmpty then
    match parent.rowidColumn with
    | some _ => if fk.columns.length = 1 then .ok none else .error mismatch
    | none =>
      match parent.keys.find? (·.primary) with
      | some k => if k.columns.length = fk.columns.length then .ok (some k.columns) else .error mismatch
      | none => .error mismatch
  else
    match fk.parentColumns.mapM parent.columnIndex? with
    | none => .error mismatch
    | some cols =>
      if cols.length ≠ fk.columns.length then .error mismatch
      else if cols.length = 1 ∧ parent.rowidColumn.isSome ∧ cols.head? = parent.rowidColumn then
        .ok none
      else if (db.uniqueSets parent).any fun set =>
          set.length = cols.length ∧ set.all cols.contains ∧ cols.all set.contains then
        .ok (some cols)
      else .error mismatch

/-- The values of a row's parent key. -/
def parentValues (key : Option (List Nat)) (row : Row) : List Value :=
  match key with
  | none => [.int row.rowid]
  | some cols => cols.map fun i => (row.values[i]?).getD .null

/-- Whether a parent table has a row with a key, under the parent columns' affinity and collation. -/
def hasParent (parent : Table) (key : Option (List Nat)) (values : List Value) : Bool :=
  match key with
  | none =>
    match values with
    | [v] =>
      match v.applyAffinity .integer with
      | .int n => parent.rows.any (·.rowid == n)
      | _ => false
    | _ => false
  | some cols =>
    parent.rows.any fun row =>
      (List.zip cols values).all fun (i, v) =>
        let column := parent.schema.column? i
        let v := v.applyAffinity ((column.map (·.affinity)).getD .blob)
        compareWith ((column.map (·.collation)).getD "BINARY") v ((row.values[i]?).getD .null) == .eq

/-- The rows of a child table whose foreign key holds some parent key values. -/
def childRows (child : Table) (fk : ForeignKey) (values : List Value) : List Row :=
  child.rows.filter fun row =>
    (List.zip fk.columns values).all fun (i, v) =>
      let mine := (row.values[i]?).getD .null
      let v := v.applyAffinity (((child.schema.column? i).map (·.affinity)).getD .blob)
      !mine.isNull && compareWith "BINARY" mine v == .eq

/-- The count a foreign key's breaks go to. -/
def violations (fk : ForeignKey) : Exec Int := do
  let db ← get
  pure (if fk.deferred then db.deferredViolations else db.statementViolations)

/-- Adds to the count a foreign key's breaks go to. -/
def countViolation (fk : ForeignKey) (delta : Int) : Exec Unit :=
  modify fun db =>
    if fk.deferred then { db with deferredViolations := db.deferredViolations + delta }
    else { db with statementViolations := db.statementViolations + delta }

/-- The parent key of a foreign key, or the failure of a key that names no unique columns. -/
def parentKeyOf (db : Database) (child parent : TableDef) (fk : ForeignKey) :
    Exec (Option (List Nat)) :=
  liftEval (abortWith (parentKey db child parent fk))

/-- A child row gains a key: when no parent has it, the count goes up. -/
def childGains (td : TableDef) (rowid : Int) (values : List Value) (fk : ForeignKey) :
    Exec Unit := do
  let keyValues := fk.columns.map fun i => (values[i]?).getD .null
  if keyValues.any Value.isNull then return
  let db ← get
  match db.table? fk.parent with
  | none => countViolation fk 1
  | some parent =>
    let key ← parentKeyOf db td parent.schema fk
    let selfParent := sameName parent.schema.name td.name &&
      hasParent { parent with rows := [{ rowid := rowid, values := values }] } key keyValues
    if !hasParent parent key keyValues && !selfParent then countViolation fk 1

/-- A child row loses a key: when the count is not zero and no parent has it, it goes down. -/
def childLoses (td : TableDef) (values : List Value) (fk : ForeignKey) : Exec Unit := do
  let keyValues := fk.columns.map fun i => (values[i]?).getD .null
  if keyValues.any Value.isNull then return
  if (← violations fk) == 0 then return
  let db ← get
  match db.table? fk.parent with
  | none => countViolation fk (-1)
  | some parent =>
    let key ← parentKeyOf db td parent.schema fk
    if !hasParent parent key keyValues then countViolation fk (-1)

/-- A parent row gains a key: the children that lacked it are taken off the count. -/
def parentGains (td : TableDef) (row : Row) : Exec Unit := do
  let db ← get
  for (childDef, fk) in db.referencing td.name do
    if (← violations fk) == 0 then continue
    let key ← parentKeyOf db childDef td fk
    match db.table? childDef.name with
    | some child => countViolation fk (-((childRows child fk (parentValues key row)).length : Int))
    | none => pure ()

/-- A parent row loses a key: its children are counted; a `RESTRICT` key fails at once. -/
def parentLoses (td : TableDef) (row : Row) (updating : Bool) : Exec Unit := do
  let db ← get
  for (childDef, fk) in db.referencing td.name do
    let key ← parentKeyOf db childDef td fk
    match db.table? childDef.name with
    | some child =>
      let orphans := childRows child fk (parentValues key row)
      if orphans.isEmpty then continue
      let action := if updating then fk.onUpdate else fk.onDelete
      if action == .restrict then throw (.abort "FOREIGN KEY constraint failed")
      countViolation fk orphans.length
    | none => pure ()

/-- Which statement fires a trigger. -/
inductive EventKind where
  | insert
  | delete
  | update
  deriving DecidableEq, Repr

/-- Whether a trigger fires at a time for an event that changed some columns. -/
def Trigger.fires (t : Trigger) (time : TriggerTime) (kind : EventKind) (changed : List String) :
    Bool :=
  t.time == time && match t.event, kind with
    | .insert, .insert | .delete, .delete => true
    | .update none, .update => true
    | .update (some cols), .update => cols.any fun c => changed.any (sameName c)
    | _, _ => false

/-- Checks that the columns of a strict table can hold a row's values. -/
def TableDef.checkTypes (td : TableDef) (values : List Value) : Exec Unit := do
  if !td.strict then return
  for (c, i) in td.columns.zipIdx do
    if let some t := c.strictType then
      let v := (values[i]?).getD .null
      if some i != td.rowidColumn && !t.admits v then
        throw (.abort ("cannot store " ++ v.className ++ " value in " ++ t.name ++ " column " ++
          td.qualified i))

/-- Whether a table has triggers that fire at a time for an event that changes some columns. -/
def Database.hasTriggers (db : Database) (table : String) (time : TriggerTime) (kind : EventKind)
    (changed : List String) : Bool :=
  (db.triggersOn table).any (·.fires time kind changed)

/-- A frame renamed, as `NEW` or `OLD`: reached only by that name, and untyped. -/
def Frame.named (f : Frame) (name : String) : Frame :=
  { f with shape := { f.shape with name := name, qualifiedOnly := true, untyped := true } }

/-- Whether an expression refers to a column of some name, outside any subquery. -/
def mentions (name : String) : Nat → Expr → Bool
  | 0, _ => false
  | fuel + 1, e =>
    match e with
    | .column _ n _ => sameName n name
    | .unary _ x | .isNull x _ | .cast x _ | .collate x _ | .inQuery x _ _ => mentions name fuel x
    | .binary _ l r => mentions name fuel l || mentions name fuel r
    | .between x l h _ => mentions name fuel x || mentions name fuel l || mentions name fuel h
    | .inList x items _ => mentions name fuel x || items.any (mentions name fuel)
    | .pattern _ x p esc _ =>
      mentions name fuel x || mentions name fuel p || (esc.map (mentions name fuel)).getD false
    | .case base branches otherwise =>
      (base.map (mentions name fuel)).getD false ||
      branches.any (fun (w, t) => mentions name fuel w || mentions name fuel t) ||
      (otherwise.map (mentions name fuel)).getD false
    | .call _ args _ _ | .row args => args.any (mentions name fuel)
    | _ => false

/-- The generated columns whose values may change when some columns change. -/
def TableDef.generatedChanges (td : TableDef) (changed : List String) : List String := Id.run do
  let mut names := changed
  for _ in td.generatedColumns do
    for (i, e) in td.generatedColumns do
      if let some c := td.column? i then
        if !names.any (sameName · c.name) && names.any (mentions · defaultFuel e) then
          names := names ++ [c.name]
  pure (names.drop changed.length)

/-- Whether a statement inserts, updates or deletes rows. -/
def Stmt.writes : Stmt → Bool
  | .insert .. | .update .. | .delete .. => true
  | _ => false

/-- The database after a write finished having written some rows. -/
def Database.counted (db : Database) (n : Nat) : Database :=
  { db with changes := n, totalChanges := db.totalChanges + n }

/-- Passes over a row when it is ignored. -/
def orSkip (step : Exec Nat) : Exec Nat :=
  tryCatch step fun
    | .ignore => pure 0
    | other => throw other

mutual

/-- Runs a statement that reads or writes rows, and gives the number of rows it wrote. -/
def runStmt : Nat → Context → Stmt → Exec Nat
  | 0, _, _ => throw (.abort "too many levels of trigger recursion")
  | fuel + 1, ctx, stmt =>
    match stmt with
    | .insert conflict table columns source upserts =>
      insertStmt fuel ctx conflict table columns source upserts
    | .update conflict table assignments filter =>
      updateStmt fuel ctx conflict table assignments filter
    | .delete table filter => deleteStmt fuel ctx table filter
    | .select q => do
      let _ ← liftEval (runQuery defaultFuel (ctx.env (← get)) q)
      pure 0
    | _ => pure 0

/-- `INSERT`: checks the columns and the upsert targets, computes the rows, and writes each. -/
def insertStmt : Nat → Context → Option Conflict → String → Option (List String) →
    InsertSource → List Upsert → Exec Nat
  | 0, _, _, _, _, _, _ => throw (.abort "too many levels of trigger recursion")
  | fuel + 1, ctx, conflict, tableName, columns, source, upserts => do
    let table ← tableFor ctx tableName
    let td := table.schema
    let slots : List (Option Nat) ← match columns with
      | some names => names.mapM fun n =>
        match td.columnIndex? n with
        | some i =>
          if td.isGenerated i then
            throw (.abort ("cannot INSERT into generated column \"" ++
              ((td.column? i).map (·.name)).getD n ++ "\""))
          else pure (some i)
        | none =>
          if isRowidName n ∧ !td.withoutRowid then pure none
          else throw (.abort ("table " ++ td.name ++ " has no column named " ++ n))
      | none => pure (((List.range td.columns.length).filter fun i => !td.isGenerated i).map some)
    let db ← get
    for clause in upserts do
      if let some target := clause.target then
        if !(Uniqueness.rowid :: (db.keyChecks td).map .key).any (targets td target) then
          throw (.abort "ON CONFLICT clause does not match any PRIMARY KEY or UNIQUE constraint")
    let rows ← match source with
      | .defaults => pure [[]]
      | .query q => do
        let rel ← liftEval (runQuery defaultFuel (ctx.env db) q)
        let width := rel.columns.length
        if width ≠ slots.length then
          match columns with
          | some _ =>
            throw (.abort (toString width ++ " values for " ++ toString slots.length ++ " columns"))
          | none =>
            throw (.abort ("table " ++ td.name ++ " has " ++ toString slots.length ++
              " columns but " ++ toString width ++ " values were supplied"))
        pure rel.rows
    let slots := match source with
      | .defaults => []
      | .query _ => slots
    rows.foldlM (fun count row => do
      let given ← td.columns.zipIdx.mapM fun (c, i) =>
        match slots.findIdx? (· == some i) with
        | some p => pure ((row[p]?).getD .null)
        | none =>
          match c.default with
          | some d => evalOn ctx [] d
          | none => pure .null
      let explicitRowid := (slots.findIdx? (·.isNone)).bind fun p => row[p]?
      let n ← orSkip (insertRow fuel ctx conflict tableName given explicitRowid upserts)
      pure (count + n)) 0

/-- Writes one new row, or resolves its clashes; an upsert's update counts as one row. -/
def insertRow : Nat → Context → Option Conflict → String → List Value → Option Value →
    List Upsert → Exec Nat
  | 0, _, _, _, _, _, _ => throw (.abort "too many levels of trigger recursion")
  | fuel + 1, ctx, conflict, tableName, given, explicitRowid, upserts => do
    let table ← tableFor ctx tableName
    let td := table.schema
    let stmtConflict := ctx.override.orElse fun _ => conflict
    let asked : Option Value := match td.rowidColumn with
      | some i => given[i]?
      | none => explicitRowid
    let askedId ← match asked with
      | some v =>
        if v.isNull then pure none
        else match v.applyAffinity .integer with
          | .int n => pure (some n)
          | _ => throw (.abort "datatype mismatch")
      | none => pure none
    let values := td.columns.zipIdx.map fun (c, i) =>
      if some i = td.rowidColumn then Value.int (askedId.getD (-1))
      else ((given[i]?).getD .null).applyAffinity c.affinity
    let values ← computeGenerated ctx td (askedId.getD (-1)) values
    if (← get).hasTriggers td.name .before .insert [] then td.checkTypes values
    fireTriggers fuel ctx td .before .insert none
      (some ((td.frameOf "new" (askedId.getD (-1)) values))) []
    let table ← tableFor ctx tableName
    let rowid := askedId.getD table.nextRowid
    let values := setAt values td.rowidColumn (.int rowid)
    let notNull (generated : Bool) (values : List Value) : Exec (List Value) :=
      td.columns.zipIdx.mapM fun (c, i) => do
        let v := (values[i]?).getD .null
        match c.notNull with
        | some own =>
          if v.isNull ∧ some i ≠ td.rowidColumn ∧ c.generated.isSome = generated then
            match resolution stmtConflict own, c.default with
            | .replace, some d => do pure ((← evalOn ctx [] d).applyAffinity c.affinity)
            | .replace, none => breakWith .abort ("NOT NULL constraint failed: " ++ td.qualified i)
            | r, _ => breakWith r ("NOT NULL constraint failed: " ++ td.qualified i)
          else pure v
        | none => pure v
    let values ← notNull false values
    let values ← computeGenerated ctx td rowid values
    let values ← notNull true values
    td.checkTypes values
    let frame := td.frameOf td.name rowid values
    for check in td.checks do
      if (← evalOn ctx [frame] check.condition).truth? == some false then
        match resolution stmtConflict none with
        | .replace => breakWith .abort ("CHECK constraint failed: " ++ check.label)
        | r => breakWith r ("CHECK constraint failed: " ++ check.label)
    match ← resolveClashes fuel ctx stmtConflict td rowid none values upserts with
    | some n => pure n
    | none => do
      if (← get).foreignKeys then
        for fk in td.foreignKeys do childGains td rowid values fk
        parentGains td { rowid := rowid, values := values }
      putRow tableName { rowid := rowid, values := values }
      if !td.withoutRowid then modify fun db => { db with lastInsertRowid := rowid }
      fireTriggers fuel ctx td .after .insert none (some (td.frameOf "new" rowid values)) []
      pure 1

/-- Resolves the clashes of a row about to be written: `some n` when an upsert took it over. -/
def resolveClashes : Nat → Context → Option Conflict → TableDef → Int → Option Int →
    List Value → List Upsert → Exec (Option Nat)
  | 0, _, _, _, _, _, _, _ => throw (.abort "too many levels of trigger recursion")
  | fuel + 1, ctx, stmtConflict, td, rowid, self, values, upserts => do
    let db ← get
    let frame := td.frameOf td.name rowid values
    let checks := uniquenessOrder db td upserts
    checks.foldlM (fun done u => do
      if done.isSome then return done
      let table ← tableFor ctx td.name
      let clash ← match u with
        | .rowid =>
          if some rowid == self then pure none else pure (table.row? rowid)
        | .key k => do
          match ← keyValues ctx frame k with
          | some vs => clashOf ctx td table.rows k vs self
          | none => pure none
      match clash with
      | none => pure none
      | some other =>
        let label := match u with
          | .rowid =>
            match td.rowidColumn with
            | some i => td.qualified i
            | none => td.name ++ ".rowid"
          | .key k => k.label
        let own := match u with
          | .rowid => td.rowidConflict
          | .key k => k.conflict
        match upsertFor td upserts u with
        | some clause =>
          match clause.action with
          | .nothing => pure (some 0)
          | .update assignments filter => do
            let excluded := (td.frameOf "excluded" rowid values).named "excluded"
            let current := td.rowFrame other
            let go ← match filter with
              | some f => do pure ((← evalBeside ctx current excluded f).truth? == some true)
              | none => pure true
            if !go then return some 0
            let assigned ← assignments.mapM fun (n, e) => do
              match td.columnIndex? n with
              | some i =>
                if td.isGenerated i then throw (.abort (generatedUpdate td i))
                pure (i, ← evalBeside ctx current excluded e)
              | none => throw (.abort ("no such column: " ++ n))
            let n ← updateRow fuel ctx none td.name other.rowid assigned none
            pure (some n)
        | none =>
          match resolution stmtConflict own with
          | .replace => do
            let _ ← deleteRow fuel ctx td.name other.rowid false
            pure none
          | r => breakWith r ("UNIQUE constraint failed: " ++ label)) none

/-- `UPDATE`: finds the rows first, then updates each as it is then. -/
def updateStmt : Nat → Context → Option Conflict → String → List (String × Expr) →
    Option Expr → Exec Nat
  | 0, _, _, _, _, _ => throw (.abort "too many levels of trigger recursion")
  | fuel + 1, ctx, conflict, tableName, assignments, filter => do
    let table ← tableFor ctx tableName
    let td := table.schema
    let targetsOf ← assignments.mapM fun (n, e) =>
      match td.columnIndex? n with
      | some i =>
        if td.isGenerated i then throw (.abort (generatedUpdate td i)) else pure (some i, e)
      | none =>
        if isRowidName n ∧ !td.withoutRowid then pure (none, e)
        else throw (.abort ("no such column: " ++ n))
    let shape : Shape := { name := td.name, columns := td.columns, hasRowid := !td.withoutRowid }
    for (_, e) in targetsOf do checkOn ctx [shape] e
    if let some f := filter then checkOn ctx [shape] f
    let chosen ← table.scan.filterM fun row => match filter with
      | some f => do pure ((← evalOn ctx [td.rowFrame row] f).truth? == some true)
      | none => pure true
    chosen.foldlM (fun count row => do
      let table ← tableFor ctx tableName
      match table.row? row.rowid with
      | none => pure count
      | some current =>
        let frame := td.rowFrame current
        let computed ← targetsOf.mapM fun (i, e) => do pure (i, ← evalOn ctx [frame] e)
        let assigned := computed.filterMap fun (i, v) => i.map (·, v)
        let newRowid := (computed.find? (·.1.isNone)).map (·.2)
        let n ← orSkip (updateRow fuel ctx conflict tableName current.rowid assigned newRowid)
        pure (count + n)) 0

/-- Updates one row, giving 1, or 0 when the row is gone. -/
def updateRow : Nat → Context → Option Conflict → String → Int → List (Nat × Value) →
    Option Value → Exec Nat
  | 0, _, _, _, _, _, _ => throw (.abort "too many levels of trigger recursion")
  | fuel + 1, ctx, conflict, tableName, rowid, assigned, newRowid => do
    let table ← tableFor ctx tableName
    let td := table.schema
    match table.row? rowid with
    | none => pure 0
    | some old =>
      let stmtConflict := ctx.override.orElse fun _ => conflict
      let changed := assigned.map (·.1)
      let idValue := (td.rowidColumn.bind fun i => (assigned.find? (·.1 == i)).map (·.2)).orElse
        fun _ => newRowid
      let changedNames := (changed.filterMap fun i => (td.column? i).map (·.name)) ++
        (if idValue.isSome then
          ["rowid", "oid", "_rowid_"] ++ ((td.rowidColumn.bind td.column?).map (·.name)).toList
         else [])
      let newId ← match idValue with
        | some v =>
          match v.applyAffinity .integer with
          | .int n => pure n
          | _ => throw (.abort "datatype mismatch")
        | none => pure rowid
      let compose (base : List Value) : List Value :=
        base.zipIdx.map fun (v, i) =>
          if some i = td.rowidColumn then .int newId
          else match assigned.find? (·.1 == i) with
            | some (_, nv) => nv.applyAffinity (((td.column? i).map (·.affinity)).getD .blob)
            | none => v
      let recomputed := td.generatedChanges changedNames
      let proposed ← computeGenerated ctx td newId (compose old.values)
      if (← get).hasTriggers td.name .before .update changedNames then
        td.checkTypes proposed
      fireTriggers fuel ctx td .before .update (some ((td.rowFrame old).named "old"))
        (some (td.frameOf "new" newId proposed)) changedNames
      let table ← tableFor ctx tableName
      match table.row? rowid with
      | none => pure 0
      | some current =>
        let notNull (checked : Nat → Bool) (values : List Value) : Exec (List Value) :=
          td.columns.zipIdx.mapM fun (c, i) => do
            let v := (values[i]?).getD .null
            match c.notNull with
            | some own =>
              if v.isNull ∧ checked i ∧ some i ≠ td.rowidColumn then
                match resolution stmtConflict own, c.default with
                | .replace, some d => do pure ((← evalOn ctx [] d).applyAffinity c.affinity)
                | .replace, none =>
                  breakWith .abort ("NOT NULL constraint failed: " ++ td.qualified i)
                | r, _ => breakWith r ("NOT NULL constraint failed: " ++ td.qualified i)
              else pure v
            | none => pure v
        let values ← notNull changed.contains (compose current.values)
        let values ← computeGenerated ctx td newId values
        let values ← notNull (fun i => ((td.column? i).map fun c =>
          recomputed.any (sameName · c.name)).getD false) values
        td.checkTypes values
        let frame := td.frameOf td.name newId values
        let mentioned (e : Expr) : Bool :=
          (changedNames ++ recomputed).any fun n => mentions n defaultFuel e
        for check in td.checks do
          if mentioned check.condition then
            if (← evalOn ctx [frame] check.condition).truth? == some false then
              match resolution stmtConflict none with
              | .replace => breakWith .abort ("CHECK constraint failed: " ++ check.label)
              | r => breakWith r ("CHECK constraint failed: " ++ check.label)
        match ← resolveClashes fuel ctx stmtConflict td newId (some rowid) values [] with
        | some n => pure n
        | none => do
          let newRow : Row := { rowid := newId, values := values }
          if (← get).foreignKeys then
            for fk in td.foreignKeys do
              if fk.columns.any changed.contains then
                childLoses td current.values fk
                childGains td newId values fk
            let keyChanged := newId != rowid ||
              ((← get).referencing td.name).any fun (_, fk) =>
                fk.parentColumns.any fun n => ((td.columnIndex? n).map changed.contains).getD false
            if keyChanged then
              parentLoses td current true
              parentGains td newRow
          removeRow tableName rowid
          putRow tableName newRow
          if (← get).foreignKeys then keyActions fuel ctx td current (some newRow)
          fireTriggers fuel ctx td .after .update (some ((td.rowFrame current).named "old"))
            (some (td.frameOf "new" newId values)) changedNames
          pure 1

/-- `DELETE`: finds the rows first, then deletes each that is still there. -/
def deleteStmt : Nat → Context → String → Option Expr → Exec Nat
  | 0, _, _, _ => throw (.abort "too many levels of trigger recursion")
  | fuel + 1, ctx, tableName, filter => do
    let table ← tableFor ctx tableName
    let td := table.schema
    let shape : Shape := { name := td.name, columns := td.columns, hasRowid := !td.withoutRowid }
    if let some f := filter then checkOn ctx [shape] f
    let chosen ← table.scan.filterM fun row => match filter with
      | some f => do pure ((← evalOn ctx [td.rowFrame row] f).truth? == some true)
      | none => pure true
    chosen.foldlM (fun count row => do
      let n ← orSkip (deleteRow fuel ctx tableName row.rowid true)
      pure (count + n)) 0

/-- Deletes one row, firing its triggers or not; gives 1, or 0 when the row is gone. -/
def deleteRow : Nat → Context → String → Int → Bool → Exec Nat
  | 0, _, _, _, _ => throw (.abort "too many levels of trigger recursion")
  | fuel + 1, ctx, tableName, rowid, triggers => do
    let table ← tableFor ctx tableName
    let td := table.schema
    match table.row? rowid with
    | none => pure 0
    | some old =>
      if triggers then
        fireTriggers fuel ctx td .before .delete (some ((td.rowFrame old).named "old")) none []
      let table ← tableFor ctx tableName
      match table.row? rowid with
      | none => pure 0
      | some current =>
        if (← get).foreignKeys then
          for fk in td.foreignKeys do childLoses td current.values fk
          parentLoses td current false
        removeRow tableName rowid
        if (← get).foreignKeys then keyActions fuel ctx td current none
        if triggers then
          fireTriggers fuel ctx td .after .delete (some ((td.rowFrame current).named "old")) none []
        pure 1

/-- The actions of the foreign keys that name a row that went or changed. -/
def keyActions : Nat → Context → TableDef → Row → Option Row → Exec Unit
  | 0, _, _, _, _ => throw (.abort "too many levels of trigger recursion")
  | fuel + 1, ctx, td, old, new => do
    let db ← get
    for (childDef, fk) in db.referencing td.name do
      let key ← parentKeyOf db childDef td fk
      let before := parentValues key old
      let after := new.map (parentValues key)
      if after.any (sameRow before) then continue
      let action := if new.isSome then fk.onUpdate else fk.onDelete
      let child ← tableFor ctx childDef.name
      let orphans := childRows child fk before
      for row in orphans do
        match action, after with
        | .cascade, none => let _ ← deleteRow fuel ctx childDef.name row.rowid true
        | .cascade, some values =>
          let _ ← updateRow fuel ctx none childDef.name row.rowid (fk.columns.zip values) none
        | .setNull, _ =>
          let _ ← updateRow fuel ctx none childDef.name row.rowid
            (fk.columns.map (·, Value.null)) none
        | .setDefault, _ => do
          let defaults ← fk.columns.mapM fun i => do
            match (childDef.column? i).bind (·.default) with
            | some d => pure (i, ← evalOn ctx [] d)
            | none => pure (i, Value.null)
          let _ ← updateRow fuel ctx none childDef.name row.rowid defaults none
        | _, _ => pure ()

/-- Fires a table's triggers for an event at a time, newest first, but not those running. -/
def fireTriggers : Nat → Context → TableDef → TriggerTime → EventKind → Option Frame →
    Option Frame → List String → Exec Unit
  | 0, _, _, _, _, _, _, _ => throw (.abort "too many levels of trigger recursion")
  | fuel + 1, ctx, td, time, kind, old, new, changed => do
    let db ← get
    let selected := (db.triggersOn td.name).reverse.filter fun t =>
      t.fires time kind changed && !ctx.active.any (sameName · t.name)
    for trigger in selected do
      let frames := (old.map (·.named "old")).toList ++ (new.map (·.named "new")).toList
      let inner : Context := { ctx with scope := frames, inTrigger := true,
                                        active := trigger.name :: ctx.active }
      let go ← match trigger.condition with
        | some c => do pure ((← evalOn inner [] c).truth? == some true)
        | none => pure true
      if go then
        let saved ← get
        for stmt in trigger.body do
          let n ← runStmt fuel inner stmt
          if stmt.writes then modify (·.counted n)
        modify fun db => { db with lastInsertRowid := saved.lastInsertRowid, changes := saved.changes }

end

end Sql
end TreeHistory
