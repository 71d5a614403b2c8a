import TreeHistory.Sql.Exec

/-!
# Checking a statement before it runs

A statement is checked as a whole before any of its rows is read or written, so that one naming
a missing table or column fails the same way whether it would touch rows or not
(`checkStatement`).

A query is checked in three passes: the first finds the tables of every select, expands `*` and
checks `USING` columns; the second resolves names, a compound query from its last select to its
first; the third finds what only generating code rejects (a subquery of the wrong width, an
aggregate where no group is formed, `RAISE` outside a trigger). Errors are reported in this
order; within a walk of an expression a later error may replace an earlier one.

A write also compiles, once each, the triggers and foreign key actions it may fire. A trigger's
first error becomes the statement's only when the statement has none yet.
-/

namespace TreeHistory
namespace Sql

/-- What checking a statement carries along: the error kept so far, and the triggers and foreign
key actions already compiled. -/
structure CompileState where
  pending : Option String := none
  compiled : List String := []

/-- Compiling a statement to check it: it stops at once with some errors and keeps others. -/
abbrev Compile := StateT CompileState (Except String)

namespace Compile

/-- Stops with an error. -/
def stop {α : Type} (message : String) : Compile α := throw message

/-- Keeps an error, replacing the one kept, and goes on. -/
def note (message : String) : Compile Unit :=
  modify fun s => { s with pending := some message }

/-- Keeps an error unless one is kept already. -/
def transfer (message : String) : Compile Unit :=
  modify fun s => if s.pending.isSome then s else { s with pending := some message }

/-- Stops with the error kept, if there is one. -/
def settle : Compile Unit := do
  if let some message := (← get).pending then throw message

/-- A step that either gives its value or stops with its error. -/
def lift {α : Type} : Except String α → Compile α
  | .ok a => pure a
  | .error m => throw m

/-- Runs a check apart and gives its error, if any, keeping what it compiled. -/
def apart (c : Compile Unit) : Compile (Option String) := do
  let s ← get
  match c.run { compiled := s.compiled } with
  | .ok ((), inner) =>
    set { s with compiled := inner.compiled }
    pure inner.pending
  | .error m => pure (some m)

/-- Whether something is compiled for the first time; it counts as compiled afterwards. -/
def firstTime (key : String) : Compile Bool := do
  let s ← get
  if s.compiled.contains key then pure false
  else
    set { s with compiled := key :: s.compiled }
    pure true

end Compile

/-- Where a statement is checked: the database, whether missing tables are named with their
schema, whether `RAISE` may be used, and the rows of the enclosing trigger. -/
structure Site where
  db : Database
  schemaNames : Bool := false
  inTrigger : Bool := false
  rows : List Shape := []

/-- The message for a table that a statement names and the database does not have. -/
def Site.missingTable (site : Site) (name : String) : String :=
  "no such table: " ++ (if site.schemaNames then "main." else "") ++ name

/-- One level of names: the sources of a select, and the aliases of its result columns where the
clause being resolved may use them. -/
structure Level where
  shapes : List Shape
  aliases : List (String × Expr) := []

/-- How the names of an expression resolve: the levels, innermost first, and whether an
aggregate may stand there. -/
structure Names where
  levels : List Level
  aggregates : Bool := false
  expand : Bool := false
  /-- The windows of the select's `WINDOW` clause, where a window function may stand. -/
  windows : Option (List (String × Window)) := none

/-- A table as the source of a statement that writes it. -/
def TableDef.sourceShape (td : TableDef) : Shape :=
  { name := td.name, columns := td.columns, hasRowid := !td.withoutRowid }

/-- Checks that a name refers to something: a column of a source at some level, innermost first,
a column of the trigger's rows, or an alias of a result column. -/
def lookupName (site : Site) (levels : List Level) (table : Option String) (name : String)
    (quoted : Bool) : Except String Unit :=
  let rec go : List Level → Except String Unit
    | [] =>
      if (quoted ∨ (truthWord? name).isSome) ∧ table.isNone then .ok ()
      else .error ("no such column: " ++ displayName table name)
    | level :: rest => do
      if (← resolveLevel 0 level.shapes table name).isSome then return
      if (← resolveLevel 0 site.rows table name).isSome then return
      if table.isNone ∧ level.aliases.any (sameName ·.1 name) then return
      go rest
  go (if levels.isEmpty then [{ shapes := [] }] else levels)

/-- The aggregate calls of an expression outside its subqueries, by their names as written. -/
def aggregateNames : Nat → Expr → List String
  | 0, _ => []
  | fuel + 1, e =>
    let go := aggregateNames fuel
    match e with
    | .call name args _ star =>
      let count := if star then 0 else args.length
      (if (arity name).any (· count) && isAggregateCall name count star then [name] else []) ++
        args.flatMap go
    | .unary _ x | .isNull x _ | .cast x _ | .collate x _ | .inQuery x _ _ => go x
    | .binary _ l r => go l ++ go r
    | .between x l h _ => go x ++ go l ++ go h
    | .inList x items _ => go x ++ items.flatMap go
    | .row items => items.flatMap go
    | .clauses call _ _ => go call
    | .window _ _ args _ _ _ => args.flatMap go
    | .pattern _ x p escape _ => go p ++ go x ++ ((escape.map go).getD [])
    | .case base branches otherwise =>
      ((base.map go).getD []) ++ branches.flatMap (fun (w, t) => go w ++ go t) ++
        ((otherwise.map go).getD [])
    | _ => []

/-- The subqueries of a `FROM` clause, in order, the queries of its common tables among them. -/
def Source.subqueries : Source → List Query
  | .query q _ | .common _ _ q _ | .recursive _ _ q _ => [q]
  | .join _ _ left right _ _ => left.subqueries ++ right.subqueries
  | .table .. | .working .. => []

/-- The `ON` clauses of a `FROM` clause, in the order its joins are written. -/
def Source.conditions : Source → List Expr
  | .join _ _ left right on _ => left.conditions ++ right.conditions ++ on.toList
  | _ => []

/-- Checks the `USING` clauses of a `FROM` clause: each column must be one of the sources on
both sides. -/
def Source.checkUsing (db : Database) : Source → Except String Unit
  | .join _ _ left right _ usingColumns => do
    left.checkUsing db
    right.checkUsing db
    let ls ← sourceShapes defaultFuel db [] left
    let rs ← sourceShapes defaultFuel db [] right
    let has (shapes : List Shape) (c : String) : Bool :=
      shapes.any fun s => s.columns.any (sameName ·.name c)
    for c in usingColumns do
      if !(has ls c && has rs c) then
        throw ("cannot join using column " ++ c ++ " - column not present in both tables")
  | _ => pure ()

/-- How many values an expression gives: a subquery one per result column, any other expression
one. -/
def exprWidth (db : Database) : Expr → Nat
  | .subquery q => ((queryColumns defaultFuel db [] q).toOption.map List.length).getD 1
  | .row items => items.length
  | _ => 1

/-- The `FROM` clause, `WHERE`, `GROUP BY` and `HAVING` of one select. -/
def Part.clauses : Part → Option Source × Option Expr × List Expr × Option Expr
  | .select _ _ source filter groupBy having _ => (source, filter, groupBy, having)
  | .row _ => (none, none, [], none)

/-- The windows of the `WINDOW` clause of one select. -/
def Part.windows : Part → List (String × Window)
  | .select _ _ _ _ _ _ windows => windows
  | .row _ => []

/-- The expressions of a select's result columns, `*` left out. -/
def slotExprs (slots : List ResultSlot) : List Expr :=
  slots.filterMap fun s => match s.output with
    | .expr e => some e
    | .slot .. => none

mutual

/-- Finds the tables of a query and of its subqueries, expands `*` and checks `USING` columns. -/
def expandQuery : Nat → Site → Query → Compile Unit
  | 0, _, _ => Compile.stop "expression tree is too large"
  | fuel + 1, site, q => do
    let (orderBy, limit, offset) := q.tail
    match ((q.chain defaultFuel).1).reverse with
    | [] => pure ()
    | last :: earlier =>
      expandPart fuel site last
      for (e, _) in orderBy do expandExpr fuel site e
      for e in limit.toList ++ offset.toList do expandExpr fuel site e
      for part in earlier do expandPart fuel site part

/-- The first pass over one select. -/
def expandPart : Nat → Site → Part → Compile Unit
  | 0, _, _ => Compile.stop "expression tree is too large"
  | fuel + 1, site, part =>
    match part with
    | .row values => values.forM (expandExpr fuel site)
    | .select _ columns source filter groupBy having _ => do
      let shapes ← match source with
        | some s => do
          expandSource fuel site s
          Compile.lift (s.checkUsing site.db)
          Compile.lift (sourceShapes defaultFuel site.db [] s)
        | none => pure []
      for c in columns do
        match c with
        | .all => if shapes.isEmpty then Compile.stop "no tables specified"
        | .allOf t =>
          if !shapes.any (sameName ·.name t) then Compile.stop ("no such table: " ++ t)
        | .expr .. => pure ()
      for c in columns do
        if let .expr e _ _ := c then expandExpr fuel site e
      for e in filter.toList ++ ((source.map Source.conditions).getD []) do expandExpr fuel site e
      for e in groupBy do expandExpr fuel site e
      for e in having.toList do expandExpr fuel site e

/-- Finds the tables of a `FROM` clause in order; a view is checked whole where it is met. -/
def expandSource : Nat → Site → Source → Compile Unit
  | 0, _, _ => Compile.stop "expression tree is too large"
  | fuel + 1, site, source =>
    match source with
    | .table name _ =>
      if (site.db.table? name).isSome || isSchemaTable name then pure ()
      else match site.db.views.find? (fun v => sameName v.name name) with
        | some v => do
          prepareView fuel site.db v.query
          let _ ← Compile.lift (sourceShapes defaultFuel site.db [] source)
        | none => Compile.stop (site.missingTable name)
    | .query q _ => expandQuery fuel site q
    | .join _ _ left right _ _ => do
      expandSource fuel site left
      expandSource fuel site right
    | .common .. | .recursive .. =>
      match source.subqueries with
      | [q] => do
        expandQuery fuel site q
        let _ ← Compile.lift (sourceShapes defaultFuel site.db [] source)
      | _ => pure ()
    | .working .. => pure ()

/-- Checks the query of a view that a statement reads: its tables and its names, a missing table
named with its schema. -/
def prepareView : Nat → Database → Query → Compile Unit
  | 0, _, _ => Compile.stop "expression tree is too large"
  | fuel + 1, db, q => do
    let site : Site := { db := db, schemaNames := true }
    expandQuery fuel site q
    resolveQuery fuel site [] q
    Compile.settle

/-- The first pass over the subqueries of an expression; the sides of a conjunction that is read
as 0 are not looked at. -/
def expandExpr : Nat → Site → Expr → Compile Unit
  | 0, _, _ => Compile.stop "expression tree is too large"
  | fuel + 1, site, e =>
    let go := expandExpr fuel site
    match e with
    | .subquery q | .exists q | .field q _ _ => expandQuery fuel site q
    | .inQuery x q _ => do
      go x
      expandQuery fuel site q
    | .binary op l r =>
      if op == .and && (alwaysFalse l || alwaysFalse r) then pure ()
      else do
        go l
        go r
    | .unary _ x | .isNull x _ | .cast x _ | .collate x _ => go x
    | .between x low high _ => do
      go x
      go low
      go high
    | .inList x items _ => do
      go x
      items.forM go
    | .pattern _ x p escape _ => do
      go p
      go x
      if let some esc := escape then go esc
    | .case base branches otherwise => do
      if let some b := base then go b
      for (w, t) in branches do
        go w
        go t
      if let some o := otherwise then go o
    | .call _ args _ _ | .row args => args.forM go
    | .clauses call condition orderBy => do
      go call
      condition.forM go
      orderBy.forM (go ·.1)
    | .window _ _ args _ filter overClause => do
      args.forM go
      overClause.partitionBy.forM go
      overClause.orderBy.forM (go ·.1)
      filter.forM go
    | _ => pure ()

/-- Resolves the names of a query whose tables were found, from the last select to the first. -/
def resolveQuery : Nat → Site → List Level → Query → Compile Unit
  | 0, _, _, _ => Compile.stop "expression tree is too large"
  | fuel + 1, site, outer, q => do
    let (parts, ops) := q.chain defaultFuel
    let (orderBy, limit, offset) := q.tail
    let lone := parts.length == 1
    for (part, i) in parts.zipIdx.reverse do
      if i + 1 == parts.length then
        for e in limit.toList ++ offset.toList do resolveExpr fuel site { levels := [] } e
        Compile.settle
      let next := (ops[i]?).bind fun op => (parts[i + 1]?).map (op, ·)
      resolvePart fuel site outer part (if lone then orderBy.map (·.1) else []) next
    if !lone && !orderBy.isEmpty then
      let shapes := outer.map (·.shapes)
      let columns ← Compile.lift (queryColumns defaultFuel site.db shapes q)
      let _ ← Compile.lift (compoundPositions site.db shapes parts columns orderBy)

/-- Resolves the names of one select, its `FROM` subqueries and result columns first. -/
def resolvePart : Nat → Site → List Level → Part → List Expr → Option (CompoundOp × Part) →
    Compile Unit
  | 0, _, _, _, _, _ => Compile.stop "expression tree is too large"
  | fuel + 1, site, outer, part, orderBy, next => do
    let around := outer.map (·.shapes)
    let (shapes, slots) ← Compile.lift (partSlots site.db around part)
    let (source, filter, groupBy, having) := part.clauses
    for q in (source.map Source.subqueries).getD [] do resolveQuery fuel site outer q
    let exprs := slotExprs slots
    for e in exprs do
      resolveExpr fuel site
        { levels := { shapes := shapes } :: outer, aggregates := true, windows := part.windows } e
      Compile.settle
    let aggregate := !groupBy.isEmpty || exprs.any (hasAggregate defaultFuel)
    let level : Level := { shapes := shapes, aliases := aliasesOf slots }
    if let some h := having then
      if !aggregate then Compile.stop "HAVING clause on a non-aggregate query"
      resolveExpr fuel site { levels := level :: outer, aggregates := true } h
      Compile.settle
    for e in filter.toList ++ ((source.map Source.conditions).getD []) do
      resolveExpr fuel site { levels := level :: outer, aggregates := aggregate } e
    Compile.settle
    if let some (op, nextPart) := next then
      let (_, nextSlots) ← Compile.lift (partSlots site.db around nextPart)
      if nextSlots.length ≠ slots.length then
        match nextPart with
        | .row _ => Compile.stop "all VALUES must have the same number of terms"
        | .select .. =>
          Compile.stop ("SELECTs to the left and right of " ++ compoundName op ++
            " do not have the same number of result columns")
    let own : Names := { levels := [level], aggregates := true }
    resolveTerms fuel site "ORDER" true { own with windows := part.windows } slots orderBy
    resolveTerms fuel site "GROUP" false own slots groupBy
    if groupBy.any fun e => hasAggregate defaultFuel (withAliases shapes level.aliases e) then
      Compile.stop "aggregate functions are not allowed in the GROUP BY clause"

/-- Resolves the terms of an `ORDER BY` or `GROUP BY`: an alias, a position of at least 1, or an
expression. -/
def resolveTerms : Nat → Site → String → Bool → Names → List ResultSlot → List Expr → Compile Unit
  | 0, _, _, _, _, _, _ => Compile.stop "expression tree is too large"
  | fuel + 1, site, clause, byAlias, names, slots, terms => do
    let outOfRange (k : Nat) : String :=
      ordinal (k + 1) ++ " " ++ clause ++ " BY term out of range - should be between 1 and " ++
        toString slots.length
    let mut positions : List (Nat × Int) := []
    for (e, k) in terms.zipIdx do
      if byAlias && (aliasSlot? slots e).isSome then continue
      match integerTerm? (skipCollate e) with
      | some n =>
        if n < 1 ∨ n > 65535 then Compile.stop (outOfRange k)
        positions := positions ++ [(k, n)]
      | none =>
        resolveExpr fuel site names e
        Compile.settle
    for (k, n) in positions do
      if n > slots.length then Compile.stop (outOfRange k)

/-- Whether an expression is a real literal from 0 to 1, as the second argument of `likelihood`
must be. -/
def isProbability : Expr → Bool
  | .float text => (scanReal text.toList).1 ≤ 1.0
  | _ => false

/-- Resolves the names of an expression, walking it from the top; which errors stop the walk is
said in the notes of this module. -/
def resolveExpr : Nat → Site → Names → Expr → Compile Unit
  | 0, _, _, _ => Compile.stop "expression tree is too large"
  | fuel + 1, site, names, e => do
    let go := resolveExpr fuel site names
    let subquery (q : Query) : Compile Unit := do
      if names.expand then expandQuery fuel site q
      resolveQuery fuel site names.levels q
      Compile.settle
    match e with
    | .column t n q => Compile.lift (lookupName site names.levels t n q)
    | .call name args _ star =>
      let count := if star then 0 else args.length
      let aggregate := (arity name).any (· count) && isAggregateCall name count star
      match windowOnlyArity name, arity name with
      | some fits, _ =>
        if fits count then Compile.note ("misuse of window function " ++ name ++ "()")
        else Compile.note ("wrong number of arguments to function " ++ name ++ "()")
      | none, none => Compile.note ("no such function: " ++ name)
      | none, some fits =>
        if fits count && sameName name "likelihood" && !((args[1]?).any isProbability) then
          Compile.note ("second argument to " ++ name ++ "() must be a constant between 0.0 and 1.0")
        if !fits count then
          Compile.note ("wrong number of arguments to function " ++ name ++ "()")
        else if aggregate && !names.aggregates then
          Compile.note ("misuse of aggregate function " ++ name ++ "()")
      args.forM (resolveExpr fuel site (if aggregate then
        { names with aggregates := false, windows := none } else names))
    | .clauses call condition orderBy =>
      match call with
      | .call name args _ star => do
        let count := if star then 0 else args.length
        let aggregate := (arity name).any (· count) && isAggregateCall name count star
        let counted := aggregate && names.aggregates && (windowOnlyArity name).isNone
        match windowOnlyArity name, arity name with
        | some fits, _ =>
          if fits count then Compile.note ("misuse of window function " ++ name ++ "()")
          else Compile.note ("wrong number of arguments to function " ++ name ++ "()")
        | none, none => Compile.note ("no such function: " ++ name)
        | none, some fits =>
          if !fits count then
            Compile.note ("wrong number of arguments to function " ++ name ++ "()")
          else if aggregate && !names.aggregates then
            Compile.note ("misuse of aggregate function " ++ name ++ "()")
          else if !aggregate && condition.isSome then
            Compile.note ("FILTER may not be used with non-aggregate " ++ name ++ "()")
          else if !aggregate then
            Compile.note ("ORDER BY may not be used with non-aggregate " ++ name ++ "()")
        let inner := if counted then { names with aggregates := false, windows := none }
          else names
        args.forM (resolveExpr fuel site inner)
        if counted then
          orderBy.forM (resolveExpr fuel site inner ·.1)
          condition.forM (resolveExpr fuel site inner)
      | other => go other
    | .window _ name args star filter overClause =>
      let count := if star then 0 else args.length
      let windowOnly := windowOnlyArity name
      let known := windowOnly.isSome || (arity name).isSome
      let fits := match windowOnly with
        | some f => f count
        | none => (arity name).any (· count)
      let windowed := windowOnly.isSome || isAggregateCall name count star
      let valid := known && fits && windowed
      if known && (if fits then !windowed else !(windowOnly.isSome || isAggregate name 1)) then
        Compile.note (name ++ "() may not be used as a window function")
      else if valid && (!names.aggregates || names.windows.isNone) then
        Compile.note ("misuse of window function " ++ name ++ "()")
      else if !known then Compile.note ("no such function: " ++ name)
      else if !fits then
        Compile.note ("wrong number of arguments to function " ++ name ++ "()")
      let inner := { names with windows := none }
      args.forM (resolveExpr fuel site inner)
      if valid then
        match overClause.resolve (names.windows.getD []) with
        | .error message => Compile.note message
        | .ok w =>
          if w.measuresRange && w.orderBy.length ≠ 1 then
            Compile.note "RANGE with offset PRECEDING/FOLLOWING requires one ORDER BY expression"
          else if windowOnly.isSome && filter.isSome then
            Compile.note "FILTER clause may only be used with aggregate window functions"
        overClause.partitionBy.forM (resolveExpr fuel site inner)
        overClause.orderBy.forM (resolveExpr fuel site inner ·.1)
        filter.forM (resolveExpr fuel site inner)
    | .subquery q | .exists q | .field q _ _ => subquery q
    | .inQuery x q _ => do
      subquery q
      go x
    | .binary op l r => do
      if op.compares && exprWidth site.db l ≠ exprWidth site.db r then
        Compile.stop "row value misused"
      Compile.settle
      if !(op == .and && (alwaysFalse l || alwaysFalse r)) then
        go l
        go r
    | .between x low high _ => do
      let width := exprWidth site.db x
      if width ≠ exprWidth site.db low || width ≠ exprWidth site.db high then
        Compile.stop "row value misused"
      Compile.settle
      go x
      go low
      go high
    | .pattern _ x p escape negated => do
      if negated then Compile.settle
      go p
      go x
      if let some esc := escape then go esc
    | .unary _ x | .isNull x _ | .cast x _ | .collate x _ => do
      Compile.settle
      go x
    | .inList x items _ => do
      Compile.settle
      go x
      items.forM go
    | .case base branches otherwise => do
      Compile.settle
      if let some b := base then go b
      for (w, t) in branches do
        go w
        go t
      if let some o := otherwise then go o
    | .row items => do
      Compile.settle
      items.forM go
    | _ => Compile.settle

end

mutual

/-- The third pass over a query: the selects from the first to the last. -/
def codeQuery : Nat → Site → List (List Shape) → Query → Compile Unit
  | 0, _, _, _ => Compile.stop "expression tree is too large"
  | fuel + 1, site, outer, q => do
    let parts := (q.chain defaultFuel).1
    let (orderBy, limit, offset) := q.tail
    for e in limit.toList ++ offset.toList do codeExpr fuel site [] e
    for part in parts do
      codePart fuel site outer part (if parts.length == 1 then orderBy.map (·.1) else [])

/-- The third pass over one select. -/
def codePart : Nat → Site → List (List Shape) → Part → List Expr → Compile Unit
  | 0, _, _, _, _ => Compile.stop "expression tree is too large"
  | fuel + 1, site, outer, part, orderBy => do
    let (shapes, slots) ← Compile.lift (partSlots site.db outer part)
    let (source, filter, groupBy, having) := part.clauses
    let aliases := aliasesOf slots
    let scopes := shapes :: outer
    let misuse (e : Expr) : Compile Unit :=
      match aggregateNames defaultFuel e with
      | name :: _ => Compile.note ("misuse of aggregate: " ++ name ++ "()")
      | [] => pure ()
    for q in (source.map Source.subqueries).getD [] do codeQuery fuel site outer q
    let exprs := slotExprs slots
    let aggregate := !groupBy.isEmpty || exprs.any (hasAggregate defaultFuel)
    for e in filter.toList ++ ((source.map Source.conditions).getD []) do
      let e := withAliases shapes aliases e
      if aggregate then misuse e
      codeExpr fuel site scopes e
    for e in exprs do codeExpr fuel site scopes e
    for e in orderBy do
      if (aliasSlot? slots e).isNone && (integerTerm? (skipCollate e)).isNone then
        let e := withAliases shapes aliases e
        if !aggregate then misuse e
        codeExpr fuel site scopes e
    for e in groupBy do
      if (integerTerm? (skipCollate e)).isNone then
        codeExpr fuel site scopes (withAliases shapes aliases e)
    for h in having.toList do codeExpr fuel site scopes (withAliases shapes aliases h)

/-- The third pass over an expression: a subquery that must give one value must have one column,
and `RAISE` must be in a trigger. -/
def codeExpr : Nat → Site → List (List Shape) → Expr → Compile Unit
  | 0, _, _, _ => Compile.stop "expression tree is too large"
  | fuel + 1, site, scopes, e =>
    let go := codeExpr fuel site scopes
    let queryWidth (q : Query) : Nat :=
      ((queryColumns defaultFuel site.db scopes q).toOption.map List.length).getD 1
    let single (q : Query) : Compile Unit := do
      let width := queryWidth q
      if width ≠ 1 then
        Compile.note ("sub-select returns " ++ toString width ++ " columns - expected 1")
      else codeQuery fuel site scopes q
    let width : Expr → Nat
      | .row items => items.length
      | .subquery q => queryWidth q
      | _ => 1
    let side : Expr → Compile Unit
      | .row items => items.forM go
      | .subquery q => codeQuery fuel site scopes q
      | other => go other
    match e with
    | .subquery q => single q
    | .exists q => codeQuery fuel site scopes q
    | .field q _ wanted =>
      if queryWidth q ≠ wanted then
        Compile.note (toString wanted ++ " columns assigned " ++ toString (queryWidth q) ++
          " values")
      else codeQuery fuel site scopes q
    | .inQuery x q _ =>
      if width x = 1 then do
        go x
        single q
      else if queryWidth q ≠ width x then
        Compile.note ("sub-select returns " ++ toString (queryWidth q) ++ " columns - expected " ++
          toString (width x))
      else do
        side x
        codeQuery fuel site scopes q
    | .raise .. =>
      if site.inTrigger then pure ()
      else Compile.note "RAISE() may only be used within a trigger-program"
    | .binary op l r =>
      if op == .and && (alwaysFalse l || alwaysFalse r) then pure ()
      else if op.compares then do
        side l
        side r
      else do
        go l
        go r
    | .unary _ x | .isNull x _ | .cast x _ | .collate x _ => go x
    | .between x low high _ => do
      side x
      side low
      side high
    | .inList x items _ => do
      go x
      items.forM go
    | .pattern _ x p escape _ => do
      go p
      go x
      if let some esc := escape then go esc
    | .case base branches otherwise => do
      match base with
      | some b =>
        side b
        for (w, t) in branches do
          if width w ≠ width b then Compile.note "row value misused"
          side w
          go t
      | none =>
        for (w, t) in branches do
          go w
          go t
      if let some o := otherwise then go o
    | .call _ args _ _ => args.forM go
    | .clauses call condition orderBy => do
      go call
      condition.forM go
      orderBy.forM (go ·.1)
    | .window _ _ args _ filter overClause => do
      args.forM go
      overClause.partitionBy.forM go
      overClause.orderBy.forM (go ·.1)
      filter.forM go
    | .row _ => Compile.note "row value misused"
    | _ => pure ()

end

/-- Checks a query that is a statement, or the rows of an insert: all three passes. -/
def prepareQuery (site : Site) (q : Query) : Compile Unit := do
  expandQuery defaultFuel site q
  resolveQuery defaultFuel site [] q
  Compile.settle
  codeQuery defaultFuel site [] q

/-- The triggers of a table in the order they fire: the newest first. -/
def triggerOrder (db : Database) (table : String) : List Trigger :=
  (db.triggersOn table).reverse

/-- What is wrong with a foreign key a table holds: a missing parent table or a parent key that
is not unique. -/
def keyProblem (db : Database) (td : TableDef) (fk : ForeignKey) : Option String :=
  match db.table? fk.parent with
  | none => some ("no such table: main." ++ fk.parent)
  | some parent =>
    match parentKey db td parent.schema fk with
    | .error m => some m
    | .ok _ => none

/-- The table a write names: a view is checked and then refused, as is a schema table. -/
def writtenTable (site : Site) (name : String) : Compile TableDef := do
  match site.db.table? name with
  | some t => pure t.schema
  | none =>
    match site.db.views.find? (fun v => sameName v.name name) with
    | some v => do
      prepareView defaultFuel site.db v.query
      Compile.stop ("cannot modify " ++ v.name ++ " because it is a view")
    | none =>
      if sameName name "sqlite_temp_master" || sameName name "sqlite_temp_schema" then
        Compile.stop "table sqlite_temp_master may not be modified"
      else if isSchemaTable name then Compile.stop "table sqlite_master may not be modified"
      else Compile.stop (site.missingTable name)

/-- Whether a column of a table is written by an assignment list: by its name, or, for the column
that is the row id, by a name of the row id. -/
def columnChanged (td : TableDef) (changed : List String) (i : Nat) : Bool :=
  changed.any fun n =>
    td.columnIndex? n == some i || (isRowidName n && td.columnIndex? n == none && td.rowidColumn == some i)

/-- Whether an update that writes some columns changes the parent key a foreign key names. -/
def parentChanged (td : TableDef) (changed : List String) (fk : ForeignKey) : Bool :=
  (List.range td.columns.length).any fun i =>
    columnChanged td changed i &&
      match td.column? i with
      | some c =>
        if fk.parentColumns.isEmpty then td.primaryColumns.contains i
        else fk.parentColumns.any (sameName · c.name)
      | none => false

mutual

/-- Checks a statement that reads or writes rows. -/
def checkStmt : Nat → Site → Stmt → Compile Unit
  | 0, _, _ => Compile.stop "too many levels of trigger recursion"
  | fuel + 1, site, stmt =>
    match stmt with
    | .insert _ table columns source upserts => checkInsert fuel site table columns source upserts
    | .update _ table assignments filter => checkUpdate fuel site table assignments filter
    | .delete table filter => checkDelete fuel site table filter
    | .select q => prepareQuery site q
    | _ => pure ()

/-- Checks an insert, then what it sets off: `BEFORE` triggers, `DO UPDATE` clauses, foreign keys
and `AFTER` triggers. -/
def checkInsert : Nat → Site → String → Option (List String) → InsertSource → List Upsert →
    Compile Unit
  | 0, _, _, _, _, _ => Compile.stop "too many levels of trigger recursion"
  | fuel + 1, site, tableName, columns, source, upserts => do
    let db := site.db
    let td ← writtenTable site tableName
    if let some names := columns then
      for n in names do
        match td.columnIndex? n with
        | some i =>
          if td.isGenerated i then
            Compile.stop ("cannot INSERT into generated column \"" ++
              ((td.column? i).map (·.name)).getD n ++ "\"")
        | none =>
          if !(isRowidName n && !td.withoutRowid) then
            Compile.stop ("table " ++ tableName ++ " has no column named " ++ n)
    let row : Option (List Expr) := match source with
      | .query (.values [values]) => some values
      | _ => none
    let supplied ← match source, row with
      | _, some values => do
        for e in values do
          resolveExpr fuel site { levels := [], expand := true } e
          Compile.settle
        pure values.length
      | .query q, none => do
        prepareQuery site q
        Compile.settle
        pure (← Compile.lift (queryColumns defaultFuel db [] q)).length
      | .defaults, none => pure 0
    match columns with
    | some names =>
      if supplied ≠ names.length then
        Compile.stop (toString supplied ++ " values for " ++ toString names.length ++ " columns")
    | none =>
      let width := (td.columns.filter (·.generated.isNone)).length
      if supplied ≠ 0 ∧ supplied ≠ width then
        Compile.stop ("table " ++ tableName ++ " has " ++ toString width ++
          " columns but " ++ toString supplied ++ " values were supplied")
    let several := upserts.length > 1
    for (u, k) in upserts.zipIdx do
      if let some target := u.target then
        for c in target do
          Compile.lift (lookupName site [{ shapes := [td.sourceShape] }] none c false)
        if !(Uniqueness.rowid :: (db.keyChecks td).map .key).any (targets td target) then
          Compile.stop ((if several then ordinal (k + 1) ++ " " else "") ++
            "ON CONFLICT clause does not match any PRIMARY KEY or UNIQUE constraint")
    if let some values := row then
      for e in values do codeExpr fuel site [] e
    let triggers := triggerOrder db td.name
    for t in triggers do
      if t.fires .before .insert [] then compileTrigger fuel site td t
    for u in upserts do
      if let .update assignments filter := u.action then
        if (← get).pending.isNone then
          let excluded : Shape := { td.sourceShape with name := "excluded", qualifiedOnly := true }
          let inner := { site with rows := site.rows ++ [excluded] }
          if let some m ← Compile.apart (checkUpdate fuel inner td.name assignments filter) then
            Compile.note m
    if db.foreignKeys then
      for fk in td.foreignKeys do
        if let some m := keyProblem db td fk then Compile.note m
    for t in triggers do
      if t.fires .after .insert [] then compileTrigger fuel site td t

/-- Checks an update, then its triggers, its assignments' code and its foreign keys. -/
def checkUpdate : Nat → Site → String → List (String × Expr) → Option Expr → Compile Unit
  | 0, _, _, _, _ => Compile.stop "too many levels of trigger recursion"
  | fuel + 1, site, tableName, assignments, filter => do
    let td ← writtenTable site tableName
    let shape := td.sourceShape
    let names : Names := { levels := [{ shapes := [shape] }], expand := true }
    for (n, e) in assignments do
      resolveExpr fuel site names e
      Compile.settle
      match td.columnIndex? n with
      | some i => if td.isGenerated i then Compile.stop (generatedUpdate td i)
      | none =>
        if !(isRowidName n && !td.withoutRowid) then Compile.stop ("no such column: " ++ n)
    if let some f := filter then
      resolveExpr fuel site names f
      Compile.settle
      codeExpr fuel site [[shape]] f
    for (_, e) in assignments do codeExpr fuel site [[shape]] e
    updateEffects fuel site td (assignments.map (·.1))

/-- Checks a delete: the table and the `WHERE` clause, then what deleting sets off. -/
def checkDelete : Nat → Site → String → Option Expr → Compile Unit
  | 0, _, _, _ => Compile.stop "too many levels of trigger recursion"
  | fuel + 1, site, tableName, filter => do
    let td ← writtenTable site tableName
    let shape := td.sourceShape
    if let some f := filter then
      resolveExpr fuel site { levels := [{ shapes := [shape] }], expand := true } f
      Compile.settle
      codeExpr fuel site [[shape]] f
    deleteEffects fuel site td

/-- Compiles what updating some columns of a table sets off: the triggers that watch them and
the foreign keys on them. -/
def updateEffects : Nat → Site → TableDef → List String → Compile Unit
  | 0, _, _, _ => Compile.stop "too many levels of trigger recursion"
  | fuel + 1, site, td, changed => do
    let db := site.db
    let referring := (db.referencing td.name).filter fun (_, fk) => parentChanged td changed fk
    let owned := td.foreignKeys.filter fun fk => fk.columns.any (columnChanged td changed)
    let enforced := db.foreignKeys && !(referring.isEmpty && owned.isEmpty)
    if enforced then
      for (child, fk) in db.referencing td.name do
        if let .error m := parentKey db child td fk then Compile.note m
    for t in triggerOrder db td.name do
      if t.fires .before .update changed || t.fires .after .update changed then
        compileTrigger fuel site td t
    if enforced then
      for fk in owned do
        if let some m := keyProblem db td fk then Compile.note m
      for (child, fk) in referring do
        if let .error m := parentKey db child td fk then Compile.note m
      for (child, fk) in referring do
        if fk.onUpdate != .noAction && fk.onUpdate != .restrict then
          compileAction fuel site child fk false

/-- Compiles what deleting rows of a table sets off: its delete triggers and foreign keys. -/
def deleteEffects : Nat → Site → TableDef → Compile Unit
  | 0, _, _ => Compile.stop "too many levels of trigger recursion"
  | fuel + 1, site, td => do
    let db := site.db
    for t in triggerOrder db td.name do
      if t.fires .before .delete [] || t.fires .after .delete [] then
        compileTrigger fuel site td t
    if db.foreignKeys then
      for (child, fk) in db.referencing td.name do
        if let .error m := parentKey db child td fk then Compile.note m
      for fk in td.foreignKeys do
        if let some m := keyProblem db td fk then Compile.note m
      for (child, fk) in db.referencing td.name do
        if fk.onDelete != .noAction && fk.onDelete != .restrict then
          compileAction fuel site child fk true

/-- Compiles the action a foreign key takes on its child table, once per key and event. -/
def compileAction : Nat → Site → TableDef → ForeignKey → Bool → Compile Unit
  | 0, _, _, _, _ => Compile.stop "too many levels of trigger recursion"
  | fuel + 1, site, child, fk, deleting => do
    let key := "foreign key " ++ child.name.toLower ++ " " ++ toString fk.columns ++
      (if deleting then " delete" else " update")
    if !(← Compile.firstTime key) then return
    let inner : Site := { db := site.db, schemaNames := true, inTrigger := true }
    let keyNames := fk.columns.filterMap fun i => (child.column? i).map (·.name)
    let action := if deleting then fk.onDelete else fk.onUpdate
    let body : Compile Unit :=
      if deleting && action == .cascade then deleteEffects fuel inner child
      else updateEffects fuel inner child keyNames
    if let some m ← Compile.apart body then Compile.transfer m

/-- Compiles a trigger once: its `WHEN` clause and its statements, with `NEW` and `OLD`. -/
def compileTrigger : Nat → Site → TableDef → Trigger → Compile Unit
  | 0, _, _, _ => Compile.stop "too many levels of trigger recursion"
  | fuel + 1, site, td, trigger => do
    if !(← Compile.firstTime ("trigger " ++ trigger.name.toLower)) then return
    let row (name : String) : Shape := { td.sourceShape with name := name, qualifiedOnly := true }
    let rows := match trigger.event with
      | .insert => [row "new"]
      | .delete => [row "old"]
      | .update _ => [row "new", row "old"]
    let inner : Site :=
      { db := site.db, schemaNames := !trigger.temp, inTrigger := true, rows := rows }
    let body : Compile Unit := do
      if let some c := trigger.condition then
        resolveExpr fuel inner { levels := [], expand := true } c
        Compile.settle
        codeExpr fuel inner [] c
      for stmt in trigger.body do
        Compile.settle
        checkStmt fuel inner stmt
    if let some m ← Compile.apart body then Compile.transfer m

end

/-- Checks a statement before it runs, as preparing it would: its error, if it has one. -/
def checkStatement (db : Database) (stmt : Stmt) : Except String Unit :=
  match (do checkStmt defaultFuel { db := db } stmt; Compile.settle : Compile Unit).run {} with
  | .ok _ => .ok ()
  | .error m => .error m

end Sql
end TreeHistory
