import TreeHistory.Sql.Schema

/-!
# Common tables

A `WITH` clause names queries that the statement after it may read as tables. Which table a name
stands for is fixed by the text alone, so a clause is bound as soon as it is read
(`Source.common`), the innermost first. A table's query may read the table itself when it is a
compound ending in `UNION` or `UNION ALL`: its recursive selects read the row being expanded
(`Source.working`), and the selects before them are its setup.
-/

namespace TreeHistory
namespace Sql

/-- A table a `WITH` clause defines: its name, the names it gives its columns, and its query. -/
structure CommonTable where
  name : String
  columns : List String
  query : Query

/-- The tables of a `WITH` clause, and the names of those whose queries are being bound. -/
structure Binding where
  tables : List CommonTable
  active : List String := []

/-- A recursive table as its recursive selects read it: its name, the names it gives its
columns, and its setup. -/
structure Expanding where
  name : String
  columns : List String
  setup : Query

/-- Whether a `FROM` clause names a table itself, outside its subqueries. -/
def Source.names (name : String) : Source → Bool
  | .table n _ => sameName n name
  | .join _ _ left right _ _ => left.names name || right.names name
  | _ => false

/-- Whether a query is a select whose `FROM` clause names a table. -/
def Query.readsTable (name : String) : Query → Bool
  | .select _ _ (some source) _ _ _ _ => source.names name
  | _ => false

/-- Whether a `FROM` clause reads the row being expanded, outside its subqueries. -/
def Source.readsWorking : Source → Bool
  | .working .. => true
  | .join _ _ left right _ _ => left.readsWorking || right.readsWorking
  | _ => false

/-- Whether a query is a select whose `FROM` clause reads the row being expanded. -/
def Query.readsWorking : Query → Bool
  | .select _ _ (some source) _ _ _ _ => source.readsWorking
  | _ => false

/-- The selects at the end of a compound that are joined by an operator and pass a test, and the
query before them. -/
def Query.splitWhile (op : CompoundOp) (recursive : Query → Bool) : Query → Query × List Query
  | .compound op' left right =>
    if op' == op && recursive right then
      let (setup, steps) := Query.splitWhile op recursive left
      (setup, steps ++ [right])
    else (.compound op' left right, [])
  | q => (q, [])

/-- The setup, the recursive selects and their operator of a query, if it is recursive. -/
def Query.recursiveParts (recursive : Query → Bool) : Query →
    Option (Query × List Query × CompoundOp)
  | .compound op left right =>
    if (op == .union || op == .unionAll) && recursive right then
      let (setup, steps) := left.splitWhile op recursive
      some (setup, steps ++ [right], op)
    else none
  | _ => none

mutual

/-- Binds the common tables that the subqueries of an expression read. -/
def bindExpr : Nat → Binding → Expr → Expr
  | 0, _, e => e
  | fuel + 1, b, e =>
    let go := bindExpr fuel b
    match e with
    | .unary op x => .unary op (go x)
    | .binary op l r => .binary op (go l) (go r)
    | .isNull x negated => .isNull (go x) negated
    | .between x low high negated => .between (go x) (go low) (go high) negated
    | .inList x items negated => .inList (go x) (items.map go) negated
    | .inQuery x q negated => .inQuery (go x) (bindQuery fuel b none q) negated
    | .pattern op x p escape negated => .pattern op (go x) (go p) (escape.map go) negated
    | .case base branches otherwise =>
      .case (base.map go) (branches.map fun (w, t) => (go w, go t)) (otherwise.map go)
    | .cast x type => .cast (go x) type
    | .call name args distinct star => .call name (args.map go) distinct star
    | .collate x collation => .collate (go x) collation
    | .subquery q => .subquery (bindQuery fuel b none q)
    | .exists q => .exists (bindQuery fuel b none q)
    | .row items => .row (items.map go)
    | .field q index width => .field (bindQuery fuel b none q) index width
    | .clauses call condition orderBy =>
      .clauses (go call) (condition.map go) (orderBy.map fun (t, d, n) => (go t, d, n))
    | .window id name args star filter overClause =>
      .window id name (args.map go) star (filter.map go) (overClause.mapTerms go)
    | other => other

/-- Binds the common tables a query reads. `self` is the recursive table whose row the query's
own `FROM` clause reads, when the query is a recursive select. -/
def bindQuery : Nat → Binding → Option Expanding → Query → Query
  | 0, _, _, q => q
  | fuel + 1, b, self, q =>
    let expr := bindExpr fuel b
    match q with
    | .select distinct columns source filter groupBy having windows =>
      .select distinct (columns.map (bindColumn fuel b)) (source.map (bindSource fuel b self))
        (filter.map expr) (groupBy.map expr) (having.map expr)
        (windows.map fun (n, w) => (n, w.mapTerms expr))
    | .values rows => .values (rows.map (·.map expr))
    | .compound op left right => .compound op (bindQuery fuel b none left) (bindQuery fuel b none right)
    | .ordered body orderBy limit offset =>
      .ordered (bindQuery fuel b none body) (orderBy.map fun (e, d, n) => (expr e, d, n))
        (limit.map expr) (offset.map expr)

/-- Binds the common tables a result column reads. -/
def bindColumn : Nat → Binding → ResultColumn → ResultColumn
  | 0, _, c => c
  | fuel + 1, b, c =>
    match c with
    | .expr e aliasName text => .expr (bindExpr fuel b e) aliasName text
    | other => other

/-- Binds the common tables a `FROM` clause names and reads. -/
def bindSource : Nat → Binding → Option Expanding → Source → Source
  | 0, _, _, s => s
  | fuel + 1, b, self, s =>
    match s with
    | .table name aliasName =>
      match self with
      | some w =>
        if sameName w.name name then .working w.name w.columns w.setup aliasName
        else bindName fuel b name aliasName
      | none => bindName fuel b name aliasName
    | .query q aliasName => .query (bindQuery fuel b none q) aliasName
    | .join kind natural left right on usingColumns =>
      .join kind natural (bindSource fuel b self left) (bindSource fuel b self right)
        (on.map (bindExpr fuel b)) usingColumns
    | .common name columns q aliasName => .common name columns (bindQuery fuel b none q) aliasName
    | .recursive name columns q aliasName => .recursive name columns (bindQuery fuel b none q) aliasName
    | .working name columns setup aliasName =>
      .working name columns (bindQuery fuel b none setup) aliasName

/-- The source a name in a `FROM` clause becomes: the clause's table of that name, unless its
query is being bound, or else the name itself. -/
def bindName : Nat → Binding → String → Option String → Source
  | 0, _, name, aliasName => .table name aliasName
  | fuel + 1, b, name, aliasName =>
    match b.tables.find? (sameName ·.name name) with
    | some t =>
      if b.active.any (sameName · name) then .table name aliasName else commonSource fuel b t aliasName
    | none => .table name aliasName

/-- The source a table of the clause becomes where a query reads it. -/
def commonSource : Nat → Binding → CommonTable → Option String → Source
  | 0, _, t, aliasName => .table t.name aliasName
  | fuel + 1, b, t, aliasName =>
    let inner := { b with active := t.name :: b.active }
    let expr := bindExpr fuel inner
    let (core, orderBy, limit, offset) := match t.query with
      | .ordered body orderBy limit offset => (body, orderBy, limit, offset)
      | q => (q, [], none, none)
    match core.recursiveParts (Query.readsTable t.name) with
    | some (setup, steps, op) =>
      let setup := bindQuery fuel inner none setup
      let self : Expanding := { name := t.name, columns := t.columns, setup := setup }
      let body := steps.foldl (fun acc step => .compound op acc (bindQuery fuel inner (some self) step))
        setup
      let body := if orderBy.isEmpty && limit.isNone && offset.isNone then body
        else .ordered body (orderBy.map fun (e, d, n) => (expr e, d, n)) (limit.map expr)
          (offset.map expr)
      .recursive t.name t.columns body aliasName
    | none => .common t.name t.columns (bindQuery fuel inner none t.query) aliasName

end

/-- How deep binding goes: far deeper than any statement the parser reads. -/
def bindingDepth : Nat := 100000

/-- A query with the tables of the `WITH` clause before it bound. -/
def Query.withTables (tables : List CommonTable) (q : Query) : Query :=
  bindQuery bindingDepth { tables := tables } none q

/-- A statement with the tables of the `WITH` clause before it bound. -/
def Stmt.withTables (tables : List CommonTable) : Stmt → Stmt
  | .insert conflict table columns source upserts =>
    let source := match source with
      | .query q => .query (q.withTables tables)
      | other => other
    let upserts := upserts.map fun u => match u.action with
      | .update assignments filter =>
        let assignments := assignments.map fun (n, e) => (n, bind e)
        { u with action := .update assignments (filter.map bind) }
      | .nothing => u
    .insert conflict table columns source upserts
  | .update conflict table assignments filter =>
    .update conflict table (assignments.map fun (n, e) => (n, bind e)) (filter.map bind)
  | .delete table filter => .delete table (filter.map bind)
  | .select q => .select (q.withTables tables)
  | other => other
where
  /-- An expression with the clause's tables bound. -/
  bind (e : Expr) : Expr := bindExpr bindingDepth { tables := tables } e

end Sql
end TreeHistory
