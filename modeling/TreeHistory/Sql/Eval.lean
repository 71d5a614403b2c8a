import TreeHistory.Sql.Common
import TreeHistory.Sql.Window
import TreeHistory.Sql.Lexer
import TreeHistory.Sql.JsonFunctions

/-!
# Evaluating expressions and queries

An expression is evaluated in an environment: the database, the parameters, and the rows in scope,
innermost query first (`Env.scopes`). A name is looked up level by level. A query gives its rows
in the order its source is read, filtered, grouped, then stably sorted on its `ORDER BY` terms.
Every evaluation step takes fuel, which bounds the depth of nesting.
-/

namespace TreeHistory
namespace Sql

/-- How a statement that fails ends. -/
inductive Failure where
  /-- The statement stops and its changes are undone. -/
  | abort (message : String)
  /-- The statement stops and its changes so far are kept. -/
  | fail (message : String)
  /-- The statement stops and the whole transaction is undone. -/
  | rollback (message : String)
  /-- The row being written is passed over and the statement goes on (`RAISE(IGNORE)`). -/
  | ignore
  deriving Repr, Inhabited

/-- The message of a failure. -/
def Failure.message : Failure → String
  | .abort m | .fail m | .rollback m => m
  | .ignore => ""

/-- Results of evaluation. -/
abbrev Eval := Except Failure

/-- An error message as a failure that undoes the statement. -/
def abortWith {α : Type} : Except String α → Eval α
  | .ok a => .ok a
  | .error m => .error (.abort m)

/-- The nesting allowed to any evaluation. -/
def defaultFuel : Nat := 2000

/-- The name a source is known by and its columns; a `qualifiedOnly` source is reached only by its
name, an `untyped` one gives comparisons no affinities. -/
structure Shape where
  name : String
  columns : List Column
  hasRowid : Bool := true
  qualifiedOnly : Bool := false
  untyped : Bool := false
  joinKind : JoinKind := .inner
  usingColumns : List String := []
  deriving Repr

/-- One source's row as an expression sees it. -/
structure Frame where
  shape : Shape
  values : List Value
  rowid : Int := 0
  deriving Repr

/-- A row of `NULL`s of a shape, for the missing side of an outer join or an empty group. -/
def Frame.nulls (shape : Shape) : Frame :=
  { shape := shape, values := shape.columns.map fun _ => .null }

/-- The row id seen as a column. -/
def rowidColumn : Column := { name := "rowid", type := "INTEGER", affinity := .integer }

/-- Whether a name means the row id. -/
def isRowidName (name : String) : Bool :=
  sameName name "rowid" || sameName name "oid" || sameName name "_rowid_"

/-- What a name refers to. -/
inductive Target where
  /-- A column of a source at a level of nesting. -/
  | column (level source index : Nat)
  /-- The row id of a source at a level of nesting. -/
  | rowid (level source : Nat)
  /-- A column that sources full-joined on it share: the first of their values that is not `NULL`. -/
  | coalesce (level : Nat) (columns : List (Nat × Nat))
  /-- A name that names nothing and stands for a value: a double-quoted string, `TRUE` or `FALSE`. -/
  | constant (value : Value)
  deriving Repr

/-- The name as a message writes it. -/
def displayName (table : Option String) (name : String) : String :=
  match table with
  | some t => t ++ "." ++ name
  | none => name

/-- One source's say in looking a name up: the matches so far, the last, and those it merges with. -/
def matchStep (name : String) (st : Nat × Option (Nat × Nat) × List (Nat × Nat))
    (entry : Shape × Nat) : Nat × Option (Nat × Nat) × List (Nat × Nat) :=
  let (count, chosen, merged) := st
  let (shape, i) := entry
  match shape.columns.findIdx? (fun c => sameName c.name name) with
  | none => st
  | some j =>
    if count = 0 then (1, some (i, j), merged)
    else if !shape.usingColumns.any (sameName · name) then (count + 1, some (i, j), [])
    else match shape.joinKind with
      | .right => (1, some (i, j), [])
      | .full => (count + 1, some (i, j), merged ++ chosen.toList)
      | _ => st

/-- Looks a name up among the sources of one level. -/
def resolveLevel (level : Nat) (shapes : List Shape) (table : Option String) (name : String) :
    Except String (Option Target) :=
  let candidates := shapes.zipIdx.filter fun (shape, _) =>
    table.all (sameName shape.name ·) && (table.isSome || !shape.qualifiedOnly)
  match candidates.foldl (matchStep name) (0, none, []) with
  | (1, some (i, j), _) => .ok (some (.column level i j))
  | (count + 2, some last, merged) =>
    if merged.length = count + 1 then .ok (some (.coalesce level (merged ++ [last])))
    else .error ("ambiguous column name: " ++ displayName table name)
  | _ =>
    if isRowidName name then
      match candidates with
      | [(shape, i)] => .ok (if shape.hasRowid then some (.rowid level i) else none)
      | _ => .ok none
    else .ok none

/-- Looks a name up level by level, the innermost first. -/
def resolve (scopes : List (List Shape)) (table : Option String) (name : String) (quoted : Bool) :
    Except String Target :=
  let rec go : Nat → List (List Shape) → Except String Target
    | _, [] =>
      match table, quoted, truthWord? name with
      | none, true, _ => .ok (.constant (.text name))
      | none, false, some b => .ok (.constant (.int (if b then 1 else 0)))
      | _, _, _ => .error ("no such column: " ++ displayName table name)
    | level, shapes :: rest => do
      match ← resolveLevel level shapes table name with
      | some target => pure target
      | none => go (level + 1) rest
  go 0 scopes

/-- The value of a function that reads the connection's counters. -/
def Database.counter? (db : Database) (name : String) : Option Value :=
  match name.toLower with
  | "last_insert_rowid" => some (.int db.lastInsertRowid)
  | "changes" => some (.int db.changes)
  | "total_changes" => some (.int db.totalChanges)
  | _ => none

/-- Where an expression is evaluated. -/
structure Env where
  db : Database
  params : Array Value := #[]
  /-- The rows in scope, innermost query first. -/
  scopes : List (List Frame) := []
  /-- The rows of the group an aggregate summarizes, in an aggregate query. -/
  group : Option (List (List Frame)) := none
  /-- Whether the statement is part of a trigger. -/
  inTrigger : Bool := false
  /-- The rows that recursive common tables are expanding, the innermost first. -/
  working : List (String × List Column × List Value) := []
  /-- The values of the window functions of the row being produced, by the numbers of their
  calls. -/
  windows : List (Nat × Value) := []

namespace Env

/-- The shapes of the rows in scope. -/
def shapes (env : Env) : List (List Shape) := env.scopes.map (·.map (·.shape))

/-- The frame of a source at a level. -/
def frame? (env : Env) (level source : Nat) : Option Frame :=
  (env.scopes[level]?).bind (·[source]?)

/-- The value a name refers to, and its column when it names one. -/
def lookup (env : Env) (table : Option String) (name : String) (quoted : Bool) :
    Eval (Value × Option Column) := do
  match ← abortWith (resolve env.shapes table name quoted) with
  | .column level source index =>
    match env.frame? level source with
    | some f => pure ((f.values[index]?).getD .null, f.shape.columns[index]?)
    | none => pure (.null, none)
  | .rowid level source =>
    pure (.int ((env.frame? level source).map (·.rowid) |>.getD 0), some rowidColumn)
  | .coalesce level columns =>
    let values := columns.map fun (source, index) =>
      ((env.frame? level source).bind (·.values[index]?)).getD .null
    pure (((values.find? (!·.isNull)).getD .null), none)
  | .constant v => pure (v, none)

/-- The column a name refers to, if it names one. -/
def columnOf? (env : Env) (table : Option String) (name : String) (quoted : Bool) : Option Column :=
  match env.lookup table name quoted with
  | .ok (_, column) => column
  | .error _ => none

/-- The environment with one more level of rows, innermost. -/
def push (env : Env) (row : List Frame) : Env :=
  { env with scopes := row :: env.scopes, group := none }

end Env

/-- The affinity a name gives a comparison: its column's, and `INTEGER` for a row id. -/
def Env.affinityOf? (env : Env) (table : Option String) (name : String) (quoted : Bool) :
    Option Affinity :=
  match resolve env.shapes table name quoted with
  | .ok (.column level source index) =>
    (env.frame? level source).bind fun f =>
      if f.shape.untyped then none else (f.shape.columns[index]?).map (·.affinity)
  | .ok (.rowid ..) => some .integer
  | _ => none

/-- The affinity a cast gives: that of the type as a column would have it; no type is numeric. -/
def castAffinity (type : String) : Affinity :=
  if type.isEmpty then .numeric else Affinity.ofType type

/-- The affinity an expression gives a comparison: a column's, or a cast's type's. -/
def exprAffinity (env : Env) : Expr → Option Affinity
  | .column t n q => env.affinityOf? t n q
  | .cast _ type => some (castAffinity type)
  | .collate e _ => exprAffinity env e
  | _ => none

/-- Whether an expression holds a `COLLATE` outside its subqueries. -/
def Expr.hasCollate : Nat → Expr → Bool
  | 0, _ => false
  | fuel + 1, e =>
    let go := Expr.hasCollate fuel
    match e with
    | .collate .. => true
    | .unary _ x | .cast x _ | .isNull x _ | .inQuery x _ _ => go x
    | .binary _ l r => go l || go r
    | .between x l h _ => go x || go l || go h
    | .inList x items _ => go x || items.any go
    | .pattern _ x p esc _ => go x || go p || (esc.map go).getD false
    | .case base branches otherwise =>
      (base.map go).getD false || branches.any (fun (w, t) => go w || go t) ||
        (otherwise.map go).getD false
    | .call _ args _ _ | .row args => args.any go
    | .window _ _ args _ _ _ => args.any go
    | .clauses inner _ _ => go inner
    | _ => false

/-- The collation an expression carries: a column's, a `COLLATE`'s, or its first operand's. -/
def collationOf? (env : Env) : Nat → Expr → Option String
  | 0, _ => none
  | fuel + 1, e =>
    let go := collationOf? env fuel
    let first (xs : List Expr) : Option String :=
      (xs.find? (Expr.hasCollate fuel)).bind go
    match e with
    | .column t n q => (env.columnOf? t n q).map (·.collation)
    | .collate _ c => some c.toUpper
    | .cast x _ | .unary .pos x => go x
    | .row items => items.head?.bind go
    | _ =>
      if !Expr.hasCollate (fuel + 1) e then none
      else match e with
        | .unary _ x | .isNull x _ | .inQuery x _ _ => go x
        | .binary _ l r => first [l, r]
        | .between x l h _ => first [x, l, h]
        | .inList x items _ => first (x :: items)
        | .pattern _ x p esc _ => first ([p, x] ++ esc.toList)
        | .case base branches otherwise =>
          first (base.toList ++ branches.flatMap (fun (w, t) => [w, t]) ++ otherwise.toList)
        | .call _ args _ _ => first args
        | .window _ _ args _ _ _ => first args
        | .clauses call _ _ => go call
        | _ => none

/-- The collation an expression names explicitly, from a `COLLATE` it holds. -/
def explicitCollation (e : Expr) : Option String :=
  if Expr.hasCollate defaultFuel e then collationOf? { db := {} } defaultFuel e else none

/-- The collation of a column an expression names, when it holds no `COLLATE`. -/
def columnCollation (env : Env) (e : Expr) : Option String :=
  if Expr.hasCollate defaultFuel e then none else collationOf? env defaultFuel e

/-- The collation of an expression for sorting: the one it carries, else `BINARY`. -/
def exprCollation (env : Env) (e : Expr) : String :=
  (collationOf? env defaultFuel e).getD "BINARY"

/-- The collation a comparison uses: a side's `COLLATE`, the left first, else the left side's, else
the right's. -/
def binaryCollation (env : Env) (l r : Expr) : String :=
  match explicitCollation l, explicitCollation r with
  | some c, _ => c
  | none, some c => c
  | none, none => ((columnCollation env l).orElse fun _ => columnCollation env r).getD "BINARY"

/-- The affinity a comparison applies, from the affinities of its sides. -/
def comparisonAffinity (left right : Option Affinity) : Option Affinity :=
  match left, right with
  | some a, some b => if a.isNumeric || b.isNumeric then some .numeric else none
  | some a, none => some a
  | none, some b => some b
  | none, none => none

/-- Whether a value is text. -/
def Value.isText : Value → Bool
  | .text _ => true
  | _ => false

/-- A number as text; other values stay. -/
def Value.stringify (v : Value) : Value :=
  match v with
  | .int _ | .real _ => .text (v.toText?.getD "")
  | _ => v

/-- Text as the number it reads as, for a numeric comparison. -/
def Value.numericOperand (v : Value) : Value :=
  match v with
  | .text _ => v.numericAffinity false
  | _ => v

/-- Converts the operands of a comparison by its affinity. -/
def prepareOperands (aff : Option Affinity) (a b : Value) : Value × Value :=
  match aff with
  | some af =>
    if af.isNumeric then (a.numericOperand, b.numericOperand)
    else if af = .text ∧ (a.isText || b.isText) then (a.stringify, b.stringify)
    else (a, b)
  | none => (a, b)

/-- Compares two values under an affinity and a collation; unknown when either is `NULL`. -/
def compareUnder (aff : Option Affinity) (collation : String) (a b : Value) : Option Ordering :=
  if a.isNull ∨ b.isNull then none
  else
    let (a, b) := prepareOperands aff a b
    some (compareWith collation a b)

/-- A truth value as a value. -/
def ofBool (b : Bool) : Value := .int (if b then 1 else 0)

/-- An unknown-or-known truth as a value. -/
def ofTruth : Option Bool → Value
  | some b => ofBool b
  | none => .null

/-- Whether an ordering satisfies a comparison operator. -/
def holds (op : BinaryOp) (o : Ordering) : Bool :=
  match op with
  | .eq | .is => o == .eq
  | .ne | .isNot => o != .eq
  | .lt => o == .lt
  | .le => o != .gt
  | .gt => o == .gt
  | .ge => o != .lt
  | _ => false

/-- Whether an operator compares its two sides, which must then give as many values each. -/
def BinaryOp.compares : BinaryOp → Bool
  | .eq | .ne | .lt | .le | .gt | .ge | .is | .isNot => true
  | _ => false

/-- Whether an expression may stand for a row of values: a row value, or a subquery, whose
result row is one. -/
def Expr.mayBeRow : Expr → Bool
  | .row _ | .subquery _ => true
  | _ => false

/-- One element of a row value being compared: its value, affinity and collations. -/
structure Element where
  value : Value
  affinity : Option Affinity := none
  explicit : Option String := none
  column : Option String := none

/-- The element an expression gives with its value. -/
def Element.ofExpr (env : Env) (e : Expr) (v : Value) : Element :=
  { value := v, affinity := exprAffinity env e, explicit := explicitCollation e,
    column := columnCollation env e }

/-- The element a column of a subquery's result gives with its value. -/
def Element.ofColumn (c : Column) (v : Value) : Element :=
  { value := v,
    affinity := match c.affinity with
      | .blob => none
      | a => some a,
    column := if c.collation == "BINARY" then none else some c.collation }

def Element.compare (a b : Element) : Option Ordering :=
  let collation := ((a.explicit.orElse fun _ => b.explicit).orElse fun _ =>
    a.column.orElse fun _ => b.column).getD "BINARY"
  compareUnder (comparisonAffinity a.affinity b.affinity) collation a.value b.value

/-- Whether two elements are the same for `IS`: both `NULL`, or equal. -/
def Element.same (a b : Element) : Bool :=
  if a.value.isNull ∨ b.value.isNull then a.value.isNull && b.value.isNull
  else a.compare b == some .eq

/-- Whether two rows are equal: false at the first pair that differs, else unknown on a `NULL`. -/
def rowsEqual : List Element → List Element → Option Bool
  | a :: as, b :: bs =>
    match a.compare b with
    | some .eq => rowsEqual as bs
    | some _ => some false
    | none => if rowsEqual as bs == some false then some false else none
  | _, _ => some true

/-- The strict order an order comparison decides by before its last pair. -/
def BinaryOp.strict : BinaryOp → BinaryOp
  | .le => .lt
  | .ge => .gt
  | op => op

/-- Orders two rows: the first unequal pair decides, a `NULL` in it making the answer unknown. -/
def rowsOrdered (op : BinaryOp) : List Element → List Element → Option Bool
  | [a], [b] => (a.compare b).map (holds op)
  | a :: as, b :: bs =>
    match a.compare b with
    | none => none
    | some .eq => rowsOrdered op as bs
    | some o => some (holds op.strict o)
  | _, _ => none

/-- Compares two rows of the same length under a comparison operator. -/
def compareRows (op : BinaryOp) (ls rs : List Element) : Value :=
  match op with
  | .eq => ofTruth (rowsEqual ls rs)
  | .ne => ofTruth ((rowsEqual ls rs).map (!·))
  | .is => ofBool ((ls.zip rs).all fun (a, b) => a.same b)
  | .isNot => ofBool !((ls.zip rs).all fun (a, b) => a.same b)
  | _ => ofTruth (rowsOrdered op ls rs)

/-- Whether a row is among rows: true, unknown when one may equal it, else false. -/
def rowMembership (row : List Element) (rows : List (List Element)) (negated : Bool) : Value :=
  let results := rows.map (rowsEqual row)
  let found :=
    if results.any (· == some true) then some true
    else if results.any (· == none) then none
    else some false
  ofTruth (if negated then found.map (!·) else found)

/-- Three-valued conjunction. -/
def and3 : Option Bool → Option Bool → Option Bool
  | some false, _ | _, some false => some false
  | some true, some true => some true
  | _, _ => none

/-- Three-valued disjunction. -/
def or3 : Option Bool → Option Bool → Option Bool
  | some true, _ | _, some true => some true
  | some false, some false => some false
  | _, _ => none

/-- The value of an integer literal, negated or not; too large for 64 bits it is a double. -/
def integerValue (text : String) (negated : Bool) : Except String Value :=
  let chars := text.toList
  let sign := if negated then "-" else ""
  match chars with
  | '0' :: x :: digits =>
    if x = 'x' ∨ x = 'X' then
      let significant := digits.dropWhile (· = '0')
      if significant.length > 16 then .error ("hex literal too big: " ++ sign ++ text)
      else
        let value := ofBits64 (significant.foldl (fun acc c => acc * 16 + hexValue c) 0)
        if negated ∧ value = Double.minInt then .error ("hex literal too big: " ++ sign ++ text)
        else .ok (.int (if negated then -value else value))
    else decimalValue chars negated
  | _ => decimalValue chars negated
where
  /-- A decimal literal's value. -/
  decimalValue (chars : List Char) (negated : Bool) : Except String Value :=
    let magnitude : Nat := chars.foldl (fun acc c => acc * 10 + (c.toNat - 48)) 0
    let limit : Nat := 9223372036854775808
    if negated then
      if magnitude ≤ limit then .ok (.int (-(magnitude : Int)))
      else .ok (.real (-(scanReal chars).1))
    else if magnitude < limit then .ok (.int magnitude)
    else .ok (.real (scanReal chars).1)

/-- The value of a real literal as written, negated or not. -/
def floatValue (text : String) (negated : Bool) : Value :=
  let x := (scanReal text.toList).1
  .real (if negated then -x else x)

/-- Applies a prefix operator. -/
def unaryValue (op : UnaryOp) (v : Value) : Value :=
  match op with
  | .neg => arith .sub (.int 0) v
  | .pos => v
  | .bitNot => if v.isNull then .null else .int (ofBits64 (18446744073709551615 - toBits64 v.toInt))
  | .not => ofTruth (v.truth?.map (!·))

/-- A value converted by `CAST` to a type. -/
def castTo (type : String) (v : Value) : Value :=
  if v.isNull then .null
  else
    match castAffinity type with
    | .text => .text (v.toText?.getD "")
    | .blob =>
      match v with
      | .blob _ => v
      | _ => .blob (Value.textBytes (v.toText?.getD ""))
    | .numeric => v.numerify
    | .integer => .int v.toInt
    | .real => .real v.toReal

/-- Whether a call is to an aggregate function. -/
def isAggregateCall (name : String) (argc : Nat) (star : Bool) : Bool :=
  (star && sameName name "count") || isAggregate name argc

/-- Whether an expression holds an aggregate call outside any subquery. -/
def hasAggregate : Nat → Expr → Bool
  | 0, _ => false
  | fuel + 1, e =>
    match e with
    | .call name args _ star =>
      isAggregateCall name args.length star || args.any (hasAggregate fuel)
    | .row items => items.any (hasAggregate fuel)
    | .clauses call _ _ => hasAggregate fuel call
    | .window _ _ args _ filter overClause =>
      args.any (hasAggregate fuel) || (filter.map (hasAggregate fuel)).getD false ||
        overClause.partitionBy.any (hasAggregate fuel) || overClause.orderBy.any (hasAggregate fuel ·.1)
    | .unary _ x | .isNull x _ | .cast x _ | .collate x _ | .inQuery x _ _ => hasAggregate fuel x
    | .binary _ l r => hasAggregate fuel l || hasAggregate fuel r
    | .between x l h _ => hasAggregate fuel x || hasAggregate fuel l || hasAggregate fuel h
    | .inList x items _ => hasAggregate fuel x || items.any (hasAggregate fuel)
    | .pattern _ x p esc _ =>
      hasAggregate fuel x || hasAggregate fuel p || (esc.map (hasAggregate fuel)).getD false
    | .case base branches otherwise =>
      (base.map (hasAggregate fuel)).getD false ||
      branches.any (fun (w, t) => hasAggregate fuel w || hasAggregate fuel t) ||
      (otherwise.map (hasAggregate fuel)).getD false
    | _ => false

/-- A `min` or `max` call of one argument: its direction, argument, `FILTER` and `DISTINCT`. -/
structure ExtremeCall where
  greatest : Bool
  arg : Expr
  filter : Option Expr := none
  distinct : Bool := false

/-- Whether two `min` or `max` calls are the same call. -/
def ExtremeCall.same (a b : ExtremeCall) : Bool :=
  a.greatest == b.greatest && a.distinct == b.distinct && Expr.same termFuel a.arg b.arg &&
    match a.filter, b.filter with
    | none, none => true
    | some f, some g => Expr.same termFuel f g
    | _, _ => false

/-- The `min` and `max` calls of one argument outside any subquery, in order. -/
def extremeCalls : Nat → Expr → List ExtremeCall
  | 0, _ => []
  | fuel + 1, e =>
    let go := extremeCalls fuel
    let named (name : String) (arg : Expr) (filter : Option Expr) (distinct : Bool) :
        List ExtremeCall :=
      if sameName name "min" then [{ greatest := false, arg, filter, distinct }]
      else if sameName name "max" then [{ greatest := true, arg, filter, distinct }]
      else go arg
    match e with
    | .call name [arg] distinct false => named name arg none distinct
    | .clauses (.call name [arg] distinct false) filter _ => named name arg filter distinct
    | .call _ args _ _ | .row args => args.flatMap go
    | .unary _ x | .isNull x _ | .cast x _ | .collate x _ | .inQuery x _ _ => go x
    | .binary _ l r => go l ++ go r
    | .between x l h _ => go x ++ go l ++ go h
    | .inList x items _ => go x ++ items.flatMap go
    | .pattern _ x p esc _ => go p ++ go x ++ ((esc.map go).getD [])
    | .case base branches otherwise =>
      ((base.map go).getD []) ++ branches.flatMap (fun (w, t) => go w ++ go t) ++
      ((otherwise.map go).getD [])
    | _ => []

/-- The row of a group the other columns of an aggregate query are read from: the last that no
`min` or `max` call holds back; with no calls, the first. -/
def readRow (calls : List ExtremeCall) (collations : List String) (counted : Bool)
    (fed : List (List (Bool × Value))) : Option Nat :=
  let stepCall (later : Bool) (st : Bool × List (Option Value × List Value))
      (entry : (ExtremeCall × String) × (Bool × Value) × Option Value × List Value) :
      Bool × List (Option Value × List Value) :=
    let (held, states) := st
    let ((c, collation), (passes, v), best, seen) := entry
    let held := if c.filter.isSome && counted then later else held
    if !passes then (held, states ++ [(best, seen)])
    else if c.distinct && seen.any (Value.same v) then (held, states ++ [(best, seen)])
    else
      let seen := if c.distinct then seen ++ [v] else seen
      if v.isNull then (best.isSome, states ++ [(best, seen)])
      else match best with
        | none => (false, states ++ [(some v, seen)])
        | some w =>
          let better := match compareWith collation v w with
            | .gt => c.greatest
            | .lt => !c.greatest
            | .eq => false
          if better then (false, states ++ [(some v, seen)]) else (true, states ++ [(best, seen)])
  let stepRow (st : Bool × List (Option Value × List Value) × Option Nat)
      (entry : List (Bool × Value) × Nat) : Bool × List (Option Value × List Value) × Option Nat :=
    let (held, states, read) := st
    let (values, k) := entry
    if calls.isEmpty then (held, states, if k = 0 then some 0 else read)
    else
      let (held, states) := ((calls.zip collations).zip (values.zip states)).foldl
        (fun acc (cc, (pv, (best, seen))) => stepCall (k > 0) (acc.1, acc.2) (cc, pv, best, seen))
        (held, [])
      (held, states, if held then read else some k)
  (fed.zipIdx.foldl stepRow (false, calls.map fun _ => (none, []), none)).2.2

/-- A relation: named columns and rows of values. -/
structure Relation where
  columns : List Column
  rows : List (List Value)
  deriving Repr

/-- What a result column computes: an expression, or a column of a source of the row. -/
inductive Output where
  | expr (e : Expr)
  | slot (source index : Nat)
  deriving Repr

/-- A result column: what it computes, the column that describes it, and its alias. -/
structure ResultSlot where
  output : Output
  column : Column
  aliasName : Option String := none
  deriving Repr

/-- Expands the result columns of a select over its sources. -/
def expandColumns (env : Env) (shapes : List Shape) (columns : List ResultColumn) :
    Eval (List ResultSlot) := do
  let inner := { env with scopes := (shapes.map Frame.nulls) :: env.scopes }
  let joinedLater (i : Nat) (c : String) : Bool :=
    (shapes.drop (i + 1)).any (·.joinKind.keepsRight) &&
      (shapes.drop (i + 1)).any (·.usingColumns.any (sameName · c))
  let sourceSlots (found : List (Shape × Nat)) (qualified : Bool) : List ResultSlot :=
    found.flatMap fun (shape, i) =>
      shape.columns.zipIdx.filterMap fun (c, j) =>
        if !qualified && i > 0 && shape.usingColumns.any (sameName · c.name) then none
        else if joinedLater i c.name then
          some { output := .expr (.column none c.name false),
                 column := (inner.columnOf? none c.name false).getD { name := c.name } }
        else some { output := .slot i j, column := c }
  let parts ← columns.mapM fun
    | .all =>
      if shapes.isEmpty then throw (.abort "no tables specified")
      else pure (sourceSlots shapes.zipIdx false)
    | .allOf t =>
      match shapes.zipIdx.filter (fun (shape, _) => sameName shape.name t) with
      | [] => throw (.abort ("no such table: " ++ t))
      | found => pure (sourceSlots found true)
    | .expr e aliasName text =>
      let column : Column := match e with
        | .column t n q => (inner.columnOf? t n q).getD { name := n }
        | _ => { name := text, affinity := (exprAffinity inner e).getD .blob,
                 collation := (collationOf? inner defaultFuel e).getD "BINARY" }
      pure [{ output := .expr e, column := { column with name := aliasName.getD column.name },
              aliasName := aliasName }]
  pure parts.flatten

/-- Whether an expression is the literal 0, or a conjunction with such a side. -/
def alwaysFalse : Expr → Bool
  | .integer text => match integerValue text false with
    | .ok (.int 0) => true
    | _ => false
  | .binary .and l r => alwaysFalse l || alwaysFalse r
  | _ => false

/-- The position an `ORDER BY` or `GROUP BY` term names as a 32-bit integer literal. -/
def integerTerm? : Expr → Option Int
  | .integer text => match integerValue text false with
    | .ok (.int n) => if n ≤ 2147483647 then some n else none
    | _ => none
  | .unary .pos x => integerTerm? x
  | .unary .neg x => (integerTerm? x).map (- ·)
  | _ => none

/-- An expression without the `COLLATE` clauses around it. -/
def skipCollate : Expr → Expr
  | .collate x _ => skipCollate x
  | e => e

/-- Checks, before any row is read, that an expression's names and functions exist. -/
def checkExpr (scopes : List (List Shape)) : Nat → Expr → Except String Unit
  | 0, _ => .ok ()
  | fuel + 1, e =>
    match e with
    | .column t n q => (resolve scopes t n q).map fun _ => ()
    | .unary _ x | .isNull x _ | .cast x _ | .collate x _ | .inQuery x _ _ =>
      checkExpr scopes fuel x
    | .binary .and l r =>
      if alwaysFalse l || alwaysFalse r then .ok ()
      else do checkExpr scopes fuel l; checkExpr scopes fuel r
    | .binary _ l r => do checkExpr scopes fuel l; checkExpr scopes fuel r
    | .between x l h _ => do
      checkExpr scopes fuel x; checkExpr scopes fuel l; checkExpr scopes fuel h
    | .inList x items _ => do
      checkExpr scopes fuel x
      items.forM (checkExpr scopes fuel)
    | .pattern _ x p esc _ => do
      checkExpr scopes fuel x
      checkExpr scopes fuel p
      match esc with
      | some e => checkExpr scopes fuel e
      | none => pure ()
    | .case base branches otherwise => do
      match base with
      | some b => checkExpr scopes fuel b
      | none => pure ()
      branches.forM fun (w, t) => do checkExpr scopes fuel w; checkExpr scopes fuel t
      match otherwise with
      | some o => checkExpr scopes fuel o
      | none => pure ()
    | .call name args _ star =>
      match arity name with
      | none => .error ("no such function: " ++ name)
      | some ok =>
        if star then
          if sameName name "count" then .ok ()
          else .error ("wrong number of arguments to function " ++ name ++ "()")
        else if !ok args.length then
          .error ("wrong number of arguments to function " ++ name ++ "()")
        else args.forM (checkExpr scopes fuel)
    | .row items => items.forM (checkExpr scopes fuel)
    | _ => .ok ()

/-- Rewrites the names of an expression outside its subqueries by `f`. -/
def Expr.replaceNames (f : Option String → String → Bool → Option Expr) : Nat → Expr → Expr
  | 0, e => e
  | fuel + 1, e =>
    let go := Expr.replaceNames f fuel
    match e with
    | .column t n q => (f t n q).getD e
    | .unary op x => .unary op (go x)
    | .binary op l r => .binary op (go l) (go r)
    | .isNull x negated => .isNull (go x) negated
    | .between x low high negated => .between (go x) (go low) (go high) negated
    | .inList x items negated => .inList (go x) (items.map go) negated
    | .inQuery x q negated => .inQuery (go x) q negated
    | .pattern op x p escape negated => .pattern op (go x) (go p) (escape.map go) negated
    | .case base branches otherwise =>
      .case (base.map go) (branches.map fun (w, t) => (go w, go t)) (otherwise.map go)
    | .cast x type => .cast (go x) type
    | .call name args distinct star => .call name (args.map go) distinct star
    | .collate x c => .collate (go x) c
    | .row items => .row (items.map go)
    | other => other

/-- The aliases of a select's result columns, with the expressions they name. -/
def aliasesOf (slots : List ResultSlot) : List (String × Expr) :=
  slots.filterMap fun s => match s.aliasName, s.output with
    | some a, .expr e => some (a, e)
    | _, _ => none

/-- A select's expression with each bare name only a result column has read as its expression. -/
def withAliases (shapes : List Shape) (aliases : List (String × Expr)) (e : Expr) : Expr :=
  e.replaceNames (fun t n _ =>
    match t, resolveLevel 0 shapes none n with
    | none, .ok none => (aliases.find? (sameName ·.1 n)).map (·.2)
    | _, _ => none) defaultFuel

/-- The result column an `ORDER BY` term names by its alias: the term must be a bare name. -/
def aliasSlot? (slots : List ResultSlot) (e : Expr) : Option Nat :=
  match skipCollate e with
  | .column none n _ => slots.findIdx? fun s => (s.aliasName.map (sameName · n)).getD false
  | _ => none

/-- The collation of an `ORDER BY` term: its own `COLLATE`, else its result column's, else its own. -/
def termCollation (env : Env) (slots : List ResultSlot) (e : Expr) : String :=
  let slotCollation (s : ResultSlot) : String := match s.output with
    | .expr x => exprCollation env x
    | .slot .. => s.column.collation
  match explicitCollation e with
  | some c => c
  | none =>
    let positioned := (integerTerm? (skipCollate e)).bind fun k =>
      if 1 ≤ k then slots[k.toNat - 1]? else none
    match (aliasSlot? slots e).bind (slots[·]?), positioned with
    | some s, _ => slotCollation s
    | none, some s => slotCollation s
    | none, none => exprCollation env e

def checkSelect (env : Env) (shapes : List Shape) (slots : List ResultSlot) (filter : Option Expr)
    (groupBy : List Expr) (having : Option Expr) (orderBy : List (Expr × Bool × Option Bool)) :
    Eval Unit :=
  let scopes := shapes :: env.shapes
  let aliases := aliasesOf slots
  let check (e : Expr) : Eval Unit :=
    abortWith (checkExpr scopes defaultFuel (withAliases shapes aliases e))
  do
    slots.forM fun s => match s.output with
      | .expr e => check e
      | .slot .. => pure ()
    if let some h := having then check h
    if let some f := filter then check f
    groupBy.forM fun e => if (integerTerm? (skipCollate e)).isSome then pure () else check e
    orderBy.forM fun (e, _) =>
      if (aliasSlot? slots e).isSome || (integerTerm? (skipCollate e)).isSome then pure ()
      else check e

/-- Applies `LIMIT` and `OFFSET` to rows. -/
def limitRows {α : Type} (limit offset : Option Int) (rows : List α) : List α :=
  let rows := rows.drop ((offset.getD 0).toNat)
  match limit with
  | some n => if n < 0 then rows else rows.take n.toNat
  | none => rows

/-- The value of a `LIMIT` or `OFFSET`, which must be an integer. -/
def limitValue (v : Value) : Eval Int :=
  match v.toNumeric with
  | .int n => pure n
  | .real x =>
    match Double.exactInt? x with
    | some n => pure n
    | none => throw (.abort "datatype mismatch")
  | _ => throw (.abort "datatype mismatch")

/-- The rows of the schema table: one per object kept, or with `temp` one per temporary one. -/
def masterRelation (db : Database) (temp : Bool := false) : Relation :=
  let text (s : String) : Value := .text s
  { columns := ["type", "name", "tbl_name", "rootpage", "sql"].map fun n =>
      ({ name := n } : Column),
    rows :=
      (db.tables.filter (·.schema.temp == temp)).zipIdx.map (fun (t, i) =>
        [text "table", text t.schema.name, text t.schema.name, .int (i + 2), text t.schema.sql]) ++
      (db.indexes.filter (·.temp == temp)).map (fun i =>
        [text "index", text i.name, text i.table, .int 0, text i.sql]) ++
      (db.views.filter (·.temp == temp)).map (fun v =>
        [text "view", text v.name, text v.name, .int 0, text v.sql]) ++
      (db.triggers.filter (·.temp == temp)).map (fun t =>
        [text "trigger", text t.name, text t.table, .int 0, text t.sql]) }

/-- The rows of a table in scan order: by row id, or by primary key for a table without. -/
def Table.scan (t : Table) : List Row :=
  match t.schema.withoutRowid, t.schema.keys.find? (·.primary) with
  | true, some key =>
    let terms := key.columns.map fun i =>
      SortKey.of (key.descending.contains i) none
        (((t.schema.column? i).map (·.collation)).getD "BINARY")
    (sortByKeys terms (t.rows.map fun r => (r, key.columns.map fun i => (r.values[i]?).getD .null))).map
      (·.1)
  | _, _ => t.rows

/-- A relation's rows as frames of one source. -/
def relationFrames (shape : Shape) (rel : Relation) : List (List Frame) :=
  rel.rows.map fun values => [{ shape := shape, values := values }]

/-- Whether a value is among others: unknown when `NULL`, or when it matches none and one is `NULL`. -/
def membership (aff : Option Affinity) (collation : String) (v : Value) (items : List Value)
    (negated : Bool) : Value :=
  if items.isEmpty then ofBool negated
  else if v.isNull then .null
  else
    let aff := comparisonAffinity aff none
    if items.any (fun w => compareUnder aff collation v w == some .eq) then ofBool !negated
    else if items.any Value.isNull then .null
    else ofBool negated

/-- The name of a compound operator in messages. -/
def compoundName : CompoundOp → String
  | .union => "UNION"
  | .unionAll => "UNION ALL"
  | .intersect => "INTERSECT"
  | .except => "EXCEPT"

/-- An ordinal number as messages write it. -/
def ordinal (n : Nat) : String :=
  toString n ++ (if n % 10 = 1 ∧ n % 100 ≠ 11 then "st"
    else if n % 10 = 2 ∧ n % 100 ≠ 12 then "nd"
    else if n % 10 = 3 ∧ n % 100 ≠ 13 then "rd" else "th")

/-- One select of a compound query: a select, or one row of `VALUES`. -/
inductive Part where
  | select (distinct : Bool) (columns : List ResultColumn) (source : Option Source)
      (filter : Option Expr) (groupBy : List Expr) (having : Option Expr)
      (windows : List (String × Window))
  | row (values : List Expr)

/-- The selects of a query and the operators between them; `VALUES` rows join by `UNION ALL`. -/
def Query.chain : Nat → Query → List Part × List CompoundOp
  | 0, _ => ([], [])
  | fuel + 1, q =>
    match q with
    | .select distinct columns source filter groupBy having windows =>
      ([.select distinct columns source filter groupBy having windows], [])
    | .values rows => (rows.map .row, (rows.drop 1).map fun _ => .unionAll)
    | .compound op left right =>
      let (l, lops) := Query.chain fuel left
      let (r, rops) := Query.chain fuel right
      (l ++ r, lops ++ op :: rops)
    | .ordered body _ _ _ => Query.chain fuel body

/-- The `ORDER BY` terms, `LIMIT` and `OFFSET` of a query. -/
def Query.tail : Query → List (Expr × Bool × Option Bool) × Option Expr × Option Expr
  | .ordered _ orderBy limit offset => (orderBy, limit, offset)
  | _ => ([], none, none)

/-- Whether a name names a schema table. -/
def isSchemaTable (name : String) : Bool :=
  sameName name "sqlite_master" || sameName name "sqlite_schema" ||
    sameName name "sqlite_temp_master" || sameName name "sqlite_temp_schema"

/-- A name with a suffix `:k` of digits, or a bare `:`, taken off its end. -/
def nameStem (name : String) : String :=
  let cs := name.toList
  let digits := ((cs.drop 1).reverse.takeWhile Char.isDigit).length
  let j := cs.length - 1 - digits
  if cs.length > 0 ∧ cs[j]? = some ':' then String.ofList (cs.take j) else name

/-- The first of `stem:1`, `stem:2`, ... that no name of a list has, without regard to case. -/
def freshName (taken : List String) : Nat → Nat → String → String
  | 0, _, name => name
  | fuel + 1, count, name =>
    if taken.any (sameName · name) then
      freshName taken fuel (count + 1) (nameStem name ++ ":" ++ toString (count + 1))
    else name

/-- The columns of a query's result as a table's, names made distinct by a `:k` suffix. -/
def tableColumns (columns : List Column) : List Column :=
  let step (acc : List Column) (ci : Column × Nat) : List Column :=
    let (c, i) := ci
    let name := if (truthWord? c.name).isSome then "column" ++ toString (i + 1) else c.name
    let taken := acc.map (·.name)
    acc ++ [{ c with name := freshName taken (taken.length + 1) 0 name }]
  columns.zipIdx.foldl step []

/-- The columns of a common table, renamed by the names it gives them, which must be as many. -/
def commonColumns (name : String) (names : List String) (columns : List Column) :
    Except String (List Column) :=
  if names.isEmpty then .ok (tableColumns columns)
  else if names.length ≠ columns.length then
    .error ("table " ++ name ++ " has " ++ toString columns.length ++ " values for " ++
      toString names.length ++ " columns")
  else .ok (tableColumns (List.zipWith (fun (c : Column) n => { c with name := n }) columns names))

/-- The columns of a view, renamed by the names it gives them, which must be as many. -/
def View.rename (v : View) (columns : List Column) : Except String (List Column) :=
  if v.columns.isEmpty then .ok (tableColumns columns)
  else if v.columns.length ≠ columns.length then
    .error ("expected " ++ toString v.columns.length ++ " columns for '" ++ v.name ++ "' but got " ++
      toString columns.length)
  else .ok (tableColumns (List.zipWith (fun (c : Column) n => { c with name := n }) columns v.columns))

/-- The columns a natural join is on: those of its right source a left source also has. -/
def naturalColumns (ls rs : List Shape) : List String :=
  ((rs.flatMap (·.columns)).map (·.name)).filter fun c =>
    ls.any (·.columns.any (sameName ·.name c))

/-- The shapes of a join's right source, the first marked with how it is joined. -/
def joinShapes (kind : JoinKind) (natural : Bool) (usingColumns : List String)
    (ls rs : List Shape) : List Shape :=
  match rs with
  | first :: rest =>
    { first with joinKind := kind,
                 usingColumns := if natural then naturalColumns ls rs else usingColumns } :: rest
  | [] => []

mutual

/-- The columns of a query's result, found without reading a row: those of its first select. -/
def queryColumns : Nat → Database → List (List Shape) → Query → Except String (List Column)
  | 0, _, _, _ => .error "expression tree is too large"
  | fuel + 1, db, outer, q =>
    match q with
    | .select _ columns source _ _ _ _ => do
      let shapes ← match source with
        | some s => sourceShapes fuel db outer s
        | none => pure []
      let env : Env := { db := db, scopes := outer.map (·.map Frame.nulls) }
      match expandColumns env shapes columns with
      | .ok slots => pure (slots.map (·.column))
      | .error f => .error f.message
    | .values rows =>
      pure ((List.range ((rows.head?.map List.length).getD 0)).map fun i =>
        { name := "column" ++ toString (i + 1) })
    | .compound _ left _ => queryColumns fuel db outer left
    | .ordered body _ _ _ => queryColumns fuel db outer body

/-- The shapes of a source's tables, views and subqueries, found without reading a row. -/
def sourceShapes : Nat → Database → List (List Shape) → Source → Except String (List Shape)
  | 0, _, _, _ => .error "expression tree is too large"
  | fuel + 1, db, outer, source =>
    match source with
    | .table name aliasName =>
      match db.table? name with
      | some t => pure [{ name := aliasName.getD t.schema.name, columns := t.schema.columns,
                          hasRowid := !t.schema.withoutRowid }]
      | none =>
        match db.views.find? (fun v => sameName v.name name) with
        | some v => do
          let columns ← v.rename (← queryColumns fuel db [] v.query)
          pure [{ name := aliasName.getD v.name, columns := columns, hasRowid := false }]
        | none =>
          if isSchemaTable name then
            pure [{ name := aliasName.getD name, columns := (masterRelation db).columns }]
          else .error ("no such table: " ++ name)
    | .query q aliasName => do
      let columns ← queryColumns fuel db outer q
      pure [{ name := aliasName.getD "", columns := tableColumns columns, hasRowid := false }]
    | .join kind natural left right _ usingColumns => do
      let ls ← sourceShapes fuel db outer left
      pure (ls ++ joinShapes kind natural usingColumns ls (← sourceShapes fuel db outer right))
    | .common name names q aliasName | .recursive name names q aliasName
    | .working name names q aliasName => do
      let columns ← commonColumns name names (← queryColumns fuel db outer q)
      pure [{ name := aliasName.getD name, columns := columns, hasRowid := false }]

end

/-- The affinity an operand of a comparison gives; a scalar subquery gives its first column's. -/
def operandAffinity (env : Env) (e : Expr) : Option Affinity :=
  match e with
  | .subquery q =>
    match queryColumns defaultFuel env.db env.shapes q with
    | .ok (c :: _) => if c.affinity == .blob then none else some c.affinity
    | _ => none
  | _ => exprAffinity env e

/-- The truth value a bare `TRUE` or `FALSE` on the right of an `IS` names. -/
def Env.truthTest? (env : Env) : Nat → Expr → Option Bool
  | 0, _ => none
  | fuel + 1, e =>
    match e with
    | .collate x _ => env.truthTest? fuel x
    | .column none n false =>
      match resolve env.shapes none n false with
      | .ok (.constant _) => truthWord? n
      | _ => none
    | _ => none

/-- `x IS TRUE`, `x IS FALSE` or their negations; `NULL` is neither true nor false. -/
def truthTest (named negated : Bool) (v : Value) : Value :=
  ofBool (match v.truth? with
    | some t => (t == named) != negated
    | none => negated)

/-- Compares the values of two expressions with the affinity and collation they give. -/
def compareExprs (env : Env) (op : BinaryOp) (l r : Expr) (a b : Value) : Value :=
  let aff := comparisonAffinity (operandAffinity env l) (operandAffinity env r)
  let collation := binaryCollation env l r
  match op with
  | .is | .isNot =>
    if a.isNull ∧ b.isNull then ofBool (op == .is)
    else if a.isNull ∨ b.isNull then ofBool (op == .isNot)
    else ofTruth ((compareUnder aff collation a b).map (holds op))
  | _ => ofTruth ((compareUnder aff collation a b).map (holds op))

/-- The sources and result columns of one select of a compound query. -/
def partSlots (db : Database) (outer : List (List Shape)) : Part →
    Except String (List Shape × List ResultSlot)
  | .select _ columns source _ _ _ _ => do
    let shapes ← match source with
      | some s => sourceShapes defaultFuel db outer s
      | none => pure []
    let env : Env := { db := db, scopes := outer.map (·.map Frame.nulls) }
    match expandColumns env shapes columns with
    | .ok slots => pure (shapes, slots)
    | .error f => .error f.message
  | .row values =>
    pure ([], values.zipIdx.map fun (e, i) =>
      { output := .expr e, column := { name := "column" ++ toString (i + 1) } })

/-- Whether two names refer to the same column or row id. -/
def Target.same : Target → Target → Bool
  | .column l s i, .column l' s' i' => l == l' && s == s' && i == i'
  | .rowid l s, .rowid l' s' => l == l' && s == s'
  | _, _ => false

/-- The result column of a select that an `ORDER BY` term of a compound query names. -/
def partPosition? (shapes : List Shape) (slots : List ResultSlot) (e : Expr) : Option Nat :=
  match aliasSlot? slots e with
  | some i => some i
  | none =>
    match skipCollate e with
    | .column t n _ =>
      match resolveLevel 0 shapes t n with
      | .ok (some target) =>
        slots.findIdx? fun s => match s.output with
          | .slot source index => target.same (.column 0 source index)
          | .expr (.column t' n' _) =>
            match resolveLevel 0 shapes t' n' with
            | .ok (some other) => target.same other
            | _ => false
          | .expr _ => false
      | _ => none
    | _ => none

/-- The result columns a compound query's `ORDER BY` terms name; a term naming none is an error. -/
def compoundPositions (db : Database) (outer : List (List Shape)) (parts : List Part)
    (columns : List Column) (terms : List (Expr × Bool × Option Bool)) :
    Except String (List (Nat × SortKey)) := do
  let width := columns.length
  let found ← parts.foldlM (fun (found : List (Option Nat)) part => do
    match partSlots db outer part with
    | .error _ => pure found
    | .ok (shapes, slots) =>
      (found.zip terms).zipIdx.mapM fun ((place, (e, _)), k) =>
        match place with
        | some i => pure (some i)
        | none =>
          match integerTerm? (skipCollate e) with
          | some n =>
            if n < 1 ∨ n > width then
              throw (ordinal (k + 1) ++ " ORDER BY term out of range - should be between 1 and " ++
                toString width)
            else pure (some (n.toNat - 1))
          | none => pure (partPosition? shapes slots e)) (terms.map fun _ => none)
  (found.zip terms).zipIdx.mapM fun ((place, (e, descending, nulls)), k) =>
    match place with
    | some i =>
      let columnCollation := (columns[i]?.map fun (c : Column) => c.collation).getD "BINARY"
      .ok (i, SortKey.of descending nulls ((explicitCollation e).getD columnCollation))
    | none => .error (ordinal (k + 1) ++ " ORDER BY term does not match any column in the result set")

/-- The most rows a recursive common table takes from its queue. -/
def expansionLimit : Nat := 100000

mutual

/-- Evaluates an expression. -/
def eval : Nat → Env → Expr → Eval Value
  | 0, _, _ => throw (.abort "expression tree is too large")
  | fuel + 1, env, e =>
    match e with
    | .literal v => pure v
    | .integer text => abortWith (integerValue text false)
    | .float text => pure (floatValue text false)
    | .param i => pure (env.params[i - 1]?.getD .null)
    | .column t n q => do
      let (v, _) ← env.lookup t n q
      pure v
    | .unary .neg (.integer text) => abortWith (integerValue text true)
    | .unary .neg (.float text) => pure (floatValue text true)
    | .unary op x => do pure (unaryValue op (← eval fuel env x))
    | .binary .and l r => do
      if alwaysFalse l || alwaysFalse r then return ofBool false
      let a := (← eval fuel env l).truth?
      if a == some false then pure (ofBool false)
      else pure (ofTruth (and3 a (← eval fuel env r).truth?))
    | .binary .or l r => do
      let a := (← eval fuel env l).truth?
      if a == some true then pure (ofBool true)
      else pure (ofTruth (or3 a (← eval fuel env r).truth?))
    | .binary op l r => do
      if op == .is || op == .isNot then
        if let some named := env.truthTest? defaultFuel r then
          return truthTest named (op == .isNot) (← eval fuel env l)
      if op.compares && (l.mayBeRow || r.mayBeRow) then
        let ls ← evalRow fuel env l
        let rs ← evalRow fuel env r
        match ls, rs with
        | [a], [b] => pure (compareExprs env op l r a.value b.value)
        | _, _ =>
          if ls.length ≠ rs.length then throw (.abort "row value misused")
          pure (compareRows op ls rs)
      else
        let a ← eval fuel env l
        let b ← eval fuel env r
        match op with
        | .concat => pure (concat a b)
        | .arith o => pure (arith o a b)
        | .bit o => pure (bitwise o a b)
        | _ => pure (compareExprs env op l r a b)
    | .isNull x negated => do
      let v ← eval fuel env x
      pure (ofBool (v.isNull != negated))
    | .between x low high negated => do
      let vs ← evalRow fuel env x
      let as ← evalRow fuel env low
      let bs ← evalRow fuel env high
      let inside ← match vs, as, bs with
        | [v], [a], [b] =>
          pure (and3 (compareExprs env .ge x low v.value a.value).truth?
            (compareExprs env .le x high v.value b.value).truth?)
        | _, _, _ =>
          if vs.length ≠ as.length ∨ vs.length ≠ bs.length then
            throw (.abort "row value misused")
          pure (and3 (compareRows .ge vs as).truth? (compareRows .le vs bs).truth?)
      pure (ofTruth (if negated then inside.map (!·) else inside))
    | .inList x items negated => do
      let v ← eval fuel env x
      let vs ← items.mapM (eval fuel env)
      pure (membership (operandAffinity env x) (exprCollation env x) v vs negated)
    | .inQuery x q negated => do
      let lhs ← evalRow fuel env x
      let rel ← runQuery fuel { env with group := none } q
      if rel.columns.length ≠ lhs.length then
        throw (.abort ("sub-select returns " ++ toString rel.columns.length ++
          " columns - expected " ++ toString lhs.length))
      match lhs with
      | [v] =>
        let aff := comparisonAffinity (operandAffinity env x) (rel.columns.head?.map (·.affinity))
        let collation := ((explicitCollation x).orElse fun _ => (columnCollation env x).orElse
          fun _ => rel.columns.head?.map (·.collation)).getD "BINARY"
        pure (membership aff collation v.value (rel.rows.filterMap (·.head?)) negated)
      | _ =>
        pure (rowMembership lhs (rel.rows.map (List.zipWith Element.ofColumn rel.columns)) negated)
    | .pattern op x p escape negated => do
      let text ← eval fuel env x
      let pattern ← eval fuel env p
      let esc ← match escape with
        | some e => some <$> eval fuel env e
        | none => pure none
      match patternCall (op == .glob) pattern text esc with
      | .ok (.int n) => pure (ofBool ((n != 0) != negated))
      | .ok _ => pure .null
      | .error m => throw (.abort m)
    | .case base branches otherwise => do
      match ← caseResult fuel env base branches otherwise with
      | some result => eval fuel env result
      | none => pure .null
    | .cast x type => do pure (castTo type (← eval fuel env x))
    | .collate x _ => eval fuel env x
    | .raise action message =>
      if !env.inTrigger then
        throw (.abort "RAISE() may only be used within a trigger-program")
      else match action with
        | .ignore => throw .ignore
        | .rollback => throw (.rollback message)
        | .abort => throw (.abort message)
        | .fail => throw (.fail message)
    | .subquery q => do
      let rel ← runQuery fuel { env with group := none } q
      if rel.columns.length ≠ 1 then
        throw (.abort ("sub-select returns " ++ toString rel.columns.length ++
          " columns - expected 1"))
      pure (((rel.rows.head?).bind (·.head?)).getD .null)
    | .field q index _ => do
      let rel ← runQuery fuel { env with group := none } q
      pure (((rel.rows.head?).bind (·[index]?)).getD .null)
    | .exists q => do
      let rel ← runQuery fuel { env with group := none } q
      pure (ofBool !rel.rows.isEmpty)
    | .row _ => throw (.abort "row value misused")
    | .window id name _ _ _ _ =>
      match env.windows.find? (·.1 == id) with
      | some (_, v) => pure v
      | none => throw (.abort ("misuse of window function " ++ name ++ "()"))
    | .clauses call condition orderBy =>
      match env.group, call with
      | some rows, .call name args distinct star => do
        let passing ← match condition with
          | some c => rows.filterM fun row => do
            let v ← eval fuel { env with scopes := row :: env.scopes.drop 1, group := none } c
            pure (v.truth? == some true)
          | none => pure rows
        aggregateCall fuel env passing name args distinct star orderBy
      | _, .call name .. => throw (.abort ("misuse of aggregate function " ++ name ++ "()"))
      | _, _ => throw (.abort "misuse of aggregate function")
    | .call name args distinct star =>
      if isAggregateCall name args.length star then
        match env.group with
        | some rows => aggregateCall fuel env rows name args distinct star []
        | none => throw (.abort ("misuse of aggregate function " ++ name ++ "()"))
      else if JsonFunction.isScalar name then do
        pure (← evalMarked fuel env e).value
      else if sameName name "subtype" && args.length == 1 then do
        let marked ← args.mapM (evalMarked fuel env)
        pure (.int (if marked.any (·.json) then 74 else 0))
      else if sameName name "coalesce" || sameName name "ifnull" then
        if (arity name).all (· args.length) then
          args.foldlM (fun found a =>
            if found.isNull then eval fuel env a else pure found) Value.null
        else throw (.abort ("wrong number of arguments to function " ++ name ++ "()"))
      else if sameName name "iif" || sameName name "if" then
        if args.length < 2 then
          throw (.abort ("wrong number of arguments to function " ++ name ++ "()"))
        else do
          match ← iifResult fuel env args with
          | some e => eval fuel env e
          | none => pure .null
      else
        match (if args.isEmpty then env.db.counter? name else none), arity name with
        | some v, _ => pure v
        | none, none => throw (.abort ("no such function: " ++ name))
        | none, some ok =>
          if !ok args.length then
            throw (.abort ("wrong number of arguments to function " ++ name ++ "()"))
          else do
            let vs ← args.mapM (eval fuel env)
            if sameName name "min" || sameName name "max" then
              let collation := (args.findSome? (collationOf? env defaultFuel)).getD "BINARY"
              pure (extremeOf (sameName name "max") collation vs)
            else abortWith (callScalar name vs)

/-- An aggregate call over its group's rows, after `DISTINCT`, in its `ORDER BY` order. -/
def aggregateCall : Nat → Env → List (List Frame) → String → List Expr → Bool → Bool →
    List (Expr × Bool × Option Bool) → Eval Value
  | 0, _, _, _, _, _, _, _ => throw (.abort "expression tree is too large")
  | fuel + 1, env, rows, name, args, distinct, star, orderBy => do
    if star then return .int rows.length
    let fed ← rows.mapM fun row => do
      let inRow := { env with scopes := row :: env.scopes.drop 1, group := none }
      let keys ← orderBy.mapM (eval fuel inRow ·.1)
      pure (← args.mapM (evalMarked fuel inRow), keys)
    let collation := (args.head?.map (exprCollation env)).getD "BINARY"
    let fed := if distinct then distinctBy [collation] (fun r => (r.1.take 1).map (·.value)) fed
      else fed
    let ordered := orderBy.isEmpty || sameName name "min" || sameName name "max"
    let terms := orderBy.map fun (t, d, n) => SortKey.of d n (exprCollation env t)
    let argRows := if ordered then fed.map (·.1) else (sortByKeys terms fed).map (·.1)
    if JsonFunction.isAggregate name then
      pure (← abortWith (JsonFunction.aggregate name argRows)).value
    else abortWith (aggregateValue name collation (argRows.map (·.map (·.value))))

/-- The result a `CASE` chooses: its first branch whose test holds, else its `ELSE`. -/
def caseResult : Nat → Env → Option Expr → List (Expr × Expr) → Option Expr → Eval (Option Expr)
  | 0, _, _, _, _ => throw (.abort "expression tree is too large")
  | fuel + 1, env, base, branches, otherwise => do
    let subject ← match base with
      | some b => some <$> evalRow fuel env b
      | none => pure none
    let chosen ← branches.foldlM (fun found (test, result) => do
      match found with
      | some _ => pure found
      | none =>
        let hit ← match base, subject with
          | some b, some [s] => do
            let t ← eval fuel env test
            pure ((compareExprs env .eq b test s.value t).truth? == some true)
          | _, some ss => do
            let ts ← evalRow fuel env test
            if ts.length ≠ ss.length then throw (.abort "row value misused")
            pure (rowsEqual ss ts == some true)
          | _, none => do pure ((← eval fuel env test).truth? == some true)
        pure (if hit then some result else none)) none
    pure (chosen.orElse fun _ => otherwise)

/-- The result an `iif` chooses: after its first test that holds, else an odd last argument. -/
def iifResult : Nat → Env → List Expr → Eval (Option Expr)
  | 0, _, _ => throw (.abort "expression tree is too large")
  | fuel + 1, env, args => do
    let (branches, otherwise) := pairsOf args
    let chosen ← branches.foldlM (fun found (test, result) =>
      match found with
      | some _ => pure found
      | none => do
        if (← eval fuel env test).truth? == some true then pure (some result) else pure none)
      none
    pure (chosen.orElse fun _ => otherwise)

/-- An argument of a JSON function: its value, and whether it is JSON text a function gave. -/
def evalMarked : Nat → Env → Expr → Eval MarkedValue
  | 0, _, _ => throw (.abort "expression tree is too large")
  | fuel + 1, env, e =>
    match e with
    | .call name args _ star =>
      if isAggregateCall name args.length star then do
        pure ⟨← eval fuel env e, JsonFunction.isAggregate name⟩
      else if JsonFunction.isScalar name then
        if !(arity name).all (· args.length) then
          throw (.abort ("wrong number of arguments to function " ++ name ++ "()"))
        else do
          let vs ← args.mapM (evalMarked fuel env)
          abortWith (JsonFunction.call name vs)
      else if (sameName name "coalesce" || sameName name "ifnull") &&
          (arity name).all (· args.length) then
        args.foldlM (fun found a =>
          if found.value.isNull then evalMarked fuel env a else pure found) JsonFunction.nullResult
      else if (sameName name "iif" || sameName name "if") && args.length ≥ 2 then do
        match ← iifResult fuel env args with
        | some chosen => evalMarked fuel env chosen
        | none => pure JsonFunction.nullResult
      else
        match name.toLower, args with
        | "nullif", [a, b] => do
          let first ← evalMarked fuel env a
          let second ← eval fuel env b
          if Value.compare first.value second == .eq then pure JsonFunction.nullResult
          else pure first
        | _, _ => do pure ⟨← eval fuel env e, false⟩
    | .case base branches otherwise => do
      match ← caseResult fuel env base branches otherwise with
      | some chosen => evalMarked fuel env chosen
      | none => pure JsonFunction.nullResult
    | .collate x _ => evalMarked fuel env x
    | .clauses (.call name args _ star) _ _ => do
      pure ⟨← eval fuel env e, isAggregateCall name args.length star && JsonFunction.isAggregate name⟩
    | _ => do pure ⟨← eval fuel env e, false⟩

/-- The elements of a row value, or of a subquery's first row (`NULL`s when none). -/
def evalRow : Nat → Env → Expr → Eval (List Element)
  | 0, _, _ => throw (.abort "expression tree is too large")
  | fuel + 1, env, e =>
    match e with
    | .row items => items.mapM fun x => do pure (Element.ofExpr env x (← eval fuel env x))
    | .subquery q => do
      let rel ← runQuery fuel { env with group := none } q
      let values := rel.rows.head?.getD (rel.columns.map fun _ => .null)
      pure (List.zipWith Element.ofColumn rel.columns values)
    | x => do pure [Element.ofExpr env x (← eval fuel env x)]

/-- Runs a query. -/
def runQuery : Nat → Env → Query → Eval Relation
  | 0, _, _ => throw (.abort "expression tree is too large")
  | fuel + 1, env, q =>
    match q with
    | .select distinct columns source filter groupBy having windows => do
      let (cols, _, rows) ←
        runSelect fuel env distinct columns source filter groupBy having windows []
      pure { columns := cols, rows := rows.map (·.1) }
    | .values rows => do
      let width := (rows.head?.map List.length).getD 0
      if rows.any (·.length ≠ width) then
        throw (.abort "all VALUES must have the same number of terms")
      let values ← rows.mapM (·.mapM (eval fuel env))
      pure { columns := (List.range width).map fun i => { name := "column" ++ toString (i + 1) },
             rows := values }
    | .compound op left right => do
      let l ← runQuery fuel env left
      let r ← runQuery fuel env right
      if l.columns.length ≠ r.columns.length then
        throw (.abort ("SELECTs to the left and right of " ++ compoundName op ++
          " do not have the same number of result columns"))
      let collations := l.columns.map (·.collation)
      let terms := collations.map fun c => SortKey.of false none c
      let sorted (rows : List (List Value)) : List (List Value) :=
        (sortByKeys terms (rows.map fun r => (r, r))).map (·.1)
      let same := sameUnder collations
      let rows := match op with
        | .unionAll => l.rows ++ r.rows
        | .union => sorted (distinctBy collations id (l.rows ++ r.rows))
        | .intersect => sorted (distinctBy collations id (l.rows.filter fun x => r.rows.any (same x)))
        | .except => sorted (distinctBy collations id (l.rows.filter fun x => !r.rows.any (same x)))
      pure { columns := l.columns, rows := rows }
    | .ordered body orderBy limit offset => do
      let limitN ← match limit with
        | some e => do pure (some (← limitValue (← eval fuel env e)))
        | none => pure none
      let offsetN ← match offset with
        | some e => do pure (some (← limitValue (← eval fuel env e)))
        | none => pure none
      match body with
      | .select distinct columns source filter groupBy having windows => do
        let (cols, terms, rows) ←
          runSelect fuel env distinct columns source filter groupBy having windows orderBy
        let rows := if orderBy.isEmpty then rows else sortByKeys terms rows
        pure { columns := cols, rows := limitRows limitN offsetN (rows.map (·.1)) }
      | other => do
        let rel ← runQuery fuel env other
        let positions ← abortWith
          (compoundPositions env.db env.shapes (other.chain defaultFuel).1 rel.columns orderBy)
        let terms := positions.map (·.2)
        let keyed := rel.rows.map fun r => (r, positions.map fun (i, _) => r[i]?.getD .null)
        let rows := if orderBy.isEmpty then rel.rows else (sortByKeys terms keyed).map (·.1)
        pure { rel with rows := limitRows limitN offsetN rows }

/-- Runs a select: its columns, its sort terms, and each output row with its sort keys. -/
def runSelect : Nat → Env → Bool → List ResultColumn → Option Source → Option Expr → List Expr →
    Option Expr → List (String × Window) → List (Expr × Bool × Option Bool) →
    Eval (List Column × List SortKey × List (List Value × List Value))
  | 0, _, _, _, _, _, _, _, _, _ => throw (.abort "expression tree is too large")
  | fuel + 1, env, distinct, columns, source, filter, groupBy, having, windows, orderBy => do
    let env := { env with group := none }
    let (shapes, rows) ← match source with
      | some s => sourceRows fuel env s
      | none => pure ([], [[]])
    let slots ← expandColumns env shapes columns
    checkSelect env shapes slots filter groupBy having orderBy
    let cols := slots.map (·.column)
    let inner := { env with scopes := (shapes.map Frame.nulls) :: env.scopes }
    let aliases := aliasesOf slots
    let filter := filter.map (withAliases shapes aliases)
    let having := having.map (withAliases shapes aliases)
    let terms := orderBy.map fun (e, descending, nulls) =>
      SortKey.of descending nulls (termCollation inner slots e)
    let kept ← rows.filterM fun row => match filter with
      | some f => do pure ((← eval fuel (env.push row) f).truth? == some true)
      | none => pure true
    let exprs := slots.filterMap fun s => match s.output with
      | .expr e => some e
      | .slot .. => none
    let aggregateQuery := !groupBy.isEmpty || exprs.any (hasAggregate defaultFuel) ||
      (having.map (hasAggregate defaultFuel)).getD false ||
      orderBy.any (fun (e, _) => hasAggregate defaultFuel e)
    let outputValue (rowEnv : Env) : Output → Eval Value
      | .expr e => eval fuel rowEnv e
      | .slot source index =>
        pure ((((rowEnv.scopes.head?).bind (·[source]?)).bind (·.values[index]?)).getD .null)
    let output (rowEnv : Env) : Eval (List Value × List Value) := do
      let values ← slots.mapM fun slot => outputValue rowEnv slot.output
      let keys ← orderBy.zipIdx.mapM fun ((term, _), k) =>
        match aliasSlot? slots term, integerTerm? (skipCollate term) with
        | some i, _ => pure ((values[i]?).getD .null)
        | none, some n =>
          if 1 ≤ n ∧ n ≤ values.length then pure ((values[n.toNat - 1]?).getD .null)
          else throw (.abort (ordinal (k + 1) ++
            " ORDER BY term out of range - should be between 1 and " ++ toString values.length))
        | none, none => eval fuel rowEnv (withAliases shapes aliases term)
      pure (values, keys)
    let groupOutputs : List (Output × String) := groupBy.map fun e =>
      match (integerTerm? (skipCollate e)).bind fun n =>
          if 1 ≤ n then slots[n.toNat - 1]? else none with
      | some slot => (slot.output, termCollation inner slots e)
      | none =>
        let e := withAliases shapes aliases e
        (.expr e, exprCollation inner e)
    let contexts ← if aggregateQuery then do
        let groups ← if groupBy.isEmpty then pure [kept]
          else do
            let keyed ← kept.mapM fun row => do
              pure (row, ← groupOutputs.mapM fun (out, _) => outputValue (env.push row) out)
            let groupTerms := groupOutputs.map fun (_, c) => SortKey.of false none c
            pure ((runsOf groupTerms (sortByKeys groupTerms keyed)).map (·.1))
        let calls := (exprs.flatMap (extremeCalls defaultFuel) ++
          orderBy.flatMap (fun (e, _) => extremeCalls defaultFuel e) ++
          ((having.map (extremeCalls defaultFuel)).getD [])).foldl
          (fun (found : List ExtremeCall) c => if found.any (·.same c) then found else found ++ [c]) []
        let counted := !groupBy.isEmpty || calls.all (·.filter.isSome)
        groups.filterMapM fun group => do
          let firstRow := (group.head?).getD (shapes.map Frame.nulls)
          let fed ← group.mapM fun row => calls.mapM fun c => do
            let rowEnv := env.push row
            let passes ← match c.filter with
              | some f => do pure ((← eval fuel rowEnv f).truth? == some true)
              | none => pure true
            pure (passes, ← eval fuel rowEnv c.arg)
          let collations := calls.map fun c => exprCollation inner c.arg
          let representative := match readRow calls collations counted fed with
            | some i => (group[i]?).getD firstRow
            | none => firstRow
          let groupEnv := { env with scopes := representative :: env.scopes, group := some group }
          let keep ← match having with
            | some h => do pure ((← eval fuel groupEnv h).truth? == some true)
            | none => pure true
          if keep then pure (some groupEnv) else pure none
      else pure (kept.map env.push)
    let orderExprs := orderBy.filterMap fun (term, _) =>
      if (aliasSlot? slots term).isSome || (integerTerm? (skipCollate term)).isSome then none
      else some (withAliases shapes aliases term)
    let calls := ((exprs ++ orderExprs).flatMap (Expr.windowCalls defaultFuel)).foldl
      (fun (found : List WindowCall) c => if found.any (·.id == c.id) then found else found ++ [c]) []
    let contexts ← if calls.isEmpty then pure contexts else do
      let resolved ← calls.mapM fun c => do
        let w ← abortWith (c.overClause.resolve windows)
        if w.measuresRange && w.orderBy.length ≠ 1 then
          throw (.abort "RANGE with offset PRECEDING/FOLLOWING requires one ORDER BY expression")
        pure (c, w.forFunction c.name)
      (groupWindows resolved).reverse.foldlM
        (fun rows (w, cs) => windowPass fuel w cs rows) contexts
    let produced ← contexts.mapM output
    let produced := if distinct then distinctBy (cols.map (·.collation)) (·.1) produced
      else produced
    pure (cols, terms, produced)

/-- The window functions of one window for every row, over the partitions of a stable sort. -/
def windowPass : Nat → Window → List WindowCall → List Env → Eval (List Env)
  | 0, _, _, _ => throw (.abort "expression tree is too large")
  | fuel + 1, w, calls, rows =>
    match rows.head? with
    | none => pure []
    | some sample => do
      let partTerms := w.partitionBy.map fun e => SortKey.of false none (exprCollation sample e)
      let orderCollations := w.orderBy.map fun (e, _, _) => exprCollation sample e
      let orderTerms := (w.orderBy.zip orderCollations).map fun ((_, d, n), c) => SortKey.of d n c
      let keyed ← rows.mapM fun env => do
        let part ← w.partitionBy.mapM (eval fuel env)
        let order ← w.orderBy.mapM fun (e, _, _) => eval fuel env e
        pure ((env, order), part ++ order)
      let sorted := sortByKeys (partTerms ++ orderTerms) keyed
      let partitions := splitRuns (fun a b => compareKeys partTerms a.2 b.2 == .eq) sorted
      let offset (bound : FrameBound) (starting : Bool) (env : Env) : Eval Value :=
        match bound.offset with
        | some e => do abortWith (checkOffset w.frame.unit starting (← eval fuel env e))
        | none => pure .null
      let done ← partitions.mapM fun part => do
        let envs := part.map fun ((env, _), _) => env
        let first := (envs.head?).getD sample
        let start ← offset w.frame.start true first
        let finish ← offset w.frame.finish false first
        let p := Partition.ofKeys orderTerms (part.map fun ((_, order), _) => order)
        let columns ← calls.mapM fun c => do
          let inputs ← envs.mapM fun env => do
            let args ← c.args.mapM (eval fuel env)
            let passes ← match c.filter with
              | some f => do pure ((← eval fuel env f).truth? == some true)
              | none => pure true
            pure ({ args, passes } : RowInput)
          let collation := (c.args.head?.map (exprCollation sample)).getD "BINARY"
          let task : WindowTask := ⟨c.name, c.star, collation, w⟩
          let values ← abortWith (task.values orderCollations p inputs.toArray start finish)
          pure (c.id, values)
        pure (envs.zipIdx.map fun (env, i) =>
          { env with windows := env.windows ++ columns.map fun (id, vs) => (id, (vs[i]?).getD .null) })
      pure done.flatten

/-- The shapes and rows of a source; a left join pads an unmatched left row with `NULL`s. -/
def sourceRows : Nat → Env → Source → Eval (List Shape × List (List Frame))
  | 0, _, _ => throw (.abort "expression tree is too large")
  | fuel + 1, env, source =>
    match source with
    | .table name aliasName =>
      match env.db.table? name with
      | some t =>
        let shape : Shape := { name := aliasName.getD t.schema.name, columns := t.schema.columns,
                               hasRowid := !t.schema.withoutRowid }
        pure ([shape],
          t.scan.map fun r => [{ shape := shape, values := r.values, rowid := r.rowid }])
      | none =>
        match env.db.views.find? (fun v => sameName v.name name) with
        | some v => do
          let rel ← runQuery fuel { env with scopes := [], group := none } v.query
          let columns ← abortWith (v.rename rel.columns)
          let shape : Shape := { name := aliasName.getD v.name, columns := columns,
                                 hasRowid := false }
          pure ([shape], relationFrames shape rel)
        | none =>
          let temp := sameName name "sqlite_temp_master" || sameName name "sqlite_temp_schema"
          if sameName name "sqlite_master" || sameName name "sqlite_schema" || temp then
            let rel := masterRelation env.db temp
            let shape : Shape := { name := aliasName.getD name, columns := rel.columns }
            pure ([shape], relationFrames shape rel)
          else
            throw (.abort ("no such table: " ++ (if env.inTrigger then "main." else "") ++ name))
    | .query q aliasName => do
      let rel ← runQuery fuel { env with group := none } q
      let shape : Shape := { name := aliasName.getD "", columns := tableColumns rel.columns,
                             hasRowid := false }
      pure ([shape], relationFrames shape rel)
    | .common name names q aliasName => do
      let rel ← runQuery fuel { env with group := none } q
      let columns ← abortWith (commonColumns name names rel.columns)
      let shape : Shape := { name := aliasName.getD name, columns := columns, hasRowid := false }
      pure ([shape], relationFrames shape rel)
    | .recursive name names q aliasName => do
      let rel ← expandRecursive fuel { env with group := none } name names q
      let shape : Shape := { name := aliasName.getD name, columns := rel.columns, hasRowid := false }
      pure ([shape], relationFrames shape rel)
    | .working name _ _ aliasName =>
      match env.working.find? (sameName ·.1 name) with
      | some (_, columns, values) =>
        let shape : Shape := { name := aliasName.getD name, columns := columns, hasRowid := false }
        pure ([shape], [[{ shape := shape, values := values }]])
      | none => throw (.abort ("no such table: " ++ name))
    | .join kind natural left right on usingColumns => do
      let (ls, lrows) ← sourceRows fuel env left
      let (rs, rrows) ← sourceRows fuel env right
      let rs := joinShapes kind natural usingColumns ls rs
      let rrows := (rrows.map fun r => List.zipWith (fun s f => { f with shape := s }) rs r).zipIdx
      let joinedOn := (rs.head?.map (·.usingColumns)).getD []
      let pick (frames : List Frame) (c : String) : Option (Value × Column) :=
        frames.findSome? fun f =>
          (f.shape.columns.findIdx? (fun col => sameName col.name c)).bind fun j =>
            match f.values[j]?, f.shape.columns[j]? with
            | some v, some col => some (v, col)
            | _, _ => none
      let joined ← lrows.mapM fun l => do
        let matched ← rrows.filterMapM fun (r, k) => do
          let row := l ++ r
          let usingOk := joinedOn.all fun c =>
            match pick l c, pick r c with
            | some (a, ca), some (b, cb) =>
              compareUnder (comparisonAffinity (some ca.affinity) (some cb.affinity)) ca.collation
                a b == some .eq
            | _, _ => false
          let onOk ← match on with
            | some cond => do pure ((← eval fuel (env.push row) cond).truth? == some true)
            | none => pure true
          pure (if usingOk ∧ onOk then some (row, some k) else none)
        pure (if matched.isEmpty ∧ kind.keepsLeft then [(l ++ rs.map Frame.nulls, none)]
          else matched)
      let joined := joined.flatten
      let unmatched := if kind.keepsRight then
          rrows.filterMap fun (r, k) =>
            if joined.any (·.2 == some k) then none else some (ls.map Frame.nulls ++ r)
        else []
      pure (ls ++ rs, joined.map (·.1) ++ unmatched)

/-- Expands a recursive common table: the first queued row is given to each recursive select, and
their rows queued; it stops when the queue is empty or after `expansionLimit` rows. -/
def expandRecursive : Nat → Env → String → List String → Query → Eval Relation
  | 0, _, _, _, _ => throw (.abort "expression tree is too large")
  | fuel + 1, env, name, names, q => do
    let (orderBy, limit, offset) := q.tail
    let core := match q with
      | .ordered body _ _ _ => body
      | other => other
    let (setup, steps, op) := (core.recursiveParts Query.readsWorking).getD (core, [], .unionAll)
    let distinct := op == .union
    let first ← runQuery fuel env setup
    let columns ← abortWith (commonColumns name names first.columns)
    let limitN ← match limit with
      | some e => do pure (some (← limitValue (← eval fuel env e)))
      | none => pure none
    let offsetN ← match offset with
      | some e => do pure (some (← limitValue (← eval fuel env e)))
      | none => pure none
    let keys ← if orderBy.isEmpty then pure []
      else abortWith (compoundPositions env.db env.shapes (core.chain defaultFuel).1 columns orderBy)
    let terms := keys.map (·.2)
    let key (row : List Value) : List Value := keys.map fun (i, _) => (row[i]?).getD .null
    let collations := columns.map (·.collation)
    let enqueue (queue : List (List Value)) (row : List Value) : List (List Value) :=
      if keys.isEmpty then queue ++ [row]
      else
        let (before, after) := queue.span fun r => compareKeys terms (key r) (key row) != .gt
        before ++ row :: after
    let mut seen : List (List Value) := []
    let mut queue : List (List Value) := []
    for row in first.rows do
      if distinct then
        if seen.any (sameUnder collations row) then continue
        seen := row :: seen
      queue := enqueue queue row
    let mut skip := ((offsetN.getD 0).toNat)
    let mut remaining : Option Nat := limitN.bind fun n => if n < 0 then none else some n.toNat
    let mut found : Array (List Value) := #[]
    for _ in [0:expansionLimit] do
      if remaining == some 0 then break
      match queue with
      | [] => break
      | row :: rest =>
        queue := rest
        if skip > 0 then skip := skip - 1
        else
          found := found.push row
          remaining := remaining.map (· - 1)
          if remaining == some 0 then break
        let stepEnv := { env with working := (name, columns, row) :: env.working }
        for step in steps do
          let rel ← runQuery fuel stepEnv step
          for r in rel.rows do
            if distinct then
              if seen.any (sameUnder collations r) then continue
              seen := r :: seen
            queue := enqueue queue r
    pure { columns := columns, rows := found.toList }

end

end Sql
end TreeHistory
