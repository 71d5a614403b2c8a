import TreeHistory.Sql.Syntax
import TreeHistory.Sql.Aggregate
import TreeHistory.Sql.Ordering

/-!
# Window functions

A window function gives each row a value computed from other rows: the rows are split into
partitions and ordered, rows with the same order terms being peers, and each row has a frame.
Ranking functions, `lag` and `lead` look at the whole partition, the others at the frame. Window
functions over the same window (`Window.same`) share one pass over the rows.
-/

namespace TreeHistory
namespace Sql

/-- The frame of a window that states none: from the partition's start to the row's last peer. -/
def WindowFrame.byDefault : WindowFrame :=
  { unit := .range, start := ⟨.unboundedPreceding, none⟩, finish := ⟨.currentRow, none⟩,
    exclude := .unstated, implicit := true }

/-- A frame of one unit between two ends without offsets. -/
def WindowFrame.between (unit : FrameUnit) (start finish : BoundKind) : WindowFrame :=
  { unit, start := ⟨start, none⟩, finish := ⟨finish, none⟩, exclude := .unstated,
    implicit := false }

/-- A window that states nothing: one partition, no order, the default frame. -/
def Window.whole : Window :=
  { name := none, base := none, partitionBy := [], orderBy := [], frame := .byDefault }

/-! ## Resolving a window -/

namespace Window

/-- Finds a window of a `WINDOW` clause by name. The clause lists its windows the latest first. -/
def find (defs : List (String × Window)) (name : String) : Except String Window :=
  match defs.find? (fun (n, _) => sameName n name) with
  | some (_, w) => .ok w
  | none => .error ("no such window: " ++ name)

/-- Builds a window on the one it names as its base, taking its partition and order terms. -/
def extend (defs : List (String × Window)) (w : Window) : Except String Window :=
  match w.base with
  | none => .ok w
  | some b => do
    let e ← find defs b
    if !w.partitionBy.isEmpty then throw ("cannot override PARTITION clause of window: " ++ b)
    if !e.orderBy.isEmpty && !w.orderBy.isEmpty then
      throw ("cannot override ORDER BY clause of window: " ++ b)
    if !e.frame.implicit then throw ("cannot override frame specification of window: " ++ b)
    pure { w with base := none, partitionBy := e.partitionBy,
                  orderBy := if e.orderBy.isEmpty then w.orderBy else e.orderBy }

/-- Resolves an `OVER` clause: `OVER name` is the named window, `OVER (name ...)` builds on it. -/
def resolve (defs : List (String × Window)) (w : Window) : Except String Window :=
  match w.name with
  | some n => find defs n
  | none => extend defs w

/-- Whether a frame measures a range by an offset, which needs exactly one order term. -/
def measuresRange (w : Window) : Bool :=
  w.frame.unit == .range && (w.frame.start.offset.isSome || w.frame.finish.offset.isSome)

end Window

/-! ## The window functions -/

/-- The functions that are window functions only, with the numbers of arguments each takes. -/
def windowOnlyArity (name : String) : Option (Nat → Bool) :=
  match name.toLower with
  | "row_number" | "rank" | "dense_rank" | "percent_rank" | "cume_dist" => some (· = 0)
  | "ntile" | "first_value" | "last_value" => some (· = 1)
  | "lag" | "lead" => some (fun n => 1 ≤ n ∧ n ≤ 3)
  | "nth_value" => some (· = 2)
  | _ => none

/-- The frame a function that looks at the whole partition works in, whatever its window states. -/
def fixedFrame? (name : String) : Option WindowFrame :=
  match name.toLower with
  | "row_number" => some (.between .rows .unboundedPreceding .currentRow)
  | "dense_rank" | "rank" => some (.between .range .unboundedPreceding .currentRow)
  | "percent_rank" => some (.between .groups .currentRow .unboundedFollowing)
  | "cume_dist" =>
    some { WindowFrame.between .groups .following .unboundedFollowing with
      start := ⟨.following, some (.integer "1")⟩ }
  | "ntile" => some (.between .rows .currentRow .unboundedFollowing)
  | "lead" => some (.between .rows .unboundedPreceding .unboundedFollowing)
  | "lag" => some (.between .rows .unboundedPreceding .currentRow)
  | _ => none

def Window.forFunction (name : String) (w : Window) : Window :=
  match fixedFrame? name with
  | some frame => { w with frame := frame }
  | none => w

/-- A window function call of a select: its number, name, arguments, `FILTER` and window. -/
structure WindowCall where
  id : Nat
  name : String
  args : List Expr
  star : Bool
  filter : Option Expr
  overClause : Window

/-- The window function calls of an expression outside its subqueries, in written order. -/
def Expr.windowCalls : Nat → Expr → List WindowCall
  | 0, _ => []
  | fuel + 1, e =>
    let go := Expr.windowCalls fuel
    match e with
    | .window id name args star filter overClause => [{ id, name, args, star, filter, overClause }]
    | .unary _ x | .isNull x _ | .cast x _ | .collate x _ | .inQuery x _ _ => go x
    | .binary _ l r => go l ++ go r
    | .between x l h _ => go x ++ go l ++ go h
    | .inList x items _ => go x ++ items.flatMap go
    | .pattern _ x p escape _ => go x ++ go p ++ ((escape.map go).getD [])
    | .case base branches otherwise =>
      ((base.map go).getD []) ++ branches.flatMap (fun (w, t) => go w ++ go t) ++
        ((otherwise.map go).getD [])
    | .call _ args _ _ | .row args => args.flatMap go
    | .clauses inner condition orderBy =>
      go inner ++ ((condition.map go).getD []) ++ orderBy.flatMap (go ·.1)
    | _ => []

/-! ## Comparing windows -/

def Value.sameLiteral : Value → Value → Bool
  | .null, .null => true
  | .int a, .int b => a == b
  | .real a, .real b => a == b
  | .text a, .text b => a == b
  | .blob a, .blob b => a == b
  | _, _ => false

/-- Whether two expressions are the same term, as window terms are compared. -/
def Expr.same : Nat → Expr → Expr → Bool
  | 0, _, _ => false
  | fuel + 1, a, b =>
    let go := Expr.same fuel
    let all (xs ys : List Expr) : Bool :=
      xs.length == ys.length && (xs.zip ys).all fun (x, y) => go x y
    let both (x y : Option Expr) : Bool :=
      match x, y with
      | none, none => true
      | some x, some y => go x y
      | _, _ => false
    match a, b with
    | .literal v, .literal w => v.sameLiteral w
    | .integer s, .integer t | .float s, .float t => sameName s t
    | .param i, .param j => i == j
    | .column _ n _, .column _ m _ => sameName n m
    | .unary o x, .unary p y => o == p && go x y
    | .binary o l r, .binary p l' r' => o == p && go l l' && go r r'
    | .isNull x n, .isNull y m => n == m && go x y
    | .between x l h n, .between y l' h' m => n == m && go x y && go l l' && go h h'
    | .inList x xs n, .inList y ys m => n == m && go x y && all xs ys
    | .pattern o x p e n, .pattern o' y q f m =>
      o == o' && n == m && go x y && go p q && both e f
    | .case b bs o, .case c cs p =>
      both b c && bs.length == cs.length &&
        (bs.zip cs).all (fun ((w, t), (v, u)) => go w v && go t u) && both o p
    | .cast x t, .cast y u => sameName t u && go x y
    | .call f xs d s, .call g ys e t => sameName f g && d == e && s == t && all xs ys
    | .collate x c, .collate y d => sameName c d && go x y
    | .row xs, .row ys => all xs ys
    | .clauses c f os, .clauses d g ps =>
      go c d && both f g && os.length == ps.length &&
        (os.zip ps).all (fun ((x, a, m), (y, b, n)) => go x y && a == b && m == n)
    | _, _ => false

/-- Fuel enough to compare any two terms the parser builds. -/
def termFuel : Nat := 10000

def FrameBound.same (a b : FrameBound) : Bool :=
  a.kind == b.kind &&
    match a.offset, b.offset with
    | none, none => true
    | some x, some y => Expr.same termFuel x y
    | _, _ => false

/-- Whether an order term puts `NULL` on the side its direction does not. -/
def nullsReversed (descending : Bool) (nulls : Option Bool) : Bool :=
  match nulls with
  | some first => first == descending
  | none => false

/-- Whether two windows are the same: frame, partition terms, and order terms with direction and
`NULL` placement. -/
def Window.same (a b : Window) : Bool :=
  a.frame.unit == b.frame.unit && a.frame.start.same b.frame.start &&
    a.frame.finish.same b.frame.finish && a.frame.exclude == b.frame.exclude &&
    a.partitionBy.length == b.partitionBy.length &&
    (a.partitionBy.zip b.partitionBy).all (fun (x, y) => Expr.same termFuel x y) &&
    a.orderBy.length == b.orderBy.length &&
    (a.orderBy.zip b.orderBy).all fun ((x, d, n), (y, e, m)) =>
      Expr.same termFuel x y && d == e && nullsReversed d n == nullsReversed e m

/-- Groups window calls by their windows, in the order the windows first appear. -/
def groupWindows (calls : List (WindowCall × Window)) : List (Window × List WindowCall) :=
  calls.foldl (fun groups (c, w) =>
    if groups.any (fun (v, _) => v.same w) then
      groups.map fun (v, cs) => if v.same w then (v, cs ++ [c]) else (v, cs)
    else groups ++ [(w, [c])]) []

/-! ## Partitions and frames -/

/-- A partition as its window functions see it: its rows' order values and its groups of peers. -/
structure Partition where
  keys : Array (List Value)
  group : Array Nat
  firstOf : Array Nat
  lastOf : Array Nat

namespace Partition

def size (p : Partition) : Nat := p.keys.size

def groups (p : Partition) : Nat := p.firstOf.size

/-- The partition of rows in window order; a row is a peer of the one before when the order terms
do not tell them apart. -/
def ofKeys (terms : List SortKey) (keys : List (List Value)) : Partition :=
  let step (acc : Partition) (entry : List Value × Nat) : Partition :=
    let (key, i) := entry
    let fresh := match acc.keys.back? with
      | some prior => compareKeys terms prior key != .eq
      | none => true
    bif fresh then
      { keys := acc.keys.push key, group := acc.group.push acc.firstOf.size,
        firstOf := acc.firstOf.push i, lastOf := acc.lastOf.push i }
    else
      { acc with keys := acc.keys.push key, group := acc.group.push (acc.firstOf.size - 1),
                 lastOf := acc.lastOf.set! (acc.lastOf.size - 1) i }
  keys.zipIdx.foldl step { keys := #[], group := #[], firstOf := #[], lastOf := #[] }

def groupOf (p : Partition) (i : Nat) : Nat := p.group[i]?.getD 0

def first (p : Partition) (g : Nat) : Nat := p.firstOf[g]?.getD p.size

def last (p : Partition) (g : Nat) : Nat := p.lastOf[g]?.getD p.size

/-- The value of the one order term of a row. -/
def orderValue (p : Partition) (i : Nat) : Value :=
  ((p.keys[i]?).bind List.head?).getD .null

/-- The value a `RANGE` bound measures from: the row's value moved by the offset. -/
def rangeTarget (term : SortKey) (preceding : Bool) (v offset : Value) : Value :=
  match v with
  | .int _ | .real _ => arith (if preceding != term.descending then .sub else .add) v offset
  | _ => v

/-- The first row whose order value does not come before a target, or the size when none. -/
def firstFrom (p : Partition) (term : SortKey) (target : Value) : Nat :=
  ((List.range p.size).find? fun j => compareKeys [term] [p.orderValue j] [target] != .lt).getD
    p.size

/-- The last row whose order value does not come after a target, or -1. -/
def lastUpTo (p : Partition) (term : SortKey) (target : Value) : Int :=
  match (List.range p.size).reverse.find? fun j =>
      compareKeys [term] [p.orderValue j] [target] != .gt with
  | some j => j
  | none => -1

/-- Where the frame of row `i` starts, for a start that is not `UNBOUNDED FOLLOWING`. -/
def frameStart (p : Partition) (frame : WindowFrame) (term : SortKey) (offset : Value)
    (i : Nat) : Int :=
  let k := offset.toInt
  let g := p.groupOf i
  match frame.start.kind, frame.unit with
  | .unboundedPreceding, _ => 0
  | .currentRow, .rows => i
  | .currentRow, _ => p.first g
  | .preceding, .rows => i - k
  | .following, .rows => i + k
  | .preceding, .groups => if (g : Int) < k then 0 else p.first (g - k.toNat)
  | .following, .groups =>
    if (g : Int) + k < p.groups then p.first (g + k.toNat) else p.size
  | .preceding, .range => p.firstFrom term (rangeTarget term true (p.orderValue i) offset)
  | .following, .range => p.firstFrom term (rangeTarget term false (p.orderValue i) offset)
  | .unboundedFollowing, _ => p.size

/-- Where the frame of row `i` ends, for an end that is not `UNBOUNDED PRECEDING`. -/
def frameEnd (p : Partition) (frame : WindowFrame) (term : SortKey) (offset : Value)
    (i : Nat) : Int :=
  let k := offset.toInt
  let g := p.groupOf i
  match frame.finish.kind, frame.unit with
  | .unboundedFollowing, _ => (p.size : Int) - 1
  | .currentRow, .rows => i
  | .currentRow, _ => p.last g
  | .preceding, .rows => i - k
  | .following, .rows => i + k
  | .preceding, .groups => if (g : Int) < k then -1 else p.last (g - k.toNat)
  | .following, .groups =>
    if (g : Int) + k < p.groups then p.last (g + k.toNat) else (p.size : Int) - 1
  | .preceding, .range => p.lastUpTo term (rangeTarget term true (p.orderValue i) offset)
  | .following, .range => p.lastUpTo term (rangeTarget term false (p.orderValue i) offset)
  | .unboundedPreceding, _ => -1

/-- The rows of the frame of row `i`, in window order, without those `EXCLUDE` leaves out. -/
def frameRows (p : Partition) (frame : WindowFrame) (term : SortKey) (start finish : Value)
    (i : Nat) : List Nat :=
  let lo := p.frameStart frame term start i
  let hi := p.frameEnd frame term finish i
  let rows : List Nat := (List.range p.size).filter fun (j : Nat) => lo ≤ Int.ofNat j ∧ Int.ofNat j ≤ hi
  let g := p.groupOf i
  match frame.exclude with
  | .unstated | .noOthers => rows
  | .currentRow => rows.filter (· ≠ i)
  | .group => rows.filter fun j => p.groupOf j ≠ g
  | .ties => rows.filter fun j => j = i ∨ p.groupOf j ≠ g

end Partition

/-- Checks a frame offset: a non-negative integer for rows or groups, a number for a range. -/
def checkOffset (unit : FrameUnit) (starting : Bool) (v : Value) : Except String Value :=
  let which := if starting then "starting" else "ending"
  if unit == .range then
    let fail : Except String Value :=
      .error ("frame " ++ which ++ " offset must be a non-negative number")
    match v.numericAffinity false with
    | .int n => if n < 0 then fail else .ok (.int n)
    | .real x => if x < 0 then fail else .ok (.real x)
    | _ => fail
  else
    let fail : Except String Value :=
      .error ("frame " ++ which ++ " offset must be a non-negative integer")
    match mustBeInt v with
    | some n => if n < 0 then fail else .ok (.int n)
    | none => fail
where
  /-- A value as an integer when it is one, or a number or text that reads as one exactly. -/
  mustBeInt (v : Value) : Option Int :=
    match v.numericAffinity true with
    | .int n => some n
    | .real x => Double.exactInt? x
    | _ => none

/-- `ntile` for row `i` of `size` rows in `buckets` buckets: the first `size % buckets` hold one
more. -/
def ntileOf (size : Nat) (buckets : Int) (i : Nat) : Int :=
  let n : Int := size
  let small := n / buckets
  if small = 0 then i + 1
  else
    let large := n - buckets * small
    let inLarge := large * (small + 1)
    if (i : Int) < inLarge then 1 + i / (small + 1) else 1 + large + (i - inLarge) / small

/-- The row `offset` rows after (`lead`) or before (`lag`) row `i`, when there is one. -/
def shiftedRow (size i : Nat) (lead : Bool) (offset : Value) : Option Nat :=
  match arith (if lead then .add else .sub) (.int (i + 1)) offset with
  | .int k => if 1 ≤ k ∧ k ≤ size then some (k - 1).toNat else none
  | .real x =>
    match Double.exactInt? x with
    | some k => if 1 ≤ k ∧ k ≤ size then some (k - 1).toNat else none
    | none => none
  | _ => none

/-- A window function's input for one row: its arguments, and whether `FILTER` lets it through. -/
structure RowInput where
  args : List Value
  passes : Bool

/-- A window function call as rows are computed: name, `*`, first argument's collation, window. -/
structure WindowTask where
  name : String
  star : Bool
  collation : String
  window : Window

namespace WindowTask

/-- The sort key of the window's one order term, which a range is measured on. -/
def rangeKey (t : WindowTask) (collations : List String) : SortKey :=
  match t.window.orderBy.head? with
  | some (_, descending, nulls) => SortKey.of descending nulls ((collations.head?).getD "BINARY")
  | none => {}

/-- The value of a ranking function, `lag` or `lead` for row `i`; `none` for frame functions. -/
def partitionValue (t : WindowTask) (p : Partition) (inputs : Array RowInput) (buckets : Int)
    (i : Nat) : Except String (Option Value) :=
  let g := p.groupOf i
  let arg (j k : Nat) : Value := (((inputs[j]?).map (·.args)).bind (·[k]?)).getD .null
  match t.name.toLower with
  | "row_number" => .ok (some (.int (i + 1)))
  | "rank" => .ok (some (.int (p.first g + 1)))
  | "dense_rank" => .ok (some (.int (g + 1)))
  | "percent_rank" =>
    .ok (some (.real (if p.size ≤ 1 then 0.0
      else Double.ofInt (p.first g) / Double.ofInt (p.size - 1))))
  | "cume_dist" =>
    .ok (some (.real (Double.ofInt (p.last g + 1) / Double.ofInt p.size)))
  | "ntile" => .ok (some (.int (ntileOf p.size buckets i)))
  | "lag" | "lead" =>
    let offset := if ((inputs[i]?).map (·.args.length)).getD 0 ≥ 2 then arg i 1 else .int 1
    match shiftedRow p.size i (sameName t.name "lead") offset with
    | some j => .ok (some (arg j 0))
    | none => .ok (some (arg i 2))
  | _ => .ok none

/-- Whether the function is `min` or `max` over frames whose start moves, with no `EXCLUDE`. -/
def keepsExtremes (t : WindowTask) : Bool :=
  (sameName t.name "min" || sameName t.name "max") &&
    t.window.frame.start.kind != .unboundedPreceding && t.window.frame.exclude == .unstated

/-- The value of a function that looks at the frame of row `i`, given the frame's rows. -/
def frameValue (t : WindowTask) (inputs : Array RowInput) (i : Nat) (rows : List Nat) :
    Except String Value :=
  let arg (j k : Nat) : Value := (((inputs[j]?).map (·.args)).bind (·[k]?)).getD .null
  match t.name.toLower with
  | "first_value" => .ok ((rows.head?.map (arg · 0)).getD .null)
  | "last_value" => .ok ((rows.getLast?.map (arg · 0)).getD .null)
  | "nth_value" =>
    match checkOffset.mustBeInt (arg i 1) with
    | some n =>
      if n ≤ 0 then .error "second argument to nth_value must be a positive integer"
      else .ok (((rows[(n - 1).toNat]?).map (arg · 0)).getD .null)
    | none => .error "second argument to nth_value must be a positive integer"
  | _ =>
    let passing := rows.filter fun j => ((inputs[j]?).map (·.passes)).getD false
    if t.star then .ok (.int passing.length)
    else if t.keepsExtremes then
      let greatest := sameName t.name "max"
      let values := (passing.map (arg · 0)).filter (!·.isNull)
      .ok (values.foldl (fun best v =>
        if best.isNull then v
        else match compareWith t.collation v best with
          | .gt => if greatest then v else best
          | .lt => if greatest then best else v
          | .eq => v) .null)
    else aggregateValue t.name t.collation (passing.map fun j => ((inputs[j]?).map (·.args)).getD [])

/-- Whether the function is `sum`, `total` or `avg` kept as the frame's start moves, no `EXCLUDE`. -/
def streams (t : WindowTask) : Bool :=
  ["sum", "total", "avg"].contains t.name.toLower && !t.star &&
    t.window.frame.start.kind != .unboundedPreceding && t.window.frame.exclude == .unstated

/-- The values of a running sum for every row of a partition: each value enters as the frame's end
reaches it and leaves as the start passes it. -/
def streamedValues (t : WindowTask) (p : Partition) (inputs : Array RowInput) (term : SortKey)
    (start finish : Value) : Except String (List Value) :=
  let value (j : Nat) : Option Value :=
    match inputs[j]? with
    | some r =>
      match r.passes, r.args.head? with
      | true, some v => if v.isNull then none else some v
      | _, _ => none
    | none => none
  let take (s : RunningSum) (lo hi : Nat) : RunningSum :=
    (List.range' lo (hi - lo)).foldl (fun s j => ((value j).map s.add).getD s) s
  let give (s : RunningSum) (lo hi : Nat) : RunningSum :=
    (List.range' lo (hi - lo)).foldl (fun s j => ((value j).map s.remove).getD s) s
  let frame := t.window.frame
  let step (state : RunningSum × Nat × Nat × List Value) (i : Nat) :
      Except String (RunningSum × Nat × Nat × List Value) := do
    let (s, taken, given, out) := state
    let lo := (p.frameStart frame term start i).toNat
    let hi := min p.size (p.frameEnd frame term finish i + 1).toNat
    let takeTo := max taken hi
    let giveTo := max given (min lo takeTo)
    let early := max given (min giveTo taken)
    let s := give (take (give s given early) taken takeTo) early giveTo
    let v ← s.result t.name
    pure (s, takeTo, giveTo, out ++ [v])
  ((List.range p.size).foldlM step ({}, 0, 0, [])).map fun (_, _, _, out) => out

/-- The values of the function for every row of a partition, in window order. -/
def values (t : WindowTask) (collations : List String) (p : Partition) (inputs : Array RowInput)
    (start finish : Value) : Except String (List Value) := do
  let buckets ← if sameName t.name "ntile" then
      let first : Option RowInput := inputs[0]?
      let n := (((first.map (·.args)).bind List.head?).getD Value.null).toInt
      if n ≤ 0 then throw "argument of ntile must be a positive integer" else pure n
    else pure 1
  let term := t.rangeKey collations
  if t.streams then t.streamedValues p inputs term start finish
  else (List.range p.size).mapM fun i => do
    match ← t.partitionValue p inputs buckets i with
    | some v => pure v
    | none => t.frameValue inputs i (p.frameRows t.window.frame term start finish i)

end WindowTask

end Sql
end TreeHistory
