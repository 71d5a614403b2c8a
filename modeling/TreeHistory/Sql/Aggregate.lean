import TreeHistory.Sql.Functions
import TreeHistory.Sql.Schema
import TreeHistory.Sql.JsonFunctions

/-!
# Aggregates

What an aggregate function makes of the values of its argument over a group of rows, or over the
frame of a window: counts, sums, averages, extremes and concatenations. Sums stay exact integers
while they can and are kept with a compensation term once they cannot.
-/

namespace TreeHistory
namespace Sql

/-- A running sum as `sum`, `total` and `avg` keep it: an exact integer while it can be, then a
double with a compensation term (Kahan–Babuška–Neumaier). -/
structure RunningSum where
  count : Nat := 0
  intSum : Int := 0
  approx : Bool := false
  overflow : Bool := false
  sum : Float := 0
  err : Float := 0

namespace RunningSum

/-- Adds a double to the compensated sum. -/
def step (s : RunningSum) (r : Float) : RunningSum :=
  let t := s.sum + r
  let err := if s.sum.abs > r.abs then s.err + ((s.sum - t) + r) else s.err + ((r - t) + s.sum)
  { s with sum := t, err := err }

/-- Splits an integer too large for a double to hold exactly into a part that is a multiple of
16384 and the rest. -/
def split (n : Int) : Option (Int × Int) :=
  if n ≤ -4503599627370496 ∨ n ≥ 4503599627370496 then
    let small := n.tmod 16384
    some (n - small, small)
  else none

/-- Adds an integer to the compensated sum, in two parts when it is large. -/
def stepInt (s : RunningSum) (n : Int) : RunningSum :=
  match split n with
  | some (big, small) => (s.step (Double.ofInt big)).step (Double.ofInt small)
  | none => s.step (Double.ofInt n)

/-- Starts the compensated sum from the integer sum so far. -/
def start (s : RunningSum) : RunningSum :=
  match split s.intSum with
  | some (big, small) => { s with sum := Double.ofInt big, err := Double.ofInt small, approx := true }
  | none => { s with sum := Double.ofInt s.intSum, err := 0, approx := true }

/-- Adds a value that is not `NULL`: text that reads wholly as a number counts as that number,
other text and blobs as the double their prefix reads as. -/
def add (s : RunningSum) (v : Value) : RunningSum :=
  let s := { s with count := s.count + 1 }
  match v.numericAffinity false with
  | .int n =>
    if s.approx then s.stepInt n
    else
      let sum := s.intSum + n
      if Double.minInt ≤ sum ∧ sum ≤ Double.maxInt then { s with intSum := sum }
      else { s.start with overflow := true }.stepInt n
  | other =>
    if s.approx then { s with overflow := false }.step other.toReal
    else s.start.step other.toReal

/-- Takes a value back out of the sum, as a moving window frame does. -/
def remove (s : RunningSum) (v : Value) : RunningSum :=
  let s := { s with count := s.count - 1 }
  if !s.approx then
    let sum := s.intSum - v.toInt
    if Double.minInt ≤ sum ∧ sum ≤ Double.maxInt then { s with intSum := sum }
    else { s with overflow := true, approx := true }
  else
    match v.numericAffinity false with
    | .int n => if n = Double.minInt then (s.stepInt Double.maxInt).stepInt 1 else s.stepInt (-n)
    | other => s.step (-other.toReal)

/-- Whether a double is an infinity or a NaN. -/
def isOverflow (x : Float) : Bool := (Double.decode x).isNone

/-- The compensated sum, with its compensation unless that overflowed. -/
def rounded (s : RunningSum) : Float :=
  if isOverflow s.err then s.sum else s.sum + s.err

/-- `sum`: `NULL` for no values, an integer while exact, an error when integers overflowed. -/
def sumValue (s : RunningSum) : Except String Value :=
  if s.count = 0 then .ok .null
  else if !s.approx then .ok (.int s.intSum)
  else if s.overflow then .error "integer overflow"
  else .ok (.ofReal s.rounded)

/-- `total`: always a double, 0.0 for no values. -/
def totalValue (s : RunningSum) : Float :=
  if s.approx then s.rounded else Double.ofInt s.intSum

/-- `avg`: `NULL` for no values, else the sum over the count. -/
def avgValue (s : RunningSum) : Value :=
  if s.count = 0 then .null
  else .ofReal ((if s.approx then s.rounded else Double.ofInt s.intSum) / Double.ofInt s.count)

/-- What `sum`, `total` or `avg` gives for a running sum. -/
def result (s : RunningSum) (name : String) : Except String Value :=
  match name.toLower with
  | "sum" => s.sumValue
  | "total" => .ok (.ofReal s.totalValue)
  | _ => .ok s.avgValue

end RunningSum

/-- Aggregates the values of one argument over a group; `NULL`s are skipped. -/
def aggregateValue (name : String) (collation : String) (args : List (List Value)) :
    Except String Value :=
  let values := (args.filterMap (·.head?)).filter (!·.isNull)
  match name.toLower with
  | "count" => .ok (.int (args.filter fun r => r.head?.all (!·.isNull)).length)
  | "sum" | "total" | "avg" => (values.foldl RunningSum.add {}).result name
  | "json_group_array" | "jsonb_group_array" | "json_group_object" | "jsonb_group_object" =>
    (JsonFunction.aggregate name (args.map (·.map fun v => ⟨v, false⟩))).map (·.value)
  | "min" | "max" =>
    let greatest := sameName name "max"
    match values with
    | [] => .ok .null
    | v :: rest => .ok (rest.foldl (fun best w =>
      match compareWith collation w best with
      | .gt => if greatest then w else best
      | .lt => if greatest then best else w
      | .eq => best) v)
  | _ =>
    let separator := ((args.head?.bind (·[1]?)).bind Value.toText?).getD ","
    let texts := values.filterMap Value.toText?
    if texts.isEmpty then .ok .null else .ok (.text (separator.intercalate texts))

end Sql
end TreeHistory
