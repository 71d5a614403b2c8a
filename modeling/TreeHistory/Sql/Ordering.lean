import TreeHistory.Sql.Functions

/-!
# Ordering rows

Rows are ordered by lists of sort keys, each going up or down, with `NULL` first or last, and
text compared under a collation. Sorting keeps ties in the order they came, so that a query's
rows keep the order they were read in wherever its terms do not tell them apart.
-/

namespace TreeHistory
namespace Sql

/-- How one sort key orders: descending or not, whether `NULL` comes first, and the collation
its text compares under. -/
structure SortKey where
  descending : Bool := false
  nullsFirst : Bool := true
  collation : String := "BINARY"

/-- A sort key as a term writes it: `NULL` comes first going up and last going down, unless the
term says otherwise. -/
def SortKey.of (descending : Bool) (nulls : Option Bool) (collation : String) : SortKey :=
  { descending, nullsFirst := nulls.getD !descending, collation }

/-- Compares two lists of sort keys term by term. -/
def compareKeys : List SortKey → List Value → List Value → Ordering
  | k :: terms, a :: as, b :: bs =>
    let o := match a.isNull, b.isNull with
      | true, true => .eq
      | true, false => if k.nullsFirst then .lt else .gt
      | false, true => if k.nullsFirst then .gt else .lt
      | false, false =>
        let o := compareWith k.collation a b
        if k.descending then o.swap else o
    if o == .eq then compareKeys terms as bs else o
  | _, _, _ => .eq

/-- Sorts rows by their keys, keeping ties in the order they came. -/
def sortByKeys {α : Type} (terms : List SortKey) (rows : List (α × List Value)) :
    List (α × List Value) :=
  rows.mergeSort fun a b => compareKeys terms a.2 b.2 != .gt

/-- Whether two rows of values are the same, `NULL` matching `NULL`. -/
def sameRow (a b : List Value) : Bool :=
  a.length == b.length && (List.zip a b).all fun (x, y) => Value.same x y

/-- Whether two rows of values are the same, each column under its collation (binary past the
ones given), `NULL` matching `NULL`. -/
def sameUnder (collations : List String) (a b : List Value) : Bool :=
  a.length == b.length && (List.zip a b).zipIdx.all fun ((x, y), i) =>
    compareWith ((collations[i]?).getD "BINARY") x y == .eq

/-- Keeps the first of each set of rows that are the same under the collations. -/
def distinctBy {α : Type} (collations : List String) (key : α → List Value) (rows : List α) :
    List α :=
  rows.foldl (fun kept row => if kept.any (fun k => sameUnder collations (key k) (key row)) then kept
    else kept ++ [row]) []

/-- Splits rows in order into runs over which a test of two neighbours holds. -/
def splitRuns {α : Type} (together : α → α → Bool) (rows : List α) : List (List α) :=
  (rows.foldl (fun (runs : List (List α)) row =>
    match runs with
    | (last :: run) :: more =>
      if together last row then (row :: last :: run) :: more else [row] :: (last :: run) :: more
    | _ => [[row]]) []).reverse.map List.reverse

/-- Splits rows sorted by key into runs of keys that compare equal. -/
def runsOf {α : Type} (terms : List SortKey) : List (α × List Value) → List (List α × List Value)
  | [] => []
  | (row, key) :: rest =>
    match runsOf terms rest with
    | (group, k) :: more =>
      if compareKeys terms key k == .eq then (row :: group, k) :: more
      else ([row], key) :: (group, k) :: more
    | [] => [([row], key)]

end Sql
end TreeHistory
