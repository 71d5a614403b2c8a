import TreeHistory.Proofs.Store.Tables
import Mathlib.Data.List.Sort
import Mathlib.Data.String.Basic

/-!
# A reference engine

The index's theorems hold for every lawful engine; this module gives one, which keeps the tables
as rows of the connection's database and runs each write as `Tables.write` says. It is lawful
(`Reference.lawful`), and a store over a database holding some tables holds them
(`Reference.holds`): the statements over lawful engines speak of something.
-/

namespace TreeHistory
namespace Reference

/-! ## The orders the queries sort by -/

/-- By name, then id: the order of a listing of children. -/
def ByName (a b : NodeRecord) : Prop := a.name < b.name ∨ a.name = b.name ∧ a.id ≤ b.id

/-- By opening revision, then id: the order of a path's history, whose last row is the newest. -/
def ByOpening (a b : NodeRecord) : Prop :=
  a.revMin < b.revMin ∨ a.revMin = b.revMin ∧ a.id ≤ b.id

/-- By path: the order of the live rows. -/
def ByPath (a b : NodeRecord) : Prop := a.path ≤ b.path

/-- By opening revision: the order of a node's content history. -/
def ContentByOpening (a b : ContentRecord) : Prop := a.revMin ≤ b.revMin

instance : DecidableRel ByName := fun _ _ => inferInstanceAs (Decidable (_ ∨ _))

instance : DecidableRel ByOpening := fun _ _ => inferInstanceAs (Decidable (_ ∨ _))

instance : DecidableRel ByPath := fun a b => inferInstanceAs (Decidable (a.path ≤ b.path))

instance : DecidableRel ContentByOpening := fun a b =>
  inferInstanceAs (Decidable (a.revMin ≤ b.revMin))

/-- Ordering by a key and then by id is total when both orders are. -/
theorem total_lex {α : Type} [LinearOrder α] (key : NodeRecord → α) (a b : NodeRecord) :
    (key a < key b ∨ key a = key b ∧ a.id ≤ b.id) ∨ (key b < key a ∨ key b = key a ∧ b.id ≤ a.id) := by
  rcases lt_trichotomy (key a) (key b) with less | same | more
  · exact .inl (.inl less)
  · rcases Int.le_total a.id b.id with le | ge
    · exact .inl (.inr ⟨same, le⟩)
    · exact .inr (.inr ⟨same.symm, ge⟩)
  · exact .inr (.inl more)

theorem trans_lex {α : Type} [LinearOrder α] {key : NodeRecord → α} {a b c : NodeRecord}
    (ab : key a < key b ∨ key a = key b ∧ a.id ≤ b.id)
    (bc : key b < key c ∨ key b = key c ∧ b.id ≤ c.id) :
    key a < key c ∨ key a = key c ∧ a.id ≤ c.id := by
  rcases ab with ab | ⟨ab, ab'⟩ <;> rcases bc with bc | ⟨bc, bc'⟩
  · exact .inl (lt_trans ab bc)
  · exact .inl (bc ▸ ab)
  · exact .inl (ab ▸ bc)
  · exact .inr ⟨ab.trans bc, Int.le_trans ab' bc'⟩

instance : Std.Total ByName := ⟨total_lex (·.name)⟩

instance : IsTrans NodeRecord ByName := ⟨fun _ _ _ => trans_lex⟩

instance : Std.Total ByOpening := ⟨total_lex (·.revMin)⟩

instance : IsTrans NodeRecord ByOpening := ⟨fun _ _ _ => trans_lex⟩

instance : Std.Total ByPath := ⟨fun a b => le_total a.path b.path⟩

instance : IsTrans NodeRecord ByPath := ⟨fun _ _ _ => le_trans⟩

instance : Std.Total ContentByOpening := ⟨fun a b => Int.le_total a.revMin b.revMin⟩

instance : IsTrans ContentRecord ContentByOpening := ⟨fun _ _ _ => Int.le_trans⟩

/-! ## Tables as the rows of a database -/

/-- A table of the reference engine with the given rows. -/
def table (name : String) (rows : List (List Sql.Value)) : Sql.Table :=
  { schema := { name := name, columns := [] },
    rows := rows.map fun values => { rowid := 0, values := values } }

/-- The database that holds the tables: the node table, then the revision and content tables. -/
def encode (t : Tables) : Sql.Database :=
  { tables := [table "node" (t.nodes.map NodeRecord.values),
      table "revision" (t.revisions.map RevisionInfo.values),
      table "content" (t.contents.map ContentRecord.values)] }

/-- A column that holds text or `NULL`. -/
def textOpt? : Sql.Value → Option (Option String)
  | .null => some none
  | .text s => some (some s)
  | _ => none

def decodeRevision : List Sql.Value → Option RevisionInfo
  | [.int id, author, .int dateMs, .text message] =>
    (textOpt? author).map fun author =>
      { id := id, author := author, dateMs := dateMs, message := message }
  | _ => none

def decodeContent : List Sql.Value → Option ContentRecord
  | [.int node, .int revMin, .int revMax, data] =>
    (textOpt? data).map fun data => { node := node, revMin := revMin, revMax := revMax, data := data }
  | _ => none

def decodeNode (values : List Sql.Value) : Option NodeRecord :=
  (Store.readNode { columns := [], values := values }).toOption

/-- The tables a database holds, where it holds them as the reference engine writes them. -/
def decode (db : Sql.Database) : Option Tables :=
  match db.tables with
  | [nodes, revisions, contents] =>
    if nodes.schema.name = "node" then do
      let nodeRows ← nodes.rows.mapM fun row => decodeNode row.values
      let revisionRows ← revisions.rows.mapM fun row => decodeRevision row.values
      let contentRows ← contents.rows.mapM fun row => decodeContent row.values
      pure { revisions := revisionRows, nodes := nodeRows, contents := contentRows }
    else none
  | _ => none

theorem decodeRevision_values (info : RevisionInfo) : decodeRevision info.values = some info := by
  obtain ⟨id, author, dateMs, message⟩ := info
  cases author <;> rfl

theorem decodeContent_values (row : ContentRecord) : decodeContent row.values = some row := by
  obtain ⟨node, revMin, revMax, data⟩ := row
  cases data <;> rfl

theorem decodeNode_values (row : NodeRecord) : decodeNode row.values = some row := by
  simp [decodeNode, Store.readNode_values, Except.toOption]

/-- Rows written from records read back as the records. -/
theorem mapM_decode {α : Type} {write : α → List Sql.Value} {read : List Sql.Value → Option α}
    (inverse : ∀ a, read (write a) = some a) (xs : List α) :
    ((xs.map write).map fun values => ({ rowid := 0, values := values } : Sql.Row)).mapM
      (fun row => read row.values) = some xs := by
  induction xs with
  | nil => rfl
  | cons x rest restRead =>
    simp only [List.map_cons, List.mapM_cons, inverse, restRead]
    rfl

@[simp] theorem decode_encode (t : Tables) : decode (encode t) = some t := by
  unfold decode encode table
  dsimp only
  rw [if_pos rfl, mapM_decode decodeNode_values, mapM_decode decodeRevision_values,
    mapM_decode decodeContent_values]
  rfl

theorem length_of_mapM {α β : Type} {f : α → Option β} :
    ∀ {xs : List α} {ys : List β}, xs.mapM f = some ys → ys.length = xs.length
  | [], ys, mapped => by
    simp only [List.mapM_nil, pure, Option.some.injEq] at mapped
    rw [← mapped]
    rfl
  | x :: rest, ys, mapped => by
    rw [List.mapM_cons] at mapped
    simp only [bind, Option.bind_eq_some_iff, pure, Option.some.injEq] at mapped
    obtain ⟨y, -, ys', restMapped, rfl⟩ := mapped
    simp [length_of_mapM restMapped]

/-- A database the reference engine reads as tables keeps their node rows in its node table. -/
theorem nodeCount_of_decode {db : Sql.Database} {t : Tables} (decoded : decode db = some t) :
    ((db.table? "node").map (·.rows.length)).getD 0 = t.nodes.length := by
  unfold decode at decoded
  split at decoded
  · rename_i nodes revisions contents tablesEq
    split at decoded
    · rename_i named
      simp only [bind, Option.bind_eq_some_iff, pure, Option.some.injEq] at decoded
      obtain ⟨nodeRows, nodesRead, -, -, -, -, rfl⟩ := decoded
      have found : db.table? "node" = some nodes := by
        simp [Sql.Database.table?, tablesEq, Sql.sameName, named]
      rw [found]
      exact (length_of_mapM nodesRead).symm
    · simp at decoded
  · simp at decoded

/-! ## Answers -/

/-- The row of the newest of `matching` by `(revMin, id)`, or no row. -/
def newest (matching : List NodeRecord) : List (List Sql.Value) :=
  ((matching.insertionSort ByOpening).getLast?.map NodeRecord.values).toList

/-- What the reference engine answers a query with. -/
def answer (t : Tables) : Lookup → List (List Sql.Value)
  | .lookupPath path r =>
    newest (t.nodes.filter fun row => row.path == path && decide (row.revMin ≤ r))
  | .nodeAt path r => newest (t.nodes.filter fun row => row.path == path && row.covers r)
  | .children parent r =>
    ((t.nodes.filter fun row => row.parent == parent && row.covers r).insertionSort ByName).map
      NodeRecord.values
  | .node id => (t.nodes.filter (·.id == id)).map NodeRecord.values
  | .pathHistory path =>
    ((t.nodes.filter (·.path == path)).insertionSort ByOpening).map NodeRecord.values
  | .liveNodes => ((t.nodes.filter NodeRecord.isLive).insertionSort ByPath).map NodeRecord.values
  | .contentHistory node =>
    ((t.contents.filter (·.node == node)).insertionSort ContentByOpening).map ContentRecord.values
  | .revision id => (t.revisions.filter (·.id == id)).map RevisionInfo.values
  | .lastRevision => [[intValue (t.revisions.map (·.id)).max?]]
  | .maxNodeId => [[intValue (t.nodes.map (·.id)).max?]]

theorem listed_insertionSort {α : Type} (write : α → List Sql.Value) (r : α → α → Prop)
    [DecidableRel r] [Std.Total r] [IsTrans α r] (matching : List α) :
    Tables.Listed write r matching ((matching.insertionSort r).map write) :=
  ⟨_, rfl, List.perm_insertionSort r matching, List.pairwise_insertionSort r matching⟩

theorem listed_unordered {α : Type} (write : α → List Sql.Value) (matching : List α) :
    Tables.Listed write (fun _ _ => True) matching (matching.map write) :=
  ⟨matching, rfl, List.Perm.refl _, List.pairwise_of_forall fun _ _ => trivial⟩

/-- The last row in order of opening is the newest. -/
theorem newest_newest (matching : List NodeRecord) : Tables.Newest matching (newest matching) := by
  have perm := List.perm_insertionSort ByOpening matching
  have sorted := List.pairwise_insertionSort ByOpening matching
  unfold newest
  cases last : (matching.insertionSort ByOpening).getLast? with
  | none =>
    rw [List.getLast?_eq_none_iff] at last
    rw [last] at perm
    exact .inl ⟨List.Perm.nil_eq perm |>.symm, rfl⟩
  | some best =>
    obtain ⟨earlier, split⟩ := List.getLast?_eq_some_iff.1 last
    rw [split] at perm sorted
    refine .inr ⟨best, perm.subset (List.mem_append_right _ (List.mem_singleton_self _)), rfl, ?_⟩
    intro other otherMem
    rcases List.mem_append.1 (perm.symm.subset otherMem) with before | same
    · exact (List.pairwise_append.1 sorted).2.2 other before best (List.mem_singleton_self _)
    · rw [List.mem_singleton.1 same]
      exact .inr ⟨rfl, Int.le_refl _⟩

theorem answers_answer (t : Tables) (lookup : Lookup) : t.Answers lookup (answer t lookup) := by
  cases lookup with
  | lookupPath path r => exact newest_newest _
  | nodeAt path r => exact newest_newest _
  | children parent r => exact listed_insertionSort NodeRecord.values ByName _
  | node id => exact listed_unordered NodeRecord.values _
  | pathHistory path => exact listed_insertionSort NodeRecord.values ByOpening _
  | liveNodes => exact listed_insertionSort NodeRecord.values ByPath _
  | contentHistory node => exact listed_insertionSort ContentRecord.values ContentByOpening _
  | revision id => exact listed_unordered RevisionInfo.values _
  | lastRevision => rfl
  | maxNodeId => rfl

/-! ## The engine -/

/-- The reference engine. -/
def engine : Engine where
  write conn statement :=
    match decode conn.db with
    | some t => ({ conn with db := encode (t.write statement).1 }, (t.write statement).2)
    | none => (conn, .error "no such table: node")
  read conn lookup :=
    match decode conn.db with
    | some t => .ok { columns := [], rows := answer t lookup }
    | none => .error "no such table: node"
  begin conn := ({ conn with savepoint := some conn.db }, .ok ())
  commit conn :=
    match decode conn.db with
    | some t =>
      if t.keysHold then ({ conn with savepoint := none }, .ok ())
      else (conn, .error "FOREIGN KEY constraint failed")
    | none => (conn, .error "no such table: node")

/-- The reference engine is lawful, seen through the tables its database holds. -/
def lawful : engine.Lawful where
  tables conn := decode conn.db
  inTransaction conn := conn.savepoint.isSome
  write conn t statement decoded := by
    simp [engine, decoded]
  read conn t lookup decoded :=
    ⟨{ columns := [], rows := answer t lookup }, by simp only [engine, decoded],
      answers_answer t lookup⟩
  begin _ _ decoded _ := ⟨rfl, decoded, rfl⟩
  commit conn t decoded _ := by
    cases keys : t.keysHold <;> simp [engine, decoded, keys]
  nodeCount _ _ decoded := nodeCount_of_decode decoded

/-- A store of the reference engine over the database holding `t`, with no transaction open. -/
def store (t : Tables) : Store := { conn := { db := encode t }, engine := engine }

theorem holds (t : Tables) : (store t).Holds lawful t false := ⟨rfl, decode_encode t, rfl⟩

end Reference
end TreeHistory
