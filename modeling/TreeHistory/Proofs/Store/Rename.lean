import Mathlib
import TreeHistory.Proofs.Store.Batching
import TreeHistory.Proofs.Tree.Rename

/-!
# Renaming the node ids of the tables

A revision's writes treat node ids as names, so renamed calls go through on the renamed tables
exactly when the calls go through (`Tables.execAll_rename`, `Transaction.goes_rename`). A node
row's predecessor keeps its id.
-/

namespace TreeHistory

variable {f : NodeId → NodeId}

/-- A content row with the id of its node renamed by `f`. -/
def ContentRecord.rename (f : NodeId → NodeId) (row : ContentRecord) : ContentRecord :=
  { row with node := f row.node }

namespace Tables

/-- The tables with every node id renamed by `f`. -/
def rename (f : NodeId → NodeId) (t : Tables) : Tables :=
  { t with nodes := t.nodes.map (NodeRecord.rename f),
           contents := t.contents.map (ContentRecord.rename f) }

@[simp] theorem rename_revisions (t : Tables) : (t.rename f).revisions = t.revisions := rfl

theorem rename_withRevisions (t : Tables) (revisions : List RevisionInfo) :
    ({ t with revisions := revisions } : Tables).rename f = { t.rename f with revisions := revisions } :=
  rfl

/-- Renaming by `f` changes nothing in tables whose ids `f` fixes. -/
theorem rename_eq_self {t : Tables}
    (fixesNodes : ∀ row ∈ t.nodes, f row.id = row.id ∧ f row.parent = row.parent)
    (fixesContents : ∀ row ∈ t.contents, f row.node = row.node) : t.rename f = t := by
  have nodes : t.nodes.map (NodeRecord.rename f) = t.nodes :=
    calc t.nodes.map (NodeRecord.rename f) = t.nodes.map id :=
          List.map_congr_left fun row mem =>
            row.rename_eq_self (fixesNodes row mem).1 (fixesNodes row mem).2
      _ = t.nodes := List.map_id _
  have contents : t.contents.map (ContentRecord.rename f) = t.contents :=
    calc t.contents.map (ContentRecord.rename f) = t.contents.map id :=
          List.map_congr_left fun row mem => by
            unfold ContentRecord.rename
            rw [fixesContents row mem]
            rfl
      _ = t.contents := List.map_id _
  unfold rename
  rw [nodes, contents]

theorem keysHold_rename (inj : Function.Injective f) (t : Tables) :
    (t.rename f).keysHold = t.keysHold := by
  simp [keysHold, rename, ContentRecord.rename, Function.comp_def, beq_rename inj]

theorem closesNode_rename (inj : Function.Injective f) (node : NodeId) (revMax : Revnum)
    (row : NodeRecord) : closesNode (f node) revMax (row.rename f) = closesNode node revMax row := by
  unfold closesNode
  rw [NodeRecord.rename_id, beq_rename inj]
  rfl

theorem closesContent_rename (inj : Function.Injective f) (node : NodeId) (revMax : Revnum)
    (row : ContentRecord) :
    closesContent (f node) revMax (row.rename f) = closesContent node revMax row := by
  unfold closesContent ContentRecord.rename
  rw [beq_rename inj]

theorem closeAt_rename (inj : Function.Injective f) (node : NodeId) (revMax : Revnum)
    (row : NodeRecord) : closeAt [f node] revMax (row.rename f) = (closeAt [node] revMax row).rename f := by
  unfold closeAt
  by_cases closing : row.id ∈ [node] ∧ row.revMax = Revnum.head ∧ row.revMin ≤ revMax
  · have closing' : (row.rename f).id ∈ [f node] ∧ (row.rename f).revMax = Revnum.head ∧
        (row.rename f).revMin ≤ revMax := by
      simpa [inj.eq_iff] using closing
    rw [if_pos closing, if_pos closing']
    rfl
  · have closing' : ¬((row.rename f).id ∈ [f node] ∧ (row.rename f).revMax = Revnum.head ∧
        (row.rename f).revMin ≤ revMax) := by
      simpa [inj.eq_iff] using closing
    rw [if_neg closing, if_neg closing']

theorem closeContentAt_rename (inj : Function.Injective f) (node : NodeId) (revMax : Revnum)
    (row : ContentRecord) :
    closeContentAt (f node) revMax (row.rename f) = (closeContentAt node revMax row).rename f := by
  unfold closeContentAt
  rw [closesContent_rename inj]
  split <;> rfl

end Tables

namespace Statement

/-- The write with the node id it names renamed by `f`. -/
def rename (f : NodeId → NodeId) : Statement → Statement
  | .insertRevision info => .insertRevision info
  | .insertNode record => .insertNode (record.rename f)
  | .outdateNode node revMax => .outdateNode (f node) revMax
  | .insertContent node revMin data => .insertContent (f node) revMin data
  | .outdateContent node revMax => .outdateContent (f node) revMax

@[simp] theorem writer_rename (s : Statement) : (s.rename f).writer = s.writer := by
  cases s <;> rfl

theorem admits_rename (inj : Function.Injective f) (s : Statement) (t : Tables) :
    (s.rename f).Admits (t.rename f) ↔ s.Admits t := by
  cases s with
  | insertRevision info => rfl
  | insertNode record =>
    simp [rename, Admits, Tables.rename, inj.eq_iff, Function.comp_def]
  | outdateNode node revMax =>
    simp only [rename, Admits, Tables.rename, List.countP_map]
    simp only [Function.comp_def, Tables.closesNode_rename inj]
  | insertContent node revMin data =>
    simp [rename, Admits, Tables.rename, ContentRecord.rename, inj.eq_iff, Function.comp_def]
  | outdateContent node revMax => rfl

theorem apply_rename (inj : Function.Injective f) (s : Statement) (t : Tables) :
    (s.rename f).apply (t.rename f) = (s.apply t).rename f := by
  cases s with
  | insertRevision info => rfl
  | insertNode record => simp [rename, apply, Tables.rename]
  | outdateNode node revMax =>
    simp [rename, apply, Tables.rename, Function.comp_def, Tables.closeAt_rename inj]
  | insertContent node revMin data =>
    simp [rename, apply, Tables.rename, ContentRecord.rename]
  | outdateContent node revMax =>
    simp [rename, apply, Tables.rename, Function.comp_def, Tables.closeContentAt_rename inj]

end Statement

namespace Tables

open Statement

/-- Renamed writes go through on the renamed tables exactly when the writes go through, and leave
the renamed tables. -/
theorem execAll_rename (inj : Function.Injective f) :
    ∀ (writes : List Statement) (t : Tables) {t'' : Tables},
      (t.rename f).execAll (writes.map (Statement.rename f)) = (t'', none) ↔
        ∃ t', t.execAll writes = (t', none) ∧ t'' = t'.rename f
  | [], t, t'' => by
    simp only [List.map_nil, execAll, Prod.mk.injEq, and_true]
    constructor
    · rintro rfl
      exact ⟨t, rfl, rfl⟩
    · rintro ⟨_, rfl, rfl⟩
      rfl
  | s :: rest, t, t'' => by
    rw [List.map_cons, execAll_cons_eq_none, admits_rename inj, apply_rename inj,
      execAll_rename inj rest]
    simp only [execAll_cons_eq_none]
    constructor
    · rintro ⟨admitted, t', ran, rfl⟩
      exact ⟨t', ⟨admitted, ran⟩, rfl⟩
    · rintro ⟨t', ⟨admitted, ran⟩, rfl⟩
      exact ⟨admitted, t', ran, rfl⟩

theorem through_rename (w : Writer) (writes : List Statement) :
    through w (writes.map (Statement.rename f)) = (through w writes).map (Statement.rename f) := by
  simp [through, List.filter_map, Function.comp_def]

theorem byWriter_rename (writes : List Statement) :
    byWriter (writes.map (Statement.rename f)) = (byWriter writes).map (Statement.rename f) := by
  simp [byWriter, inWriterOrder, through_rename]

end Tables

namespace Transaction

namespace Call

/-- The call with the node id it names renamed by `f`. -/
def rename (f : NodeId → NodeId) : Call → Call
  | .outdateNode node isFile => .outdateNode (f node) isFile
  | .insertNode record => .insertNode (record.rename f)
  | .insertContent node data => .insertContent (f node) data
  | .replaceContent node data => .replaceContent (f node) data

theorem statements_rename (R : Revnum) (call : Call) :
    (call.rename f).statements R = (call.statements R).map (Statement.rename f) := by
  cases call with
  | outdateNode node isFile => cases isFile <;> rfl
  | insertNode record => rfl
  | insertContent node data => rfl
  | replaceContent node data => rfl

theorem writes_rename (R : Revnum) (calls : List Call) :
    writes R (calls.map (rename f)) = (writes R calls).map (Statement.rename f) := by
  simp [writes, List.flatMap_map, statements_rename, List.map_flatMap]

@[simp] theorem valid_rename (R : Revnum) (call : Call) : (call.rename f).Valid R ↔ call.Valid R := by
  cases call <;> rfl

end Call

/-- Renamed calls go through on the renamed tables exactly when the calls go through. -/
theorem goes_rename (inj : Function.Injective f) (t : Tables) (R : Revnum) (calls : List Call) :
    Goes (t.rename f) R (calls.map (Call.rename f)) ↔ Goes t R calls := by
  unfold Goes
  simp only [List.mem_map, forall_exists_index, and_imp, forall_apply_eq_imp_iff₂,
    Call.valid_rename, Call.writes_rename, Tables.byWriter_rename]
  constructor
  · rintro ⟨valid, t'', ran, keys⟩
    obtain ⟨t', ran', rfl⟩ := (Tables.execAll_rename inj _ t).1 ran
    exact ⟨valid, t', ran', by rwa [Tables.keysHold_rename inj] at keys⟩
  · rintro ⟨valid, t', ran, keys⟩
    exact ⟨valid, t'.rename f, (Tables.execAll_rename inj _ t).2 ⟨t', ran, rfl⟩,
      by rwa [Tables.keysHold_rename inj]⟩

/-- On tables whose ids `f` fixes, renamed calls go through exactly when the calls do. -/
theorem goes_rename_of_fixed (inj : Function.Injective f) {t : Tables} (fixed : t.rename f = t)
    (R : Revnum) (calls : List Call) : Goes t R (calls.map (Call.rename f)) ↔ Goes t R calls := by
  conv_lhs => rw [← fixed]
  exact goes_rename inj t R calls

end Transaction

end TreeHistory
