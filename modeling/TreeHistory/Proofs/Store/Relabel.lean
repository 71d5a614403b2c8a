import Mathlib
import TreeHistory.Proofs.Store.Rename
import TreeHistory.Proofs.Tree.Relabel
import TreeHistory.Proofs.Indexer.CopiedSubtree

/-!
# Relabeling every node id of the tables

`Tables.relabel f p` renames node ids by `f` and maps each row's predecessor by `p`. Relabeled
writes go through on relabeled tables exactly when the writes do (`Transaction.goes_relabel`).
Under a strictly increasing renaming, with one row per id, a store holding the relabeled tables
answers each of the ingestor's reads with the relabeled answer (`Store.Relabels`), as a listing
sorted by id keeps its order.
-/

namespace TreeHistory

variable {f : NodeId → NodeId} {p : Option Predecessor → Option Predecessor}

namespace Tables

/-- The tables with every node id renamed by `f` and every predecessor mapped by `p`. -/
def relabel (f : NodeId → NodeId) (p : Option Predecessor → Option Predecessor) (t : Tables) :
    Tables :=
  { t with nodes := t.nodes.map (NodeRecord.relabel f p),
           contents := t.contents.map (ContentRecord.rename f) }

@[simp] theorem relabel_revisions (t : Tables) : (t.relabel f p).revisions = t.revisions := rfl

@[simp] theorem relabel_nodes (t : Tables) :
    (t.relabel f p).nodes = t.nodes.map (NodeRecord.relabel f p) := rfl

theorem relabel_withRevisions (t : Tables) (revisions : List RevisionInfo) :
    ({ t with revisions := revisions } : Tables).relabel f p =
      { t.relabel f p with revisions := revisions } :=
  rfl

theorem keysHold_relabel (inj : Function.Injective f) (t : Tables) :
    (t.relabel f p).keysHold = t.keysHold := by
  simp [keysHold, relabel, ContentRecord.rename, Function.comp_def, beq_rename inj]

/-- Relabeling changes nothing in tables whose ids and predecessors it fixes. -/
theorem relabel_eq_self {t : Tables}
    (fixesNodes : ∀ row ∈ t.nodes,
      f row.id = row.id ∧ f row.parent = row.parent ∧ p row.predecessor = row.predecessor)
    (fixesContents : ∀ row ∈ t.contents, f row.node = row.node) : t.relabel f p = t := by
  have nodes : t.nodes.map (NodeRecord.relabel f p) = t.nodes :=
    calc t.nodes.map (NodeRecord.relabel f p) = t.nodes.map id :=
          List.map_congr_left fun row mem => by
            obtain ⟨fixesId, fixesParent, fixesPredecessor⟩ := fixesNodes row mem
            unfold NodeRecord.relabel
            rw [fixesId, fixesParent, fixesPredecessor]
            rfl
      _ = t.nodes := List.map_id _
  have contents : t.contents.map (ContentRecord.rename f) = t.contents :=
    calc t.contents.map (ContentRecord.rename f) = t.contents.map id :=
          List.map_congr_left fun row mem => by
            unfold ContentRecord.rename
            rw [fixesContents row mem]
            rfl
      _ = t.contents := List.map_id _
  unfold relabel
  rw [nodes, contents]

theorem closesNode_relabel (inj : Function.Injective f) (node : NodeId) (revMax : Revnum)
    (row : NodeRecord) :
    closesNode (f node) revMax (row.relabel f p) = closesNode node revMax row := by
  unfold closesNode
  rw [NodeRecord.relabel_id, beq_rename inj]
  rfl

theorem closeAt_relabel (inj : Function.Injective f) (node : NodeId) (revMax : Revnum)
    (row : NodeRecord) :
    closeAt [f node] revMax (row.relabel f p) = (closeAt [node] revMax row).relabel f p := by
  unfold closeAt
  by_cases closing : row.id ∈ [node] ∧ row.revMax = Revnum.head ∧ row.revMin ≤ revMax
  · have closing' : (row.relabel f p).id ∈ [f node] ∧ (row.relabel f p).revMax = Revnum.head ∧
        (row.relabel f p).revMin ≤ revMax := by
      simpa [inj.eq_iff] using closing
    rw [if_pos closing, if_pos closing']
    rfl
  · have closing' : ¬((row.relabel f p).id ∈ [f node] ∧ (row.relabel f p).revMax = Revnum.head ∧
        (row.relabel f p).revMin ≤ revMax) := by
      simpa [inj.eq_iff] using closing
    rw [if_neg closing, if_neg closing']

end Tables

namespace Statement

/-- The write with the node id it names renamed by `f` and the predecessor of a row it inserts
mapped by `p`. -/
def relabel (f : NodeId → NodeId) (p : Option Predecessor → Option Predecessor) :
    Statement → Statement
  | .insertRevision info => .insertRevision info
  | .insertNode record => .insertNode (record.relabel f p)
  | .outdateNode node revMax => .outdateNode (f node) revMax
  | .insertContent node revMin data => .insertContent (f node) revMin data
  | .outdateContent node revMax => .outdateContent (f node) revMax

@[simp] theorem writer_relabel (s : Statement) : (s.relabel f p).writer = s.writer := by
  cases s <;> rfl

theorem admits_relabel (inj : Function.Injective f) (s : Statement) (t : Tables) :
    (s.relabel f p).Admits (t.relabel f p) ↔ s.Admits t := by
  cases s with
  | insertRevision info => rfl
  | insertNode record =>
    simp [relabel, Admits, Tables.relabel, inj.eq_iff, Function.comp_def]
  | outdateNode node revMax =>
    simp only [relabel, Admits, Tables.relabel, List.countP_map]
    simp only [Function.comp_def, Tables.closesNode_relabel inj]
  | insertContent node revMin data =>
    simp [relabel, Admits, Tables.relabel, ContentRecord.rename, inj.eq_iff, Function.comp_def]
  | outdateContent node revMax => rfl

theorem apply_relabel (inj : Function.Injective f) (s : Statement) (t : Tables) :
    (s.relabel f p).apply (t.relabel f p) = (s.apply t).relabel f p := by
  cases s with
  | insertRevision info => rfl
  | insertNode record => simp [relabel, apply, Tables.relabel]
  | outdateNode node revMax =>
    simp [relabel, apply, Tables.relabel, Function.comp_def, Tables.closeAt_relabel inj]
  | insertContent node revMin data =>
    simp [relabel, apply, Tables.relabel, ContentRecord.rename]
  | outdateContent node revMax =>
    simp [relabel, apply, Tables.relabel, Function.comp_def, Tables.closeContentAt_rename inj]

end Statement

namespace Tables

open Statement

/-- Relabeled writes go through on the relabeled tables exactly when the writes go through, and
leave the relabeled tables. -/
theorem execAll_relabel (inj : Function.Injective f) :
    ∀ (writes : List Statement) (t : Tables) {t'' : Tables},
      (t.relabel f p).execAll (writes.map (Statement.relabel f p)) = (t'', none) ↔
        ∃ t', t.execAll writes = (t', none) ∧ t'' = t'.relabel f p
  | [], t, t'' => by
    simp only [List.map_nil, execAll, Prod.mk.injEq, and_true]
    constructor
    · rintro rfl
      exact ⟨t, rfl, rfl⟩
    · rintro ⟨_, rfl, rfl⟩
      rfl
  | s :: rest, t, t'' => by
    rw [List.map_cons, execAll_cons_eq_none, admits_relabel inj, apply_relabel inj,
      execAll_relabel inj rest]
    simp only [execAll_cons_eq_none]
    constructor
    · rintro ⟨admitted, t', ran, rfl⟩
      exact ⟨t', ⟨admitted, ran⟩, rfl⟩
    · rintro ⟨t', ⟨admitted, ran⟩, rfl⟩
      exact ⟨admitted, t', ran, rfl⟩

theorem through_relabel (w : Writer) (writes : List Statement) :
    through w (writes.map (Statement.relabel f p)) =
      (through w writes).map (Statement.relabel f p) := by
  simp [through, List.filter_map, Function.comp_def]

theorem byWriter_relabel (writes : List Statement) :
    byWriter (writes.map (Statement.relabel f p)) = (byWriter writes).map (Statement.relabel f p) := by
  simp [byWriter, inWriterOrder, through_relabel]

end Tables

namespace Transaction

namespace Call

/-- The call with the node id it names renamed by `f` and the predecessor of a row it inserts
mapped by `p`. -/
def relabel (f : NodeId → NodeId) (p : Option Predecessor → Option Predecessor) : Call → Call
  | .outdateNode node isFile => .outdateNode (f node) isFile
  | .insertNode record => .insertNode (record.relabel f p)
  | .insertContent node data => .insertContent (f node) data
  | .replaceContent node data => .replaceContent (f node) data

theorem statements_relabel (R : Revnum) (call : Call) :
    (call.relabel f p).statements R = (call.statements R).map (Statement.relabel f p) := by
  cases call with
  | outdateNode node isFile => cases isFile <;> rfl
  | insertNode record => rfl
  | insertContent node data => rfl
  | replaceContent node data => rfl

theorem writes_relabel (R : Revnum) (calls : List Call) :
    writes R (calls.map (relabel f p)) = (writes R calls).map (Statement.relabel f p) := by
  simp [writes, List.flatMap_map, statements_relabel, List.map_flatMap]

@[simp] theorem valid_relabel (R : Revnum) (call : Call) :
    (call.relabel f p).Valid R ↔ call.Valid R := by
  cases call <;> rfl

end Call

/-- Relabeled calls go through on the relabeled tables exactly when the calls go through. -/
theorem goes_relabel (inj : Function.Injective f) (t : Tables) (R : Revnum) (calls : List Call) :
    Goes (t.relabel f p) R (calls.map (Call.relabel f p)) ↔ Goes t R calls := by
  unfold Goes
  simp only [List.mem_map, forall_exists_index, and_imp, forall_apply_eq_imp_iff₂,
    Call.valid_relabel, Call.writes_relabel, Tables.byWriter_relabel]
  constructor
  · rintro ⟨valid, t'', ran, keys⟩
    obtain ⟨t', ran', rfl⟩ := (Tables.execAll_relabel inj _ t).1 ran
    exact ⟨valid, t', ran', by rwa [Tables.keysHold_relabel inj] at keys⟩
  · rintro ⟨valid, t', ran, keys⟩
    exact ⟨valid, t'.relabel f p, (Tables.execAll_relabel inj _ t).2 ⟨t', ran, rfl⟩,
      by rwa [Tables.keysHold_relabel inj]⟩

end Transaction

/-! ## Reading relabeled tables -/

namespace Store

/-- `store'` answers the ingestor's reads as `store` does, relabeled: a path's newest row, the
rows under a parent, and how many rows there are. -/
structure Relabels (f : NodeId → NodeId) (p : Option Predecessor → Option Predecessor)
    (store store' : Store) : Prop where
  lookupPath : ∀ path r,
    store'.lookupPath path r = (store.lookupPath path r).map (Option.map (NodeRecord.relabel f p))
  children : ∀ parent r,
    store'.children (f parent) r = (store.children parent r).map (List.map (NodeRecord.relabel f p))
  nodeCount : store'.nodeCount = store.nodeCount

/-- Two rows ordered each before the other by a key and then by id have one id. -/
theorem id_eq_of_lex {α : Type} [LinearOrder α] {a b : NodeRecord} {ka kb : α}
    (ab : ka < kb ∨ ka = kb ∧ a.id ≤ b.id) (ba : kb < ka ∨ kb = ka ∧ b.id ≤ a.id) :
    a.id = b.id := by
  rcases ab with smaller | ⟨same, below⟩ <;> rcases ba with larger | ⟨same', above⟩
  · exact absurd (lt_trans smaller larger) (lt_irrefl _)
  · exact absurd smaller (same' ▸ lt_irrefl _)
  · exact absurd larger (same ▸ lt_irrefl _)
  · exact le_antisymm below above

section
variable {engine : Engine} {lawful : engine.Lawful} {store store' : Store} {t : Tables}
  {txOpen txOpen' : Bool}
  (holds : store.Holds lawful t txOpen) (holds' : store'.Holds lawful (t.relabel f p) txOpen')
  (ids : (t.nodes.map (·.id)).Nodup) (mono : StrictMono f)
include holds holds' ids mono

/-- The store holding the relabeled tables lists the relabeled children of the renamed parent. -/
theorem relabels_children (parent : NodeId) (r : Revnum) :
    store'.children (f parent) r =
      (store.children parent r).map (List.map (NodeRecord.relabel f p)) := by
  obtain ⟨rows, read, perm, sorted⟩ := holds.children parent r
  obtain ⟨rows', read', perm', sorted'⟩ := holds'.children (f parent) r
  have filtered : (t.relabel f p).nodes.filter (fun row => row.parent == f parent && row.covers r) =
      (t.nodes.filter fun row => row.parent == parent && row.covers r).map
        (NodeRecord.relabel f p) := by
    rw [Tables.relabel_nodes, List.filter_map]
    congr 1
    refine List.filter_congr fun row _ => ?_
    simp [beq_rename mono.injective]
  rw [filtered] at perm'
  rw [read, read']
  congr 1
  -- A strictly increasing renaming keeps the order by name and then id.
  have sortedMap : (rows.map (NodeRecord.relabel f p)).Pairwise
      fun a b => a.name < b.name ∨ a.name = b.name ∧ a.id ≤ b.id := by
    rw [List.pairwise_map]
    exact sorted.imp fun ab => by simpa only [NodeRecord.relabel_name, NodeRecord.relabel_id,
      mono.le_iff_le] using ab
  refine List.Perm.eq_of_pairwise (fun a b aMem bMem ab ba => ?_) sorted' sortedMap
    (perm'.trans (perm.map _).symm)
  obtain ⟨a₀, a₀Mem, rfl⟩ := List.mem_map.1 (perm'.subset aMem)
  obtain ⟨b₀, b₀Mem, rfl⟩ := List.mem_map.1 ((perm.map _).subset bMem)
  simp only [NodeRecord.relabel_name, NodeRecord.relabel_id, mono.le_iff_le] at ab ba
  rw [List.inj_on_of_nodup_map ids (List.mem_filter.1 a₀Mem).1
    (List.mem_filter.1 b₀Mem).1 (id_eq_of_lex ab ba)]

/-- The store holding the relabeled tables finds the relabeled newest row of a path. -/
theorem relabels_lookupPath (path : String) (r : Revnum) :
    store'.lookupPath path r =
      (store.lookupPath path r).map (Option.map (NodeRecord.relabel f p)) := by
  unfold Store.lookupPath
  have filtered : (t.relabel f p).nodes.filter
      (fun row => row.path == path && decide (row.revMin ≤ r)) =
      (t.nodes.filter fun row => row.path == path && decide (row.revMin ≤ r)).map
        (NodeRecord.relabel f p) := by
    rw [Tables.relabel_nodes, List.filter_map]
    rfl
  have first' := holds'.firstNode
    (fun rows (answers : (t.relabel f p).Answers (.lookupPath path r) rows) => answers)
  rw [filtered] at first'
  rcases holds.firstNode
      (fun rows (answers : t.Answers (.lookupPath path r) rows) => answers) with
    ⟨none, read⟩ | ⟨best, bestMem, read, newest⟩ <;>
  rcases first' with ⟨none', read'⟩ | ⟨best', bestMem', read', newest'⟩ <;>
  rw [read, read']
  · rfl
  · rw [none] at bestMem'
    exact absurd bestMem' List.not_mem_nil
  · rw [List.map_eq_nil_iff] at none'
    rw [none'] at bestMem
    exact absurd bestMem List.not_mem_nil
  · -- Each is at least as new as the other, so they are one row.
    obtain ⟨b, bMem, rfl⟩ := List.mem_map.1 bestMem'
    have bestNewer := newest b bMem
    have bNewer := newest' (best.relabel f p) (List.mem_map_of_mem bestMem)
    simp only [NodeRecord.relabel_revMin, NodeRecord.relabel_id, mono.le_iff_le] at bNewer
    rw [List.inj_on_of_nodup_map ids (List.mem_filter.1 bMem).1 (List.mem_filter.1 bestMem).1
      (id_eq_of_lex bestNewer bNewer)]
    rfl

omit ids mono in
/-- The store holding the relabeled tables lists the relabeled live rows, when no two live rows
share a path. -/
theorem relabels_liveNodes
    (distinct : ∀ a ∈ t.nodes, ∀ b ∈ t.nodes, a.isLive → b.isLive → a.path = b.path → a = b) :
    store'.liveNodes = store.liveNodes.map (List.map (NodeRecord.relabel f p)) := by
  obtain ⟨rows, read, perm, sorted⟩ := holds.liveNodes
  obtain ⟨rows', read', perm', sorted'⟩ := holds'.liveNodes
  rw [read, read']
  congr 1
  rw [Tables.relabel_nodes, List.filter_map] at perm'
  have sortedMap : (rows.map (NodeRecord.relabel f p)).Pairwise fun a b => a.path ≤ b.path := by
    rw [List.pairwise_map]
    exact sorted.imp id
  refine List.Perm.eq_of_pairwise (fun a b aMem bMem ab ba => ?_) sorted' sortedMap
    (perm'.trans (perm.map _).symm)
  -- Two live rows at one path are one row.
  obtain ⟨a₀, a₀Mem, rfl⟩ := List.mem_map.1 (perm'.subset aMem)
  obtain ⟨b₀, b₀Mem, rfl⟩ := List.mem_map.1 ((perm.map _).subset bMem)
  have aLive := List.mem_filter.1 a₀Mem
  have bLive := List.mem_filter.1 b₀Mem
  rw [distinct a₀ aLive.1 b₀ bLive.1 (by simpa using aLive.2) (by simpa using bLive.2)
    (le_antisymm ab ba)]

/-- A store holding the relabeled tables answers every read of the ingestor relabeled. -/
theorem relabels : store.Relabels f p store' where
  lookupPath := relabels_lookupPath holds holds' ids mono
  children := relabels_children holds holds' ids mono
  nodeCount := by rw [holds.nodeCount, holds'.nodeCount, Tables.relabel_nodes, List.length_map]

end

end Store

end TreeHistory
