import TreeHistory.Proofs.Indexer.Reachable
import TreeHistory.Proofs.Store.Reference

/-!
# What the store answers about a revision

Tables that record a history answer the point-in-time queries with the tree as of the revision
asked about, and resolving a path gives the last node that held it (`History.lastHolder`). All of
it follows from one fact (`Records.covers_iff`): a row holds a revision exactly when its node is
in the tree as of it. With every reachable state recording its history, this is
`store_refines_history`.
-/

namespace TreeHistory

namespace LiveTree

/-- The children of node `parent` by name; none when it is not in the tree. -/
def childrenOf (tree : LiveTree) (parent : NodeId) : Children :=
  ((tree.node? parent).map (·.children)).getD []

namespace WellFormed

variable {tree : LiveTree}

/-- Only the root sits at the root path. -/
theorem id_ne_root_of_path (wf : tree.WellFormed) {node : LiveNode} (nodeMem : node ∈ tree.nodes)
    (notRoot : node.path ≠ Path.root) : node.id ≠ NodeId.root := by
  intro isRoot
  obtain ⟨children, rootMem⟩ := wf.rootMem
  have same := wf.eq_of_id_eq nodeMem rootMem isRoot
  exact notRoot (by rw [same]; rfl)

/-- The record of a node other than the root. -/
theorem toRecord_mem_records (wf : tree.WellFormed) {node : LiveNode} (nodeMem : node ∈ tree.nodes)
    (notRoot : node.path ≠ Path.root) : node.toRecord ∈ tree.records :=
  mem_records.2 ⟨node, nodeMem, wf.id_ne_root_of_path nodeMem notRoot, rfl⟩

end WellFormed
end LiveTree

namespace History

variable {history : History}

/-- The id of the last node that held `path` in the commits up to `r`. -/
def lastHolder (history : History) (r : Revnum) (path : String) : Option NodeId :=
  (history.filter fun commit => decide (commit.revision ≤ r) && (commit.tree.find? path).isSome
    ).getLast?.bind fun commit => (commit.tree.find? path).map (·.id)

/-- A committed revision reads as its own commit's tree. -/
theorem Valid.treeAt_revision (valid : Valid history) {commit : Commit} (mem : commit ∈ history) :
    treeAt history commit.revision = commit.tree := by
  obtain ⟨before, after, rfl⟩ := List.append_of_mem mem
  have increasing := valid.increasing
  unfold revisions at increasing
  rw [List.map_append, List.map_cons, List.pairwise_append, List.pairwise_cons] at increasing
  obtain ⟨-, ⟨laterOnes, -⟩, -⟩ := increasing
  -- The commits after it have later revisions, so the filter stops at it.
  have afterNone : after.filter (fun other => decide (other.revision ≤ commit.revision)) = [] := by
    refine List.filter_eq_nil_iff.2 fun other otherMem => ?_
    have later := laterOnes other.revision (List.mem_map_of_mem otherMem)
    simpa using Int.not_le.2 later
  unfold treeAt
  rw [List.filter_append, List.filter_cons_of_pos (by simp), afterNone, List.getLast?_concat]
  rfl

theorem lastHolder_eq_none_iff {r : Revnum} {path : String} :
    lastHolder history r path = none ↔
      ∀ commit ∈ history, commit.revision ≤ r → commit.tree.find? path = none := by
  unfold lastHolder
  constructor
  · intro absent commit mem reached
    cases found : commit.tree.find? path with
    | none => rfl
    | some node =>
      -- The commit passes the filter, so the filter has a last commit holding the path.
      have passes : commit ∈ history.filter fun commit =>
          decide (commit.revision ≤ r) && (commit.tree.find? path).isSome := by
        simp [mem, reached, found]
      cases last : (history.filter fun commit =>
          decide (commit.revision ≤ r) && (commit.tree.find? path).isSome).getLast? with
      | none => exact absurd passes (by simp_all)
      | some holder =>
        have holds := (List.mem_filter.1 (List.mem_of_getLast? last)).2
        rw [last] at absent
        simp only [Bool.and_eq_true, decide_eq_true_eq, Option.isSome_iff_exists] at holds
        obtain ⟨-, other, otherFound⟩ := holds
        simp [otherFound] at absent
  · intro absent
    rw [List.filter_eq_nil_iff.2 fun commit mem => by simpa using absent commit mem]
    rfl

/-- The last holder is the node at the path in the latest commit up to `r` that has one. -/
theorem Valid.lastHolder_eq_some (valid : Valid history) {r : Revnum} {path : String}
    {id : NodeId} (found : lastHolder history r path = some id) :
    ∃ commit ∈ history, commit.revision ≤ r ∧
      (∃ node, commit.tree.find? path = some node ∧ node.id = id) ∧
      ∀ other ∈ history, other.revision ≤ r → (other.tree.find? path).isSome →
        other.revision ≤ commit.revision := by
  unfold lastHolder at found
  cases last : (history.filter fun commit =>
      decide (commit.revision ≤ r) && (commit.tree.find? path).isSome).getLast? with
  | none => simp [last] at found
  | some commit =>
    rw [last, Option.bind_some, Option.map_eq_some_iff] at found
    obtain ⟨node, nodeFound, rfl⟩ := found
    obtain ⟨commitMem, commitChecks⟩ := List.mem_filter.1 (List.mem_of_getLast? last)
    simp only [Bool.and_eq_true, decide_eq_true_eq] at commitChecks
    refine ⟨commit, commitMem, commitChecks.1, ⟨node, nodeFound, rfl⟩, ?_⟩
    intro other otherMem reached holds
    -- The filtered commits keep the history's order, and the last of them is the latest.
    have ordered : (history.filter fun commit =>
        decide (commit.revision ≤ r) && (commit.tree.find? path).isSome).Pairwise
          fun a b => a.revision < b.revision :=
      (List.pairwise_map.1 valid.increasing).sublist List.filter_sublist
    obtain ⟨earlier, split⟩ := List.getLast?_eq_some_iff.1 last
    have passes : other ∈ history.filter fun commit =>
        decide (commit.revision ≤ r) && (commit.tree.find? path).isSome := by
      simp [otherMem, reached, holds]
    rw [split] at ordered passes
    rcases List.mem_append.1 passes with before | same
    · exact Int.le_of_lt ((List.pairwise_append.1 ordered).2.2 other before commit
        (List.mem_singleton_self _))
    · rw [List.mem_singleton.1 same]

end History

open History

namespace Tables

variable {t : Tables} {history : History} {r : Revnum} {row row' : NodeRecord}

theorem Records.eq_of_id (records : t.Records history) (mem : row ∈ t.nodes)
    (mem' : row' ∈ t.nodes) (sameId : row.id = row'.id) : row = row' :=
  List.inj_on_of_nodup_map records.ids mem mem' sameId

/-- A row that holds a revision reads as a record of the tree as of it. -/
theorem Records.live_mem (records : t.Records history) (mem : row ∈ t.nodes)
    (bounded : r ≤ Revnum.head) (holds : row.covers r) : row.live ∈ (treeAt history r).records :=
  (records.covering r bounded).subset (List.mem_map_of_mem (List.mem_filter.2 ⟨mem, holds⟩))

/-- Every record of the tree as of a revision is read from a row that holds it. -/
theorem Records.exists_row (records : t.Records history) (bounded : r ≤ Revnum.head)
    {record : NodeRecord} (mem : record ∈ (treeAt history r).records) :
    ∃ row ∈ t.nodes, row.covers r ∧ row.live = record := by
  obtain ⟨row, rowMem, rfl⟩ := List.mem_map.1 ((records.covering r bounded).symm.subset mem)
  exact ⟨row, (List.mem_filter.1 rowMem).1, (List.mem_filter.1 rowMem).2, rfl⟩

/-- A row holds the revision it opens at. -/
theorem Records.covers_revMin (records : t.Records history) (mem : row ∈ t.nodes) :
    row.covers row.revMin := by
  simp [NodeRecord.covers, records.window row mem]

/-- No row is the root's. -/
theorem Records.id_ne_root (records : t.Records history) (valid : history.Valid)
    (mem : row ∈ t.nodes) : row.id ≠ NodeId.root := by
  have opened := records.live_mem mem (records.revMin_lt valid mem).le (records.covers_revMin mem)
  obtain ⟨node, -, notRoot, sameRecord⟩ := LiveTree.mem_records.1 opened
  rw [← NodeRecord.id_live, ← sameRecord]
  exact notRoot

/-- A row holds a revision exactly when its node is in the tree as of that revision, with the
row's fields. -/
theorem Records.covers_iff (records : t.Records history) (valid : history.Valid)
    (mem : row ∈ t.nodes) (bounded : r ≤ Revnum.head) :
    row.covers r ↔ (treeAt history r).recordOf? row.id = some row.live := by
  have wf := valid.treeAt_wellFormed r
  constructor
  · intro holds
    exact ((wf.mem_records_iff).1 (records.live_mem mem bounded holds)).2
  · intro found
    -- The record has a row that holds the revision, and it is this row: ids are keys.
    have recordMem : row.live ∈ (treeAt history r).records :=
      (wf.mem_records_iff).2 ⟨(records.id_ne_root valid mem : row.id ≠ NodeId.root), found⟩
    obtain ⟨other, otherMem, otherHolds, sameLive⟩ := records.exists_row bounded recordMem
    have sameRow := records.eq_of_id otherMem mem (by rw [← NodeRecord.id_live, sameLive]; rfl)
    exact sameRow ▸ otherHolds

/-- Two rows of one path that hold the same revision are one row. -/
theorem Records.eq_of_path (records : t.Records history) (valid : history.Valid)
    (mem : row ∈ t.nodes) (mem' : row' ∈ t.nodes) (samePath : row.path = row'.path)
    (bounded : r ≤ Revnum.head) (holds : row.covers r) (holds' : row'.covers r) : row = row' := by
  have wf := valid.treeAt_wellFormed r
  obtain ⟨node, nodeMem, -, nodeRecord⟩ := LiveTree.mem_records.1 (records.live_mem mem bounded holds)
  obtain ⟨node', nodeMem', -, nodeRecord'⟩ :=
    LiveTree.mem_records.1 (records.live_mem mem' bounded holds')
  have sameNode : node = node' := wf.eq_of_path_eq nodeMem nodeMem' (by
    have paths := congrArg NodeRecord.path nodeRecord
    have paths' := congrArg NodeRecord.path nodeRecord'
    simp only [LiveNode.toRecord] at paths paths'
    rw [paths, paths']
    exact samePath)
  refine records.eq_of_id mem mem' ?_
  rw [← NodeRecord.id_live, ← nodeRecord, sameNode, nodeRecord']
  rfl

variable {engine : Engine} {lawful : engine.Lawful} {store : Store} {txOpen : Bool}

/-- A store recording a history lists under `parent`, as of a revision, the parent's children in
the tree as of it, by name. -/
theorem Records.children_of_nodes {t₁ : Tables} (holds : store.Holds lawful t₁ txOpen)
    (sameNodes : t₁.nodes = t.nodes) (records : t.Records history) (valid : history.Valid)
    (parent : NodeId) (bounded : r ≤ Revnum.head) :
    ∃ rows, store.children parent r = .ok rows ∧
      rows.map (fun row => (row.name, row.id)) = (treeAt history r).childrenOf parent ∧
      ∀ row ∈ rows, (treeAt history r).recordOf? row.id = some row.live := by
  obtain ⟨rows, read, perm, sorted⟩ := holds.children parent r
  rw [sameNodes] at perm
  have wf := valid.treeAt_wellFormed r
  have rowMem : ∀ row ∈ rows, row ∈ t.nodes ∧ row.parent = parent ∧ row.covers r := by
    intro row mem
    simpa [and_assoc] using perm.subset mem
  refine ⟨rows, read, ?_, fun row mem =>
    (records.covers_iff valid (rowMem row mem).1 bounded).1 (rowMem row mem).2.2⟩
  -- The rows' entries are those of the tree's nodes under `parent`.
  have entries : ∀ entry, entry ∈ rows.map (fun row => (row.name, row.id)) ↔
      ∃ child ∈ (treeAt history r).nodes, child.id ≠ NodeId.root ∧ child.parent = parent ∧
        (child.name, child.id) = entry := by
    intro entry
    constructor
    · intro mem
      obtain ⟨row, listed, rfl⟩ := List.mem_map.1 mem
      obtain ⟨nodes, isParent, rowHolds⟩ := rowMem row listed
      obtain ⟨child, childMem, notRoot, childRecord⟩ :=
        LiveTree.mem_records.1 (records.live_mem nodes bounded rowHolds)
      have fields := congrArg (fun record : NodeRecord => (record.parent, record.name, record.id))
        childRecord
      simp only [LiveNode.toRecord, NodeRecord.live, Prod.mk.injEq] at fields
      exact ⟨child, childMem, notRoot, fields.1.trans isParent, by rw [fields.2.1, fields.2.2]⟩
    · rintro ⟨child, childMem, notRoot, isParent, rfl⟩
      obtain ⟨row, nodes, rowHolds, rowRecord⟩ :=
        records.exists_row bounded (LiveTree.mem_records.2 ⟨child, childMem, notRoot, rfl⟩)
      have fields := congrArg (fun record : NodeRecord => (record.parent, record.name, record.id))
        rowRecord
      simp only [LiveNode.toRecord, NodeRecord.live, Prod.mk.injEq] at fields
      have listed : row ∈ rows := perm.symm.subset (by simp [nodes, rowHolds, fields.1, isParent])
      exact List.mem_map.2 ⟨row, listed, by rw [fields.2.1, fields.2.2]⟩
  unfold LiveTree.childrenOf
  cases found : (treeAt history r).node? parent with
  | none =>
    -- A parent outside the tree has no child in it.
    simp only [Option.map_none, Option.getD_none]
    refine List.eq_nil_iff_forall_not_mem.2 fun entry mem => ?_
    obtain ⟨child, childMem, notRoot, isParent, -⟩ := (entries entry).1 mem
    obtain ⟨above, aboveMem, aboveId, -⟩ := wf.parentMem child childMem notRoot
    simp [wf.node?_eq_some_iff.2 ⟨aboveMem, aboveId.trans isParent⟩] at found
  | some node =>
    obtain ⟨nodeMem, nodeId⟩ := wf.node?_eq_some_iff.1 found
    simp only [Option.map_some, Option.getD_some]
    -- Two listed children of one name are one node, so the rows are strictly by name.
    have byName : Children.Sorted (rows.map fun row => (row.name, row.id)) := by
      have rowsNodup : rows.Nodup :=
        perm.nodup_iff.2 ((List.Nodup.of_map (·.id) records.ids).filter _)
      refine List.pairwise_map.2 ((sorted.and rowsNodup).imp_of_mem ?_)
      intro a b aMem bMem ordered
      obtain ⟨before, distinct⟩ := ordered
      rcases before with smaller | ⟨sameName, -⟩
      · exact smaller
      · have aEntry := (wf.memChildren node nodeMem (a.name, a.id)).2 (by
          obtain ⟨child, childMem, notRoot, isParent, same⟩ :=
            (entries (a.name, a.id)).1 (List.mem_map_of_mem aMem)
          exact ⟨child, childMem, notRoot, isParent.trans nodeId.symm, same⟩)
        have bEntry := (wf.memChildren node nodeMem (b.name, b.id)).2 (by
          obtain ⟨child, childMem, notRoot, isParent, same⟩ :=
            (entries (b.name, b.id)).1 (List.mem_map_of_mem bMem)
          exact ⟨child, childMem, notRoot, isParent.trans nodeId.symm, same⟩)
        have sameEntry := (wf.childrenSorted node nodeMem).eq_of_name_eq aEntry bEntry sameName
        exact absurd (records.eq_of_id (rowMem a aMem).1 (rowMem b bMem).1
          (Prod.mk.inj sameEntry).2) distinct
    refine byName.eq_of_mem_iff (wf.childrenSorted node nodeMem) fun entry => ?_
    rw [entries, wf.memChildren node nodeMem, nodeId]

/-- The store lists under `parent`, as of a revision, the parent's children in the tree as of it,
by name, each with its node's record. -/
theorem Records.children (holds : store.Holds lawful t txOpen) (records : t.Records history)
    (valid : history.Valid) (parent : NodeId) (bounded : r ≤ Revnum.head) :
    ∃ rows, store.children parent r = .ok rows ∧
      rows.map (fun row => (row.name, row.id)) = (treeAt history r).childrenOf parent ∧
      ∀ row ∈ rows, (treeAt history r).recordOf? row.id = some row.live :=
  records.children_of_nodes holds rfl valid parent bounded

/-- The store's node at a path other than the root's, as of a revision, is the one of the tree as
of it. -/
theorem Records.nodeAt (holds : store.Holds lawful t txOpen) (records : t.Records history)
    (valid : history.Valid) {path : String} (notRoot : path ≠ Path.root)
    (bounded : r ≤ Revnum.head) :
    ∃ found, store.nodeAt path r = .ok found ∧
      found.map NodeRecord.live = ((treeAt history r).find? path).map LiveNode.toRecord := by
  have wf := valid.treeAt_wellFormed r
  rcases holds.firstNode (fun rows (answers : t.Answers (.nodeAt path r) rows) => answers) with
    ⟨none, read⟩ | ⟨best, bestMem, read, -⟩
  · refine ⟨_, read, ?_⟩
    -- No row holds the path, so no node of the tree sits there.
    cases found : (treeAt history r).find? path with
    | none => rfl
    | some node =>
      obtain ⟨nodeMem, atPath⟩ := wf.find?_eq_some_iff.1 found
      obtain ⟨row, rowMem, rowHolds, rowRecord⟩ :=
        records.exists_row bounded (wf.toRecord_mem_records nodeMem (atPath ▸ notRoot))
      have rowPath : row.path = path := by
        rw [← atPath]
        exact congrArg NodeRecord.path rowRecord
      exact absurd (List.filter_eq_nil_iff.1 none row rowMem) (by simp [rowPath, rowHolds])
  · refine ⟨_, read, ?_⟩
    obtain ⟨bestRow, bestChecks⟩ := List.mem_filter.1 bestMem
    simp only [Bool.and_eq_true, beq_iff_eq] at bestChecks
    obtain ⟨node, nodeMem, -, nodeRecord⟩ :=
      LiveTree.mem_records.1 (records.live_mem bestRow bounded bestChecks.2)
    have atPath : node.path = path := (congrArg NodeRecord.path nodeRecord).trans bestChecks.1
    rw [wf.find?_eq_some_iff.2 ⟨nodeMem, atPath⟩, Option.map_some, Option.map_some, nodeRecord]

/-- Resolving a path other than the root's as of a revision gives the last node that held it in
the commits up to that revision, and fails when none did. -/
theorem Records.resolvePath (holds : store.Holds lawful t txOpen) (records : t.Records history)
    (valid : history.Valid) {path : String} (notRoot : path ≠ Path.root) :
    store.resolvePath path r = match lastHolder history r path with
      | some id => .ok id
      | none => .error (.pathNotFound path r) := by
  -- A row of the path that opened by `r` has a commit by `r` whose tree held the path.
  have heldAt : ∀ row ∈ t.nodes, row.path = path → ∃ commit ∈ history,
      commit.revision = row.revMin ∧ ∃ node ∈ commit.tree.nodes, node.path = path ∧
        node.toRecord = row.live := by
    intro row mem atPath
    obtain ⟨commit, commitMem, opensAt⟩ := History.mem_revisions.1 (records.opened row mem)
    have recordMem := records.live_mem mem (records.revMin_lt valid mem).le (records.covers_revMin mem)
    rw [← opensAt, valid.treeAt_revision commitMem] at recordMem
    obtain ⟨node, nodeMem, -, nodeRecord⟩ := LiveTree.mem_records.1 recordMem
    exact ⟨commit, commitMem, opensAt, node, nodeMem,
      (congrArg NodeRecord.path nodeRecord).trans atPath, nodeRecord⟩
  -- A commit by `r` whose tree holds the path has a row of the path that opened by then.
  have rowOf : ∀ commit ∈ history, commit.revision ≤ r → ∀ node,
      commit.tree.find? path = some node → ∃ row ∈ t.nodes, row.path = path ∧
        row.covers commit.revision ∧ row.live = node.toRecord := by
    intro commit commitMem reached node found
    have wf := valid.wellFormed commit commitMem
    obtain ⟨nodeMem, atPath⟩ := wf.find?_eq_some_iff.1 found
    have recordMem := wf.toRecord_mem_records nodeMem (atPath ▸ notRoot)
    rw [← valid.treeAt_revision commitMem] at recordMem
    obtain ⟨row, rowMem, rowHolds, rowRecord⟩ :=
      records.exists_row (valid.range commit commitMem).2.le recordMem
    exact ⟨row, rowMem, (congrArg NodeRecord.path rowRecord).trans atPath, rowHolds, rowRecord⟩
  unfold Store.resolvePath Store.lookupPath
  rcases holds.firstNode (fun rows (answers : t.Answers (.lookupPath path r) rows) => answers) with
    ⟨none, read⟩ | ⟨best, bestMem, read, newest⟩
  · -- No row of the path opened by `r`, so no commit by `r` held it.
    have absent : lastHolder history r path = Option.none := by
      refine lastHolder_eq_none_iff.2 fun commit commitMem reached => ?_
      cases found : commit.tree.find? path with
      | none => rfl
      | some node =>
        obtain ⟨row, rowMem, atPath, rowHolds, -⟩ := rowOf commit commitMem reached node found
        have opened : row.revMin ≤ r := by
          simp only [NodeRecord.covers, Bool.and_eq_true, decide_eq_true_eq] at rowHolds
          exact Int.le_trans rowHolds.1 reached
        exact absurd (List.filter_eq_nil_iff.1 none row rowMem) (by simp [atPath, opened])
    rw [read, absent]
    rfl
  · obtain ⟨bestRow, bestChecks⟩ := List.mem_filter.1 bestMem
    simp only [Bool.and_eq_true, beq_iff_eq, decide_eq_true_eq] at bestChecks
    obtain ⟨opener, openerMem, opensAt, opened, openedMem, openedPath, -⟩ :=
      heldAt best bestRow bestChecks.1
    -- Some commit by `r` held the path: the one the newest row opened at.
    cases holder : lastHolder history r path with
    | none =>
      have absent := lastHolder_eq_none_iff.1 holder opener openerMem (opensAt ▸ bestChecks.2)
      rw [(valid.wellFormed opener openerMem).find?_eq_some_iff.2 ⟨openedMem, openedPath⟩] at absent
      exact absurd absent (by simp)
    | some id =>
      obtain ⟨last, lastMem, lastReached, ⟨node, found, rfl⟩, latest⟩ := valid.lastHolder_eq_some holder
      obtain ⟨row, rowMem, atPath, rowHolds, rowRecord⟩ := rowOf last lastMem lastReached node found
      -- The newest row opened no later than the last holder's commit, and no earlier than the
      -- last holder's row, which therefore still held the path then: the two rows are one.
      have openedLate : best.revMin ≤ last.revision := by
        rw [← opensAt]
        exact latest opener openerMem (opensAt ▸ bestChecks.2)
          (by rw [(valid.wellFormed opener openerMem).find?_eq_some_iff.2 ⟨openedMem, openedPath⟩]; rfl)
      have rowOpened : row ∈ t.nodes.filter fun row => row.path == path && decide (row.revMin ≤ r) := by
        simp only [NodeRecord.covers, Bool.and_eq_true, decide_eq_true_eq] at rowHolds
        simp [rowMem, atPath, Int.le_trans rowHolds.1 lastReached]
      have openedEarly : row.revMin ≤ best.revMin := by
        rcases newest row rowOpened with earlier | ⟨same, -⟩
        · exact Int.le_of_lt earlier
        · exact Int.le_of_eq same
      have rowStill : row.covers best.revMin := by
        simp only [NodeRecord.covers, Bool.and_eq_true, decide_eq_true_eq] at rowHolds ⊢
        exact ⟨openedEarly, Int.le_trans openedLate rowHolds.2⟩
      have sameRow := records.eq_of_path valid rowMem bestRow (atPath.trans bestChecks.1.symm)
        (records.revMin_lt valid bestRow).le rowStill (records.covers_revMin bestRow)
      rw [read]
      show Except.ok best.id = Except.ok node.id
      rw [← sameRow, ← NodeRecord.id_live, rowRecord]
      rfl

end Tables

namespace Indexer

variable {engine : Engine} {lawful : engine.Lawful} {indexer : Indexer} {history : History}
  {spent : Nat}

/-- From an empty store, through any interleaving of indexing, rebuilding and reopening, the store
records the history its run committed: each row holds exactly the revisions its node is in the
tree as of, with the node's fields; and at every revision the children of a node, the node at a
path and the last node that held a path are read off the tree as of it. -/
theorem store_refines_history (reach : Reachable lawful indexer history spent) :
    ∃ t, indexer.store.Holds lawful t false ∧ t.Records history ∧
      (∀ row ∈ t.nodes, ∀ r ≤ Revnum.head,
        row.covers r ↔ (treeAt history r).recordOf? row.id = some row.live) ∧
      (∀ r ≤ Revnum.head, ∀ parent, ∃ rows, indexer.store.children parent r = .ok rows ∧
        rows.map (fun row => (row.name, row.id)) = (treeAt history r).childrenOf parent ∧
        ∀ row ∈ rows, (treeAt history r).recordOf? row.id = some row.live) ∧
      (∀ r ≤ Revnum.head, ∀ path, path ≠ Path.root →
        ∃ found, indexer.store.nodeAt path r = .ok found ∧
          found.map NodeRecord.live = ((treeAt history r).find? path).map LiveNode.toRecord) ∧
      ∀ r path, path ≠ Path.root → indexer.store.resolvePath path r =
        match lastHolder history r path with
        | some id => .ok id
        | none => .error (.pathNotFound path r) := by
  have consistent := reach.consistent
  obtain ⟨t, holds, records⟩ := consistent.stored
  exact ⟨t, holds, records,
    fun row mem r bounded => records.covers_iff consistent.valid mem bounded,
    fun r bounded parent => records.children holds consistent.valid parent bounded,
    fun r bounded path notRoot => records.nodeAt holds consistent.valid notRoot bounded,
    fun r path notRoot => records.resolvePath holds consistent.valid notRoot⟩

/-- The indexer the reference engine opens on its empty store. -/
def openedEmpty : Indexer := {
  store := Reference.store {}, capacity := 1000, ingestor := {},
  resumeAfter := none, lastRevision := none, maxRetries := 3 }

/-- Revision 1, which adds the directory "/a". -/
def addsDirA : ChangeSet :=
  { info := { id := 1, author := none, dateMs := 0, message := "" },
    changes := [{ path := "/a", action := .added, kind := .dir }] }

/-- Indexing revision 1 on the empty store commits it, so the indexer reaches a one-commit
history. -/
theorem reachable_addsDirA :
    Reachable Reference.lawful (openedEmpty.indexRevision addsDirA).1
      [⟨1, (openedEmpty.indexRevision addsDirA).1.ingestor.tree⟩] 1 := by
  have committed : (openedEmpty.indexRevision addsDirA).2 = .ok (.committed {
      revision := 1, events := 1, nodesCreated := 1, nodesOutdated := 0, contentsModified := 0,
      discarded := 0,
      rows := { nodeInserts := 1, nodeOutdates := 0, contentInserts := 0, contentOutdates := 0 } }) := by
    decide +kernel
  have reach : Reachable Reference.lawful (openedEmpty.indexRevision addsDirA).1
      (History.record [] (openedEmpty.indexRevision addsDirA).2
        (openedEmpty.indexRevision addsDirA).1.ingestor.tree)
      (0 + addsDirA.changes.length * (openedEmpty.store.nodeCount + 1)) :=
    Reachable.indexed (Reachable.opened (Reference.holds {})
      (ofStore_empty (Reference.holds {}) 1000)) (by decide) rfl
  have spent : 0 + addsDirA.changes.length * (openedEmpty.store.nodeCount + 1) = 1 := by
    decide +kernel
  rwa [committed, History.record_committed, List.nil_append, spent] at reach

/-- After revision 1 adds "/a", the store resolves "/a" at revision 1 to the new node. -/
theorem store_refines_history_first_commit :
    Reachable Reference.lawful (openedEmpty.indexRevision addsDirA).1
        [⟨1, (openedEmpty.indexRevision addsDirA).1.ingestor.tree⟩] 1 ∧
      (openedEmpty.indexRevision addsDirA).1.store.resolvePath "/a" 1 = .ok 1 := by
  obtain ⟨t, holds, records, covers, children, nodeAt, resolved⟩ :=
    store_refines_history reachable_addsDirA
  have held : History.lastHolder [⟨1, (openedEmpty.indexRevision addsDirA).1.ingestor.tree⟩] 1 "/a" =
      some 1 := by
    decide +kernel
  have found := resolved 1 "/a" (by decide)
  rw [held] at found
  exact ⟨reachable_addsDirA, found⟩

/-- The root is in every tree but has no row: once revision 1 is committed, the root held "/" in
the tree as of revision 1, yet the store resolves "/" to no node. -/
theorem root_path_not_resolved :
    Reachable Reference.lawful (openedEmpty.indexRevision addsDirA).1
        [⟨1, (openedEmpty.indexRevision addsDirA).1.ingestor.tree⟩] 1 ∧
      History.lastHolder [⟨1, (openedEmpty.indexRevision addsDirA).1.ingestor.tree⟩] 1 Path.root =
        some NodeId.root ∧
      (openedEmpty.indexRevision addsDirA).1.store.resolvePath Path.root 1 =
        .error (.pathNotFound Path.root 1) :=
  ⟨reachable_addsDirA, by decide +kernel, by decide +kernel⟩

end Indexer
end TreeHistory
