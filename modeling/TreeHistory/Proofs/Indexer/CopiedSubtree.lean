import Mathlib
import TreeHistory.Proofs.Ingest.CopyTree
import TreeHistory.Proofs.Indexer.CommittedRevision

/-!
# A copied directory after its revision commits

A revision that adds or replaces a directory as a copy of what the store held at a path and an
earlier revision, with no other event at or below it, commits a copy of the whole source subtree:
one live node per node below the source, with its name and kind, inheriting from it, with ids
handed out in pre-order and the children of each copy those of its source, in order
(`Store.Reproduces`, `copy_reproduces_source_subtree`). The live tree the revision leaves mirrors
the source (`apply_mirrors_copy`); here it is read back through the committed store.
-/

namespace TreeHistory

namespace Store

/-- `x` lies below `top` in the store as of `r`: the store lists it under `top`, or under a row
that lies below `top`. -/
inductive Descends (store : Store) (r : Revnum) (top : NodeId) : NodeRecord → Prop
  | child {rows : List NodeRecord} {x : NodeRecord} :
      store.children top r = .ok rows → x ∈ rows → Descends store r top x
  | under {y x : NodeRecord} {rows : List NodeRecord} :
      Descends store r top y → store.children y.id r = .ok rows → x ∈ rows →
        Descends store r top x

variable {engine : Engine} {lawful : engine.Lawful} {store store₂ : Store} {t t₂ : Tables}
  {txOpen txOpen₂ : Bool}

/-! ## Reading rows through a lawful store -/

/-- The rows the store lists under `parent` are those of the parent that hold the revision. -/
theorem Holds.mem_children (holds : store.Holds lawful t txOpen) {parent : NodeId} {r : Revnum}
    {rows : List NodeRecord} (read : store.children parent r = .ok rows) (x : NodeRecord) :
    x ∈ rows ↔ x ∈ t.nodes.filter (·.covers r) ∧ x.parent = parent := by
  obtain ⟨listed, listedRead, perm, -⟩ := holds.children parent r
  rw [read] at listedRead
  cases Except.ok.inj listedRead
  rw [perm.mem_iff, List.mem_filter, List.mem_filter]
  simp only [Bool.and_eq_true, beq_iff_eq]
  tauto

/-- What lies below a node through the store's children is what lies below it among the rows
that hold the revision. -/
theorem Holds.descends_iff (holds : store.Holds lawful t txOpen) {r : Revnum} {top : NodeId}
    {x : NodeRecord} : store.Descends r top x ↔ Below (t.nodes.filter (·.covers r)) top x := by
  constructor
  · intro descends
    induction descends with
    | child read mem =>
      obtain ⟨covering, parent⟩ := (holds.mem_children read _).1 mem
      exact .child covering parent
    | under _ read mem below =>
      obtain ⟨covering, parent⟩ := (holds.mem_children read _).1 mem
      exact .under below covering parent
  · intro below
    induction below with
    | child covering parent =>
      obtain ⟨rows, read, -⟩ := holds.children top r
      exact .child read ((holds.mem_children read _).2 ⟨covering, parent⟩)
    | @under x y _ covering parent descends =>
      obtain ⟨rows, read, -⟩ := holds.children y.id r
      exact .under descends read ((holds.mem_children read _).2 ⟨covering, parent⟩)

/-- The node at a path as of a revision is a row of the path that holds it. -/
theorem Holds.nodeAt_mem (holds : store.Holds lawful t txOpen) {path : String} {r : Revnum}
    {row : NodeRecord} (atNode : store.nodeAt path r = .ok (some row)) :
    row ∈ t.nodes ∧ row.path = path ∧ row.covers r := by
  unfold Store.nodeAt at atNode
  rcases holds.firstNode (fun rows (answers : t.Answers (.nodeAt path r) rows) => answers) with
    ⟨-, read⟩ | ⟨best, bestMem, read, -⟩
  · rw [read] at atNode
    exact absurd (Except.ok.inj atNode) (Option.some_ne_none row).symm
  · rw [read, Except.ok.injEq, Option.some.injEq] at atNode
    subst atNode
    obtain ⟨bestRow, bestChecks⟩ := List.mem_filter.1 bestMem
    simp only [Bool.and_eq_true, beq_iff_eq] at bestChecks
    exact ⟨bestRow, bestChecks⟩

/-! ## Two stores with the same node rows read alike -/

section Agree

variable (holds : store.Holds lawful t txOpen) (holds₂ : store₂.Holds lawful t₂ txOpen₂)
  (sameNodes : t.nodes = t₂.nodes) (ids : (t.nodes.map (·.id)).Nodup)
include holds holds₂ sameNodes ids

/-- Stores holding the same node rows, one per id, list the same children. -/
theorem Holds.children_eq (parent : NodeId) (r : Revnum) :
    store.children parent r = store₂.children parent r := by
  obtain ⟨rows, read, perm, sorted⟩ := holds.children parent r
  obtain ⟨rows₂, read₂, perm₂, sorted₂⟩ := holds₂.children parent r
  rw [read, read₂, ← sameNodes] at *
  congr 1
  refine List.Perm.eq_of_pairwise (fun a b aMem bMem ab ba => ?_) sorted sorted₂ (perm.trans perm₂.symm)
  have aNodes := (List.mem_filter.1 (perm.subset aMem)).1
  have bNodes := (List.mem_filter.1 (perm₂.subset bMem)).1
  -- Ordered both ways, the two rows have one name and one id.
  have sameId : a.id = b.id := by
    rcases ab with shorter | ⟨sameName, smaller⟩ <;> rcases ba with longer | ⟨sameName', larger⟩
    · exact absurd (lt_trans shorter longer) (lt_irrefl _)
    · exact absurd shorter (sameName' ▸ lt_irrefl _)
    · exact absurd longer (sameName ▸ lt_irrefl _)
    · exact le_antisymm smaller larger
  exact List.inj_on_of_nodup_map ids aNodes bNodes sameId

/-- Stores holding the same node rows, one per id, give the same node at a path. -/
theorem Holds.nodeAt_eq (path : String) (r : Revnum) :
    store.nodeAt path r = store₂.nodeAt path r := by
  unfold Store.nodeAt
  rcases holds.firstNode (fun rows (answers : t.Answers (.nodeAt path r) rows) => answers) with
    ⟨none, read⟩ | ⟨best, bestMem, read, newest⟩ <;>
  rcases holds₂.firstNode (fun rows (answers : t₂.Answers (.nodeAt path r) rows) => answers) with
    ⟨none₂, read₂⟩ | ⟨best₂, bestMem₂, read₂, newest₂⟩ <;>
  rw [read, read₂]
  · rw [← sameNodes, none] at bestMem₂
    exact absurd bestMem₂ List.not_mem_nil
  · rw [← sameNodes] at none₂
    rw [none₂] at bestMem
    exact absurd bestMem List.not_mem_nil
  · rw [← sameNodes] at bestMem₂ newest₂
    -- Each is at least as new as the other, so they open together and share their id.
    have sameId : best.id = best₂.id := by
      rcases newest best₂ bestMem₂ with older | ⟨sameRevMin, smaller⟩ <;>
        rcases newest₂ best bestMem with older₂ | ⟨sameRevMin₂, smaller₂⟩
      · exact absurd (lt_trans older older₂) (lt_irrefl _)
      · exact absurd older (sameRevMin₂ ▸ lt_irrefl _)
      · exact absurd older₂ (sameRevMin ▸ lt_irrefl _)
      · exact le_antisymm smaller₂ smaller
    rw [List.inj_on_of_nodup_map ids (List.mem_filter.1 bestMem).1 (List.mem_filter.1 bestMem₂).1
      sameId]

end Agree

end Store

/-- A pre-order walk depends on the store only through the children it lists. -/
theorem copied_congr {store store₂ : Store} {r : Revnum}
    (agree : ∀ id, store.children id r = store₂.children id r) :
    ∀ fuel source, Ingestor.copied store r fuel source = Ingestor.copied store₂ r fuel source
  | 0, _ => rfl
  | fuel + 1, source => by
    simp only [Ingestor.copied, agree source, copied_congr agree fuel]


/-! ## Ids handed out in a row -/

/-- Stepping the id counter `n` times from `start` lands on `start + n` when it never wraps. -/
theorem NodeId.iterate_next_of_bounded {start : NodeId} :
    ∀ {n : Nat}, (∀ j ≤ n, 0 ≤ NodeId.next^[j] start ∧ NodeId.next^[j] start ≤ Revnum.head) →
      NodeId.next^[n] start = start + n := by
  intro n
  induction n with
  | zero => intro _; simp
  | succ n ih =>
    intro bounded
    have reached := ih fun j le => bounded j (Nat.le_succ_of_le le)
    obtain ⟨nonneg, atMost⟩ := bounded n (Nat.le_succ n)
    have stepped := (bounded (n + 1) le_rfl).1
    rw [reached] at nonneg atMost
    rw [Function.iterate_succ_apply', reached] at stepped ⊢
    rcases lt_or_eq_of_le atMost with below | atHead
    · rw [NodeId.next_of_lt nonneg below]
      push_cast
      ring
    · -- Past the largest id the counter wraps to the most negative one.
      rw [atHead] at stepped
      exact absurd stepped (by decide)

/-! ## The copy the store holds after the revision -/

namespace Store

/-- The rows below `top` in the store `after`, as of `revision`, copy what the store `before` held
below `source` as of `copyRevision`: `order` lists what lies below the source in pre-order, and
`copyOf` maps each to its copy, which has its name and kind, inherits from it, sits under the copy
of its parent, is opened at `revision` and live, with no content; the ids after `top`'s go to the
rows of `order` in turn, and the children of each copy are the copies of its original's. -/
structure Reproduces (before after : Store) (t' : Tables) (copyRevision revision : Revnum)
    (source : NodeId) (top : NodeRecord) (order : List NodeRecord) (copyOf : NodeId → NodeId) :
    Prop where
  complete : ∀ x, x ∈ order ↔ before.Descends copyRevision source x
  topRow : top ∈ t'.nodes ∧ copyOf source = top.id ∧ top.kind = .dir ∧
    top.predecessor = some { id := source, type := .copy } ∧ top.revMin = revision ∧
    top.revMax = Revnum.head
  rows : ∀ x ∈ order, ∃ row ∈ t'.nodes, row.id = copyOf x.id ∧ row.name = x.name ∧
    row.kind = x.kind ∧ row.predecessor = some { id := x.id, type := .inherit } ∧
    row.parent = copyOf x.parent ∧ row.revMin = revision ∧ row.revMax = Revnum.head
  preorder : ∀ i (h : i < order.length), copyOf order[i].id = top.id + (i + 1)
  siblings : ∀ id, (id = source ∨ ∃ x ∈ order, x.id = id) → ∃ rows,
    before.children id copyRevision = .ok rows ∧ Children.Sorted (rows.map fun row => (row.name, row.id))
  children : ∀ id, (id = source ∨ ∃ x ∈ order, x.id = id) → ∃ rows rows',
    before.children id copyRevision = .ok rows ∧ after.children (copyOf id) revision = .ok rows' ∧
    rows'.map (fun row => (row.name, row.id)) = rows.map fun row => (row.name, copyOf row.id)
  distinct : ∀ a b, (a = source ∨ ∃ x ∈ order, x.id = a) → (b = source ∨ ∃ x ∈ order, x.id = b) →
    copyOf a = copyOf b → a = b
  onto : ∀ y, after.Descends revision top.id y → ∃ x ∈ order, y.id = copyOf x.id
  noContent : ∀ row ∈ t'.contents, ∀ id, (id = source ∨ ∃ x ∈ order, x.id = id) →
    row.node ≠ copyOf id

/-- Whatever lies below the copy of the source is the copy of a row below it. -/
theorem descends_copy {before after : Store} {copyRevision revision : Revnum} {source top : NodeId}
    {order : List NodeRecord} {copyOf : NodeId → NodeId}
    (complete : ∀ x, x ∈ order ↔ before.Descends copyRevision source x)
    (topId : copyOf source = top)
    (children : ∀ id, (id = source ∨ ∃ x ∈ order, x.id = id) → ∃ rows rows',
      before.children id copyRevision = .ok rows ∧ after.children (copyOf id) revision = .ok rows' ∧
      rows'.map (fun row => (row.name, row.id)) = rows.map fun row => (row.name, copyOf row.id))
    {y : NodeRecord} (below : after.Descends revision top y) :
    ∃ x ∈ order, y.id = copyOf x.id := by
  -- A row listed under a copy is the copy of a row listed under its original.
  have listed : ∀ id, (id = source ∨ ∃ x ∈ order, x.id = id) → ∀ {rows' : List NodeRecord},
      after.children (copyOf id) revision = .ok rows' → ∀ y ∈ rows', ∃ rows,
        before.children id copyRevision = .ok rows ∧ ∃ x ∈ rows, y.id = copyOf x.id := by
    intro id inDomain rows' read y mem
    obtain ⟨rows, rows'', readBefore, readAfter, mapped⟩ := children id inDomain
    rw [read, Except.ok.injEq] at readAfter
    subst readAfter
    have entry : (y.name, y.id) ∈ rows.map fun row => (row.name, copyOf row.id) := by
      rw [← mapped]
      exact List.mem_map_of_mem mem
    obtain ⟨x, xMem, same⟩ := List.mem_map.1 entry
    exact ⟨rows, readBefore, x, xMem, (congrArg Prod.snd same).symm⟩
  -- On how `y` lies below the copy of the source.
  induction below with
  | child read mem =>
    rw [← topId] at read
    obtain ⟨rows, readBefore, x, xMem, same⟩ := listed source (.inl rfl) read _ mem
    exact ⟨x, (complete x).2 (.child readBefore xMem), same⟩
  | under _ read mem ih =>
    obtain ⟨z, zMem, zSame⟩ := ih
    rw [zSame] at read
    obtain ⟨rows, readBefore, x, xMem, same⟩ := listed z.id (.inr ⟨z, zMem, rfl⟩) read _ mem
    exact ⟨x, (complete x).2 (.under ((complete z).1 zMem) readBefore xMem), same⟩

end Store

namespace Indexer

variable {engine : Engine} {lawful : engine.Lawful} {indexer indexer' : Indexer}
  {history : History} {spent : Nat} {changeSet : ChangeSet} {summary : RevisionSummary}

/-- A revision that adds or replaces a directory as a copy, with no other event at or below it,
commits from a reachable state within the id budget a copy of everything the store had below the
source at the copy's revision. -/
theorem copy_reproduces_source_subtree {before after : List Change} {change : Change}
    {copy : CopySource} {target p : String} {source : Source}
    (reach : Reachable lawful indexer history spent)
    (bounded : changeSet.revision ≤ Revnum.head)
    (budget : spent + changeSet.changes.length * (indexer.store.nodeCount + 1) ≤ Revnum.head)
    (changes : changeSet.changes = before ++ change :: after)
    (targetPath : Path.normalize change.path = .ok target)
    (action : change.action = .added ∨ change.action = .replaced)
    (copyFrom : change.copyFrom = some copy) (sourcePath : Path.normalize copy.path = .ok p)
    (positive : 1 ≤ copy.revision) (earlier : copy.revision < changeSet.revision)
    (resolved : p = Path.root ∧ source = { id := NodeId.root, kind := .dir } ∨
      p ≠ Path.root ∧ ∃ row, indexer.store.nodeAt p copy.revision = .ok (some row) ∧
        source = { id := row.id, kind := row.kind })
    (isDir : change.kind = .dir ∨ change.kind = .unknown ∧ source.kind = .dir)
    (alone : ∀ other ∈ before ++ after, ∀ q, Path.normalize other.path = .ok q →
      ¬ Path.Within target q)
    (committed : indexer.indexRevision changeSet = (indexer', .ok (.committed summary))) :
    ∃ t' top, indexer'.store.Holds lawful t' false ∧ top.path = target ∧
      indexer.store.Reproduces indexer'.store t' copy.revision changeSet.revision source.id top
        (Ingestor.copied indexer.store copy.revision (indexer.store.nodeCount + 1) source.id)
        (copyIds (Ingestor.copied indexer.store copy.revision (indexer.store.nodeCount + 1)
          source.id) source.id top.id top.id) := by
  obtain ⟨ready, t, opened, applied, plan, t', sameStore, prepared, openedHolds, applying,
    planning, stored, records', valid', contents⟩ := reach.committed_revision bounded budget committed
  have holds : indexer.store.Holds lawful t false := sameStore ▸ prepared.holds
  have wf := (Ingestor.apply_delta prepared.wellFormed applying).wellFormed
  have planned := (Ingestor.run_takePlan planning).2
  -- The store the copy read holds the node rows of the indexer's store.
  have sameOrder : ∀ fuel id, Ingestor.copied opened copy.revision fuel id =
      Ingestor.copied indexer.store copy.revision fuel id :=
    copied_congr fun id =>
      (Store.Holds.children_eq holds openedHolds rfl prepared.records.ids id copy.revision).symm
  have sameCount : opened.nodeCount = indexer.store.nodeCount :=
    openedHolds.nodeCount.trans holds.nodeCount.symm
  have resolvedOpened : p = Path.root ∧ source = { id := NodeId.root, kind := .dir } ∨
      p ≠ Path.root ∧ ∃ row, opened.nodeAt p copy.revision = .ok (some row) ∧
        source = { id := row.id, kind := row.kind } := by
    rcases resolved with root | ⟨notRoot, row, atNode, rfl⟩
    · exact .inl root
    · refine .inr ⟨notRoot, row, ?_, rfl⟩
      rw [← Store.Holds.nodeAt_eq holds openedHolds rfl prepared.records.ids]
      exact atNode
  -- The tree the revision leaves mirrors the source below the target.
  obtain ⟨top, topMem, topPath, topKind, topPredecessor, topRevMin, complete, mirrors, unset⟩ :=
    Ingestor.apply_mirrors_copy openedHolds
      (show ({ t with revisions := t.revisions ++ [changeSet.info] } : Tables).nodes = t.nodes from rfl)
      prepared.records prepared.valid prepared.same prepared.wellFormed bounded changes targetPath
      action copyFrom sourcePath positive earlier resolvedOpened isDir alone applying
  rw [sameCount, sameOrder] at complete mirrors unset
  refine ⟨t', top.toRecord, stored, topPath, ?_⟩
  simp only [LiveNode.toRecord_id]
  set order := Ingestor.copied indexer.store copy.revision (indexer.store.nodeCount + 1) source.id
  set copyOf := copyIds order source.id top.id top.id
  have below : ∀ x, x ∈ order ↔ indexer.store.Descends copy.revision source.id x := fun x =>
    (complete x).trans (Store.Holds.descends_iff holds).symm
  -- Every copy is a node the revision opened, so its id is new and within the budget.
  have copyNode : ∀ id, (id = source.id ∨ ∃ x ∈ order, x.id = id) →
      ∃ node ∈ applied.tree.nodes, node.id = copyOf id ∧ node.revMin = changeSet.revision ∧
        node.predecessor.isSome := by
    rintro id (rfl | ⟨x, xMem, rfl⟩)
    · exact ⟨top, topMem, (copyIds_source _ _ _ _).symm, topRevMin, by simp [topPredecessor]⟩
    · obtain ⟨node, nodeMem, nodeId, -, -, nodePredecessor, -, nodeRevMin⟩ := mirrors.copies x xMem
      exact ⟨node, nodeMem, nodeId, nodeRevMin, by simp [nodePredecessor]⟩
  have copyFresh : ∀ id, (id = source.id ∨ ∃ x ∈ order, x.id = id) →
      ready.ingestor.lastId < copyOf id ∧ copyOf id ≤ Revnum.head := by
    intro id inDomain
    obtain ⟨node, nodeMem, nodeId, nodeRevMin, -⟩ := copyNode id inDomain
    rw [← nodeId]
    exact prepared.fresh_of_opened openedHolds applying nodeMem nodeRevMin
  have notRoot : ∀ node ∈ applied.tree.nodes, node.revMin = changeSet.revision →
      node.id ≠ NodeId.root := fun node mem opens =>
    wf.id_ne_root_of_revMin mem
      (by rw [opens]; exact ne_of_gt ((lt_of_lt_of_le (by decide) positive).trans earlier))
  -- The store after the commit lists as children of each copy the copies of its original's.
  have copiedChildren : ∀ id, (id = source.id ∨ ∃ x ∈ order, x.id = id) → ∃ rows rows',
      indexer.store.children id copy.revision = .ok rows ∧
      indexer'.store.children (copyOf id) changeSet.revision = .ok rows' ∧
      rows'.map (fun row => (row.name, row.id)) = rows.map fun row => (row.name, copyOf row.id) := by
    intro id inDomain
    obtain ⟨rows, read, mirrored⟩ := mirrors.children id inDomain
    obtain ⟨rows', read', listed⟩ := records'.children_of_last stored valid' bounded (copyOf id)
    rw [Store.Holds.children_eq openedHolds holds rfl prepared.records.ids] at read
    exact ⟨rows, rows', read, read', listed.trans mirrored⟩
  obtain ⟨idsNodup, notSource⟩ : (order.map (·.id)).Nodup ∧ ∀ x ∈ order, x.id ≠ source.id :=
    Ingestor.order_ids holds (prepared.records.forest prepared.valid copy.revision)
  exact {
    complete := below
    topRow := ⟨records'.mem_of_last valid' topMem (notRoot top topMem topRevMin),
      copyIds_source _ _ _ _, topKind, topPredecessor, topRevMin, rfl⟩
    rows := fun x xMem => by
      obtain ⟨node, nodeMem, nodeId, nodeName, nodeKind, nodePredecessor, nodeParent, nodeRevMin⟩ :=
        mirrors.copies x xMem
      exact ⟨node.toRecord, records'.mem_of_last valid' nodeMem (notRoot node nodeMem nodeRevMin),
        nodeId, nodeName, nodeKind, nodePredecessor, nodeParent, nodeRevMin, rfl⟩
    preorder := fun i h => by
      rw [LiveNode.toRecord_id, show copyOf order[i].id = NodeId.next^[i + 1] top.id from
        copyIds_getElem idsNodup notSource top.id top.id i h]
      refine (NodeId.iterate_next_of_bounded fun j le => ?_).trans (by push_cast; ring)
      -- Each id on the way is that of the top or of a copy, all new and within the budget.
      have fresh : ready.ingestor.lastId < NodeId.next^[j] top.id ∧
          NodeId.next^[j] top.id ≤ Revnum.head := by
        cases j with
        | zero => simpa [copyOf, copyIds_source] using copyFresh source.id (.inl rfl)
        | succ k =>
          have kBound : k < order.length := by omega
          rw [← copyIds_getElem idsNodup notSource top.id top.id k kBound]
          exact copyFresh _ (.inr ⟨_, List.getElem_mem kBound, rfl⟩)
      exact ⟨le_of_lt (lt_of_le_of_lt prepared.nonneg fresh.1), fresh.2⟩
    siblings := fun id _ => by
      obtain ⟨rows, read, listed, -⟩ :=
        prepared.records.children holds prepared.valid id (le_of_lt (earlier.trans_le bounded))
      exact ⟨rows, read, listed ▸ (prepared.valid.treeAt_wellFormed copy.revision).childrenOf_sorted id⟩
    children := copiedChildren
    distinct := mirrors.distinct
    onto := fun y descends => Store.descends_copy below (copyIds_source _ _ _ _) copiedChildren descends
    noContent := fun row mem id inDomain same => by
      obtain ⟨node, nodeMem, nodeId, -, inherits⟩ := copyNode id inDomain
      rcases contents row mem with ⟨old, oldMem, -, sameNode⟩ | ⟨-, listed⟩
      · -- An old content row names a stored node, whose id is no more than the counter.
        obtain ⟨stored, storedMem, storedId⟩ :=
          List.mem_map.1 (Tables.keysHold_iff.1 prepared.contents.keys old oldMem)
        have atMost := prepared.stored stored storedMem
        have above := (copyFresh id inDomain).1
        rw [← same, sameNode, ← storedId] at above
        exact absurd atMost (not_le.2 above)
      · refine Schedule.not_mem_contentNodes planned wf nodeMem inherits (fun entry entryMem => ?_)
          (by rw [nodeId, ← same]; exact listed)
        rw [nodeId]
        exact (unset entry entryMem id inDomain).symm }

/-- Revision 2, which adds the directory "/a/b". -/
def addsDirAb : ChangeSet :=
  { info := { id := 2, author := none, dateMs := 0, message := "" },
    changes := [{ path := "/a/b", action := .added, kind := .dir }] }

/-- Revision 3, which adds "/c" as a copy of "/a" as of revision 2. -/
def copiesAToC : ChangeSet :=
  { info := { id := 3, author := none, dateMs := 0, message := "" },
    changes := [{ path := "/c", action := .added, kind := .dir,
                  copyFrom := some { path := "/a", revision := 2 } }] }

/-- The indexer after revisions 1 and 2 on the empty store. -/
def afterAb : Indexer := ((openedEmpty.indexRevision addsDirA).1.indexRevision addsDirAb).1

/-- Copying "/a", which holds "/a/b", to "/c" at revision 3 gives "/c" a copy of "/a/b". -/
theorem copy_reproduces_dir_with_child :
    ∃ t' top, (afterAb.indexRevision copiesAToC).1.store.Holds Reference.lawful t' false ∧
      top.path = "/c" ∧
      afterAb.store.Reproduces (afterAb.indexRevision copiesAToC).1.store t' 2 3 1 top
        (Ingestor.copied afterAb.store 2 (afterAb.store.nodeCount + 1) 1)
        (copyIds (Ingestor.copied afterAb.store 2 (afterAb.store.nodeCount + 1) 1) 1 top.id
          top.id) := by
  have reach : Reachable Reference.lawful afterAb
      (History.record [⟨1, (openedEmpty.indexRevision addsDirA).1.ingestor.tree⟩]
        ((openedEmpty.indexRevision addsDirA).1.indexRevision addsDirAb).2 afterAb.ingestor.tree)
      (1 + addsDirAb.changes.length * ((openedEmpty.indexRevision addsDirA).1.store.nodeCount + 1)) :=
    Reachable.indexed reachable_addsDirA (by decide) rfl
  have budget : ((1 + addsDirAb.changes.length *
      ((openedEmpty.indexRevision addsDirA).1.store.nodeCount + 1) : Nat) : Revnum) +
      copiesAToC.changes.length * (afterAb.store.nodeCount + 1) ≤ Revnum.head := by
    decide +kernel
  have source : afterAb.store.nodeAt "/a" 2 = .ok (some
      { id := 1, revMin := 1, revMax := Revnum.head, parent := 0, predecessor := none,
        name := "a", path := "/a", kind := .dir }) := by
    decide +kernel
  have committed : (afterAb.indexRevision copiesAToC).2 = .ok (.committed
      { revision := 3, events := 1, nodesCreated := 2, nodesOutdated := 0, contentsModified := 0,
        discarded := 0,
        rows := { nodeInserts := 2, nodeOutdates := 0, contentInserts := 0, contentOutdates := 0 } }) := by
    decide +kernel
  exact copy_reproduces_source_subtree reach (by decide) budget
    (show copiesAToC.changes = [] ++ _ :: [] from rfl) (by decide +kernel) (.inl rfl) rfl
    (by decide +kernel) (by decide) (by decide) (.inr ⟨by decide, _, source, rfl⟩) (.inl rfl)
    (by simp) (Prod.ext rfl committed)

end Indexer

end TreeHistory
