import Mathlib
import TreeHistory.Proofs.Ingest.Origins
import TreeHistory.Proofs.Indexer.Revisions

/-!
# The lineage the node rows tell

In a store written only by the indexer, every node row says where it comes from, after every
committed revision, across reopening and failed revisions (`rows_keep_lineage`). A commit adds rows
for the nodes its revision made and closes those of nodes it dropped (`CommitStep.rows`); two
invariants are carried from one commit to the next: `Tables.IdsGrow` (ids are positive, grow with
the revision a row opens at, and lie above the parent's) and `Tables.Marked` (every row was opened
by a committed change set as `Ingestor.MadeBy` says). With the tree each revision records
(`Tables.Records`), they give the lineage (`Tables.Lineage`).
-/

namespace TreeHistory

open History

/-! ## Paths -/

/-- A segmented path is the join of what it splits into. -/
theorem Path.Segmented.join_of_split {path parent name : String} (segmented : Segmented path)
    (split : Path.split path = .ok (parent, name)) : Path.join parent name = path := by
  obtain ⟨parent', name', split', joined, -⟩ :=
    segmented.join_split (LiveTree.ne_root_of_split split)
  rw [split, Except.ok.injEq, Prod.mk.injEq] at split'
  obtain ⟨rfl, rfl⟩ := split'
  exact joined

/-- Two rows read as the same record agree on every field but their closing. -/
theorem NodeRecord.agree_of_live_eq {x y : NodeRecord} (same : y.live = x.live) :
    y.id = x.id ∧ y.revMin = x.revMin ∧ y.parent = x.parent ∧ y.predecessor = x.predecessor ∧
      y.path = x.path :=
  ⟨(congrArg NodeRecord.id same :), (congrArg NodeRecord.revMin same :),
    (congrArg NodeRecord.parent same :), (congrArg NodeRecord.predecessor same :),
    (congrArg NodeRecord.path same :)⟩

/-- A node whose record a row reads as agrees with the row on every field but its closing. -/
theorem LiveNode.agree_of_toRecord_eq {node : LiveNode} {x : NodeRecord}
    (same : node.toRecord = x.live) :
    node.id = x.id ∧ node.revMin = x.revMin ∧ node.parent = x.parent ∧
      node.predecessor = x.predecessor ∧ node.path = x.path :=
  ⟨(congrArg NodeRecord.id same :), (congrArg NodeRecord.revMin same :),
    (congrArg NodeRecord.parent same :), (congrArg NodeRecord.predecessor same :),
    (congrArg NodeRecord.path same :)⟩

/-! ## What the predecessor marks -/

/-- A node's predecessor marks what the last event at its path that adds or replaces a node did:
copy, no copy, or no such event (inherit). -/
def MarksLastEvent (lastAt : String → Option Change) (path : String)
    (predecessor : Option Predecessor) : Prop :=
  (predecessor.map (·.type) = some .copy ↔
    ∃ change copy, lastAt path = some change ∧ change.copyFrom = some copy) ∧
  (predecessor = none ↔ ∃ change, lastAt path = some change ∧ change.copyFrom = none) ∧
  (predecessor.map (·.type) = some .inherit ↔ lastAt path = none)

namespace Ingestor

variable {rows : List NodeRecord} {R : Revnum} {lastAt : String → Option Change} {path : String}
  {predecessor : Option Predecessor}

/-- The three ways a node is made are told apart by its predecessor, so it marks the last event. -/
theorem MadeBy.marksLastEvent (made : MadeBy rows R lastAt path predecessor) :
    MarksLastEvent lastAt path predecessor := by
  rcases predecessor with _ | ⟨id, _ | _⟩
  · obtain ⟨change, last, plain⟩ := made.plain rfl
    simp [MarksLastEvent, last, plain]
  · obtain ⟨change, copy, last, copies, -⟩ := made.copied id rfl
    simp [MarksLastEvent, last, copies]
  · obtain ⟨unset, -⟩ := made.inherited id rfl
    simp [MarksLastEvent, unset]

/-- What a node came from holds against any rows that keep the rows it names. -/
theorem MadeBy.mono {rows' : List NodeRecord} (made : MadeBy rows R lastAt path predecessor)
    (carry : ∀ row ∈ rows, ∀ r < R, row.covers r →
      ∃ row' ∈ rows', row'.id = row.id ∧ row'.covers r) :
    MadeBy rows' R lastAt path predecessor := by
  obtain ⟨segmented, plain, copied, inherited⟩ := made
  refine ⟨segmented, plain, fun id isCopy => ?_, fun id inherits => ?_⟩
  · obtain ⟨change, copy, last, copies, early, source⟩ := copied id isCopy
    rcases source with isRoot | ⟨row, rowMem, rowId, covers⟩
    · exact ⟨change, copy, last, copies, early, .inl isRoot⟩
    · obtain ⟨row', mem', sameId, covers'⟩ := carry row rowMem copy.revision early covers
      exact ⟨change, copy, last, copies, early, .inr ⟨row', mem', sameId.trans rowId, covers'⟩⟩
  · obtain ⟨unset, row, rowMem, rowId, r, early, covers⟩ := inherited id inherits
    obtain ⟨row', mem', sameId, covers'⟩ := carry row rowMem r early covers
    exact ⟨unset, row', mem', sameId.trans rowId, r, early, covers'⟩

end Ingestor

/-! ## One commit -/

namespace Indexer

variable {engine : Engine} {lawful : engine.Lawful}

/-- A revision committed on tables `t` that record `history`, leaving `applied` and tables `t'`
that record the history grown by its tree. -/
structure CommitStep (lawful : engine.Lawful) (t : Tables) (history : History)
    (changeSet : ChangeSet) (base applied : Ingestor) (t' : Tables) : Prop where
  records : t.Records history
  valid : history.Valid
  wellFormed : base.tree.WellFormed
  same : base.tree.Same (current history)
  later : ∀ commit ∈ history, commit.revision < changeSet.revision
  positive : 1 ≤ changeSet.revision
  bounded : changeSet.revision ≤ Revnum.head
  applying : ∃ opened : Store,
    opened.Holds lawful { t with revisions := t.revisions ++ [changeSet.info] } true ∧
      base.run (Ingestor.apply opened changeSet) = (applied, .ok ())
  recorded : t'.Records (history ++ [⟨changeSet.revision, applied.tree⟩])
  validAfter : History.Valid (history ++ [⟨changeSet.revision, applied.tree⟩])

namespace CommitStep

variable {t t' : Tables} {history : History} {changeSet : ChangeSet} {base applied : Ingestor}

theorem delta (step : CommitStep lawful t history changeSet base applied t') :
    Ingestor.Delta base.tree changeSet.revision applied := by
  obtain ⟨opened, -, applying⟩ := step.applying
  exact Ingestor.apply_delta step.wellFormed applying

theorem parentsFirst (step : CommitStep lawful t history changeSet base applied t') :
    Ingestor.ParentsFirst applied := by
  obtain ⟨opened, -, applying⟩ := step.applying
  exact Ingestor.apply_parentsFirst step.wellFormed applying

theorem older (step : CommitStep lawful t history changeSet base applied t') :
    ∀ id record, base.tree.recordOf? id = some record → record.revMin < changeSet.revision :=
  step.records.revMin_lt_of_same step.valid step.wellFormed step.same step.positive step.later

/-- No row after the commit opens later than it. -/
theorem revMin_le (step : CommitStep lawful t history changeSet base applied t') {x : NodeRecord}
    (mem : x ∈ t'.nodes) : x.revMin ≤ changeSet.revision := by
  have opened := step.recorded.opened x mem
  rw [revisions_append] at opened
  rcases List.mem_append.1 opened with earlier | now
  · obtain ⟨commit, commitMem, sameRevision⟩ := mem_revisions.1 earlier
    rw [← sameRevision]
    exact (step.later commit commitMem).le
  · rw [List.mem_singleton.1 now]

/-- A row there was that held a revision before the commit still holds it after, read as the
same record. -/
theorem carry (step : CommitStep lawful t history changeSet base applied t') {y : NodeRecord}
    (mem : y ∈ t.nodes) {r : Revnum} (early : r < changeSet.revision) (covers : y.covers r) :
    ∃ x ∈ t'.nodes, x.covers r ∧ x.live = y.live := by
  have bounded : r ≤ Revnum.head := le_trans early.le step.bounded
  have sameTree : treeAt (history ++ [⟨changeSet.revision, applied.tree⟩]) r = treeAt history r := by
    rw [treeAt_append, if_neg (not_le.2 early)]
  have held := step.records.live_mem mem bounded covers
  rw [← sameTree] at held
  exact step.recorded.exists_row bounded held

/-- A row after the commit opened before it, read as a row there was, or at it, read as the record
of a node the revision made. -/
theorem rows (step : CommitStep lawful t history changeSet base applied t') {x : NodeRecord}
    (mem : x ∈ t'.nodes) :
    (x.revMin < changeSet.revision ∧ ∃ y ∈ t.nodes, y.covers x.revMin ∧ y.live = x.live) ∨
      (x.revMin = changeSet.revision ∧ ∃ node ∈ applied.tree.nodes,
        node.id ∈ applied.schedule.createdSet ∧ node.toRecord = x.live) := by
  have bounded : x.revMin ≤ Revnum.head := (step.recorded.revMin_lt step.validAfter mem).le
  have held := step.recorded.live_mem mem bounded (step.recorded.covers_revMin mem)
  rw [treeAt_append] at held
  rcases lt_or_eq_of_le (step.revMin_le mem) with early | atRevision
  · rw [if_neg (not_le.2 early)] at held
    exact .inl ⟨early, step.records.exists_row bounded held⟩
  · rw [if_pos atRevision.ge] at held
    obtain ⟨node, nodeMem, -, nodeRecord⟩ := LiveTree.mem_records.1 held
    have opens : node.revMin = changeSet.revision :=
      (LiveNode.agree_of_toRecord_eq nodeRecord).2.1.trans atRevision
    exact .inr ⟨atRevision, node, nodeMem, step.delta.created_of_opened step.older nodeMem opens,
      nodeRecord⟩

/-- A node the revision leaves but did not make, other than the root, has the row it had. -/
theorem mem_of_kept (step : CommitStep lawful t history changeSet base applied t')
    {node : LiveNode} (mem : node ∈ applied.tree.nodes)
    (notMade : node.id ∉ applied.schedule.createdSet) (notRoot : node.id ≠ NodeId.root) :
    node.toRecord ∈ t.nodes := by
  have kept := step.delta.kept node.id notMade
  rw [step.delta.wellFormed.recordOf?_of_mem mem] at kept
  split at kept
  · exact absurd kept (Option.some_ne_none _)
  · exact (Records.mem_of_same step.records step.valid step.wellFormed step.same notRoot
      kept.symm).1

/-- A node the revision made has a row after the commit, opened at the revision. -/
theorem row_of_made (step : CommitStep lawful t history changeSet base applied t')
    {node : LiveNode} (mem : node ∈ applied.tree.nodes)
    (made : node.id ∈ applied.schedule.createdSet) :
    node.toRecord ∈ t'.nodes ∧ node.revMin = changeSet.revision := by
  have opens := step.delta.opened node.id made
  rw [step.delta.wellFormed.recordOf?_of_mem mem] at opens
  exact ⟨step.recorded.mem_of_last step.validAfter mem (step.delta.notRoot _ made),
    Option.some.inj opens⟩

end CommitStep

variable {indexer indexer' : Indexer} {history : History} {changeSet : ChangeSet}
  {summary : RevisionSummary} {result : Except IndexError Outcome}

/-- Made ready to write, a consistent indexer stays consistent, with its live tree settled and its
store kept. -/
theorem Consistent.of_ready (consistent : Consistent lawful indexer history) {ready : Indexer}
    (readied : (if indexer.diverged then indexer.recover else .ok indexer) = .ok ready) :
    Consistent lawful ready history ∧ ready.diverged = false ∧ ready.store = indexer.store := by
  split at readied
  · obtain ⟨readyConsistent, settled, sameStore, -⟩ := consistent.of_recover readied
    exact ⟨readyConsistent, settled, sameStore⟩
  · rename_i notDiverged
    rw [Except.ok.injEq] at readied
    subst readied
    exact ⟨consistent, by simpa using notDiverged, rfl⟩

/-- A revision that commits from a consistent indexer is a commit step. -/
theorem Consistent.commitStep (consistent : Consistent lawful indexer history)
    (bounded : changeSet.revision ≤ Revnum.head)
    (committed : indexer.indexRevision changeSet = (indexer', .ok (.committed summary))) :
    ∃ base applied t t', indexer.store.Holds lawful t false ∧
      indexer'.store.Holds lawful t' false ∧ CommitStep lawful t history changeSet base applied t' := by
  rcases indexRevision_cases committed with
    ⟨-, invalid | ⟨e, -, -, failed⟩⟩ | ⟨ready, readied, ⟨-, skipped | ⟨last, outOfOrder⟩⟩ |
      ⟨positive, -, later, committing⟩⟩
  · exact absurd invalid (by simp)
  · exact absurd failed (by simp)
  · exact absurd skipped (by simp)
  · exact absurd outOfOrder (by simp)
  rcases commitRevision_cases committing with
    ⟨ingestor, store, summary', written, nextEq, -⟩ | ⟨_, e, -, -, failed⟩
  swap
  · exact absurd failed (by simp)
  obtain ⟨readyConsistent, settled, sameStore⟩ := consistent.of_ready readied
  obtain ⟨wf, same⟩ := readyConsistent.cached settled
  obtain ⟨t, holds, records⟩ := readyConsistent.stored
  obtain ⟨opened, applied, plan, t', openedHolds, applying, planning, stored, -⟩ :=
    writeRevision_tables holds bounded written
  -- The state after the revision is consistent, so its store records the grown history.
  have next := consistent.indexRevision bounded committed
  obtain ⟨t'', holds'', records''⟩ := next.stored
  have validAfter := next.valid
  obtain ⟨rfl, -⟩ := Ingestor.run_takePlan planning
  subst nextEq
  rw [holds''.tables_eq stored] at records''
  rw [record_committed, revision_of_committed committed] at records'' validAfter
  exact ⟨ready.ingestor, applied, t, t', sameStore ▸ holds, stored,
    { records := records, valid := readyConsistent.valid, wellFormed := wf, same := same,
      later := lt_of_max?_lt fun last largest =>
        later last (readyConsistent.lastRevision.trans largest),
      positive := positive, bounded := bounded, applying := ⟨opened, openedHolds, applying⟩,
      recorded := records'', validAfter := validAfter }⟩

/-- Indexing a revision commits it, or commits no change set and leaves the store as it was. -/
theorem indexRevision_commits (step : indexer.indexRevision changeSet = (indexer', result)) :
    (∃ summary, result = .ok (.committed summary)) ∨
      (committedSets result changeSet = [] ∧ indexer'.store = indexer.store) := by
  rcases indexRevision_cases step with ⟨rfl, rfl | ⟨e, -, -, rfl⟩⟩ | ⟨ready, readied, rest⟩
  · exact .inr ⟨rfl, rfl⟩
  · exact .inr ⟨rfl, rfl⟩
  have sameStore := (ready_store readied).1
  rcases rest with ⟨rfl, rfl | ⟨last, rfl⟩⟩ | ⟨-, -, -, committing⟩
  · exact .inr ⟨rfl, sameStore⟩
  · exact .inr ⟨rfl, sameStore⟩
  rcases commitRevision_cases committing with ⟨-, -, summary, -, -, rfl⟩ | ⟨-, e, -, rfl, rfl⟩
  · exact .inl ⟨summary, rfl⟩
  · exact .inr ⟨rfl, sameStore⟩

/-- A commit from an indexer ready for it is a commit step. -/
theorem ReadyFor.commitStep {t t' : Tables} (ready : ReadyFor lawful indexer t history changeSet)
    {opened : Store}
    (openedHolds : opened.Holds lawful { t with revisions := t.revisions ++ [changeSet.info] } true)
    {applied : Ingestor}
    (applying : indexer.ingestor.run (Ingestor.apply opened changeSet) = (applied, .ok ()))
    (recorded : t'.Records (history ++ [⟨changeSet.revision, applied.tree⟩]))
    (validAfter : History.Valid (history ++ [⟨changeSet.revision, applied.tree⟩])) :
    CommitStep lawful t history changeSet indexer.ingestor applied t' :=
  { records := ready.records, valid := ready.valid, wellFormed := ready.wellFormed,
    same := ready.same, later := ready.later, positive := ready.positive,
    bounded := ready.belowHead.le, applying := ⟨opened, openedHolds, applying⟩,
    recorded := recorded, validAfter := validAfter }

end Indexer

/-! ## Invariants of the tables -/

namespace Tables

variable {engine : Engine} {lawful : engine.Lawful} {indexer : Indexer} {t t' : Tables}
  {history : History} {changeSet : ChangeSet} {sets : List ChangeSet}

open Indexer

/-- The ids of the node rows are positive, grow with the revision a row opens at, and lie above
the id of the row's parent. -/
structure IdsGrow (t : Tables) : Prop where
  positive : ∀ x ∈ t.nodes, NodeId.root < x.id
  grows : ∀ x ∈ t.nodes, ∀ y ∈ t.nodes, x.revMin < y.revMin → x.id < y.id
  parentBelow : ∀ x ∈ t.nodes, x.parent < x.id

theorem idsGrow_empty : ({} : Tables).IdsGrow where
  positive _ mem := absurd mem List.not_mem_nil
  grows _ mem := absurd mem List.not_mem_nil
  parentBelow _ mem := absurd mem List.not_mem_nil

/-- A commit from an indexer ready for it keeps the ids growing. -/
theorem IdsGrow.commit (grow : t.IdsGrow) (ready : ReadyFor lawful indexer t history changeSet)
    {opened : Store}
    (openedHolds : opened.Holds lawful { t with revisions := t.revisions ++ [changeSet.info] } true)
    {applied : Ingestor}
    (applying : indexer.ingestor.run (Ingestor.apply opened changeSet) = (applied, .ok ()))
    (recorded : t'.Records (history ++ [⟨changeSet.revision, applied.tree⟩]))
    (validAfter : History.Valid (history ++ [⟨changeSet.revision, applied.tree⟩])) :
    t'.IdsGrow := by
  have step := ready.commitStep openedHolds applying recorded validAfter
  obtain ⟨-, -, fresh, createdEq, -, sorted⟩ := apply_allocates ready.holds
    (fun r => ready.records.forest ready.valid r) ready.nonneg ready.room openedHolds
  rw [applying, ready.idle, List.nil_append] at createdEq
  -- The nodes the revision made have ids above the counter; the rows there were, at or below it.
  have above : ∀ node ∈ applied.tree.nodes, node.id ∈ applied.schedule.createdSet →
      indexer.ingestor.lastId < node.id := fun node mem made =>
    (ready.fresh_of_opened openedHolds applying mem (step.row_of_made mem made).2).1
  have below : ∀ y ∈ t.nodes, y.id ≤ indexer.ingestor.lastId := ready.stored
  refine ⟨fun x mem => ?_, fun x xMem y yMem earlier => ?_, fun x mem => ?_⟩
  · rcases step.rows mem with ⟨-, y, yMem, -, sameLive⟩ | ⟨-, node, nodeMem, made, nodeRecord⟩
    · obtain ⟨sameId, -⟩ := NodeRecord.agree_of_live_eq sameLive
      exact sameId ▸ grow.positive y yMem
    · obtain ⟨sameId, -⟩ := LiveNode.agree_of_toRecord_eq nodeRecord
      exact sameId ▸ lt_of_le_of_lt ready.nonneg (above node nodeMem made)
  · rcases step.rows yMem with ⟨yEarly, y₀, y₀Mem, -, yLive⟩ |
      ⟨yOpens, node, nodeMem, made, nodeRecord⟩
    · -- Both opened before the revision, as rows there were.
      rcases step.rows xMem with ⟨-, x₀, x₀Mem, -, xLive⟩ | ⟨xOpens, -⟩
      · obtain ⟨xId, xMin, -⟩ := NodeRecord.agree_of_live_eq xLive
        obtain ⟨yId, yMin, -⟩ := NodeRecord.agree_of_live_eq yLive
        rw [← xId, ← yId]
        exact grow.grows x₀ x₀Mem y₀ y₀Mem (by rw [xMin, yMin]; exact earlier)
      · rw [xOpens] at earlier
        exact absurd (lt_trans yEarly earlier) (lt_irrefl _)
    · -- `y` opened at the revision, so `x` opened before it, as a row there was.
      rcases step.rows xMem with ⟨-, x₀, x₀Mem, -, xLive⟩ | ⟨xOpens, -⟩
      · obtain ⟨xId, -⟩ := NodeRecord.agree_of_live_eq xLive
        obtain ⟨yId, -⟩ := LiveNode.agree_of_toRecord_eq nodeRecord
        rw [← xId, ← yId]
        exact lt_of_le_of_lt (below x₀ x₀Mem) (above node nodeMem made)
      · rw [xOpens, yOpens] at earlier
        exact absurd earlier (lt_irrefl _)
  · rcases step.rows mem with ⟨-, y, yMem, -, sameLive⟩ | ⟨-, node, nodeMem, made, nodeRecord⟩
    · obtain ⟨sameId, -, sameParent, -⟩ := NodeRecord.agree_of_live_eq sameLive
      rw [← sameId, ← sameParent]
      exact grow.parentBelow y yMem
    · obtain ⟨sameId, -, sameParent, -⟩ := LiveNode.agree_of_toRecord_eq nodeRecord
      rw [← sameId, ← sameParent]
      obtain ⟨parent, parentMem, parentId, -, -⟩ :=
        step.delta.wellFormed.parentMem node nodeMem (step.delta.notRoot _ made)
      by_cases parentMade : parent.id ∈ applied.schedule.createdSet
      · -- Made in the revision too, the parent was made first, so its id is handed out first.
        obtain ⟨before, after, split, parentBefore, nodeAfter⟩ :=
          step.parentsFirst node nodeMem made (parentId ▸ parentMade)
        rw [createdEq] at split
        rw [split] at sorted
        exact (List.pairwise_append.1 sorted).2.2 _ parentBefore _ nodeAfter
      · rw [← parentId]
        by_cases parentRoot : parent.id = NodeId.root
        · rw [parentRoot]
          exact lt_of_le_of_lt ready.nonneg (above node nodeMem made)
        · exact lt_of_le_of_lt (below _ (step.mem_of_kept parentMem parentMade parentRoot))
            (above node nodeMem made)

/-- Every row was opened by one of `sets` as `MadeBy` says, and a row that inherits sits beneath
a row opened with it that has a predecessor. -/
structure Marked (t : Tables) (sets : List ChangeSet) : Prop where
  made : ∀ x ∈ t.nodes, ∃ changeSet ∈ sets, changeSet.revision = x.revMin ∧
    Ingestor.MadeBy t.nodes x.revMin changeSet.lastCreatingAt x.path x.predecessor
  beneath : ∀ x ∈ t.nodes, ∀ id, x.predecessor = some { id := id, type := .inherit } →
    ∃ y ∈ t.nodes, y.id = x.parent ∧ y.revMin = x.revMin ∧ y.predecessor.isSome

theorem marked_empty : ({} : Tables).Marked [] where
  made _ mem := absurd mem List.not_mem_nil
  beneath _ mem := absurd mem List.not_mem_nil

theorem Marked.segmented (marked : t.Marked sets) : ∀ x ∈ t.nodes, Path.Segmented x.path := by
  intro x mem
  obtain ⟨_, -, -, made⟩ := marked.made x mem
  exact made.segmented

/-- A commit keeps every row marked: old rows keep their marks, and the rows it opens come from
the revision's events as `apply_origins` says. -/
theorem Marked.commit (marked : t.Marked sets) {base applied : Ingestor}
    (step : CommitStep lawful t history changeSet base applied t') :
    t'.Marked (sets ++ [changeSet]) := by
  obtain ⟨opened, openedHolds, applying⟩ := step.applying
  have origins := Ingestor.apply_origins openedHolds (rfl : t.nodes = t.nodes) step.records step.valid
    marked.segmented step.wellFormed step.same step.bounded applying
  -- A row a mark names held a revision before the commit, and so does its row after it.
  have carried : ∀ R ≤ changeSet.revision, ∀ row ∈ t.nodes, ∀ r < R, row.covers r →
      ∃ row' ∈ t'.nodes, row'.id = row.id ∧ row'.covers r := by
    intro R atMost row mem r early covers
    obtain ⟨row', mem', covers', sameLive⟩ := step.carry mem (lt_of_lt_of_le early atMost) covers
    exact ⟨row', mem', (NodeRecord.agree_of_live_eq sameLive).1, covers'⟩
  refine ⟨fun x mem => ?_, fun x mem id inherits => ?_⟩
  · rcases step.rows mem with ⟨early, y, yMem, -, sameLive⟩ |
      ⟨opens, node, nodeMem, made, nodeRecord⟩
    · obtain ⟨cs, csMem, csRevision, madeBy⟩ := marked.made y yMem
      obtain ⟨-, sameMin, -, samePredecessor, samePath⟩ := NodeRecord.agree_of_live_eq sameLive
      refine ⟨cs, List.mem_append_left _ csMem, csRevision.trans sameMin, ?_⟩
      rw [← sameMin, ← samePath, ← samePredecessor]
      exact madeBy.mono (carried _ (lt_of_eq_of_lt sameMin early).le)
    · obtain ⟨-, -, -, samePredecessor, samePath⟩ := LiveNode.agree_of_toRecord_eq nodeRecord
      refine ⟨changeSet, List.mem_append_right _ (List.mem_singleton_self _), opens.symm, ?_⟩
      rw [opens, ← samePath, ← samePredecessor]
      exact (origins.made node nodeMem made).mono (carried _ le_rfl)
  · rcases step.rows mem with ⟨early, y, yMem, -, sameLive⟩ |
      ⟨opens, node, nodeMem, made, nodeRecord⟩
    · obtain ⟨-, sameMin, sameParent, samePredecessor, -⟩ := NodeRecord.agree_of_live_eq sameLive
      obtain ⟨z, zMem, zId, zMin, zPredecessor⟩ :=
        marked.beneath y yMem id (samePredecessor.trans inherits)
      -- The row `y` sits beneath opened with it, before the commit, and keeps its row.
      obtain ⟨z', z'Mem, -, z'Live⟩ := step.carry zMem
        (by rw [zMin, sameMin]; exact early) (step.records.covers_revMin zMem)
      obtain ⟨z'Id, z'Min, -, z'Predecessor, -⟩ := NodeRecord.agree_of_live_eq z'Live
      exact ⟨z', z'Mem, z'Id.trans (zId.trans sameParent), z'Min.trans (zMin.trans sameMin),
        z'Predecessor ▸ zPredecessor⟩
    · obtain ⟨-, -, sameParent, samePredecessor, -⟩ := LiveNode.agree_of_toRecord_eq nodeRecord
      obtain ⟨parent, parentMem, parentId, parentMade, parentPredecessor⟩ :=
        origins.beneath node nodeMem made id (samePredecessor.trans inherits)
      obtain ⟨parentRow, parentOpens⟩ := step.row_of_made parentMem parentMade
      exact ⟨parent.toRecord, parentRow, parentId.trans sameParent, parentOpens.trans opens.symm,
        parentPredecessor⟩

/-! ## The lineage -/

/-- A row links its id to its parent's and to its predecessor's. -/
def Link (t : Tables) (child ancestor : NodeId) : Prop :=
  ∃ x ∈ t.nodes, x.id = child ∧
    (x.parent = ancestor ∨ ∃ type, x.predecessor = some { id := ancestor, type := type })

/-- The lineage the node rows tell against the change sets `sets` committed. -/
structure Lineage (t : Tables) (sets : List ChangeSet) : Prop where
  /-- No id is used twice, and a row opened later has a larger id. -/
  distinct : (t.nodes.map (·.id)).Nodup
  grows : ∀ x ∈ t.nodes, ∀ y ∈ t.nodes, x.revMin < y.revMin → x.id < y.id
  /-- A row's name is a segment: not empty, without a slash. -/
  named : ∀ x ∈ t.nodes, x.name ≠ "" ∧ '/' ∉ x.name.toList
  /-- A row's parent is the root or a directory row of smaller id, whose path the row's path extends
by its name. -/
  parent : ∀ x ∈ t.nodes, (x.parent = NodeId.root ∧ x.path = Path.join Path.root x.name) ∨
    ∃ y ∈ t.nodes, y.id = x.parent ∧ y.kind = .dir ∧ y.id < x.id ∧
      x.path = Path.join y.path x.name
  /-- A predecessor is the root, copied, or a row of smaller id, opened earlier, that held a
  revision before the row opened. -/
  predecessor : ∀ x ∈ t.nodes, ∀ p, x.predecessor = some p →
    (p.id = NodeId.root ∧ p.type = .copy) ∨
      ∃ y ∈ t.nodes, y.id = p.id ∧ y.id < x.id ∧ y.revMin < x.revMin ∧
        ∃ r < x.revMin, y.covers r
  /-- A row's predecessor marks the last event at its path that adds or replaces a node, in the
  change set that opened it. -/
  marks : ∀ x ∈ t.nodes, ∃ changeSet ∈ sets, changeSet.revision = x.revMin ∧
    MarksLastEvent changeSet.lastCreatingAt x.path x.predecessor
  /-- A row that inherits lies strictly below a row of its revision with a copy mark. -/
  synthesized : ∀ x ∈ t.nodes, x.predecessor.map (·.type) = some .inherit →
    ∃ y ∈ t.nodes, y.revMin = x.revMin ∧ y.predecessor.map (·.type) = some .copy ∧
      Path.Within y.path x.path ∧ y.path ≠ x.path
  /-- Following parents and predecessors never comes back. -/
  acyclic : ∀ id, ¬ Relation.TransGen t.Link id id

/-- The parent of a row, as of the revision it opens at, is the root or a directory row holding
that revision. -/
theorem Records.parent_split (records : t.Records history) (valid : history.Valid)
    {x : NodeRecord} (mem : x ∈ t.nodes) :
    (x.parent = NodeId.root ∧ Path.split x.path = .ok (Path.root, x.name)) ∨
      ∃ y ∈ t.nodes, y.id = x.parent ∧ y.kind = .dir ∧ y.covers x.revMin ∧
        Path.split x.path = .ok (y.path, x.name) := by
  have bounded : x.revMin ≤ Revnum.head := (records.revMin_lt valid mem).le
  have wf := valid.treeAt_wellFormed x.revMin
  obtain ⟨node, nodeMem, notRoot, nodeRecord⟩ :=
    LiveTree.mem_records.1 (records.live_mem mem bounded (records.covers_revMin mem))
  obtain ⟨-, -, sameParent, -, samePath⟩ := LiveNode.agree_of_toRecord_eq nodeRecord
  have sameName : node.name = x.name := (congrArg NodeRecord.name nodeRecord :)
  obtain ⟨parent, parentMem, parentId, parentDir, split⟩ := wf.parentMem node nodeMem notRoot
  rw [samePath, sameName] at split
  by_cases parentRoot : parent.id = NodeId.root
  · -- The root sits at the root path.
    obtain ⟨children, rootMem⟩ := wf.rootMem
    rw [wf.eq_of_id_eq parentMem rootMem parentRoot] at split
    refine .inl ⟨?_, split⟩
    rw [← sameParent, ← parentId]
    exact parentRoot
  · obtain ⟨y, yMem, yCovers, yLive⟩ :=
      records.exists_row bounded (LiveTree.mem_records.2 ⟨parent, parentMem, parentRoot, rfl⟩)
    obtain ⟨yId, -, -, -, yPath⟩ := LiveNode.agree_of_toRecord_eq yLive.symm
    have yKind : y.kind = parent.kind := (congrArg NodeRecord.kind yLive :)
    refine .inr ⟨y, yMem, ?_, yKind.trans parentDir, yCovers, yPath ▸ split⟩
    rw [← sameParent, ← parentId]
    exact yId.symm

section Derived

variable (records : t.Records history) (valid : history.Valid) (grow : t.IdsGrow)
  (marked : t.Marked sets)

include grow marked in
/-- The predecessor of a marked row is the root, copied, or an earlier row of smaller id. -/
theorem Marked.predecessor_row {x : NodeRecord} (mem : x ∈ t.nodes) {p : Predecessor}
    (has : x.predecessor = some p) :
    (p.id = NodeId.root ∧ p.type = .copy) ∨
      ∃ y ∈ t.nodes, y.id = p.id ∧ y.id < x.id ∧ y.revMin < x.revMin ∧
        ∃ r < x.revMin, y.covers r := by
  obtain ⟨_, -, -, made⟩ := marked.made x mem
  -- A row that held a revision before `x` opened opened before it, with a smaller id.
  have earlier : ∀ y ∈ t.nodes, ∀ r < x.revMin, y.covers r → y.id < x.id ∧ y.revMin < x.revMin := by
    intro y yMem r early covers
    simp only [NodeRecord.covers, Bool.and_eq_true, decide_eq_true_eq] at covers
    have before := lt_of_le_of_lt covers.1 early
    exact ⟨grow.grows y yMem x mem before, before⟩
  obtain ⟨id, type⟩ := p
  cases type with
  | copy =>
    obtain ⟨change, copy, -, -, early, source⟩ := made.copied id has
    rcases source with isRoot | ⟨y, yMem, yId, covers⟩
    · exact .inl ⟨isRoot, rfl⟩
    · obtain ⟨smaller, before⟩ := earlier y yMem copy.revision early covers
      exact .inr ⟨y, yMem, yId, smaller, before, copy.revision, early, covers⟩
  | inherit =>
    obtain ⟨-, y, yMem, yId, r, early, covers⟩ := made.inherited id has
    obtain ⟨smaller, before⟩ := earlier y yMem r early covers
    exact .inr ⟨y, yMem, yId, smaller, before, r, early, covers⟩

include records valid marked in
/-- A marked row that inherits lies strictly below a row of its revision with a copy mark. -/
theorem Marked.below_copy :
    ∀ n, ∀ x ∈ t.nodes, x.path.length = n → x.predecessor.map (·.type) = some .inherit →
      ∃ y ∈ t.nodes, y.revMin = x.revMin ∧ y.predecessor.map (·.type) = some .copy ∧
        Path.Within y.path x.path ∧ y.path.length < x.path.length := by
  intro n
  induction n using Nat.strong_induction_on with
  | h n ih =>
    intro x mem length inherits
    obtain ⟨⟨id, type⟩, has, typeEq⟩ := Option.map_eq_some_iff.1 inherits
    simp only at typeEq
    subst typeEq
    obtain ⟨y, yMem, yId, yMin, yPredecessor⟩ := marked.beneath x mem id has
    -- The row `x` sits beneath is its parent, so its path splits into the parent's and its name.
    have split : Path.split x.path = .ok (y.path, x.name) := by
      rcases records.parent_split valid mem with ⟨isRoot, -⟩ | ⟨z, zMem, zId, -, -, split⟩
      · exact absurd (yId.trans isRoot) (records.id_ne_root valid yMem)
      · rwa [records.eq_of_id zMem yMem (zId.trans yId.symm)] at split
    have within := Path.within_of_split split
    have shorter := Path.length_lt_of_split split
    obtain ⟨⟨yid, ytype⟩, yHas⟩ := Option.isSome_iff_exists.1 yPredecessor
    cases ytype with
    | copy => exact ⟨y, yMem, yMin, by simp [yHas], within, shorter⟩
    | inherit =>
      obtain ⟨z, zMem, zMin, zCopy, zWithin, zShorter⟩ :=
        ih y.path.length (length ▸ shorter) y yMem rfl (by simp [yHas])
      exact ⟨z, zMem, zMin.trans yMin, zCopy, zWithin.trans within, zShorter.trans shorter⟩

include grow marked in
/-- Every link goes to a smaller id: a parent's id is smaller, and so is a predecessor's. -/
theorem Link.lt {child ancestor : NodeId} (link : t.Link child ancestor) : ancestor < child := by
  obtain ⟨x, mem, rfl, isParent | ⟨type, has⟩⟩ := link
  · rw [← isParent]
    exact grow.parentBelow x mem
  · rcases marked.predecessor_row grow mem has with ⟨isRoot, -⟩ | ⟨y, -, yId, smaller, -⟩
    · have rootAncestor : ancestor = NodeId.root := isRoot
      rw [rootAncestor]
      exact grow.positive x mem
    · have yAncestor : y.id = ancestor := yId
      rw [← yAncestor]
      exact smaller

include grow marked in
theorem Link.transGen_lt {child ancestor : NodeId}
    (chain : Relation.TransGen t.Link child ancestor) : ancestor < child := by
  induction chain with
  | single link => exact link.lt grow marked
  | tail _ link below => exact lt_trans (link.lt grow marked) below

include records valid grow marked in
/-- Rows marked by the change sets committed, with growing ids, in tables that record a history,
tell their lineage. -/
theorem Lineage.of_marked : t.Lineage sets where
  distinct := records.ids
  grows := grow.grows
  named x mem := by
    obtain ⟨parentPath, split⟩ : ∃ parentPath, Path.split x.path = .ok (parentPath, x.name) := by
      rcases records.parent_split valid mem with ⟨-, split⟩ | ⟨y, -, -, -, -, split⟩
      · exact ⟨_, split⟩
      · exact ⟨_, split⟩
    exact ⟨(marked.segmented x mem).name_ne_empty split, Path.not_slash_of_split split⟩
  parent x mem := by
    have segmented := marked.segmented x mem
    rcases records.parent_split valid mem with ⟨isRoot, split⟩ | ⟨y, yMem, yId, yDir, -, split⟩
    · exact .inl ⟨isRoot, (segmented.join_of_split split).symm⟩
    · refine .inr ⟨y, yMem, yId, yDir, ?_, (segmented.join_of_split split).symm⟩
      rw [yId]
      exact grow.parentBelow x mem
  predecessor _ mem _ has := marked.predecessor_row grow mem has
  marks x mem := by
    obtain ⟨changeSet, changeSetMem, opened, made⟩ := marked.made x mem
    exact ⟨changeSet, changeSetMem, opened, made.marksLastEvent⟩
  synthesized x mem inherits := by
    obtain ⟨y, yMem, yMin, yCopy, within, shorter⟩ :=
      marked.below_copy records valid _ x mem rfl inherits
    exact ⟨y, yMem, yMin, yCopy, within,
      fun same => absurd (congrArg String.length same) (ne_of_lt shorter)⟩
  acyclic id cycle := lt_irrefl id (Link.transGen_lt grow marked cycle)

end Derived

end Tables

namespace Indexer

variable {engine : Engine} {lawful : engine.Lawful}

/-- In every reachable state within the id budget, the ids of the node rows grow. -/
theorem Reachable.idsGrow {indexer : Indexer} {history : History} {spent : Nat}
    (reach : Reachable lawful indexer history spent) :
    spent ≤ Revnum.head → ∀ t, indexer.store.Holds lawful t false → t.IdsGrow := by
  induction reach with
  | opened empty opened =>
    intro _ t holds
    rw [store_of_ofStore opened] at holds
    rw [holds.tables_eq empty]
    exact Tables.idsGrow_empty
  | reopened _ opened grow =>
    intro budget t holds
    exact grow budget t (store_of_ofStore opened ▸ holds)
  | @indexed indexer indexer' history spent changeSet result reach bounded step grow =>
    intro budget t' holds'
    have earlier : spent ≤ Revnum.head :=
      le_trans (by exact_mod_cast Nat.le_add_right _ _) budget
    rcases indexRevision_commits step with ⟨summary, rfl⟩ | ⟨-, sameStore⟩
    · obtain ⟨ready, t, opened, applied, plan, t'', sameStore, prepared, openedHolds, applying, -,
        holds'', recorded, validAfter, -⟩ :=
        reach.committed_revision bounded (by exact_mod_cast budget) step
      rw [holds'.tables_eq holds'']
      exact (grow earlier t (sameStore ▸ prepared.holds)).commit prepared openedHolds applying
        recorded validAfter
    · exact grow earlier t' (sameStore ▸ holds')
  | recovered _ recovered grow =>
    intro budget t holds
    exact grow budget t (store_of_recover recovered ▸ holds)

/-- In every journaled state, every row is marked by the change sets committed. -/
theorem Journal.marked {indexer : Indexer} {before since : List ChangeSet}
    (journal : Journal lawful indexer before since) :
    ∀ t, indexer.store.Holds lawful t false → t.Marked (before ++ since) := by
  induction journal with
  | opened empty opened =>
    intro t holds
    rw [store_of_ofStore opened] at holds
    rw [holds.tables_eq empty]
    exact Tables.marked_empty
  | reopened _ opened marked =>
    intro t holds
    rw [List.append_nil]
    exact marked t (store_of_ofStore opened ▸ holds)
  | indexed journal bounded step marked =>
    intro t' holds'
    rcases indexRevision_commits step with ⟨summary, rfl⟩ | ⟨uncommitted, sameStore⟩
    · obtain ⟨history, consistent, -⟩ := journal.consistent
      obtain ⟨base, applied, t, t'', holds, holds'', commit⟩ := consistent.commitStep bounded step
      rw [holds'.tables_eq holds'', committedSets_committed, ← List.append_assoc]
      exact (marked t holds).commit commit
    · rw [uncommitted, List.append_nil]
      exact marked t' (sameStore ▸ holds')
  | recovered _ recovered marked =>
    intro t holds
    exact marked t (store_of_recover recovered ▸ holds)

/-- In a store written only by the indexer, from an empty store through any interleaving of
indexing, rebuilding and reopening within the id budget, the node rows tell their lineage against
the change sets committed: ids are never reused and grow with the revision a row opens at; every
row's name is a segment and its parent the root or a directory row of smaller id, its path the
parent's joined with its name; every predecessor is the root, copied, or an earlier row of smaller
id; the predecessor's mark tells whether the last creating event at the row's path copies, does
not, or is missing, an inheriting row lying below a copy target of its revision; and following
parents and predecessors never comes back. -/
theorem rows_keep_lineage {indexer : Indexer} {before since : List ChangeSet} {history : History}
    {spent : Nat} {t : Tables} (journal : Journal lawful indexer before since)
    (reach : Reachable lawful indexer history spent) (budget : spent ≤ Revnum.head)
    (holds : indexer.store.Holds lawful t false) :
    t.Lineage (before ++ since) := by
  have consistent := reach.consistent
  obtain ⟨t₀, holds₀, records⟩ := consistent.stored
  rw [holds.tables_eq holds₀]
  exact Tables.Lineage.of_marked records consistent.valid (reach.idsGrow budget t₀ holds₀)
    (journal.marked t₀ holds₀)

/-- Revision 1, adding "/a" to the empty store, commits, and the journal records it. -/
theorem journal_addsDirA :
    Journal Reference.lawful (openedEmpty.indexRevision addsDirA).1 [] [addsDirA] := by
  have committed : (openedEmpty.indexRevision addsDirA).2 = .ok (.committed {
      revision := 1, events := 1, nodesCreated := 1, nodesOutdated := 0, contentsModified := 0,
      discarded := 0,
      rows := { nodeInserts := 1, nodeOutdates := 0, contentInserts := 0, contentOutdates := 0 } }) := by
    decide +kernel
  have step : Journal Reference.lawful (openedEmpty.indexRevision addsDirA).1 []
      ([] ++ committedSets (openedEmpty.indexRevision addsDirA).2 addsDirA) :=
    Journal.indexed (Journal.opened (Reference.holds {}) (ofStore_empty (Reference.holds {}) 1000))
      (show addsDirA.revision ≤ Revnum.head by decide) rfl
  rwa [committed, committedSets_committed, List.nil_append] at step

/-- After revision 1 adds "/a" to the empty store, the node rows tell their lineage. -/
theorem first_commit_keeps_lineage :
    Journal Reference.lawful (openedEmpty.indexRevision addsDirA).1 [] [addsDirA] ∧
      Reachable Reference.lawful (openedEmpty.indexRevision addsDirA).1
        [⟨1, (openedEmpty.indexRevision addsDirA).1.ingestor.tree⟩] 1 ∧
      ((1 : Nat) : Int) ≤ Revnum.head ∧
      ∃ t, (openedEmpty.indexRevision addsDirA).1.store.Holds Reference.lawful t false ∧
        t.Lineage ([] ++ [addsDirA]) := by
  obtain ⟨t, holds, -⟩ := reachable_addsDirA.consistent.stored
  exact ⟨journal_addsDirA, reachable_addsDirA, by decide, t, holds,
    rows_keep_lineage journal_addsDirA reachable_addsDirA (by decide) holds⟩

end Indexer

end TreeHistory
