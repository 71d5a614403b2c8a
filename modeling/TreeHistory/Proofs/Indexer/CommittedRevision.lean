import Mathlib
import TreeHistory.Proofs.Indexer.Violations

/-!
# The revision a reachable indexer commits

A revision that commits from a reachable state, within the id budget, is written by the indexer
made ready for it (`Indexer.ReadyFor`), on the same store (`Reachable.committed_revision`). The
nodes it opens were created in it (`Delta.created_of_opened`), so their ids lie above the counter
(`ReadyFor.fresh_of_opened`), and the store after the commit reads back the tree it leaves
(`Records.mem_of_last`, `Records.children_of_last`).
-/

namespace TreeHistory

/-- Content set for an id comes from an entry for it. -/
theorem ContentMap.mem_of_get?_eq_some {map : ContentMap} {id : NodeId} {body : ContentBody}
    (found : map.get? id = some body) : ∃ entry ∈ map, entry.1 = id := by
  unfold ContentMap.get? at found
  obtain ⟨entry, first, -⟩ := Option.map_eq_some_iff.1 found
  exact ⟨entry, List.mem_of_find?_eq_some first, by simpa using List.find?_some first⟩

theorem LiveTree.WellFormed.id_ne_root_of_revMin {tree : LiveTree} (wf : tree.WellFormed)
    {node : LiveNode} (mem : node ∈ tree.nodes) (opened : node.revMin ≠ 0) :
    node.id ≠ NodeId.root := by
  intro isRoot
  obtain ⟨children, rootMem⟩ := wf.rootMem
  rw [wf.eq_of_id_eq mem rootMem isRoot] at opened
  exact opened rfl

/-- A node of the tree a plan is made over that has a predecessor and no content set gets no content
row from the plan. -/
theorem Schedule.not_mem_contentNodes {tree : LiveTree} {schedule : Schedule} {plan : Plan}
    (planned : Schedule.plan tree schedule = .ok plan) (wf : tree.WellFormed) {node : LiveNode}
    (mem : node ∈ tree.nodes) (inherits : node.predecessor.isSome)
    (unset : ∀ entry ∈ schedule.content, entry.1 ≠ node.id) : node.id ∉ plan.contentNodes := by
  obtain ⟨-, -, -, records, modifiedEq⟩ := Schedule.plan_eq_ok planned
  intro listed
  rcases List.mem_append.1 listed with created | modified
  · obtain ⟨c, cMem, given⟩ := List.mem_filterMap.1 created
    obtain ⟨body, hasContent, sameId⟩ := Option.map_eq_some_iff.1 given
    obtain ⟨live, liveRecord, liveContent⟩ := Schedule.plan_created_content planned c cMem
    -- The node created is `node`: they share an id.
    have sameRecord : live.toRecord = node.toRecord := by
      have found := records c cMem
      rw [sameId, wf.recordOf?_of_mem mem] at found
      exact liveRecord.trans (Option.some.inj found).symm
    have sameId' : live.id = node.id := congrArg NodeRecord.id sameRecord
    rw [liveContent] at hasContent
    rcases (Schedule.createdContent_eq_some hasContent).2 with set | noPredecessor
    · obtain ⟨entry, entryMem, entryId⟩ := ContentMap.mem_of_get?_eq_some set
      exact unset entry entryMem (entryId.trans sameId')
    · have samePredecessor : live.predecessor = node.predecessor :=
        congrArg NodeRecord.predecessor sameRecord
      rw [samePredecessor] at noPredecessor
      simp [noPredecessor] at inherits
  · obtain ⟨entry, entryMem, entryId⟩ := List.mem_map.1 modified
    rw [modifiedEq] at entryMem
    exact unset entry (List.mem_of_mem_filter entryMem) entryId

namespace Ingestor

/-- A node of the tree that opened at the revision was created in it, when every node of the base
opened earlier. -/
theorem Delta.created_of_opened {base : LiveTree} {R : Revnum} {s : Ingestor}
    (delta : Delta base R s)
    (older : ∀ id record, base.recordOf? id = some record → record.revMin < R)
    {node : LiveNode} (mem : node ∈ s.tree.nodes) (opened : node.revMin = R) :
    node.id ∈ s.schedule.createdSet := by
  by_contra notCreated
  have kept := delta.kept node.id notCreated
  rw [delta.wellFormed.recordOf?_of_mem mem] at kept
  split at kept
  · exact absurd kept (by simp)
  · exact absurd (older node.id _ kept.symm) (by simp [LiveNode.toRecord, opened])

end Ingestor

namespace Tables

variable {engine : Engine} {lawful : engine.Lawful} {store : Store} {txOpen : Bool} {t : Tables}
  {history : History} {R : Revnum} {tree : LiveTree}

/-- Tables that record a history ending in a commit of `tree` hold the record of every node of it
but the root. -/
theorem Records.mem_of_last (records : t.Records (history ++ [⟨R, tree⟩]))
    (valid : History.Valid (history ++ [⟨R, tree⟩])) {node : LiveNode} (mem : node ∈ tree.nodes)
    (notRoot : node.id ≠ NodeId.root) : node.toRecord ∈ t.nodes := by
  have current : node.toRecord ∈ (History.current (history ++ [⟨R, tree⟩])).records := by
    rw [History.current_append]
    exact LiveTree.mem_records.2 ⟨node, mem, notRoot, rfl⟩
  exact ((records.mem_current valid).1 current).1

/-- A store whose tables record a history ending in a commit of `tree` at `R` lists, as of `R`, the
children `tree` has. -/
theorem Records.children_of_last (holds : store.Holds lawful t txOpen)
    (records : t.Records (history ++ [⟨R, tree⟩])) (valid : History.Valid (history ++ [⟨R, tree⟩]))
    (bounded : R ≤ Revnum.head) (parent : NodeId) :
    ∃ rows, store.children parent R = .ok rows ∧
      rows.map (fun row => (row.name, row.id)) = tree.childrenOf parent := by
  obtain ⟨rows, read, listed, -⟩ := records.children holds valid parent bounded
  rw [History.treeAt_append, if_pos le_rfl] at listed
  exact ⟨rows, read, listed⟩

/-- Every node of a live tree that is the current tree of a recorded history opened before a
revision after all of the history's: the root at revision 0, the others at committed revisions. -/
theorem Records.revMin_lt_of_same (records : t.Records history) (valid : history.Valid)
    {base : LiveTree} (wf : base.WellFormed) (same : base.Same (History.current history))
    (positive : 1 ≤ R) (later : ∀ commit ∈ history, commit.revision < R) :
    ∀ id record, base.recordOf? id = some record → record.revMin < R := by
  intro id record found
  by_cases isRoot : id = NodeId.root
  · obtain ⟨children, rootMem⟩ := wf.rootMem
    rw [isRoot] at found
    have rootRecord := Option.some.inj (found.symm.trans (wf.recordOf?_of_mem rootMem))
    have atZero : ({ LiveNode.root with children := children } : LiveNode).toRecord.revMin = 0 := rfl
    rw [rootRecord, atZero]
    exact lt_of_lt_of_le (by decide) positive
  · obtain ⟨-, -, opened⟩ := Indexer.Records.mem_of_same records valid wf same isRoot found
    obtain ⟨commit, commitMem, sameRevision⟩ := History.mem_revisions.1 opened
    rw [← sameRevision]
    exact later commit commitMem

end Tables

namespace Indexer

open History

variable {engine : Engine} {lawful : engine.Lawful}

namespace ReadyFor

variable {indexer : Indexer} {t : Tables} {history : History} {changeSet : ChangeSet}

/-- Every node of a ready indexer's live tree opened before the revision: the root at revision 0,
the others at committed revisions. -/
theorem older (ready : ReadyFor lawful indexer t history changeSet) :
    ∀ id record, indexer.ingestor.tree.recordOf? id = some record →
      record.revMin < changeSet.revision :=
  ready.records.revMin_lt_of_same ready.valid ready.wellFormed ready.same ready.positive ready.later

/-- The nodes a ready indexer's revision opens have ids above its counter and within the budget. -/
theorem fresh_of_opened (ready : ReadyFor lawful indexer t history changeSet) {opened : Store}
    (openedHolds : opened.Holds lawful { t with revisions := t.revisions ++ [changeSet.info] } true)
    {applied : Ingestor}
    (applying : indexer.ingestor.run (Ingestor.apply opened changeSet) = (applied, .ok ()))
    {node : LiveNode} (mem : node ∈ applied.tree.nodes) (opens : node.revMin = changeSet.revision) :
    indexer.ingestor.lastId < node.id ∧ node.id ≤ Revnum.head := by
  have delta := Ingestor.apply_delta ready.wellFormed applying
  have listed := delta.listed _ (delta.created_of_opened ready.older mem opens)
  obtain ⟨-, within, fresh, createdEq, freshIds, -⟩ := apply_allocates ready.holds
    (fun r => ready.records.forest ready.valid r) ready.nonneg ready.room openedHolds
  rw [applying, ready.idle, List.nil_append] at createdEq
  rw [applying] at freshIds within
  rw [createdEq] at listed
  obtain ⟨above, atMost⟩ := freshIds _ listed
  exact ⟨above, le_trans atMost (le_trans within ready.room)⟩

end ReadyFor

variable {indexer indexer' : Indexer} {history : History} {spent : Nat} {changeSet : ChangeSet}
  {summary : RevisionSummary}

/-- A revision that commits from a reachable state within the id budget is written by the indexer
made ready for it, on the same store, leaving the history with the revision recorded and content
rows for the plan's content nodes. -/
theorem Reachable.committed_revision (reach : Reachable lawful indexer history spent)
    (bounded : changeSet.revision ≤ Revnum.head)
    (budget : spent + changeSet.changes.length * (indexer.store.nodeCount + 1) ≤ Revnum.head)
    (committed : indexer.indexRevision changeSet = (indexer', .ok (.committed summary))) :
    ∃ ready t opened applied plan t',
      ready.store = indexer.store ∧ ReadyFor lawful ready t history changeSet ∧
      opened.Holds lawful { t with revisions := t.revisions ++ [changeSet.info] } true ∧
      ready.ingestor.run (Ingestor.apply opened changeSet) = (applied, .ok ()) ∧
      applied.run Ingestor.takePlan = (indexer'.ingestor, .ok plan) ∧
      indexer'.store.Holds lawful t' false ∧
      t'.Records (history ++ [⟨changeSet.revision, applied.tree⟩]) ∧
      History.Valid (history ++ [⟨changeSet.revision, applied.tree⟩]) ∧
      ∀ row ∈ t'.contents, (∃ old ∈ t.contents, row.revMin = old.revMin ∧ row.node = old.node) ∨
        (row.revMin = changeSet.revision ∧ row.node ∈ plan.contentNodes) := by
  rcases indexRevision_cases committed with
    ⟨-, invalid | ⟨e, -, -, failed⟩⟩ | ⟨ready, readied, ⟨-, skipped | ⟨last, outOfOrder⟩⟩ |
      ⟨positive, notHead, later, committing⟩⟩
  · exact absurd invalid (by simp)
  · exact absurd failed (by simp)
  · exact absurd skipped (by simp)
  · exact absurd outOfOrder (by simp)
  rcases commitRevision_cases committing with
    ⟨ingestor, store, summary', written, nextEq, resultEq⟩ | ⟨_, e, -, -, failed⟩
  swap
  · exact absurd failed (by simp)
  obtain ⟨t, prepared⟩ := reach.readyFor bounded budget readied positive notHead later
  obtain ⟨opened, applied, plan, t', openedHolds, applying, planning, stored, -, contents⟩ :=
    writeRevision_contents prepared.holds written
  -- The state after the revision is reachable, so its store records the grown history.
  have next := (Reachable.indexed reach bounded committed).consistent
  obtain ⟨t'', holds'', records''⟩ := next.stored
  have revision : summary.revision = changeSet.revision := by
    rw [Except.ok.injEq, Outcome.committed.injEq] at resultEq
    obtain ⟨_, _, _, _, _, _, -, -, -, -, -, -, summaryEq⟩ := writeRevision_eq_ok written
    rw [resultEq, summaryEq]
  obtain ⟨rfl, -⟩ := Ingestor.run_takePlan planning
  have valid := next.valid
  subst nextEq
  rw [holds''.tables_eq stored] at records''
  rw [record_committed, revision] at records'' valid
  exact ⟨ready, t, opened, applied, plan, t', (ready_store readied).1, prepared, openedHolds,
    applying, planning, stored, records'', valid, contents⟩

end Indexer

end TreeHistory
