import Mathlib
import TreeHistory.Proofs.Indexer.Acceptance
import TreeHistory.Proofs.Indexer.Budget
import TreeHistory.Proofs.Ingest.Failures
import TreeHistory.Proofs.Indexer.Revisions
import TreeHistory.Proofs.Ingest.Plan
import TreeHistory.Proofs.Indexer.PointInTime

/-!
# Indexing fails only on a violation

The store checks every write of a revision, and on a store written only by the indexer none of
these checks ever fails: the schedule accounts for the revision against the live tree
(`Ingestor.Delta`), the counter is ahead of every stored id, and the content rows name stored
nodes (`Tables.ContentsRecord`), so every plan fits the tables (`Ingestor.Delta.fits`) and the
writers accept it. What is left are the ingestor's and indexer's own checks, which fail only with
a violation; so from a reachable state, within the id budget, every failure of indexing is fatal
and never retried (`indexing_fails_only_on_violations`).
-/

namespace TreeHistory

/-! ## Content rows over a run -/

/-- The content rows of `t` name stored nodes, and each opened at a revision of `history`. -/
structure Tables.ContentsRecord (t : Tables) (history : History) : Prop where
  keys : t.keysHold = true
  opened : ∀ row ∈ t.contents, row.revMin ∈ History.revisions history

namespace Tables

open Statement

theorem contentsRecord_empty : ({} : Tables).ContentsRecord [] :=
  ⟨rfl, fun _ mem => absurd mem List.not_mem_nil⟩

/-- A write of revision `R` keeps every content row and opens new ones at `R`. -/
theorem contents_apply {R : Revnum} {s : Statement} (ofRevision : s.OfRevision R) (t : Tables) :
    ∀ row ∈ (s.apply t).contents, (∃ old ∈ t.contents, row.revMin = old.revMin ∧ row.node = old.node) ∨
      (row.revMin = R ∧ contentNode s = some row.node) := by
  intro row mem
  cases s with
  | insertContent node revMin data =>
    rcases List.mem_append.1 mem with old | new
    · exact .inl ⟨row, old, rfl, rfl⟩
    · rw [List.mem_singleton.1 new]
      exact .inr ⟨ofRevision, rfl⟩
  | outdateContent node revMax =>
    obtain ⟨old, oldMem, rfl⟩ := List.mem_map.1 mem
    exact .inl ⟨old, oldMem, revMin_closeContentAt node revMax old, node_closeContentAt node revMax old⟩
  | insertRevision info => exact .inl ⟨row, mem, rfl, rfl⟩
  | insertNode record => exact .inl ⟨row, mem, rfl, rfl⟩
  | outdateNode node revMax => exact .inl ⟨row, mem, rfl, rfl⟩

/-- Writes of revision `R` that go through keep the content rows there were and open new ones at
`R`. -/
theorem execAll_contents {R : Revnum} {writes : List Statement}
    (ofRevision : ∀ s ∈ writes, s.OfRevision R) :
    ∀ {t t' : Tables}, t.execAll writes = (t', none) →
      ∀ row ∈ t'.contents, (∃ old ∈ t.contents, row.revMin = old.revMin ∧ row.node = old.node) ∨
        (row.revMin = R ∧ ∃ s ∈ writes, contentNode s = some row.node) := by
  -- On the writes, the first one made first.
  induction writes with
  | nil =>
    intro t t' runs
    simp only [execAll, Prod.mk.injEq] at runs
    obtain ⟨rfl, -⟩ := runs
    exact fun row mem => .inl ⟨row, mem, rfl, rfl⟩
  | cons s rest ih =>
    intro t t' runs row mem
    obtain ⟨-, restRuns⟩ := execAll_cons_eq_none.1 runs
    rcases ih (fun s' mem' => ofRevision s' (List.mem_cons_of_mem _ mem')) restRuns row mem with
      ⟨middle, middleMem, sameMin, sameNode⟩ | ⟨opened, written, writtenMem, inserts⟩
    · rcases contents_apply (ofRevision s List.mem_cons_self) t middle middleMem with
        ⟨old, oldMem, oldMin, oldNode⟩ | ⟨opened, inserts⟩
      · exact .inl ⟨old, oldMem, sameMin.trans oldMin, sameNode.trans oldNode⟩
      · exact .inr ⟨sameMin.trans opened, s, List.mem_cons_self, sameNode ▸ inserts⟩
    · exact .inr ⟨opened, written, List.mem_cons_of_mem _ writtenMem, inserts⟩

end Tables

namespace Transaction

variable {engine : Engine} {lawful : engine.Lawful}

/-- A transaction opens on a store outside one for every revision in range. -/
theorem begin_eq_ok_of_holds {store : Store} {t : Tables} (holds : store.Holds lawful t false)
    {revision : Revnum} (positive : 1 ≤ revision) (notHead : revision ≠ Revnum.head)
    (capacity : Nat) : ∃ tx, begin store revision capacity = .ok tx := by
  unfold begin
  rw [if_neg (not_or.2 ⟨Int.not_lt.2 positive, notHead⟩),
    show store.begin = (store.begin.1, .ok ()) from Prod.ext rfl holds.begin.2]
  exact ⟨_, rfl⟩

/-- The revision row of the open transaction goes in when its number is new. -/
theorem insertRevision_eq_ok_of_new {tx : Transaction} {t : Tables}
    (holds : tx.store.Holds lawful t true) {info : RevisionInfo} (matching : info.id = tx.revision)
    (new : info.id ∉ t.revisions.map (·.id)) : ∃ tx', tx.insertRevision info = (tx', .ok ()) := by
  rw [insertRevision_eq tx info matching]
  obtain ⟨-, result⟩ := holds.exec (.insertRevision info)
  have admitted : (Statement.insertRevision info).Admits t := new
  rw [result, (Tables.exec_eq_ok_iff (s := .insertRevision info)).2 ⟨admitted, rfl⟩]
  exact ⟨_, rfl⟩

/-- A transaction that began and took its revision row is fresh. -/
theorem fresh_of_insertRevision {store : Store} {t : Tables} (holds : store.Holds lawful t false)
    {revision : Revnum} {capacity : Nat} {tx tx' : Transaction} {info : RevisionInfo}
    (began : begin store revision capacity = .ok tx)
    (inserted : tx.insertRevision info = (tx', .ok ())) :
    Fresh lawful tx' { t with revisions := t.revisions ++ [info] } ∧ tx'.revision = revision := by
  obtain ⟨⟨positive, -⟩, beginStore, -, sameRevision, -⟩ := begin_eq_ok began
  have txHolds : tx.store.Holds lawful t true := by
    have opened := holds.begin.1
    rwa [beginStore] at opened
  have insertedHolds := insertRevision_holds txHolds inserted
  obtain ⟨matching, -, -⟩ := insertRevision_ran inserted
  rw [insertRevision_eq tx info matching, Prod.mk.injEq] at inserted
  obtain ⟨rfl, -⟩ := inserted
  refine ⟨⟨insertedHolds, fun w => ?_, sameRevision ▸ positive⟩, sameRevision⟩
  -- The writers' buffers are still the new ones the transaction began with.
  rw [← (begin_withCapacity began capacity).2]
  cases w <;> exact ⟨rfl, rfl⟩

end Transaction

namespace Indexer

open History Transaction

variable {engine : Engine} {lawful : engine.Lawful}

/-- A revision that commits applies its change set against the store with its revision row,
takes a plan, and leaves content rows that name stored nodes. -/
theorem writeRevision_contents {indexer : Indexer} {t : Tables} {changeSet : ChangeSet}
    {ingestor : Ingestor} {store : Store} {summary : RevisionSummary}
    (holds : indexer.store.Holds lawful t false)
    (written : indexer.writeRevision changeSet = (ingestor, .ok (store, summary))) :
    ∃ opened applied plan t',
      opened.Holds lawful { t with revisions := t.revisions ++ [changeSet.info] } true ∧
      indexer.ingestor.run (Ingestor.apply opened changeSet) = (applied, .ok ()) ∧
      applied.run Ingestor.takePlan = (ingestor, .ok plan) ∧
      store.Holds lawful t' false ∧ t'.keysHold = true ∧
      ∀ row ∈ t'.contents, (∃ old ∈ t.contents, row.revMin = old.revMin ∧ row.node = old.node) ∨
        (row.revMin = changeSet.revision ∧ row.node ∈ plan.contentNodes) := by
  obtain ⟨tx, inserted, applied, plan, after, counts, began, inserting, applying, planning,
    writing, committing, -⟩ := writeRevision_eq_ok written
  obtain ⟨fresh, revision⟩ := fresh_of_insertRevision holds began inserting
  obtain ⟨⟨valid, t', runs, keys⟩, -, committed⟩ :=
    fresh.finish_eq_ok (finish_calls_eq_ok_iff.2 ⟨after, writing, committing⟩)
  rw [runs] at committed
  refine ⟨inserted.store, applied, plan, t', fresh.holds, applying, planning, committed, keys,
    fun row mem => ?_⟩
  have ofRevision := Call.ofRevision_of_mem_writes valid
  rw [← revision]
  rcases Tables.execAll_contents (fun s mem => ofRevision s (Tables.mem_of_mem_byWriter mem)) runs
      row mem with old | ⟨opened, s, sMem, inserts⟩
  · exact .inl old
  · -- The write is one of the plan's, so its node is one of the plan's content nodes.
    have planned := Tables.mem_of_mem_byWriter sMem
    rw [Plan.writes_calls] at planned
    rw [← Plan.statements_contentNode inserted.revision plan]
    exact .inr ⟨opened, List.mem_filterMap.2 ⟨s, planned, inserts⟩⟩

/-- Indexing a revision keeps the content rows of a consistent indexer's store in step with its
history. -/
theorem contentsRecord_indexRevision {indexer indexer' : Indexer} {history : History}
    (consistent : Consistent lawful indexer history)
    (contents : ∀ t, indexer.store.Holds lawful t false → t.ContentsRecord history)
    {changeSet : ChangeSet} {result : Except IndexError Outcome}
    (step : indexer.indexRevision changeSet = (indexer', result)) :
    ∀ t, indexer'.store.Holds lawful t false →
      t.ContentsRecord (history.record result indexer'.ingestor.tree) := by
  rcases indexRevision_cases step with ⟨rfl, rfl | ⟨e, -, -, rfl⟩⟩ | ⟨ready, readied, rest⟩
  · exact contents
  · exact contents
  have sameStore : ready.store = indexer.store := by
    split at readied
    · exact store_of_recover readied
    · rw [Except.ok.injEq] at readied
      rw [← readied]
  rcases rest with ⟨rfl, rfl | ⟨last, rfl⟩⟩ | ⟨-, -, -, committing⟩
  · exact sameStore ▸ contents
  · exact sameStore ▸ contents
  rcases commitRevision_cases committing with
    ⟨ingestor, store, summary, written, rfl, rfl⟩ | ⟨ingestor, e, -, rfl, rfl⟩
  · obtain ⟨t, holds, -⟩ := consistent.stored
    rw [← sameStore] at holds
    obtain ⟨_, _, _, t', -, -, -, committed, keys, opened⟩ := writeRevision_contents holds written
    obtain ⟨-, -, -, -, -, -, -, -, -, -, -, -, rfl⟩ := writeRevision_eq_ok written
    intro t'' holds''
    rw [holds''.tables_eq committed, record_committed]
    refine ⟨keys, fun row mem => ?_⟩
    rw [revisions_append]
    rcases opened row mem with ⟨old, oldMem, sameMin, -⟩ | ⟨atRevision, -⟩
    · rw [sameMin]
      exact List.mem_append_left _ ((contents t (sameStore ▸ holds)).opened old oldMem)
    · rw [atRevision]
      exact List.mem_append_right _ (List.mem_singleton_self _)
  · exact sameStore ▸ contents

/-- In every reachable state, the content rows name stored nodes and open at committed
revisions. -/
theorem Reachable.contentsRecord {indexer : Indexer} {history : History} {spent : Nat}
    (reach : Reachable lawful indexer history spent) :
    ∀ t, indexer.store.Holds lawful t false → t.ContentsRecord history := by
  induction reach with
  | opened empty opened =>
    intro t holds
    rw [store_of_ofStore opened] at holds
    rw [holds.tables_eq empty]
    exact Tables.contentsRecord_empty
  | reopened _ opened contents =>
    intro t holds
    exact contents t (store_of_ofStore opened ▸ holds)
  | indexed reach _ step contents => exact contentsRecord_indexRevision reach.consistent contents step
  | recovered _ recovered contents =>
    intro t holds
    exact contents t (store_of_recover recovered ▸ holds)

end Indexer

/-! ## The plan of an accounted schedule -/

/-- Keeping some elements' images is a sublist of all their images. -/
theorem List.filterMap_sublist_map {α β : Type} {f : α → Option β} {g : α → β}
    (agrees : ∀ a b, f a = some b → g a = b) (l : List α) : List.Sublist (l.filterMap f) (l.map g) := by
  induction l with
  | nil => exact List.Sublist.slnil
  | cons a l ih =>
    cases fa : f a with
    | none =>
      rw [List.filterMap_cons_none fa, List.map_cons]
      exact ih.cons _
    | some b =>
      rw [List.filterMap_cons_some fa, List.map_cons, agrees a b fa]
      exact ih.cons_cons _

/-- A created node gets content only as a file: the content set for it, or an empty body when it
has no predecessor. -/
theorem Schedule.createdContent_eq_some {content : ContentMap} {node : LiveNode} {body : ContentBody}
    (given : createdContent content node = some body) :
    node.kind.isFile = true ∧ (content.get? node.id = some body ∨ node.predecessor = none) := by
  unfold createdContent at given
  split at given
  · rename_i isFile
    refine ⟨isFile, ?_⟩
    split at given
    · rename_i set
      exact .inl (set.trans given)
    · split at given
      · rename_i noPredecessor
        exact .inr (Option.isNone_iff_eq_none.1 noPredecessor)
      · simp at given
  · simp at given

/-- Each node a plan creates carries the record of a live node and the content that node gets. -/
theorem Schedule.plan_created_content {tree : LiveTree} {schedule : Schedule} {plan : Plan}
    (planned : Schedule.plan tree schedule = .ok plan) :
    ∀ node ∈ plan.created, ∃ live : LiveNode, live.toRecord = node.record ∧
      node.content = createdContent schedule.content live := by
  unfold Schedule.plan at planned
  obtain ⟨nodes, made, planEq⟩ := Except.bind_eq_ok.1 planned
  simp only [pure, Except.pure, Except.ok.injEq] at planEq
  subst planEq
  intro node mem
  obtain ⟨id, -, found⟩ := (Except.mapM_eq_ok made).1 node mem
  cases lookup : tree.node? id with
  | none => simp [lookup] at found
  | some live =>
    simp only [lookup, Except.ok.injEq] at found
    exact ⟨live, by rw [← found], by rw [← found]⟩

namespace Indexer

/-- The record of a node of the current tree other than the root is a live row opened at a
committed revision. -/
theorem Records.mem_of_same {t : Tables} {history : History} (records : t.Records history)
    (valid : history.Valid) {base : LiveTree} (baseWf : base.WellFormed)
    (same : base.Same (History.current history)) {id : NodeId} (notRoot : id ≠ NodeId.root)
    {record : NodeRecord} (found : base.recordOf? id = some record) :
    record ∈ t.nodes ∧ record.revMax = Revnum.head ∧ record.revMin ∈ History.revisions history := by
  obtain ⟨node, -, sameId, rfl⟩ := baseWf.recordOf?_eq_some_iff.1 found
  have mem : node.toRecord ∈ base.records := by
    refine baseWf.mem_records_iff.2 ⟨?_, ?_⟩ <;> rw [LiveNode.toRecord_id, sameId]
    · exact notRoot
    · exact found
  obtain ⟨rowMem, live⟩ := (records.mem_current valid).1
    ((baseWf.mem_records_of_same valid.current_wellFormed same).1 mem)
  exact ⟨rowMem, live, records.opened _ rowMem⟩

/-- A node other than the root of a tree that holds the nodes of the current tree has a live row,
opened at a committed revision. -/
theorem Records.stored_of_same {t : Tables} {history : History} (records : t.Records history)
    (valid : history.Valid) {base : LiveTree} (baseWf : base.WellFormed)
    (same : base.Same (History.current history)) {id : NodeId} (notRoot : id ≠ NodeId.root)
    (found : (base.recordOf? id).isSome) :
    ∃ row ∈ t.nodes, row.id = id ∧ row.revMax = Revnum.head ∧
      row.revMin ∈ History.revisions history := by
  obtain ⟨record, recordEq⟩ := Option.isSome_iff_exists.1 found
  obtain ⟨mem, live, opened⟩ := Records.mem_of_same records valid baseWf same notRoot recordEq
  obtain ⟨node, -, sameId, rfl⟩ := baseWf.recordOf?_eq_some_iff.1 recordEq
  exact ⟨node.toRecord, mem, sameId, live, opened⟩

end Indexer

namespace Ingestor.Delta

open History

variable {base : LiveTree} {R : Revnum} {s : Ingestor} {t : Tables} {history : History}
  {plan : Plan}

/-- The plan of a schedule that accounts for a revision against the current tree fits tables that
record the history, when the revision is newer than every committed one and the created ids are
distinct and new. -/
theorem fits (delta : Delta base R s) (baseWf : base.WellFormed)
    (same : base.Same (current history)) (records : t.Records history) (valid : history.Valid)
    (contents : t.ContentsRecord history) (later : ∀ commit ∈ history, commit.revision < R)
    (createdNodup : s.schedule.created.Nodup)
    (createdFresh : ∀ id ∈ s.schedule.created, id ∉ t.nodes.map (·.id))
    (planned : Schedule.plan s.tree s.schedule = .ok plan) : plan.Fits t R := by
  obtain ⟨outdatedEq, -, idsEq, nodesEq, modifiedEq⟩ := Schedule.plan_eq_ok planned
  have before : ∀ r ∈ revisions history, r < R := by
    intro r mem
    obtain ⟨commit, commitMem, rfl⟩ := mem_revisions.1 mem
    exact later commit commitMem
  -- A created node of the plan was created in the revision and is still alive.
  have createdNow : ∀ node ∈ plan.created,
      node.record.id ∈ s.schedule.created ∧ node.record.id ∈ s.schedule.createdSet := by
    intro node mem
    have listed := List.mem_map_of_mem (f := (·.record.id)) mem
    rw [idsEq, List.mem_filter, List.contains_iff_mem] at listed
    exact listed
  have idsNodup : (plan.created.map (·.record.id)).Nodup := by
    rw [idsEq]
    exact createdNodup.filter _
  refine ⟨records.ids, contents.keys, fun row mem => before _ (contents.opened row mem), ?_, ?_,
    ?_, idsNodup, fun node mem => createdFresh _ (createdNow node mem).1, ?_, ?_⟩
  · rw [outdatedEq]
    exact delta.outdatedNodup
  · intro entry mem
    rw [outdatedEq] at mem
    obtain ⟨notRoot, found⟩ := delta.outdatedBased entry mem
    obtain ⟨row, rowMem, rowId, live, opened⟩ :=
      Indexer.Records.stored_of_same records valid baseWf same notRoot found
    exact ⟨row, rowMem, rowId, live, before _ opened⟩
  · intro node mem
    have opens := delta.opened _ (createdNow node mem).2
    rw [nodesEq node mem] at opens
    obtain ⟨live, -, -, sameRecord⟩ := delta.wellFormed.recordOf?_eq_some_iff.1 (nodesEq node mem)
    refine ⟨by simpa using opens, ?_⟩
    rw [← sameRecord]
    rfl
  · -- Created files with content and replaced contents are distinct nodes.
    have createdPart := (List.filterMap_sublist_map (f := fun node => node.content.map fun _ => node.record.id)
      (g := (·.record.id)) (fun node id given => by
      obtain ⟨_, -, rfl⟩ := Option.map_eq_some_iff.1 given
      rfl) plan.created).nodup idsNodup
    have modifiedPart : (plan.modified.map (·.1)).Nodup := by
      rw [modifiedEq]
      exact delta.contentNodup.sublist (List.filter_sublist.map _)
    refine createdPart.append modifiedPart fun id inCreated inModified => ?_
    obtain ⟨node, nodeMem, given⟩ := List.mem_filterMap.1 inCreated
    obtain ⟨body, hasContent, rfl⟩ := Option.map_eq_some_iff.1 given
    obtain ⟨entry, entryMem, sameId⟩ := List.mem_map.1 inModified
    rw [modifiedEq, List.mem_filter] at entryMem
    obtain ⟨live, liveRecord, liveContent⟩ := Schedule.plan_created_content planned node nodeMem
    have isFile : node.record.kind.isFile = true := by
      rw [← liveRecord]
      exact (Schedule.createdContent_eq_some (liveContent ▸ hasContent)).1
    -- The node is a created file, so its content is not also a replacement.
    have matched : plan.created.any
        (fun node => node.record.id == entry.1 && node.record.kind.isFile) = true :=
      List.any_eq_true.2 ⟨node, nodeMem, by simp [sameId, isFile]⟩
    simp [matched] at entryMem
  · intro entry mem
    rw [modifiedEq] at mem
    obtain ⟨notRoot, live⟩ := delta.contentLive entry (List.mem_of_mem_filter mem)
    by_cases created : entry.1 ∈ s.schedule.createdSet
    · right
      rw [idsEq]
      exact List.mem_filter.2 ⟨delta.listed _ created, by simpa using created⟩
    · left
      rw [delta.kept _ created] at live
      split at live
      · simp at live
      · obtain ⟨row, rowMem, rowId, -, -⟩ :=
          Indexer.Records.stored_of_same records valid baseWf same notRoot live
        exact List.mem_map.2 ⟨row, rowMem, rowId⟩

end Ingestor.Delta

namespace Plan

/-- A plan's fit depends on the node and content rows only. -/
theorem Fits.withRevisions {t : Tables} {R : Revnum} {plan : Plan} (fits : plan.Fits t R)
    (revisions : List RevisionInfo) : plan.Fits { t with revisions := revisions } R :=
  ⟨fits.ids, fits.keys, fits.contentsBefore, fits.outdatedNodup, fits.outdatedLive, fits.opened,
    fits.createdNodup, fits.createdFresh, fits.contentNodup, fits.modifiedStored⟩

end Plan

/-! ## Writing a revision -/

namespace Indexer

open History Transaction

variable {engine : Engine} {lawful : engine.Lawful}

/-- An indexer ready to write `changeSet` on tables `t` that record `history`: its live tree is the
current tree, nothing is scheduled, its counter is above every stored id with room for the
revision, the content rows are in step, and the revision is in range and new. -/
structure ReadyFor (lawful : engine.Lawful) (indexer : Indexer) (t : Tables) (history : History)
    (changeSet : ChangeSet) : Prop where
  holds : indexer.store.Holds lawful t false
  records : t.Records history
  valid : history.Valid
  contents : t.ContentsRecord history
  wellFormed : indexer.ingestor.tree.WellFormed
  same : indexer.ingestor.tree.Same (current history)
  idle : indexer.ingestor.schedule.created = []
  stored : ∀ row ∈ t.nodes, row.id ≤ indexer.ingestor.lastId
  nonneg : 0 ≤ indexer.ingestor.lastId
  room : indexer.ingestor.lastId + changeSet.changes.length * (indexer.store.nodeCount + 1) ≤
    Revnum.head
  later : ∀ commit ∈ history, commit.revision < changeSet.revision
  positive : 1 ≤ changeSet.revision
  belowHead : changeSet.revision < Revnum.head

namespace ReadyFor

variable {indexer : Indexer} {t : Tables} {history : History} {changeSet : ChangeSet}

/-- The plan a ready indexer makes for a revision fits the tables. -/
theorem fits (ready : ReadyFor lawful indexer t history changeSet) {opened : Store}
    (openedHolds : opened.Holds lawful { t with revisions := t.revisions ++ [changeSet.info] } true)
    {applied planned : Ingestor} {plan : Plan}
    (applying : indexer.ingestor.run (Ingestor.apply opened changeSet) = (applied, .ok ()))
    (planning : applied.run Ingestor.takePlan = (planned, .ok plan)) :
    plan.Fits t changeSet.revision := by
  have delta := Ingestor.apply_delta ready.wellFormed applying
  obtain ⟨-, planEq⟩ := Ingestor.run_takePlan planning
  obtain ⟨-, -, fresh, createdEq, freshIds, sorted⟩ := apply_allocates ready.holds
    (fun r => ready.records.forest ready.valid r) ready.nonneg ready.room openedHolds
  rw [applying, ready.idle, List.nil_append] at createdEq
  rw [applying] at freshIds
  refine delta.fits ready.wellFormed ready.same ready.records ready.valid ready.contents
    ready.later ?_ ?_ planEq
  · rw [createdEq]
    exact sorted.imp ne_of_lt
  · -- The ids handed out are above the counter, which is above every stored id.
    intro id mem storedId
    rw [createdEq] at mem
    obtain ⟨row, rowMem, rfl⟩ := List.mem_map.1 storedId
    exact absurd (ready.stored row rowMem) (not_le.2 (freshIds _ mem).1)

/-- A ready indexer's revision fails only with a violation the ingestor finds. -/
theorem writeRevision_fatal (ready : ReadyFor lawful indexer t history changeSet) {e : IndexError}
    (failed : (indexer.writeRevision changeSet).2 = .error e) : ∃ v, e = .fatal v := by
  obtain ⟨tx, began⟩ := begin_eq_ok_of_holds ready.holds ready.positive
    (Int.ne_of_lt ready.belowHead) indexer.capacity
  obtain ⟨-, beginStore, -, sameRevision, -⟩ := begin_eq_ok began
  have txHolds : tx.store.Holds lawful t true := by
    have opened := ready.holds.begin.1
    rwa [beginStore] at opened
  -- The revision row is new: every committed revision comes before it.
  have new : changeSet.info.id ∉ t.revisions.map (·.id) := by
    rw [ready.records.revisions]
    intro mem
    obtain ⟨commit, commitMem, sameId⟩ := mem_revisions.1 mem
    exact absurd (ready.later commit commitMem) (by rw [sameId]; exact lt_irrefl _)
  obtain ⟨inserted, inserting⟩ := insertRevision_eq_ok_of_new txHolds sameRevision.symm new
  obtain ⟨fresh, revision⟩ := fresh_of_insertRevision ready.holds began inserting
  unfold writeRevision at failed
  simp only [began] at failed
  rw [inserting] at failed
  simp only at failed
  obtain ⟨⟨applied, result₁⟩, applying⟩ : ∃ step,
      indexer.ingestor.run (Ingestor.apply inserted.store changeSet) = step := ⟨_, rfl⟩
  rw [applying] at failed
  cases result₁ with
  | error e₁ =>
    simp only [Except.error.injEq] at failed
    subst failed
    exact Ingestor.failsFatally_apply fresh.holds changeSet _ _ _ applying
  | ok u =>
  simp only at failed
  obtain ⟨⟨planned, result₂⟩, planning⟩ : ∃ step, applied.run Ingestor.takePlan = step :=
    ⟨_, rfl⟩
  rw [planning] at failed
  cases result₂ with
  | error e₂ =>
    simp only [Except.error.injEq] at failed
    subst failed
    exact Ingestor.failsFatally_takePlan _ _ _ planning
  | ok plan =>
  simp only at failed
  -- The plan fits the tables, so the writers take it and the commit goes through.
  have goes := ((ready.fits fresh.holds applying planning).withRevisions
    (t.revisions ++ [changeSet.info])).goes ready.positive ready.belowHead
  rw [← revision] at goes
  obtain ⟨store, counts, finished⟩ := fresh.finish_ok goes
  obtain ⟨after, writing, committing⟩ := finish_calls_eq_ok_iff.1 finished
  simp [writing, committing] at failed

end ReadyFor

/-! ## From a reachable state -/

variable {indexer ready : Indexer} {history : History} {spent : Nat} {changeSet : ChangeSet}

/-- A reachable state within the id budget, made ready for a revision in range and after its last
one, is ready to write it. -/
theorem Reachable.readyFor (reach : Reachable lawful indexer history spent)
    (bounded : changeSet.revision ≤ Revnum.head)
    (budget : spent + changeSet.changes.length * (indexer.store.nodeCount + 1) ≤ Revnum.head)
    (readied : (if indexer.diverged then indexer.recover else .ok indexer) = .ok ready)
    (positive : 1 ≤ changeSet.revision) (notHead : changeSet.revision ≠ Revnum.head)
    (later : ∀ last, ready.lastRevision = some last → last < changeSet.revision) :
    ∃ t, ReadyFor lawful ready t history changeSet := by
  have within := reach.withinBudget (le_trans (by exact_mod_cast Nat.le_add_right _ _) budget)
  obtain ⟨readyWithin, consistent, sameStore, settled⟩ := within.ready reach.consistent readied
  obtain ⟨t, holds, records⟩ := consistent.stored
  obtain ⟨wf, same⟩ := consistent.cached settled
  -- The counter is within what the run spent, so the revision's share still fits.
  have room : ready.ingestor.lastId + changeSet.changes.length * (ready.store.nodeCount + 1) ≤
      Revnum.head := by
    have budget' : (spent : Int) + changeSet.changes.length * (indexer.store.nodeCount + 1) ≤
        Revnum.head := by exact_mod_cast budget
    rw [sameStore]
    have := readyWithin.counted
    unfold NodeId at *
    omega
  exact ⟨t, { holds := holds, records := records, valid := consistent.valid,
              contents := reach.contentsRecord t (sameStore ▸ holds), wellFormed := wf,
              same := same, idle := readyWithin.idle settled, stored := readyWithin.stored t holds,
              nonneg := readyWithin.nonneg, room := room,
              later := lt_of_max?_lt fun last largest =>
                later last (consistent.lastRevision.trans largest),
              positive := positive, belowHead := lt_of_le_of_ne bounded notHead }⟩

/-- From a reachable state within the id budget, indexing a revision fails only with a
violation. -/
theorem Reachable.indexRevision_fatal (reach : Reachable lawful indexer history spent)
    (bounded : changeSet.revision ≤ Revnum.head)
    (budget : spent + changeSet.changes.length * (indexer.store.nodeCount + 1) ≤ Revnum.head)
    {indexer' : Indexer} {e : IndexError}
    (failed : indexer.indexRevision changeSet = (indexer', .error e)) : ∃ v, e = .fatal v := by
  rcases indexRevision_cases failed with
    ⟨-, invalid | ⟨e', -, unbuilt, same⟩⟩ | ⟨ready, readied, ⟨-, skipped | ⟨last, outOfOrder⟩⟩ |
      ⟨positive, notHead, later, committing⟩⟩
  · exact ⟨_, Except.error.inj invalid⟩
  · -- The live tree of a reachable state always rebuilds.
    obtain ⟨t, holds, records⟩ := reach.consistent.stored
    obtain ⟨_, -, -, rebuilt⟩ := recover_eq_ok indexer holds records reach.consistent.valid
    rw [rebuilt] at unbuilt
    exact absurd unbuilt (by simp)
  · exact absurd skipped (by simp)
  · exact ⟨_, Except.error.inj outOfOrder⟩
  rcases commitRevision_cases committing with ⟨_, _, _, -, -, committed⟩ | ⟨_, e', written, -, same⟩
  · exact absurd committed (by simp)
  obtain ⟨t, ready⟩ := reach.readyFor bounded budget readied positive notHead later
  rw [Except.error.inj same]
  exact ready.writeRevision_fatal (by rw [written])

/-- A revision whose failures are all violations is never retried: one run of it gives what a
run with no retries left gives. -/
theorem runOne_eq_of_fatal {indexer : Indexer} {changeSet : ChangeSet}
    (fatal : ∀ indexer' e, indexer.indexRevision changeSet = (indexer', .error e) → ∃ v, e = .fatal v)
    (attempts : Nat) (summary : RunSummary) :
    runOne changeSet attempts indexer summary = runOne changeSet 0 indexer summary := by
  cases attempts with
  | zero => rfl
  | succ attempts =>
  obtain ⟨⟨indexer', result⟩, step⟩ : ∃ step, indexer.indexRevision changeSet = step := ⟨_, rfl⟩
  rw [runOne, runOne, step]
  cases result with
  | ok outcome => cases outcome <;> rfl
  | error e =>
    obtain ⟨v, rfl⟩ := fatal indexer' e step
    rfl

/-- A run of one change set that commits or skips keeps the count of retries. -/
theorem runOne_zero_retries {indexer : Indexer} {changeSet : ChangeSet} {summary summary' : RunSummary}
    (ran : (runOne changeSet 0 indexer summary).2 = .ok summary') :
    summary'.retries = summary.retries := by
  obtain ⟨⟨indexer', result⟩, step⟩ : ∃ step, indexer.indexRevision changeSet = step := ⟨_, rfl⟩
  rw [runOne, step] at ran
  cases result with
  | ok outcome =>
    -- A skip counts the skip, a commit the revision; neither touches the retries.
    cases outcome with
    | skipped | committed revision =>
      simp only [Except.ok.injEq] at ran
      subst ran
      rfl
  | error e => exact absurd ran (by simp)

/-- From a reachable state, within the id budget, every failure of indexing a revision is a
violation and never a store error, so the feed loop never retries it. -/
theorem indexing_fails_only_on_violations (reach : Reachable lawful indexer history spent)
    (bounded : changeSet.revision ≤ Revnum.head)
    (budget : spent + changeSet.changes.length * (indexer.store.nodeCount + 1) ≤ Revnum.head) :
    (∀ indexer' e, indexer.indexRevision changeSet = (indexer', .error e) → ∃ v, e = .fatal v) ∧
      ∀ attempts summary, runOne changeSet attempts indexer summary =
          runOne changeSet 0 indexer summary ∧
        ∀ summary', (runOne changeSet attempts indexer summary).2 = .ok summary' →
          summary'.retries = summary.retries := by
  have fatal : ∀ indexer' e, indexer.indexRevision changeSet = (indexer', .error e) →
      ∃ v, e = .fatal v :=
    fun _ _ failed => reach.indexRevision_fatal bounded budget failed
  refine ⟨fatal, fun attempts summary => ⟨runOne_eq_of_fatal fatal attempts summary, ?_⟩⟩
  intro summary' ran
  rw [runOne_eq_of_fatal fatal attempts summary] at ran
  exact runOne_zero_retries ran

/-- The indexer opened on the empty store, given revision 1, fails only with a violation and
never retries. -/
theorem first_revision_fails_only_on_violations :
    Reachable Reference.lawful openedEmpty [] 0 ∧ addsDirA.revision ≤ Revnum.head ∧
      (0 : Nat) + addsDirA.changes.length * (openedEmpty.store.nodeCount + 1) ≤ Revnum.head ∧
      (∀ indexer' e, openedEmpty.indexRevision addsDirA = (indexer', .error e) →
          ∃ v, e = .fatal v) ∧
        ∀ attempts summary, runOne addsDirA attempts openedEmpty summary =
            runOne addsDirA 0 openedEmpty summary ∧
          ∀ summary', (runOne addsDirA attempts openedEmpty summary).2 = .ok summary' →
            summary'.retries = summary.retries := by
  have reach : Reachable Reference.lawful openedEmpty [] 0 :=
    Reachable.opened (Reference.holds {}) (ofStore_empty (Reference.holds {}) 1000)
  have bounded : addsDirA.revision ≤ Revnum.head := by decide
  have budget : (0 : Nat) + addsDirA.changes.length * (openedEmpty.store.nodeCount + 1) ≤
      Revnum.head := by decide +kernel
  exact ⟨reach, bounded, budget, indexing_fails_only_on_violations reach bounded budget⟩

end Indexer

end TreeHistory
