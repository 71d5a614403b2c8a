import Mathlib
import TreeHistory.Proofs.Ingest.Renumber
import TreeHistory.Proofs.Indexer.Rollback
import TreeHistory.Proofs.Indexer.Lineage

/-!
# Two indexers whose ids differ above a bound

An indexer reopened on a store starts its counter at the largest stored id, while the indexer that
wrote the store may have handed out more ids that were never stored, so from then on the two hand
out ids `gap` apart. `Indexer.Renumbered lawful base gap` relates two such indexers: the second
store holds the first's tables relabeled, and the two, made ready to write, have renumbered
ingestors and the same last revision. Related indexers index a revision alike
(`indexRevision_renumbered`): the same outcome, to the error, and related again after it.
-/

namespace TreeHistory

namespace Tables

open History

variable {t : Tables} {history : History}

/-- No two live rows of tables that record a history share a path: they are the records of the
current tree, whose paths are distinct. -/
theorem Records.live_distinct (records : t.Records history) (valid : history.Valid) :
    ∀ a ∈ t.nodes, ∀ b ∈ t.nodes, a.isLive → b.isLive → a.path = b.path → a = b := by
  intro a aMem b bMem aLive bLive samePath
  have current : ∀ {row : NodeRecord}, row ∈ t.nodes → row.isLive →
      ∃ node ∈ (current history).nodes, node.toRecord = row := by
    intro row mem live
    obtain ⟨node, nodeMem, -, recorded⟩ := LiveTree.mem_records.1
      ((records.live_perm valid).subset (List.mem_filter.2 ⟨mem, live⟩))
    exact ⟨node, nodeMem, recorded⟩
  obtain ⟨nodeA, memA, rfl⟩ := current aMem aLive
  obtain ⟨nodeB, memB, rfl⟩ := current bMem bLive
  rw [valid.current_wellFormed.eq_of_path_eq memA memB samePath]

end Tables

namespace Indexer

open History Transaction

variable {engine : Engine} {lawful : engine.Lawful}

/-! ## Opening the transaction -/

/-- A revision whose number is in range and new opens its transaction, whatever the batch size,
and takes its revision row: the transaction is then fresh, with the row added to the tables. -/
theorem opens_fresh {store : Store} {t : Tables} (holds : store.Holds lawful t false)
    {changeSet : ChangeSet} (positive : 1 ≤ changeSet.revision)
    (belowHead : changeSet.revision < Revnum.head)
    (new : changeSet.info.id ∉ t.revisions.map (·.id)) (capacity : Nat) :
    ∃ tx inserted, Transaction.begin store changeSet.revision capacity = .ok tx ∧
      tx.insertRevision changeSet.info = (inserted, .ok ()) ∧
      Fresh lawful inserted { t with revisions := t.revisions ++ [changeSet.info] } ∧
      inserted.revision = changeSet.revision := by
  obtain ⟨tx, began⟩ := begin_eq_ok_of_holds holds positive (Int.ne_of_lt belowHead) capacity
  obtain ⟨-, beginStore, -, sameRevision, -⟩ := begin_eq_ok began
  have txHolds : tx.store.Holds lawful t true := by
    have opened := holds.begin.1
    rwa [beginStore] at opened
  obtain ⟨inserted, inserting⟩ := insertRevision_eq_ok_of_new txHolds sameRevision.symm new
  obtain ⟨fresh, revision⟩ := fresh_of_insertRevision holds began inserting
  exact ⟨tx, inserted, began, inserting, fresh, revision⟩

/-- A ready indexer's revision is not in the revision table yet: every committed revision comes
before it. -/
theorem ReadyFor.new {indexer : Indexer} {t : Tables} {history : History} {changeSet : ChangeSet}
    (ready : ReadyFor lawful indexer t history changeSet) :
    changeSet.info.id ∉ t.revisions.map (·.id) := by
  rw [ready.records.revisions]
  intro mem
  obtain ⟨commit, commitMem, sameId⟩ := mem_revisions.1 mem
  exact absurd (ready.later commit commitMem) (by rw [sameId]; exact lt_irrefl _)

/-! ## Writing a revision from renumbered ingestors -/

/-- Two outcomes of writing a revision, alike up to relabeling: both commit the same summary, the
second store holding the first's tables relabeled, or both fail with the same error. -/
def Rewritten (lawful : engine.Lawful) (f : NodeId → NodeId)
    (p : Option Predecessor → Option Predecessor) :
    Except IndexError (Store × RevisionSummary) → Except IndexError (Store × RevisionSummary) →
      Prop
  | .ok (store, summary), .ok (store', summary') =>
    summary' = summary ∧ ∃ t, store.Holds lawful t false ∧ store'.Holds lawful (t.relabel f p) false
  | .error e, .error e' => e' = e
  | _, _ => False

section
variable {indexer indexer' : Indexer} {t : Tables} {history : History} {changeSet : ChangeSet}
  {base gap : NodeId}
  (ready : ReadyFor lawful indexer t history changeSet)
  (drained : indexer.ingestor.schedule = {})
  (holds' : indexer'.store.Holds lawful
    (t.relabel (NodeId.shift base gap) (Predecessor.follow (NodeId.shift base gap))) false)
  (rel : Ingestor.Renumbered base gap indexer.ingestor indexer'.ingestor)
  (room : indexer'.ingestor.lastId + changeSet.changes.length * (indexer.store.nodeCount + 1) ≤
    Revnum.head)
include ready drained holds' rel room

/-- A ready indexer and one with renumbered ingestor, on a store of the tables relabeled, write a
revision alike. -/
theorem writeRevision_renumbered :
    Rewritten lawful (NodeId.shift base gap) (Predecessor.follow (NodeId.shift base gap))
        (indexer.writeRevision changeSet).2 (indexer'.writeRevision changeSet).2 ∧
      Ingestor.Renumbered base gap (indexer.writeRevision changeSet).1
        (indexer'.writeRevision changeSet).1 := by
  -- Both transactions open and take the revision row.
  obtain ⟨tx, inserted, began, inserting, fresh, revision⟩ :=
    opens_fresh ready.holds ready.positive ready.belowHead ready.new indexer.capacity
  obtain ⟨tx', inserted', began', inserting', fresh', revision'⟩ :=
    opens_fresh holds' ready.positive ready.belowHead
      (by rw [Tables.relabel_revisions]; exact ready.new) indexer'.capacity
  rw [Tables.relabel_revisions, ← Tables.relabel_withRevisions] at fresh'
  -- The ingestors read the two stores alike, and a copy reads no more rows than there are.
  have relabels := Store.relabels fresh.holds fresh'.holds ready.records.ids rel.strictMono
  have copies : Ingestor.CopiesWithin inserted.store indexer.store.nodeCount := by
    have copies := Ingestor.copiesWithin_of_forest fresh.holds
      (fun r => ready.records.forest ready.valid r)
    rwa [fresh.holds.nodeCount.trans ready.holds.nodeCount.symm] at copies
  obtain ⟨relApplied, withinApplied, applyResult⟩ :=
    Ingestor.mirrors_apply relabels copies changeSet _ _ rel room
  obtain ⟨⟨applied, result⟩, applying⟩ :
      ∃ step, indexer.ingestor.run (Ingestor.apply inserted.store changeSet) = step := ⟨_, rfl⟩
  obtain ⟨⟨applied', result'⟩, applying'⟩ :
      ∃ step, indexer'.ingestor.run (Ingestor.apply inserted'.store changeSet) = step := ⟨_, rfl⟩
  rw [applying, applying'] at relApplied applyResult
  rw [applying'] at withinApplied
  dsimp only at relApplied applyResult withinApplied
  subst applyResult
  unfold writeRevision
  simp only [began, began', inserting, inserting', applying, applying']
  cases result with
  | error e => exact ⟨rfl, relApplied⟩
  | ok u =>
  -- The plan is taken on both sides, relabeled on the second.
  obtain ⟨plan, planning, -⟩ := Ingestor.plan_is_tree_delta copies rel.wellFormed drained
    rel.bounded ready.room applying
  have roomPlanned : applied'.lastId + ((0 : Nat) : Int) ≤ Revnum.head := by
    push_cast at room withinApplied ⊢
    unfold NodeId at *
    omega
  obtain ⟨relPlanned, -, planResult⟩ := Ingestor.mirrorsFrom_takePlan relApplied
    (Ingestor.run_takePlan planning).2 roomPlanned
  obtain ⟨⟨planned', result₂⟩, planning'⟩ : ∃ step, applied'.run Ingestor.takePlan = step :=
    ⟨_, rfl⟩
  rw [planning, planning'] at relPlanned
  rw [planning, planning'] at planResult
  dsimp only at relPlanned planResult
  subst planResult
  simp only [Except.map, planning, planning']
  -- The plan fits the tables, so its writes go through on both sides.
  have goes := ((ready.fits fresh.holds applying planning).withRevisions
    (t.revisions ++ [changeSet.info])).goes ready.positive ready.belowHead
  rw [← revision] at goes
  have goes' := (goes_relabel (p := Predecessor.follow (NodeId.shift base gap)) rel.injective _ _
    plan.calls).2 goes
  rw [← Plan.calls_relabel, revision, ← revision'] at goes'
  obtain ⟨store, counts, finished⟩ := fresh.finish_ok goes
  obtain ⟨store', counts', finished'⟩ := fresh'.finish_ok goes'
  obtain ⟨after, writing, committing⟩ := finish_calls_eq_ok_iff.1 finished
  obtain ⟨after', writing', committing'⟩ := finish_calls_eq_ok_iff.1 finished'
  obtain ⟨-, counted, stored⟩ := fresh.finish_eq_ok finished
  obtain ⟨-, counted', stored'⟩ := fresh'.finish_eq_ok finished'
  simp only [writing, writing', committing, committing']
  refine ⟨⟨?_, ?_⟩, relPlanned⟩
  · rw [counted, counted', revision', revision, Plan.calls_relabel]
    simp [Plan.relabel, Call.writes_relabel, Tables.through_relabel]
  · obtain ⟨-, t', ran, -⟩ := goes
    have ran' := (Tables.execAll_relabel (p := Predecessor.follow (NodeId.shift base gap))
      rel.injective _ _).2 ⟨t', ran, rfl⟩
    rw [← Tables.byWriter_relabel, ← Call.writes_relabel, ← Plan.calls_relabel] at ran'
    rw [ran] at stored
    rw [revision', ← revision, ran'] at stored'
    exact ⟨t', stored, stored'⟩

end

/-! ## Rebuilding the live tree from related stores -/

/-- Rebuilding the live trees of two indexers whose stores hold tables and the tables relabeled
gives relabeled trees and the same last revision. -/
theorem recover_relabeled {indexer indexer' recovered recovered' : Indexer} {t : Tables}
    {history : History} {f : NodeId → NodeId} (rebuilt : indexer.recover = .ok recovered)
    (rebuilt' : indexer'.recover = .ok recovered') (holds : indexer.store.Holds lawful t false)
    (holds' : indexer'.store.Holds lawful (t.relabel f (Predecessor.follow f)) false)
    (records : t.Records history) (valid : history.Valid) (inj : Function.Injective f)
    (root : f NodeId.root = NodeId.root) :
    recovered.ingestor.tree.Relabeled f (Predecessor.follow f) recovered'.ingestor.tree ∧
      recovered'.lastRevision = recovered.lastRevision := by
  obtain ⟨live, liveRead, -, -⟩ := holds.liveNodes
  have liveRead' := Store.relabels_liveNodes holds holds' (records.live_distinct valid)
  rw [liveRead] at liveRead'
  have built := LiveTree.Relabeled.ofRecords (p := Predecessor.follow f) inj root rfl live
  unfold recover at rebuilt rebuilt'
  simp only [liveRead, liveRead', holds.maxNodeId, holds'.maxNodeId, holds.lastRevision,
    holds'.lastRevision, Tables.relabel_revisions, Except.map, Except.mapError_ok, bind,
    Except.bind] at rebuilt rebuilt'
  cases ofRecordsEq : LiveTree.ofRecords live with
  | error e =>
    rw [ofRecordsEq] at rebuilt
    cases rebuilt
  | ok tree =>
    rw [ofRecordsEq] at built rebuilt
    obtain ⟨tree', builtEq, relabeled⟩ := built
    rw [builtEq] at rebuilt'
    simp only [Except.mapError_ok, pure, Except.pure, Except.ok.injEq] at rebuilt rebuilt'
    subst rebuilt rebuilt'
    exact ⟨relabeled, rfl⟩

/-! ## The indexer a revision starts from -/

theorem Reachable.ready {indexer ready : Indexer} {history : History} {spent : Nat}
    (reach : Reachable lawful indexer history spent)
    (readied : (if indexer.diverged then indexer.recover else .ok indexer) = .ok ready) :
    Reachable lawful ready history spent := by
  split at readied
  · exact .recovered reach readied
  · rw [Except.ok.injEq] at readied
    rw [← readied]
    exact reach

/-- Making an indexer ready keeps what it resumes after and its last revision, so it skips what
the indexer skips. -/
theorem isResumed_of_ready {indexer ready : Indexer} {history : History}
    (consistent : Consistent lawful indexer history)
    (readied : (if indexer.diverged then indexer.recover else .ok indexer) = .ok ready)
    (r : Revnum) : ready.isResumed r = indexer.isResumed r := by
  have sameLast : ready.lastRevision = indexer.lastRevision := by
    split at readied
    · exact (consistent.of_recover readied).2.2.2
    · rw [Except.ok.injEq] at readied
      rw [← readied]
  unfold isResumed
  rw [(ready_store readied).2, sameLast]

/-- A revision in range is indexed from the indexer made ready. -/
theorem indexRevision_eq_of_ready {indexer ready : Indexer} {changeSet : ChangeSet}
    (readied : (if indexer.diverged then indexer.recover else .ok indexer) = .ok ready)
    (settled : ready.diverged = false)
    (inRange : ¬(changeSet.revision < 1 ∨ changeSet.revision = Revnum.head)) :
    indexer.indexRevision changeSet = ready.indexRevision changeSet := by
  unfold indexRevision
  simp only [inRange, if_false, readied, settled, Bool.false_eq_true]

/-! ## Renumbered indexers -/

/-- `indexer'` goes on as `indexer` does with the ids above `base` moved up by `gap`. -/
structure Renumbered (lawful : engine.Lawful) (base gap : NodeId) (indexer indexer' : Indexer) :
    Prop where
  stored : ∃ t, indexer.store.Holds lawful t false ∧ indexer'.store.Holds lawful
    (t.relabel (NodeId.shift base gap) (Predecessor.follow (NodeId.shift base gap))) false
  ready : ∃ ready ready', (if indexer.diverged then indexer.recover else .ok indexer) = .ok ready ∧
    (if indexer'.diverged then indexer'.recover else .ok indexer') = .ok ready' ∧
    ready'.lastRevision = ready.lastRevision ∧
    Ingestor.Renumbered base gap ready.ingestor ready'.ingestor

namespace Renumbered

variable {base gap : NodeId} {indexer indexer' : Indexer} {t : Tables}

/-- The two stores have as many rows. -/
theorem nodeCount (renumbered : Renumbered lawful base gap indexer indexer') :
    indexer'.store.nodeCount = indexer.store.nodeCount := by
  obtain ⟨t, holds, holds'⟩ := renumbered.stored
  rw [holds.nodeCount, holds'.nodeCount, Tables.relabel_nodes, List.length_map]

/-- Two indexers ready to write are renumbered when their stores and ingestors are. -/
theorem of_settled (settled : indexer.diverged = false) (settled' : indexer'.diverged = false)
    (holds : indexer.store.Holds lawful t false)
    (holds' : indexer'.store.Holds lawful
      (t.relabel (NodeId.shift base gap) (Predecessor.follow (NodeId.shift base gap))) false)
    (lastRevision : indexer'.lastRevision = indexer.lastRevision)
    (rel : Ingestor.Renumbered base gap indexer.ingestor indexer'.ingestor) :
    Renumbered lawful base gap indexer indexer' :=
  ⟨⟨t, holds, holds'⟩, indexer, indexer', by simp [settled], by simp [settled'], lastRevision, rel⟩

/-- Two indexers whose writes failed, from related stores and with renumbered attempts, are
renumbered. -/
theorem of_failed {history history' : History} {attempt attempt' : Ingestor}
    (consistent : Consistent lawful indexer history)
    (consistent' : Consistent lawful indexer' history')
    (holds : indexer.store.Holds lawful t false)
    (holds' : indexer'.store.Holds lawful
      (t.relabel (NodeId.shift base gap) (Predecessor.follow (NodeId.shift base gap))) false)
    (stored : ∀ row ∈ t.nodes, row.id ≤ attempt.lastId)
    (stored' : ∀ t', indexer'.store.Holds lawful t' false → ∀ row ∈ t'.nodes,
      row.id ≤ attempt'.lastId)
    (rel : Ingestor.Renumbered base gap attempt attempt') :
    Renumbered lawful base gap { indexer with ingestor := attempt, diverged := true }
      { indexer' with ingestor := attempt', diverged := true } := by
  obtain ⟨t₀, holds₀, records⟩ := consistent.stored
  rw [holds₀.tables_eq holds] at records
  obtain ⟨t₀', holds₀', records'⟩ := consistent'.stored
  -- Each rebuilds from its store, keeping the attempt's counter, above every stored id.
  obtain ⟨tree, wf, same, rebuilt⟩ :=
    recover_eq_ok { indexer with ingestor := attempt, diverged := true } holds records
      consistent.valid
  obtain ⟨tree', wf', -, rebuilt'⟩ :=
    recover_eq_ok { indexer' with ingestor := attempt', diverged := true } holds₀' records'
      consistent'.valid
  have kept : max ((t.nodes.map (·.id)).max?.getD 0) attempt.lastId = attempt.lastId :=
    max_eq_right (max?_getD_le rel.lastId_nonneg fun id mem => by
      obtain ⟨row, rowMem, rfl⟩ := List.mem_map.1 mem
      exact stored row rowMem)
  have kept' : max ((t₀'.nodes.map (·.id)).max?.getD 0) attempt'.lastId = attempt'.lastId :=
    max_eq_right (max?_getD_le (le_trans rel.lastId_nonneg rel.lastId_le) fun id mem => by
      obtain ⟨row, rowMem, rfl⟩ := List.mem_map.1 mem
      exact stored' t₀' holds₀' row rowMem)
  rw [kept] at rebuilt
  rw [kept'] at rebuilt'
  obtain ⟨relabeled, sameLast⟩ := recover_relabeled rebuilt rebuilt' holds holds' records
    consistent.valid rel.injective rel.root
  refine ⟨⟨t, holds, holds'⟩, _, _, by rw [if_pos rfl]; exact rebuilt,
    by rw [if_pos rfl]; exact rebuilt', sameLast, ?_⟩
  exact { low := rel.low, nonneg := rel.nonneg, tree := relabeled, wellFormed := wf,
          wellFormed' := wf', schedule := rfl, lastId := rel.lastId, above := rel.above,
          bounded := Records.id_le_of_same records consistent.valid wf same rel.lastId_nonneg
            stored }

end Renumbered

/-! ## Indexing a revision from renumbered indexers -/

section
variable {indexer indexer' : Indexer} {history history' : History} {spent : Nat}
  {changeSet : ChangeSet} {base gap : NodeId} {t : Tables}
  (reach : Reachable lawful indexer history spent)
  (reach' : Reachable lawful indexer' history' spent)
  (settled : indexer.diverged = false) (settled' : indexer'.diverged = false)
  (holds : indexer.store.Holds lawful t false)
  (holds' : indexer'.store.Holds lawful
    (t.relabel (NodeId.shift base gap) (Predecessor.follow (NodeId.shift base gap))) false)
  (lastRevision : indexer'.lastRevision = indexer.lastRevision)
  (rel : Ingestor.Renumbered base gap indexer.ingestor indexer'.ingestor)
  (bounded : changeSet.revision ≤ Revnum.head)
  (budget : spent + changeSet.changes.length * (indexer.store.nodeCount + 1) ≤ Revnum.head)
include reach reach' settled settled' holds holds' lastRevision rel bounded budget

omit lastRevision in
/-- Two renumbered indexers ready to write commit a revision alike, or fail alike. -/
theorem commitRevision_renumbered (positive : 1 ≤ changeSet.revision)
    (notHead : changeSet.revision ≠ Revnum.head)
    (later : ∀ last, indexer.lastRevision = some last → last < changeSet.revision) :
    (indexRevision.commitRevision indexer' changeSet).2 =
        (indexRevision.commitRevision indexer changeSet).2 ∧
      Renumbered lawful base gap (indexRevision.commitRevision indexer changeSet).1
        (indexRevision.commitRevision indexer' changeSet).1 := by
  have readied : (if indexer.diverged then indexer.recover else .ok indexer) = .ok indexer := by
    rw [settled]
    rfl
  obtain ⟨t₀, ready⟩ := reach.readyFor bounded budget readied positive notHead later
  obtain rfl := ready.holds.tables_eq holds
  have within := reach.withinBudget (le_trans (by exact_mod_cast Nat.le_add_right _ _) budget)
  have within' := reach'.withinBudget (le_trans (by exact_mod_cast Nat.le_add_right _ _) budget)
  -- The second counter is within the same budget, so the revision's share fits after it.
  have room : indexer'.ingestor.lastId +
      changeSet.changes.length * (indexer.store.nodeCount + 1) ≤ Revnum.head := by
    have budget' : (spent : Int) + changeSet.changes.length * (indexer.store.nodeCount + 1) ≤
        Revnum.head := by exact_mod_cast budget
    have := within'.counted
    unfold NodeId at *
    omega
  obtain ⟨rewritten, relAfter⟩ :=
    writeRevision_renumbered ready (reach.drained settled) holds' rel room
  have up := (writeRevision_lastId holds (fun r => ready.records.forest ready.valid r)
    within.nonneg ready.room).1
  obtain ⟨⟨attempt, result⟩, written⟩ : ∃ w, indexer.writeRevision changeSet = w := ⟨_, rfl⟩
  obtain ⟨⟨attempt', result'⟩, written'⟩ : ∃ w, indexer'.writeRevision changeSet = w := ⟨_, rfl⟩
  rw [written, written'] at rewritten relAfter
  rw [written] at up
  dsimp only at up relAfter
  simp only [indexRevision.commitRevision, written, written']
  cases result with
  | ok committed =>
    cases result' with
    | ok committed' =>
      obtain ⟨store, summary⟩ := committed
      obtain ⟨store', summary'⟩ := committed'
      obtain ⟨rfl, t', stored, stored'⟩ := rewritten
      exact ⟨rfl, Renumbered.of_settled settled settled' stored stored' rfl relAfter⟩
    | error e' => exact rewritten.elim
  | error e =>
    cases result' with
    | ok committed' => exact rewritten.elim
    | error e' =>
      obtain rfl : e' = e := rewritten
      -- The failed attempts moved both counters up, past every stored id.
      refine ⟨rfl, Renumbered.of_failed reach.consistent reach'.consistent holds holds'
        (fun row mem => le_trans (within.stored _ holds row mem) up)
        (fun t' stored' row mem => ?_) relAfter⟩
      have below := within'.stored t' stored' row mem
      have := rel.lastId
      have := relAfter.lastId
      unfold NodeId at *
      omega

/-- Two renumbered indexers ready to write index a revision in range alike: they skip it alike,
refuse it out of order alike, or commit or fail alike. -/
theorem indexRevision_renumbered_of_settled
    (inRange : ¬(changeSet.revision < 1 ∨ changeSet.revision = Revnum.head))
    (skips : indexer'.isResumed changeSet.revision = indexer.isResumed changeSet.revision) :
    (indexer'.indexRevision changeSet).2 = (indexer.indexRevision changeSet).2 ∧
      Renumbered lawful base gap (indexer.indexRevision changeSet).1
        (indexer'.indexRevision changeSet).1 := by
  -- Skipping or refusing the revision leaves both as they are.
  have unchanged : Renumbered lawful base gap indexer indexer' :=
    Renumbered.of_settled settled settled' holds holds' lastRevision rel
  have positive : 1 ≤ changeSet.revision := by
    have := not_or.1 inRange
    unfold Revnum at this ⊢
    omega
  have notHead : changeSet.revision ≠ Revnum.head := (not_or.1 inRange).2
  unfold indexRevision
  simp only [inRange, settled, settled', skips, lastRevision, Bool.false_eq_true, if_false]
  by_cases skipped : indexer.isResumed changeSet.revision = true
  · simp only [skipped, if_true]
    exact ⟨trivial, unchanged⟩
  simp only [skipped, Bool.false_eq_true, if_false]
  cases lastEq : indexer.lastRevision with
  | none =>
    exact commitRevision_renumbered reach reach' settled settled' holds holds' rel
      bounded budget positive notHead fun _ found => by
        rw [lastEq] at found
        cases found
  | some last =>
    dsimp only
    by_cases order : changeSet.revision ≤ last
    · simp only [order, if_true]
      exact ⟨trivial, unchanged⟩
    · simp only [order, if_false]
      refine commitRevision_renumbered reach reach' settled settled' holds holds' rel
        bounded budget positive notHead fun found foundEq => ?_
      rw [lastEq, Option.some.injEq] at foundEq
      subst foundEq
      exact Int.not_le.1 order

end

/-- Two renumbered indexers index a revision alike: the same outcome, to the error, and
renumbered again after it. The two runs must have spent alike, and skip the revision alike. -/
theorem indexRevision_renumbered {indexer indexer' : Indexer} {history history' : History}
    {spent : Nat} {changeSet : ChangeSet} {base gap : NodeId}
    (renumbered : Renumbered lawful base gap indexer indexer')
    (reach : Reachable lawful indexer history spent)
    (reach' : Reachable lawful indexer' history' spent)
    (bounded : changeSet.revision ≤ Revnum.head)
    (budget : spent + changeSet.changes.length * (indexer.store.nodeCount + 1) ≤ Revnum.head)
    (skips : indexer'.isResumed changeSet.revision = indexer.isResumed changeSet.revision) :
    (indexer'.indexRevision changeSet).2 = (indexer.indexRevision changeSet).2 ∧
      Renumbered lawful base gap (indexer.indexRevision changeSet).1
        (indexer'.indexRevision changeSet).1 := by
  by_cases inRange : changeSet.revision < 1 ∨ changeSet.revision = Revnum.head
  · unfold indexRevision
    simp only [inRange, if_true]
    exact ⟨trivial, renumbered⟩
  -- Both revisions go as they go from the indexers made ready.
  obtain ⟨t, holds, holds'⟩ := renumbered.stored
  obtain ⟨ready, ready', readied, readied', lastRevision, rel⟩ := renumbered.ready
  have budget' : spent + changeSet.changes.length * (indexer'.store.nodeCount + 1) ≤
      Revnum.head := by
    rw [renumbered.nodeCount]
    exact budget
  have within := reach.withinBudget (le_trans (by exact_mod_cast Nat.le_add_right _ _) budget)
  have within' := reach'.withinBudget (le_trans (by exact_mod_cast Nat.le_add_right _ _) budget')
  obtain ⟨-, -, readyStore, settled⟩ := within.ready reach.consistent readied
  obtain ⟨-, -, readyStore', settled'⟩ := within'.ready reach'.consistent readied'
  rw [indexRevision_eq_of_ready readied settled inRange,
    indexRevision_eq_of_ready readied' settled' inRange]
  rw [← isResumed_of_ready reach.consistent readied,
    ← isResumed_of_ready reach'.consistent readied'] at skips
  rw [← readyStore] at holds budget
  rw [← readyStore'] at holds'
  exact indexRevision_renumbered_of_settled (reach.ready readied) (reach'.ready readied') settled
    settled' holds holds' lastRevision rel bounded budget inRange skips

end Indexer

end TreeHistory
