import Mathlib
import TreeHistory.Proofs.Indexer.Violations
import TreeHistory.Proofs.Ingest.Shift
import TreeHistory.Proofs.Store.Rename

/-!
# A failed revision leaves nothing behind

A revision that fails changes nothing stored. The live tree is rebuilt from the store, the id
counter does not go back, and the revision indexed next commits what it would have committed
without the failure, its new ids moved up past those the failure used
(`failed_revision_rolls_back`). The comparison rests on the simulation of an ingestor by one whose
ids above `base` are `gap` larger (`Ingestor.simulates_apply`): two such indexers
(`Indexer.Shifted`) index a revision alike (`Indexer.Agree`).
-/

namespace TreeHistory

theorem Plan.calls_rename (f : NodeId → NodeId) (plan : Plan) :
    (plan.rename f).calls = plan.calls.map (Transaction.Call.rename f) := by
  simp [calls, rename, CreatedNode.rename, Transaction.Call.rename, List.map_flatMap,
    List.flatMap_map, Function.comp_def, Option.toList_map]

/-- Planning a revision simulates itself, the plan shifted. -/
theorem Ingestor.simulates_plan {store : Store} {N : Nat} {base gap : NodeId}
    (copies : CopiesWithin store N) (changeSet : ChangeSet) :
    Simulates base gap changeSet.revision (changeSet.changes.length * (N + 1))
      (apply store changeSet >>= fun _ => takePlan) (apply store changeSet >>= fun _ => takePlan)
      (Plan.rename (NodeId.shift base gap)) :=
  ((simulates_apply copies changeSet).bind fun _ => simulates_takePlan).mono (Nat.add_zero _).le

namespace Indexer

open History Transaction

variable {engine : Engine} {lawful : engine.Lawful}

/-! ## Writing a revision with shifted ids -/

/-- Writing a revision whose every stage succeeds commits it, with its plan's summary. -/
theorem writeRevision_of_steps {indexer : Indexer} {changeSet : ChangeSet}
    {tx inserted after : Transaction} {applied planned : Ingestor} {plan : Plan} {store : Store}
    {counts : WriteCounts}
    (began : Transaction.begin indexer.store changeSet.revision indexer.capacity = .ok tx)
    (inserting : tx.insertRevision changeSet.info = (inserted, .ok ()))
    (applying : indexer.ingestor.run (Ingestor.apply inserted.store changeSet) = (applied, .ok ()))
    (planning : applied.run Ingestor.takePlan = (planned, .ok plan))
    (writing : writePlan inserted plan = .ok (after, counts))
    (committing : after.commit = (store, .ok ())) :
    indexer.writeRevision changeSet = (planned, .ok (store,
      { revision := changeSet.revision, events := changeSet.changes.length,
        nodesCreated := plan.created.length, nodesOutdated := plan.outdated.length,
        contentsModified := plan.modified.length, discarded := plan.discarded,
        rows := counts })) := by
  unfold writeRevision
  simp only [began, inserting, applying, planning, writing, committing]

/-- Two outcomes of writing a revision, alike up to renaming node ids by `f`. -/
def Written (lawful : engine.Lawful) (f : NodeId → NodeId) :
    Except IndexError (Store × RevisionSummary) → Except IndexError (Store × RevisionSummary) →
      Prop
  | .ok (store, summary), .ok (store', summary') =>
    summary' = summary ∧ ∃ t, store.Holds lawful t false ∧ store'.Holds lawful (t.rename f) false
  | .error _, .error _ => True
  | _, _ => False

section
variable {indexer indexer' : Indexer} {t : Tables} {changeSet : ChangeSet} {base gap : NodeId}
  (holds : indexer.store.Holds lawful t false) (forest : ∀ r, Forest (t.nodes.filter (·.covers r)))
  (sameStore : indexer'.store = indexer.store) (sameCapacity : indexer'.capacity = indexer.capacity)
  (shifted : Ingestor.Shifted base gap changeSet.revision indexer.ingestor indexer'.ingestor)
  (room : indexer'.ingestor.lastId + changeSet.changes.length * (indexer.store.nodeCount + 1) ≤
    Revnum.head)
include holds forest sameStore sameCapacity shifted room

/-- Once the transaction is open, the two indexers plan the revision alike. -/
theorem planned_shifted {tx inserted : Transaction}
    (began : Transaction.begin indexer.store changeSet.revision indexer.capacity = .ok tx)
    (inserting : tx.insertRevision changeSet.info = (inserted, .ok ())) :
    Fresh lawful inserted { t with revisions := t.revisions ++ [changeSet.info] } ∧
      Transaction.begin indexer'.store changeSet.revision indexer'.capacity = .ok tx ∧
      (indexer'.ingestor.run
          (Ingestor.apply inserted.store changeSet >>= fun _ => Ingestor.takePlan)).2 =
        ((indexer.ingestor.run
          (Ingestor.apply inserted.store changeSet >>= fun _ => Ingestor.takePlan)).2.map
            (Plan.rename (NodeId.shift base gap))).mapError
          (IndexError.rename (NodeId.shift base gap)) := by
  obtain ⟨fresh, -⟩ := fresh_of_insertRevision holds began inserting
  -- A copy reads no more rows than the node table has.
  have copies : Ingestor.CopiesWithin inserted.store indexer.store.nodeCount := by
    have copies := Ingestor.copiesWithin_of_forest fresh.holds forest
    rwa [fresh.holds.nodeCount.trans holds.nodeCount.symm] at copies
  refine ⟨fresh, by rw [sameStore, sameCapacity]; exact began, ?_⟩
  exact (Ingestor.simulates_plan copies changeSet _ _ shifted room).2.2

variable (fixes : t.rename (NodeId.shift base gap) = t)
include fixes

/-- What the first indexer commits, the second commits too, with the same summary and the
tables renamed. -/
theorem writeRevision_shifted_ok {ingestor : Ingestor} {store : Store} {summary : RevisionSummary}
    (written : indexer.writeRevision changeSet = (ingestor, .ok (store, summary))) :
    ∃ ingestor' store', indexer'.writeRevision changeSet = (ingestor', .ok (store', summary)) ∧
      ∃ t', store.Holds lawful t' false ∧
        store'.Holds lawful (t'.rename (NodeId.shift base gap)) false := by
  obtain ⟨tx, inserted, applied, plan, after, counts, began, inserting, applying, planning, writing,
    committing, rfl⟩ := writeRevision_eq_ok written
  obtain ⟨fresh, began', planned⟩ :=
    planned_shifted holds forest sameStore sameCapacity shifted room began inserting
  -- The second indexer plans the renamed plan.
  rw [Ingestor.run_bind_eq_ok.2 ⟨applied, (), applying, planning⟩] at planned
  obtain ⟨⟨planned', result'⟩, planning'⟩ : ∃ step, indexer'.ingestor.run
      (Ingestor.apply inserted.store changeSet >>= fun _ => Ingestor.takePlan) = step := ⟨_, rfl⟩
  rw [planning'] at planned
  have shiftedPlan : result' = .ok (plan.rename (NodeId.shift base gap)) := planned
  subst shiftedPlan
  obtain ⟨applied', _, applying', planningRest'⟩ := Ingestor.run_bind_eq_ok.1 planning'
  -- Its writes go through as the plan's did, on tables the renaming fixes.
  have fixed : ({ t with revisions := t.revisions ++ [changeSet.info] } : Tables).rename
      (NodeId.shift base gap) = { t with revisions := t.revisions ++ [changeSet.info] } := by
    rw [Tables.rename_withRevisions, fixes]
  obtain ⟨goes, counted, stored⟩ :=
    fresh.finish_eq_ok (finish_calls_eq_ok_iff.2 ⟨after, writing, committing⟩)
  have goes' := (goes_rename_of_fixed shifted.injective fixed _ plan.calls).2 goes
  rw [← Plan.calls_rename] at goes'
  obtain ⟨store', counts', finished'⟩ := fresh.finish_ok goes'
  obtain ⟨after', writing', committing'⟩ := finish_calls_eq_ok_iff.1 finished'
  obtain ⟨-, counted', stored'⟩ := fresh.finish_eq_ok finished'
  obtain ⟨-, t', ran, -⟩ := goes
  refine ⟨planned', store', ?_, t', by rwa [ran] at stored, ?_⟩
  · rw [writeRevision_of_steps began' inserting applying' planningRest' writing' committing',
      counted, counted', Plan.calls_rename]
    simp [Plan.rename, Call.writes_rename, Tables.through_rename]
  · have ran' := (Tables.execAll_rename shifted.injective _ _).2 ⟨t', ran, rfl⟩
    rw [fixed, ← Tables.byWriter_rename, ← Call.writes_rename, ← Plan.calls_rename] at ran'
    rwa [ran'] at stored'

/-- What the second indexer commits, the first commits too. -/
theorem writeRevision_ok_of_shifted {ingestor' : Ingestor} {store' : Store}
    {summary' : RevisionSummary}
    (written' : indexer'.writeRevision changeSet = (ingestor', .ok (store', summary'))) :
    ∃ ingestor store summary, indexer.writeRevision changeSet = (ingestor, .ok (store, summary)) := by
  obtain ⟨tx, inserted, applied', plan', after', counts', began', inserting, applying', planning',
    writing', committing', -⟩ := writeRevision_eq_ok written'
  have began : Transaction.begin indexer.store changeSet.revision indexer.capacity = .ok tx := by
    rw [← sameStore, ← sameCapacity]
    exact began'
  obtain ⟨fresh, -, planned⟩ :=
    planned_shifted holds forest sameStore sameCapacity shifted room began inserting
  -- The first indexer planned what the second did, before the shift.
  rw [Ingestor.run_bind_eq_ok.2 ⟨applied', (), applying', planning'⟩] at planned
  obtain ⟨⟨planned₁, result⟩, planning⟩ : ∃ step, indexer.ingestor.run
      (Ingestor.apply inserted.store changeSet >>= fun _ => Ingestor.takePlan) = step := ⟨_, rfl⟩
  rw [planning] at planned
  cases result with
  | error e => cases planned
  | ok plan =>
  have renamed : plan' = plan.rename (NodeId.shift base gap) := Except.ok.inj planned
  subst renamed
  obtain ⟨applied, _, applying, planningRest⟩ := Ingestor.run_bind_eq_ok.1 planning
  -- The plan's writes go through as the renamed plan's did.
  have fixed : ({ t with revisions := t.revisions ++ [changeSet.info] } : Tables).rename
      (NodeId.shift base gap) = { t with revisions := t.revisions ++ [changeSet.info] } := by
    rw [Tables.rename_withRevisions, fixes]
  obtain ⟨goes', -, -⟩ :=
    fresh.finish_eq_ok (finish_calls_eq_ok_iff.2 ⟨after', writing', committing'⟩)
  rw [Plan.calls_rename, goes_rename_of_fixed shifted.injective fixed] at goes'
  obtain ⟨store, counts, finished⟩ := fresh.finish_ok goes'
  obtain ⟨after, writing, committing⟩ := finish_calls_eq_ok_iff.1 finished
  exact ⟨_, _, _, writeRevision_of_steps began inserting applying planningRest writing committing⟩

/-- Two indexers on one store, the second's ingestor shifted from the first's, write a revision
alike. -/
theorem writeRevision_shifted :
    Written lawful (NodeId.shift base gap) (indexer.writeRevision changeSet).2
      (indexer'.writeRevision changeSet).2 := by
  obtain ⟨⟨ingestor, result⟩, written⟩ : ∃ w, indexer.writeRevision changeSet = w := ⟨_, rfl⟩
  obtain ⟨⟨ingestor', result'⟩, written'⟩ : ∃ w, indexer'.writeRevision changeSet = w := ⟨_, rfl⟩
  rw [written, written']
  cases result with
  | ok committed =>
    obtain ⟨store, summary⟩ := committed
    obtain ⟨ingestor₂, store₂, written₂, tables⟩ :=
      writeRevision_shifted_ok holds forest sameStore sameCapacity shifted room fixes written
    rw [written', Prod.mk.injEq] at written₂
    obtain ⟨-, rfl⟩ := written₂
    exact ⟨rfl, tables⟩
  | error e =>
    cases result' with
    | ok committed' =>
      obtain ⟨_, _, _, written₁⟩ :=
        writeRevision_ok_of_shifted holds forest sameStore sameCapacity shifted room fixes written'
      rw [written₁] at written
      simp at written
    | error e' => trivial

end

/-! ## Indexing a revision with shifted ids -/

/-- `indexer'` is `indexer` with its ingestor shifted for revision `R`. -/
structure Shifted (base gap : NodeId) (R : Revnum) (indexer indexer' : Indexer) : Prop where
  store : indexer'.store = indexer.store
  capacity : indexer'.capacity = indexer.capacity
  resumeAfter : indexer'.resumeAfter = indexer.resumeAfter
  lastRevision : indexer'.lastRevision = indexer.lastRevision
  settled : indexer.diverged = false
  settled' : indexer'.diverged = false
  ingestor : Ingestor.Shifted base gap R indexer.ingestor indexer'.ingestor

/-- Two runs of a revision alike up to renaming node ids by `f`: the same outcome, and the second
store holding the first's tables renamed. -/
def Agree (lawful : engine.Lawful) (f : NodeId → NodeId)
    (run run' : Indexer × Except IndexError Outcome) : Prop :=
  run'.2.toOption = run.2.toOption ∧
    ∃ t, run.1.store.Holds lawful t false ∧ run'.1.store.Holds lawful (t.rename f) false

namespace Agree

variable {f : NodeId → NodeId} {run run' other other' : Indexer × Except IndexError Outcome}

/-- A run agrees with itself under a renaming that changes no id. -/
theorem refl (fixes : ∀ id, f id = id) (stored : ∃ t, run.1.store.Holds lawful t false) :
    Agree lawful f run run := by
  obtain ⟨t, holds⟩ := stored
  refine ⟨rfl, t, holds, ?_⟩
  rwa [Tables.rename_eq_self (fun row _ => ⟨fixes _, fixes _⟩) fun row _ => fixes _]

/-- Agreement depends only on the outcomes and the stores. -/
theorem of_eq (agree : Agree lawful f run run') (result : other.2 = run.2)
    (store : other.1.store = run.1.store) (result' : other'.2 = run'.2)
    (store' : other'.1.store = run'.1.store) : Agree lawful f other other' := by
  unfold Agree
  rw [result, store, result', store']
  exact agree

end Agree

section
variable {indexer indexer' : Indexer} {t : Tables} {changeSet : ChangeSet} {base gap : NodeId}
  (shifted : Shifted base gap changeSet.revision indexer indexer')
  (holds : indexer.store.Holds lawful t false) (forest : ∀ r, Forest (t.nodes.filter (·.covers r)))
  (fixes : t.rename (NodeId.shift base gap) = t)
  (room : indexer'.ingestor.lastId + changeSet.changes.length * (indexer.store.nodeCount + 1) ≤
    Revnum.head)
include shifted holds forest fixes room

theorem commitRevision_shifted :
    Agree lawful (NodeId.shift base gap) (indexRevision.commitRevision indexer changeSet)
      (indexRevision.commitRevision indexer' changeSet) := by
  have written := writeRevision_shifted holds forest shifted.store shifted.capacity
    shifted.ingestor room fixes
  obtain ⟨⟨committed, result⟩, step⟩ :
      ∃ run, indexRevision.commitRevision indexer changeSet = run := ⟨_, rfl⟩
  obtain ⟨⟨committed', result'⟩, step'⟩ :
      ∃ run, indexRevision.commitRevision indexer' changeSet = run := ⟨_, rfl⟩
  rw [step, step']
  rcases commitRevision_cases step with
    ⟨ingestor, store, summary, w, rfl, rfl⟩ | ⟨ingestor, e, w, rfl, rfl⟩ <;>
  rcases commitRevision_cases step' with
    ⟨ingestor', store', summary', w', rfl, rfl⟩ | ⟨ingestor', e', w', rfl, rfl⟩ <;>
  rw [w, w'] at written <;> simp only [Written] at written
  · obtain ⟨rfl, tables⟩ := written
    exact ⟨rfl, tables⟩
  · -- Both fail, and leave the store as it was.
    refine ⟨rfl, t, holds, ?_⟩
    rw [fixes]
    exact shifted.store ▸ holds

/-- Two indexers alike but for a shifted ingestor index a revision alike. -/
theorem indexRevision_shifted :
    Agree lawful (NodeId.shift base gap) (indexer.indexRevision changeSet)
      (indexer'.indexRevision changeSet) := by
  -- Refusing or skipping the revision leaves both stores as they were.
  have unchanged : ∀ result : Except IndexError Outcome,
      Agree lawful (NodeId.shift base gap) (indexer, result) (indexer', result) :=
    fun result => ⟨rfl, t, holds, by rw [fixes, shifted.store]; exact holds⟩
  have resumed : indexer'.isResumed changeSet.revision = indexer.isResumed changeSet.revision := by
    unfold isResumed
    rw [shifted.resumeAfter, shifted.lastRevision]
  unfold indexRevision
  simp only [shifted.settled, shifted.settled', resumed, shifted.lastRevision, Bool.false_eq_true,
    if_false]
  by_cases inRange : changeSet.revision < 1 ∨ changeSet.revision = Revnum.head
  · simp only [inRange, if_true]
    exact unchanged _
  simp only [inRange, if_false]
  by_cases skipped : indexer.isResumed changeSet.revision = true
  · simp only [skipped, if_true]
    exact unchanged _
  simp only [skipped]
  cases lastEq : indexer.lastRevision with
  | none => exact commitRevision_shifted shifted holds forest fixes room
  | some last =>
    dsimp only
    by_cases order : changeSet.revision ≤ last
    · simp only [order, if_true]
      exact unchanged _
    · simp only [order, if_false]
      exact commitRevision_shifted shifted holds forest fixes room

end

end Indexer

namespace Tables

open History

variable {t : Tables} {history : History}

/-- Every row's parent is the root or the id of a row. -/
theorem Records.parent_mem (records : t.Records history) (valid : history.Valid) {row : NodeRecord}
    (mem : row ∈ t.nodes) :
    row.parent = NodeId.root ∨ ∃ other ∈ t.nodes, other.id = row.parent := by
  have window := records.window row mem
  have bounded := le_trans window (records.revMax_le valid mem)
  have covering : row ∈ t.nodes.filter (·.covers row.revMin) :=
    List.mem_filter.2 ⟨mem, by simp [NodeRecord.covers, window]⟩
  have recorded := (records.covering row.revMin bounded).subset (List.mem_map_of_mem covering)
  obtain ⟨node, nodeMem, nodeRoot, nodeRecord⟩ := LiveTree.mem_records.1 recorded
  obtain ⟨parent, parentMem, parentId, -⟩ :=
    (valid.treeAt_wellFormed row.revMin).parentMem node nodeMem nodeRoot
  have sameParent : parent.id = row.parent :=
    parentId.trans (congrArg NodeRecord.parent nodeRecord)
  by_cases parentRoot : parent.id = NodeId.root
  · exact .inl (sameParent.symm.trans parentRoot)
  -- A parent other than the root is recorded at that revision too, so a row holds it.
  obtain ⟨other, otherMem, otherLive⟩ := List.mem_map.1
    ((records.covering row.revMin bounded).symm.subset
      (LiveTree.mem_records.2 ⟨parent, parentMem, parentRoot, rfl⟩))
  exact .inr ⟨other, (List.mem_filter.1 otherMem).1,
    (congrArg NodeRecord.id otherLive).trans sameParent⟩

/-- Shifting the ids above a bound of the stored ids changes nothing in tables that record a
history. -/
theorem Records.rename_shift (records : t.Records history) (valid : history.Valid)
    (keys : t.keysHold = true) {base : NodeId} (low : 0 ≤ base)
    (stored : ∀ row ∈ t.nodes, row.id ≤ base) (gap : NodeId) :
    t.rename (NodeId.shift base gap) = t := by
  have parents : ∀ row ∈ t.nodes, row.parent ≤ base := by
    intro row mem
    rcases records.parent_mem valid mem with isRoot | ⟨other, otherMem, otherId⟩
    · rw [isRoot]
      exact low
    · rw [← otherId]
      exact stored other otherMem
  have contentNodes : ∀ row ∈ t.contents, row.node ≤ base := by
    intro row mem
    obtain ⟨node, nodeMem, nodeId⟩ := List.mem_map.1 (keysHold_iff.1 keys row mem)
    rw [← nodeId]
    exact stored node nodeMem
  exact rename_eq_self
    (fun row mem => ⟨NodeId.shift_of_le (stored row mem), NodeId.shift_of_le (parents row mem)⟩)
    fun row mem => NodeId.shift_of_le (contentNodes row mem)

end Tables

namespace Indexer

open History

variable {engine : Engine} {lawful : engine.Lawful}

/-! ## The indexer a revision starts from -/

/-- Rebuilding the live tree starts an empty schedule. -/
theorem schedule_of_recover {indexer recovered : Indexer} (rebuilt : indexer.recover = .ok recovered) :
    recovered.ingestor.schedule = {} := by
  unfold recover at rebuilt
  simp only [Except.bind_eq_ok, pure, Except.pure, Except.ok.injEq] at rebuilt
  obtain ⟨-, -, -, -, -, -, -, -, rfl⟩ := rebuilt
  rfl

/-- An indexer made ready to write has nothing scheduled when the one it was made from has nothing
scheduled unless diverged. -/
theorem schedule_of_ready {indexer ready : Indexer}
    (drained : indexer.diverged = false → indexer.ingestor.schedule = {})
    (readied : (if indexer.diverged then indexer.recover else .ok indexer) = .ok ready) :
    ready.ingestor.schedule = {} := by
  split at readied
  · exact schedule_of_recover readied
  · rename_i notDiverged
    rw [Except.ok.injEq] at readied
    subst readied
    exact drained (by simpa using notDiverged)

/-- A reachable indexer that is not diverged has nothing scheduled. -/
theorem Reachable.drained {indexer : Indexer} {history : History} {spent : Nat}
    (reach : Reachable lawful indexer history spent) :
    indexer.diverged = false → indexer.ingestor.schedule = {} := by
  induction reach with
  | opened _ opened =>
    unfold ofStore at opened
    obtain ⟨resumeAfter, -, rebuilt⟩ := Except.bind_eq_ok.1 opened
    have drained := schedule_of_recover rebuilt
    exact fun _ => drained
  | reopened _ opened _ =>
    unfold ofStore at opened
    obtain ⟨resumeAfter, -, rebuilt⟩ := Except.bind_eq_ok.1 opened
    have drained := schedule_of_recover rebuilt
    exact fun _ => drained
  | indexed _ _ step drained =>
    intro settled
    rcases indexRevision_cases step with ⟨rfl, -⟩ | ⟨ready, readied, rest⟩
    · exact drained settled
    rcases rest with ⟨rfl, -⟩ | ⟨-, -, -, committing⟩
    · exact schedule_of_ready drained readied
    rcases commitRevision_cases committing with
      ⟨ingestor, store, summary, written, rfl, -⟩ | ⟨attempt, e, -, rfl, -⟩
    · obtain ⟨_, _, _, _, _, _, -, -, -, planning, -⟩ := writeRevision_eq_ok written
      rw [(Ingestor.run_takePlan planning).1]
    · exact absurd settled (by simp)
  | recovered _ recovered _ => exact fun _ => schedule_of_recover recovered

/-- Indexing a revision does what indexing it from the indexer made ready does. -/
theorem indexRevision_of_ready {indexer ready : Indexer} (changeSet : ChangeSet)
    (readied : (if indexer.diverged then indexer.recover else .ok indexer) = .ok ready)
    (settled : ready.diverged = false) :
    (indexer.indexRevision changeSet).2 = (ready.indexRevision changeSet).2 ∧
      (indexer.indexRevision changeSet).1.store = (ready.indexRevision changeSet).1.store := by
  unfold indexRevision
  by_cases inRange : changeSet.revision < 1 ∨ changeSet.revision = Revnum.head
  · simp only [inRange, if_true, true_and]
    exact (ready_store readied).1.symm
  · simp only [inRange, if_false, readied, settled, Bool.false_eq_true, and_self]

/-- Rebuilding the live tree of a state within its budget keeps the counter, which is already
above every stored id. -/
theorem WithinBudget.lastId_of_recover {indexer recovered : Indexer} {history : History}
    {spent : Nat} (within : WithinBudget lawful indexer spent)
    (consistent : Consistent lawful indexer history) (rebuilt : indexer.recover = .ok recovered) :
    recovered.ingestor.lastId = indexer.ingestor.lastId := by
  obtain ⟨t, holds, records⟩ := consistent.stored
  obtain ⟨tree, -, -, rebuiltEq⟩ := recover_eq_ok indexer holds records consistent.valid
  rw [rebuiltEq, Except.ok.injEq] at rebuilt
  subst rebuilt
  exact max_eq_right (max?_getD_le within.nonneg fun id mem => by
    obtain ⟨row, rowMem, rfl⟩ := List.mem_map.1 mem
    exact within.stored t holds row rowMem)

theorem WithinBudget.lastId_of_ready {indexer ready : Indexer} {history : History} {spent : Nat}
    (within : WithinBudget lawful indexer spent) (consistent : Consistent lawful indexer history)
    (readied : (if indexer.diverged then indexer.recover else .ok indexer) = .ok ready) :
    ready.ingestor.lastId = indexer.ingestor.lastId := by
  split at readied
  · exact within.lastId_of_recover consistent readied
  · rw [Except.ok.injEq] at readied
    rw [← readied]

/-- Every node of a tree with the nodes of the current tree is the root or a stored row. -/
theorem Records.id_le_of_same {t : Tables} {history : History} (records : t.Records history)
    (valid : history.Valid) {tree : LiveTree} (wf : tree.WellFormed)
    (same : tree.Same (current history)) {bound : NodeId} (nonneg : 0 ≤ bound)
    (stored : ∀ row ∈ t.nodes, row.id ≤ bound) : ∀ node ∈ tree.nodes, node.id ≤ bound := by
  intro node mem
  by_cases isRoot : node.id = NodeId.root
  · rw [isRoot]
    exact nonneg
  · obtain ⟨row, rowMem, rowId, -⟩ := Records.stored_of_same records valid wf same isRoot
      (Option.isSome_iff_exists.2 ⟨_, wf.recordOf?_eq_some_iff.2 ⟨node, mem, rfl, rfl⟩⟩)
    rw [← rowId]
    exact stored row rowMem

/-- A revision indexed from a reachable state within its budget adds rows only above the counter. -/
theorem Reachable.indexRevision_rows {indexer indexer' : Indexer} {history : History}
    {spent : Nat} (reach : Reachable lawful indexer history spent) {changeSet : ChangeSet}
    (bounded : changeSet.revision ≤ Revnum.head)
    (budget : spent + changeSet.changes.length * (indexer.store.nodeCount + 1) ≤ Revnum.head)
    {result : Except IndexError Outcome} (step : indexer.indexRevision changeSet = (indexer', result))
    {t t' : Tables} (holds : indexer.store.Holds lawful t false)
    (holds' : indexer'.store.Holds lawful t' false) :
    ∀ row ∈ t'.nodes, (∃ old ∈ t.nodes, row.id = old.id) ∨ indexer.ingestor.lastId < row.id := by
  have unchanged : indexer'.store = indexer.store →
      ∀ row ∈ t'.nodes, (∃ old ∈ t.nodes, row.id = old.id) ∨ indexer.ingestor.lastId < row.id := by
    intro sameStore row mem
    rw [sameStore] at holds'
    rw [holds'.tables_eq holds] at mem
    exact .inl ⟨row, mem, rfl⟩
  rcases indexRevision_cases step with ⟨rfl, -⟩ | ⟨ready, readied, rest⟩
  · exact unchanged rfl
  have sameStore := (ready_store readied).1
  rcases rest with ⟨rfl, -⟩ | ⟨positive, notHead, later, committing⟩
  · exact unchanged sameStore
  rcases commitRevision_cases committing with
    ⟨ingestor, store, summary, written, rfl, -⟩ | ⟨attempt, e, -, rfl, -⟩
  · -- The rows the commit adds have ids above the counter it started from, the indexer's.
    obtain ⟨t₀, prepared⟩ := reach.readyFor bounded budget readied positive notHead later
    have within := reach.withinBudget (le_trans (by exact_mod_cast Nat.le_add_right _ _) budget)
    have sameLastId := within.lastId_of_ready reach.consistent readied
    intro row mem
    rcases writeRevision_rows prepared.holds (fun r => prepared.records.forest prepared.valid r)
        prepared.nonneg prepared.room bounded prepared.idle written holds' row mem with
      ⟨old, oldMem, sameId, -⟩ | ⟨above, -, -⟩
    · rw [prepared.holds.tables_eq (sameStore ▸ holds)] at oldMem
      exact .inl ⟨old, oldMem, sameId⟩
    · exact .inr (sameLastId ▸ above)
  · exact unchanged sameStore

/-! ## A failed revision -/

section
variable {indexer indexer' : Indexer} {history : History} {spent : Nat} {bad : ChangeSet}
  {e : IndexError}

/-- A failed revision keeps the store and the last revision. -/
theorem Consistent.store_of_failed (consistent : Consistent lawful indexer history)
    (failed : indexer.indexRevision bad = (indexer', .error e)) :
    indexer'.store = indexer.store ∧ indexer'.lastRevision = indexer.lastRevision := by
  rcases indexRevision_cases failed with ⟨rfl, -⟩ | ⟨ready, readied, rest⟩
  · exact ⟨rfl, rfl⟩
  have kept : ready.store = indexer.store ∧ ready.lastRevision = indexer.lastRevision := by
    split at readied
    · obtain ⟨-, -, sameStore, sameLast⟩ := consistent.of_recover readied
      exact ⟨sameStore, sameLast⟩
    · rw [Except.ok.injEq] at readied
      subst readied
      exact ⟨rfl, rfl⟩
  rcases rest with ⟨rfl, -⟩ | ⟨-, -, -, committing⟩
  · exact kept
  rcases commitRevision_cases committing with
    ⟨ingestor, store, summary, -, -, committed⟩ | ⟨attempt, e', -, rfl, -⟩
  · exact absurd committed (by simp)
  · exact kept

/-- The live tree of a consistent indexer rebuilds, explicitly or before the next revision, as the
current tree of its history. -/
theorem Consistent.rebuilds (consistent : Consistent lawful indexer history) :
    (∃ rebuilt, indexer.recover = .ok rebuilt ∧ rebuilt.ingestor.tree.Same (current history)) ∧
      ∃ ready, (if indexer.diverged then indexer.recover else .ok indexer) = .ok ready ∧
        ready.ingestor.tree.Same (current history) := by
  obtain ⟨t, holds, records⟩ := consistent.stored
  obtain ⟨tree, -, same, rebuilt⟩ := recover_eq_ok indexer holds records consistent.valid
  refine ⟨⟨_, rebuilt, same⟩, ?_⟩
  cases diverged : indexer.diverged with
  | true =>
    rw [if_pos rfl]
    exact ⟨_, rebuilt, same⟩
  | false =>
    rw [if_neg Bool.false_ne_true]
    exact ⟨indexer, rfl, (consistent.cached diverged).2⟩

variable (reach : Reachable lawful indexer history spent)
  (budget : spent + bad.changes.length * (indexer.store.nodeCount + 1) ≤ Revnum.head)
include reach budget

/-- After a write that failed, the next revision goes as it would have gone from the indexer
before the failure, with its ids moved up past the attempt's. -/
theorem agree_after_failed_write {ready : Indexer}
    (readied : (if indexer.diverged then indexer.recover else .ok indexer) = .ok ready)
    {attempt : Ingestor} (written : ready.writeRevision bad = (attempt, .error e)) :
    indexer.ingestor.lastId ≤ attempt.lastId ∧
      ∀ changeSet : ChangeSet,
        attempt.lastId + changeSet.changes.length * (indexer.store.nodeCount + 1) ≤ Revnum.head →
        Agree lawful (NodeId.shift indexer.ingestor.lastId (attempt.lastId - indexer.ingestor.lastId))
          (indexer.indexRevision changeSet)
          ({ ready with ingestor := attempt, diverged := true }.indexRevision changeSet) := by
  have within := reach.withinBudget (le_trans (by exact_mod_cast Nat.le_add_right _ _) budget)
  obtain ⟨readyWithin, readyConsistent, readyStore, settled⟩ := within.ready reach.consistent readied
  obtain ⟨t, holds, records⟩ := readyConsistent.stored
  obtain ⟨wf, same⟩ := readyConsistent.cached settled
  have forest := fun r => records.forest readyConsistent.valid r
  have sameLastId := within.lastId_of_ready reach.consistent readied
  -- The attempt moved the counter up.
  have room : ready.ingestor.lastId + bad.changes.length * (ready.store.nodeCount + 1) ≤
      Revnum.head := by
    have budget' : (spent : Int) + bad.changes.length * (indexer.store.nodeCount + 1) ≤
        Revnum.head := by exact_mod_cast budget
    rw [readyStore]
    have := readyWithin.counted
    unfold NodeId at *
    omega
  have up := (writeRevision_lastId holds forest readyWithin.nonneg room).1
  rw [written] at up
  refine ⟨sameLastId ▸ up, fun changeSet room' => ?_⟩
  -- The failed indexer rebuilds its live tree from the store, keeping the attempt's counter.
  obtain ⟨tree, wf', same', rebuilt⟩ :=
    recover_eq_ok { ready with ingestor := attempt, diverged := true } holds records
      readyConsistent.valid
  have kept : max ((t.nodes.map (·.id)).max?.getD 0) attempt.lastId = attempt.lastId :=
    max_eq_right (le_trans (max?_getD_le readyWithin.nonneg fun id mem => by
      obtain ⟨row, rowMem, rfl⟩ := List.mem_map.1 mem
      exact readyWithin.stored t holds row rowMem) up)
  -- The two ready indexers are alike but for the ids above the counter.
  have above :
      ready.ingestor.lastId ≤ ({ tree := tree, lastId := attempt.lastId } : Ingestor).lastId := up
  have shiftedIngestor : Ingestor.Shifted ready.ingestor.lastId
      (attempt.lastId - ready.ingestor.lastId) changeSet.revision ready.ingestor
      { tree := tree, lastId := attempt.lastId } :=
    Ingestor.Shifted.of_same wf wf' (same'.trans same.symm)
      (Records.id_le_of_same records readyConsistent.valid wf same readyWithin.nonneg
        (readyWithin.stored t holds))
      readyWithin.nonneg above (schedule_of_ready reach.drained readied) rfl changeSet.revision
  have shifted : Shifted ready.ingestor.lastId (attempt.lastId - ready.ingestor.lastId)
      changeSet.revision ready
      { ready with ingestor := { tree := tree, lastId := attempt.lastId },
                   lastRevision := (revisions history).max?, diverged := false } :=
    { store := rfl, capacity := rfl, resumeAfter := rfl,
      lastRevision := readyConsistent.lastRevision.symm, settled := settled, settled' := rfl,
      ingestor := shiftedIngestor }
  have fixes := records.rename_shift readyConsistent.valid
    (reach.contentsRecord t (readyStore ▸ holds)).keys readyWithin.nonneg
    (readyWithin.stored t holds) (attempt.lastId - ready.ingestor.lastId)
  have agree := indexRevision_shifted shifted holds forest fixes (by rw [readyStore]; exact room')
  rw [sameLastId] at agree
  -- Both runs go as the runs from the ready indexers go.
  obtain ⟨result, store⟩ := indexRevision_of_ready changeSet readied settled
  have rebuiltReady : (if ({ ready with ingestor := attempt, diverged := true } : Indexer).diverged
      then ({ ready with ingestor := attempt, diverged := true } : Indexer).recover
      else .ok { ready with ingestor := attempt, diverged := true }) =
      .ok { ready with ingestor := { tree := tree, lastId := attempt.lastId },
                       lastRevision := (revisions history).max?, diverged := false } := by
    rw [if_pos rfl, rebuilt, kept]
  obtain ⟨result', store'⟩ := indexRevision_of_ready changeSet rebuiltReady rfl
  exact agree.of_eq result store result' store'

/-- After a failed revision the counter has not gone back, and the next revision goes as it would
have gone without the failure. -/
theorem failed_then_agrees (failed : indexer.indexRevision bad = (indexer', .error e)) :
    indexer.ingestor.lastId ≤ indexer'.ingestor.lastId ∧
      ∀ changeSet : ChangeSet, changeSet.revision ≤ Revnum.head →
        indexer'.ingestor.lastId + changeSet.changes.length * (indexer.store.nodeCount + 1) ≤
          Revnum.head →
        Agree lawful
          (NodeId.shift indexer.ingestor.lastId (indexer'.ingestor.lastId - indexer.ingestor.lastId))
          (indexer.indexRevision changeSet) (indexer'.indexRevision changeSet) := by
  -- A run from the reachable state leaves a store that holds tables.
  have stored : ∀ changeSet : ChangeSet, changeSet.revision ≤ Revnum.head →
      ∃ t, (indexer.indexRevision changeSet).1.store.Holds lawful t false := fun _ bounded' =>
    ((Reachable.indexed reach bounded' rfl).consistent.stored).imp fun _ stored => stored.1
  have within := reach.withinBudget (le_trans (by exact_mod_cast Nat.le_add_right _ _) budget)
  rcases indexRevision_cases failed with
    ⟨rfl, -⟩ | ⟨ready, readied, ⟨rfl, -⟩ | ⟨-, -, -, committing⟩⟩
  · -- The revision was refused before anything changed.
    refine ⟨le_refl _, fun changeSet bounded' _ => ?_⟩
    rw [sub_self]
    exact Agree.refl NodeId.shift_zero (stored changeSet bounded')
  · -- The ready indexer refused it: the next revision starts from that indexer either way.
    obtain ⟨-, -, -, settled⟩ := within.ready reach.consistent readied
    have sameLastId := within.lastId_of_ready reach.consistent readied
    refine ⟨sameLastId.ge, fun changeSet bounded' _ => ?_⟩
    rw [sameLastId, sub_self]
    obtain ⟨result, store⟩ := indexRevision_of_ready changeSet readied settled
    exact (Agree.refl NodeId.shift_zero (stored changeSet bounded')).of_eq rfl rfl result.symm
      store.symm
  rcases commitRevision_cases committing with
    ⟨ingestor, store, summary, -, -, committed⟩ | ⟨attempt, e', written, rfl, -⟩
  · exact absurd committed (by simp)
  obtain ⟨up, agrees⟩ := agree_after_failed_write reach budget readied written
  exact ⟨up, fun changeSet _ room => agrees changeSet room⟩

end

/-- Revision 2, which adds the directory "/x/y" although there is no "/x". -/
def addsOrphanDir : ChangeSet :=
  { info := { id := 2, author := none, dateMs := 0, message := "" },
    changes := [{ path := "/x/y", action := .added, kind := .dir }] }

/-- Revision 2, which adds the directory "/b". -/
def addsDirB : ChangeSet :=
  { info := { id := 2, author := none, dateMs := 0, message := "" },
    changes := [{ path := "/b", action := .added, kind := .dir }] }

end Indexer

end TreeHistory
