import Mathlib
import TreeHistory.Proofs.Indexer.Renumbered

/-!
# Reopening the indexer part-way through a run

Index some change sets, drop the indexer, open a new one on the same store and index the rest:
each revision has the outcome it has in one uninterrupted run, and the tables are that run's with
the ids handed out after the reopening renumbered (`reopening_resumes_alike`). Feeding the whole
sequence again instead skips every revision committed before the reopening and goes on as well.

The reopened indexer starts its counter at the largest stored id, so the two hand out ids a fixed
gap apart and stay `Indexer.Renumbered` (`indexEach_renumbered`); they skip alike too
(`SkipsAlike`). All this holds within the id budget (`idCost`): past it the counter wraps, and a
reopened indexer hands out an id it already stored.
-/

namespace TreeHistory

namespace Indexer

open History

variable {engine : Engine} {lawful : engine.Lawful}

/-! ## Runs of change sets -/

/-- Indexes change sets one after another, each from the indexer the one before left, with the
outcome of each. -/
def indexEach (indexer : Indexer) : List ChangeSet → Indexer × List (Except IndexError Outcome)
  | [] => (indexer, [])
  | changeSet :: rest =>
    let step := indexer.indexRevision changeSet
    let after := step.1.indexEach rest
    (after.1, step.2 :: after.2)

@[simp] theorem indexEach_nil (indexer : Indexer) : indexer.indexEach [] = (indexer, []) := rfl

theorem indexEach_cons (indexer : Indexer) (changeSet : ChangeSet) (rest : List ChangeSet) :
    indexer.indexEach (changeSet :: rest) =
      (((indexer.indexRevision changeSet).1.indexEach rest).1,
        (indexer.indexRevision changeSet).2 ::
          ((indexer.indexRevision changeSet).1.indexEach rest).2) := rfl

theorem indexEach_append (indexer : Indexer) (first rest : List ChangeSet) :
    indexer.indexEach (first ++ rest) =
      (((indexer.indexEach first).1.indexEach rest).1,
        (indexer.indexEach first).2 ++ ((indexer.indexEach first).1.indexEach rest).2) := by
  induction first generalizing indexer with
  | nil => rfl
  | cons changeSet first after =>
    rw [List.cons_append, indexEach_cons, after, indexEach_cons]
    rfl

@[simp] theorem length_indexEach (indexer : Indexer) (changeSets : List ChangeSet) :
    (indexer.indexEach changeSets).2.length = changeSets.length := by
  induction changeSets generalizing indexer with
  | nil => rfl
  | cons changeSet rest after => simp [indexEach_cons, after]

/-- The ids a run of change sets may hand out: one a change and one a row each copy may read. -/
def idCost (indexer : Indexer) : List ChangeSet → Nat
  | [] => 0
  | changeSet :: rest => changeSet.changes.length * (indexer.store.nodeCount + 1) +
      (indexer.indexRevision changeSet).1.idCost rest

theorem idCost_append (indexer : Indexer) (first rest : List ChangeSet) :
    indexer.idCost (first ++ rest) =
      indexer.idCost first + (indexer.indexEach first).1.idCost rest := by
  induction first generalizing indexer with
  | nil => simp [idCost]
  | cons changeSet first after =>
    rw [List.cons_append, idCost, after, idCost, indexEach_cons, Nat.add_assoc]

/-- A run from a reachable state ends in one, having spent its cost. -/
theorem Reachable.indexEach {indexer : Indexer} {history : History} {spent : Nat}
    (reach : Reachable lawful indexer history spent) :
    ∀ changeSets : List ChangeSet, (∀ changeSet ∈ changeSets, changeSet.revision ≤ Revnum.head) →
      ∃ history', Reachable lawful (indexer.indexEach changeSets).1 history'
        (spent + indexer.idCost changeSets) := by
  intro changeSets
  induction changeSets generalizing indexer history spent with
  | nil => exact fun _ => ⟨history, reach⟩
  | cons changeSet rest after =>
    intro bounded
    obtain ⟨history', reach'⟩ :=
      after (Reachable.indexed reach (bounded changeSet List.mem_cons_self) rfl)
        fun later mem => bounded later (List.mem_cons_of_mem _ mem)
    rw [Nat.add_assoc] at reach'
    exact ⟨history', reach'⟩

/-- A run from a journaled state commits a sublist of its change sets. -/
theorem Journal.indexEach {indexer : Indexer} {before since : List ChangeSet}
    (journal : Journal lawful indexer before since) :
    ∀ changeSets : List ChangeSet, (∀ changeSet ∈ changeSets, changeSet.revision ≤ Revnum.head) →
      ∃ more, more.Sublist changeSets ∧
        Journal lawful (indexer.indexEach changeSets).1 before (since ++ more) := by
  intro changeSets
  induction changeSets generalizing indexer since with
  | nil => exact fun _ => ⟨[], List.Sublist.refl _, by rwa [List.append_nil]⟩
  | cons changeSet rest after =>
    intro bounded
    obtain ⟨more, moreSub, journal'⟩ :=
      after (Journal.indexed journal (bounded changeSet List.mem_cons_self) rfl)
        fun later mem => bounded later (List.mem_cons_of_mem _ mem)
    rw [List.append_assoc] at journal'
    exact ⟨_, (committedSets_sublist _ changeSet).append moreSub, journal'⟩

/-! ## Skipping alike -/

/-- Two journals skip the same revisions among the change sets to come: they are one journal, or
the second has committed since it was opened while every change set to come is newer than every
revision the first has stored. -/
def SkipsAlike (before since before' since' changeSets : List ChangeSet) : Prop :=
  (before' = before ∧ since' = since) ∨
    (since' ≠ [] ∧ ∀ changeSet ∈ changeSets, ∀ stored ∈ before ++ since,
      stored.revision < changeSet.revision)

namespace SkipsAlike

variable {before since before' since' : List ChangeSet} {changeSet : ChangeSet}
  {rest : List ChangeSet}

theorem isResumed {indexer indexer' : Indexer}
    (alike : SkipsAlike before since before' since' (changeSet :: rest))
    (journal : Journal lawful indexer before since)
    (journal' : Journal lawful indexer' before' since') :
    indexer'.isResumed changeSet.revision = indexer.isResumed changeSet.revision := by
  rcases alike with ⟨rfl, rfl⟩ | ⟨committed, newer⟩
  · rw [Bool.eq_iff_iff, journal'.isResumed_iff, journal.isResumed_iff]
  -- The second has committed since it was opened; the first has stored only older revisions.
  have notResumed' : indexer'.isResumed changeSet.revision = false := by
    rw [Bool.eq_false_iff, ne_eq, journal'.isResumed_iff]
    exact fun resumed => committed resumed.2
  have notResumed : indexer.isResumed changeSet.revision = false := by
    rw [Bool.eq_false_iff, ne_eq, journal.isResumed_iff]
    rintro ⟨⟨last, largest, atMost⟩, -⟩
    obtain ⟨stored, storedMem, rfl⟩ := List.mem_map.1 (List.max?_mem largest)
    exact absurd atMost
      (not_le.2 (newer changeSet List.mem_cons_self stored (List.mem_append_left _ storedMem)))
  rw [notResumed, notResumed']

/-- Both journals record the same outcome of a change set and still skip alike, as long as the
change sets increase. -/
theorem next (alike : SkipsAlike before since before' since' (changeSet :: rest))
    (increasing : (changeSet :: rest).Pairwise (·.revision < ·.revision))
    (result : Except IndexError Outcome) :
    SkipsAlike before (since ++ committedSets result changeSet) before'
      (since' ++ committedSets result changeSet) rest := by
  rcases alike with ⟨rfl, rfl⟩ | ⟨committed, newer⟩
  · exact .inl ⟨rfl, rfl⟩
  refine .inr ⟨by simp [committed], fun later laterMem stored storedMem => ?_⟩
  rw [← List.append_assoc] at storedMem
  rcases List.mem_append.1 storedMem with old | new
  · exact newer later (List.mem_cons_of_mem _ laterMem) stored old
  · obtain rfl := List.mem_singleton.1 ((committedSets_sublist result changeSet).subset new)
    exact List.rel_of_pairwise_cons increasing laterMem

end SkipsAlike

/-! ## Runs from renumbered indexers -/

/-- Two renumbered indexers that have spent alike and skip alike index increasing change sets
alike, within the budget. -/
theorem indexEach_renumbered {base gap : NodeId} :
    ∀ (changeSets : List ChangeSet) {indexer indexer' : Indexer} {history history' : History}
      {spent : Nat} {before since before' since' : List ChangeSet},
      Renumbered lawful base gap indexer indexer' →
      Reachable lawful indexer history spent → Reachable lawful indexer' history' spent →
      Journal lawful indexer before since → Journal lawful indexer' before' since' →
      SkipsAlike before since before' since' changeSets →
      changeSets.Pairwise (·.revision < ·.revision) →
      (∀ changeSet ∈ changeSets, changeSet.revision ≤ Revnum.head) →
      spent + indexer'.idCost changeSets ≤ Revnum.head →
      (indexer'.indexEach changeSets).2 = (indexer.indexEach changeSets).2 ∧
        Renumbered lawful base gap (indexer.indexEach changeSets).1
          (indexer'.indexEach changeSets).1
  | [], _, _, _, _, _, _, _, _, _, renumbered, _, _, _, _, _, _, _, _ => ⟨rfl, renumbered⟩
  | changeSet :: rest, indexer, indexer', history, history', spent, before, since, before',
      since', renumbered, reach, reach', journal, journal', alike, increasing, bounded, budget => by
    have counted := renumbered.nodeCount
    have here := bounded changeSet List.mem_cons_self
    have budgetHere : spent + changeSet.changes.length * (indexer.store.nodeCount + 1) ≤
        Revnum.head := by
      unfold idCost at budget
      rw [counted] at budget
      push_cast at budget ⊢
      linarith [Int.natCast_nonneg ((indexer'.indexRevision changeSet).1.idCost rest)]
    -- The first revision goes alike, and leaves both journaled and reachable at one cost.
    obtain ⟨sameResult, renumbered₁⟩ := indexRevision_renumbered renumbered reach reach' here
      budgetHere (alike.isResumed journal journal')
    have step : ∀ indexer : Indexer, indexer.indexRevision changeSet =
        ((indexer.indexRevision changeSet).1, (indexer.indexRevision changeSet).2) := fun _ => rfl
    have reach₁ := Reachable.indexed reach here (step indexer)
    have reach₁' := Reachable.indexed reach' here (step indexer')
    rw [counted] at reach₁'
    have journal₁ := Journal.indexed journal here (step indexer)
    have journal₁' := Journal.indexed journal' here (step indexer')
    rw [sameResult] at journal₁'
    have budget₁ : spent + changeSet.changes.length * (indexer.store.nodeCount + 1) +
        (indexer'.indexRevision changeSet).1.idCost rest ≤ Revnum.head := by
      unfold idCost at budget
      rw [counted] at budget
      push_cast at budget ⊢
      linarith
    obtain ⟨restResult, renumberedRest⟩ := indexEach_renumbered rest renumbered₁ reach₁ reach₁'
      journal₁ journal₁' (alike.next increasing _) (List.Pairwise.of_cons increasing)
      (fun later mem => bounded later (List.mem_cons_of_mem _ mem)) budget₁
    rw [indexEach_cons, indexEach_cons]
    exact ⟨by rw [sameResult, restResult], renumberedRest⟩

end Indexer

/-! ## The stored tables at a reopening -/

namespace Tables

open History

variable {t : Tables} {history : History} {sets : List ChangeSet} {base : NodeId}

/-- Following the ids a predecessor names changes nothing when they stay. -/
theorem follow_shift_of_le {gap : NodeId} {predecessor : Option Predecessor}
    (below : ∀ named, predecessor = some named → named.id ≤ base) :
    Predecessor.follow (NodeId.shift base gap) predecessor = predecessor := by
  cases predecessor with
  | none => rfl
  | some named =>
    rw [Predecessor.follow_some, Option.some.injEq]
    unfold Predecessor.rename
    rw [NodeId.shift_of_le (below named rfl)]

section
variable (records : t.Records history) (valid : history.Valid) (low : 0 ≤ base)
  (stored : ∀ row ∈ t.nodes, row.id ≤ base)
include records valid low stored

/-- Below a bound of the stored ids lie every parent, the root or a stored row. -/
theorem Records.parent_le {row : NodeRecord} (mem : row ∈ t.nodes) : row.parent ≤ base := by
  rcases records.parent_mem valid mem with isRoot | ⟨other, otherMem, otherId⟩
  · rw [isRoot]
    exact low
  · rw [← otherId]
    exact stored other otherMem

omit records valid in
/-- Below it lies every predecessor a row names: the root, or a row of smaller id. -/
theorem Lineage.predecessor_le (lineage : t.Lineage sets) {row : NodeRecord} (mem : row ∈ t.nodes) :
    ∀ named, row.predecessor = some named → named.id ≤ base := by
  intro named found
  rcases lineage.predecessor row mem named found with ⟨isRoot, -⟩ | ⟨other, otherMem, otherId, -⟩
  · rw [isRoot]
    exact low
  · rw [← otherId]
    exact stored other otherMem

/-- Shifting the ids above a bound of the stored ids changes nothing in tables that record a
history with its lineage. -/
theorem Records.relabel_shift (keys : t.keysHold = true) (lineage : t.Lineage sets) (gap : NodeId) :
    t.relabel (NodeId.shift base gap) (Predecessor.follow (NodeId.shift base gap)) = t := by
  refine relabel_eq_self (fun row mem => ⟨NodeId.shift_of_le (stored row mem),
    NodeId.shift_of_le (records.parent_le valid low stored mem),
    follow_shift_of_le (lineage.predecessor_le low stored mem)⟩) fun row mem => ?_
  obtain ⟨node, nodeMem, nodeId⟩ := List.mem_map.1 (keysHold_iff.1 keys row mem)
  rw [← nodeId]
  exact NodeId.shift_of_le (stored node nodeMem)

/-- The nodes of a tree alike to the current one name predecessors at most the bound. -/
theorem Records.predecessor_le_of_same (lineage : t.Lineage sets) {tree : LiveTree}
    (wf : tree.WellFormed) (same : tree.Same (current history)) :
    ∀ node ∈ tree.nodes, ∀ named, node.predecessor = some named → named.id ≤ base := by
  intro node mem named found
  by_cases isRoot : node.id = NodeId.root
  · obtain ⟨children, rootMem⟩ := wf.rootMem
    rw [wf.eq_of_id_eq mem rootMem isRoot] at found
    cases found
  · obtain ⟨rowMem, -, -⟩ := Indexer.Records.mem_of_same records valid wf same isRoot
      (wf.recordOf?_of_mem mem)
    exact lineage.predecessor_le low stored rowMem named found

end

end Tables

namespace Indexer

open History

/-- An indexer opened on a store that records a history starts its counter at the largest stored
id. -/
theorem lastId_of_ofStore {store : Store} {t : Tables} {history : History} {capacity : Nat}
    {reopened : Indexer} (holds : store.Holds lawful t false) (records : t.Records history)
    (valid : history.Valid) (opened : ofStore store capacity = .ok reopened) :
    reopened.ingestor.lastId = max ((t.nodes.map (·.id)).max?.getD 0) NodeId.root := by
  obtain ⟨tree, -, -, openedEq⟩ := ofStore_eq_ok holds records valid capacity
  rw [openedEq, Except.ok.injEq] at opened
  rw [← opened]

/-- An indexer reopened on the store of a reachable state within its budget is renumbered from
that state by the gap between the two counters. -/
theorem renumbered_of_reopened {indexer reopened : Indexer} {before since : List ChangeSet}
    {history : History} {spent capacity : Nat} (journal : Journal lawful indexer before since)
    (reach : Reachable lawful indexer history spent) (budget : spent ≤ Revnum.head)
    (opened : ofStore indexer.store capacity = .ok reopened) :
    Renumbered lawful reopened.ingestor.lastId
      (indexer.ingestor.lastId - reopened.ingestor.lastId) reopened indexer := by
  have consistent := reach.consistent
  have within := reach.withinBudget budget
  obtain ⟨t, holds, records⟩ := consistent.stored
  obtain ⟨base, counter⟩ : ∃ base, reopened.ingestor.lastId = base := ⟨_, rfl⟩
  rw [counter]
  rw [lastId_of_ofStore holds records consistent.valid opened] at counter
  obtain ⟨tree, wf, same, openedEq⟩ := ofStore_eq_ok holds records consistent.valid capacity
  rw [openedEq, Except.ok.injEq] at opened
  subst opened
  -- The reopened counter lies between the stored ids and the indexer's counter.
  have low : 0 ≤ base := counter ▸ le_trans (le_of_eq rfl) (le_max_right _ _)
  have stored : ∀ row ∈ t.nodes, row.id ≤ base := fun row mem =>
    counter ▸ le_trans (le_max?_getD (List.mem_map_of_mem mem)) (le_max_left _ _)
  have below : base ≤ indexer.ingestor.lastId := by
    rw [← counter]
    refine max_le (max?_getD_le within.nonneg fun id mem => ?_) within.nonneg
    obtain ⟨row, rowMem, rfl⟩ := List.mem_map.1 mem
    exact within.stored t holds row rowMem
  have nonneg : 0 ≤ indexer.ingestor.lastId - base := sub_nonneg.2 below
  -- The renumbering moves nothing stored.
  have lineage := Tables.Lineage.of_marked records consistent.valid
    (reach.idsGrow budget t holds) (journal.marked t holds)
  have fixes := records.relabel_shift consistent.valid low stored
    (reach.contentsRecord t holds).keys lineage (indexer.ingestor.lastId - base)
  -- The indexer made ready holds the current tree, as the reopened one does.
  obtain ⟨ready, readied, readySame⟩ := consistent.rebuilds.2
  obtain ⟨-, readyConsistent, -, settled⟩ := within.ready consistent readied
  obtain ⟨readyWf, -⟩ := readyConsistent.cached settled
  have nodesBelow := Records.id_le_of_same records consistent.valid wf same low stored
  have renamed := LiveTree.Renamed.of_fixes (NodeId.shift_injective nonneg) wf
    (readySame.trans same.symm) fun node mem => NodeId.shift_of_le (nodesBelow node mem)
  have relabeled : tree.Relabeled (NodeId.shift base (indexer.ingestor.lastId - base))
      (Predecessor.follow (NodeId.shift base (indexer.ingestor.lastId - base)))
      ready.ingestor.tree :=
    renamed.relabeled wf fun node mem => Tables.follow_shift_of_le
      (records.predecessor_le_of_same consistent.valid low stored lineage wf same node mem)
  refine ⟨⟨t, holds, by rw [fixes]; exact holds⟩, _, ready, rfl, readied,
    readyConsistent.lastRevision, ?_⟩
  exact { low := low, nonneg := nonneg, tree := relabeled, wellFormed := wf,
          wellFormed' := readyWf,
          schedule := by rw [schedule_of_ready reach.drained readied]; rfl,
          lastId := by
            rw [within.lastId_of_ready consistent readied, ← counter]
            exact (add_sub_cancel _ _).symm,
          above := counter.ge, bounded := counter ▸ nodesBelow }

/-- At a reopening, the two indexers skip alike among change sets newer than every commit. -/
theorem skipsAlike_of_reopened {indexer : Indexer} {before committed post : List ChangeSet}
    (journal : Journal lawful indexer before committed)
    (newer : ∀ changeSet ∈ post, ∀ old ∈ committed, old.revision < changeSet.revision) :
    SkipsAlike (before ++ committed) [] before committed post := by
  cases committed with
  | nil => exact .inl ⟨(List.append_nil before).symm, rfl⟩
  | cons last rest =>
    refine .inr ⟨List.cons_ne_nil _ _, fun changeSet mem stored storedMem => ?_⟩
    rw [List.append_nil] at storedMem
    rcases List.mem_append.1 storedMem with old | new
    · -- What was stored before the run is older than what the run committed.
      obtain ⟨history, consistent, revisionsEq⟩ := journal.consistent
      have increasing := consistent.valid.increasing
      rw [revisionsEq, List.map_append, List.pairwise_append] at increasing
      exact lt_trans (increasing.2.2 _ (List.mem_map_of_mem old) _
        (List.mem_map_of_mem List.mem_cons_self)) (newer changeSet mem last List.mem_cons_self)
    · exact newer changeSet mem stored new

/-- The renaming that takes the ids a reopened indexer hands out to those the indexer it was
reopened from hands out. -/
def renumbering (reopened indexer : Indexer) : NodeId → NodeId :=
  NodeId.shift reopened.ingestor.lastId (indexer.ingestor.lastId - reopened.ingestor.lastId)

/-- Going on after a reopening: the store opens, every revision to come has the outcome it has
when the first indexer goes on, and the tables end as that indexer's, renumbered. -/
theorem reopened_indexes_alike {start : Indexer} {before : List ChangeSet} {history : History}
    {spent : Nat} {pre post : List ChangeSet}
    (journal : Journal lawful start before []) (reach : Reachable lawful start history spent)
    (increasing : (pre ++ post).Pairwise (·.revision < ·.revision))
    (bounded : ∀ changeSet ∈ pre ++ post, changeSet.revision ≤ Revnum.head)
    (budget : spent + start.idCost (pre ++ post) ≤ Revnum.head) (capacity : Nat) :
    ∃ reopened, ofStore (start.indexEach pre).1.store capacity = .ok reopened ∧
      (reopened.indexEach post).2 = ((start.indexEach pre).1.indexEach post).2 ∧
      (∃ t, (reopened.indexEach post).1.store.Holds lawful t false ∧
        ((start.indexEach pre).1.indexEach post).1.store.Holds lawful
          (t.relabel (renumbering reopened (start.indexEach pre).1)
            (Predecessor.follow (renumbering reopened (start.indexEach pre).1))) false) ∧
      StrictMono (renumbering reopened (start.indexEach pre).1) ∧
      (∀ id ≤ reopened.ingestor.lastId, renumbering reopened (start.indexEach pre).1 id = id) ∧
      ((∃ t, (start.indexEach pre).1.store.Holds lawful t false ∧
          ∃ row ∈ t.nodes, row.id = (start.indexEach pre).1.ingestor.lastId) →
        ∀ id, renumbering reopened (start.indexEach pre).1 id = id) := by
  rw [idCost_append] at budget
  have budgetPre : spent + start.idCost pre ≤ Revnum.head := by
    push_cast at budget ⊢
    linarith [Int.natCast_nonneg ((start.indexEach pre).1.idCost post)]
  have boundedPre := fun changeSet mem => bounded changeSet (List.mem_append_left post mem)
  have boundedPost := fun changeSet mem => bounded changeSet (List.mem_append_right pre mem)
  -- The run up to the reopening ends reachable and journaled, having committed part of `pre`.
  obtain ⟨history₁, reachMid⟩ := reach.indexEach pre boundedPre
  obtain ⟨committed, committedSub, journalMid⟩ := journal.indexEach pre boundedPre
  rw [List.nil_append] at journalMid
  obtain ⟨t, holds, records⟩ := reachMid.consistent.stored
  obtain ⟨tree, -, -, openedEq⟩ :=
    ofStore_eq_ok holds records reachMid.consistent.valid capacity
  obtain ⟨reopened, opened⟩ :
      ∃ reopened, ofStore (start.indexEach pre).1.store capacity = .ok reopened := ⟨_, openedEq⟩
  have renumbered := renumbered_of_reopened journalMid reachMid (by exact_mod_cast budgetPre) opened
  have reachReopened : Reachable lawful reopened history₁ (spent + start.idCost pre) :=
    Reachable.reopened reachMid opened
  have journalReopened : Journal lawful reopened (before ++ committed) [] :=
    Journal.reopened journalMid opened
  -- The revisions to come are newer than every one committed, so both skip alike.
  have alike := skipsAlike_of_reopened journalMid fun changeSet mem old oldMem =>
    List.pairwise_append.1 increasing |>.2.2 old (committedSub.subset oldMem) changeSet mem
  obtain ⟨sameOutcomes, renumberedEnd⟩ := indexEach_renumbered post renumbered reachReopened
    reachMid journalReopened journalMid alike (List.pairwise_append.1 increasing).2.1 boundedPost
    (by push_cast at budget ⊢; linarith)
  -- The renumbering keeps the order of ids, and is the identity when the counters meet.
  obtain ⟨ready, ready', -, -, -, rel⟩ := renumbered.ready
  refine ⟨reopened, opened, sameOutcomes.symm, renumberedEnd.stored,
    NodeId.shift_strictMono rel.nonneg, fun id below => NodeId.shift_of_le below, ?_⟩
  rintro ⟨t', holds', row, rowMem, rowId⟩
  rw [holds'.tables_eq holds] at rowMem
  have reached : (start.indexEach pre).1.ingestor.lastId ≤ reopened.ingestor.lastId := by
    rw [lastId_of_ofStore holds records reachMid.consistent.valid opened, ← rowId]
    exact le_trans (le_max?_getD (List.mem_map_of_mem rowMem)) (le_max_left _ _)
  have meet : (start.indexEach pre).1.ingestor.lastId - reopened.ingestor.lastId = 0 :=
    sub_eq_zero.2 (le_antisymm reached (sub_nonneg.1 rel.nonneg))
  intro id
  unfold renumbering
  rw [meet]
  exact NodeId.shift_zero id

/-! ## Feeding the change sets again -/

/-- A revision that commits is in range, and becomes the last revision. -/
theorem lastRevision_of_committed {indexer indexer' : Indexer} {changeSet : ChangeSet}
    {summary : RevisionSummary}
    (step : indexer.indexRevision changeSet = (indexer', .ok (.committed summary))) :
    indexer'.lastRevision = some changeSet.revision ∧
      ¬(changeSet.revision < 1 ∨ changeSet.revision = Revnum.head) := by
  rcases indexRevision_cases step with ⟨-, refused | ⟨e, -, -, refused⟩⟩ |
      ⟨ready, -, ⟨-, refused | ⟨last, refused⟩⟩ | ⟨positive, notHead, -, committing⟩⟩
  all_goals try simp at refused
  rcases commitRevision_cases committing with ⟨-, -, -, -, rfl, -⟩ |
    ⟨ingestor, e, -, -, refused⟩
  · exact ⟨rfl, not_or.2 ⟨not_lt.2 positive, notHead⟩⟩
  · simp at refused

/-- A revision that does not commit leaves the store as it was. -/
theorem store_of_not_committed {indexer indexer' : Indexer} {changeSet : ChangeSet}
    {result : Except IndexError Outcome}
    (step : indexer.indexRevision changeSet = (indexer', result))
    (notCommitted : ∀ summary, result ≠ .ok (.committed summary)) :
    indexer'.store = indexer.store := by
  rcases indexRevision_cases step with ⟨rfl, -⟩ | ⟨ready, readied, rest⟩
  · rfl
  rcases rest with ⟨rfl, -⟩ | ⟨-, -, -, committing⟩
  · exact (ready_store readied).1
  rcases commitRevision_cases committing with ⟨-, -, summary, -, -, rfl⟩ | ⟨-, -, -, rfl, -⟩
  · exact absurd rfl (notCommitted summary)
  · exact (ready_store readied).1

/-- A run that commits nothing leaves the store as it was. -/
theorem store_of_indexEach {indexer : Indexer} :
    ∀ changeSets : List ChangeSet,
      (∀ result ∈ (indexer.indexEach changeSets).2, ∀ summary, result ≠ .ok (.committed summary)) →
      (indexer.indexEach changeSets).1.store = indexer.store := by
  intro changeSets
  induction changeSets generalizing indexer with
  | nil => exact fun _ => rfl
  | cons changeSet rest after =>
    intro notCommitted
    rw [indexEach_cons] at notCommitted ⊢
    rw [after fun result mem => notCommitted result (List.mem_cons_of_mem _ mem)]
    have step : indexer.indexRevision changeSet =
        ((indexer.indexRevision changeSet).1, (indexer.indexRevision changeSet).2) := rfl
    exact store_of_not_committed step (notCommitted _ List.mem_cons_self)

/-- A run splits after its last commit: the change sets after it commit nothing, and the last
one before it committed. -/
theorem exists_lastCommit (start : Indexer) :
    ∀ changeSets : List ChangeSet, ∃ done rest, changeSets = done ++ rest ∧
      (∀ result ∈ ((start.indexEach done).1.indexEach rest).2, ∀ summary,
        result ≠ .ok (.committed summary)) ∧
      (done = [] ∨ ∃ first last summary, done = first ++ [last] ∧
        ((start.indexEach first).1.indexRevision last).2 = .ok (.committed summary)) := by
  intro changeSets
  induction changeSets generalizing start with
  | nil => exact ⟨[], [], rfl, fun _ mem => absurd mem List.not_mem_nil, .inl rfl⟩
  | cons changeSet more after =>
    obtain ⟨done, rest, rfl, quiet, lastCommit⟩ := after (start.indexRevision changeSet).1
    rcases lastCommit with rfl | ⟨first, last, summary, rfl, committed⟩
    · -- Nothing after the first change set commits: split after it when it commits.
      by_cases firstCommits : ∃ summary,
          (start.indexRevision changeSet).2 = .ok (.committed summary)
      · obtain ⟨summary, committed⟩ := firstCommits
        exact ⟨[changeSet], rest, rfl, quiet, .inr ⟨[], changeSet, summary, rfl, committed⟩⟩
      · refine ⟨[], changeSet :: rest, rfl, fun result mem summary same => ?_, .inl rfl⟩
        rcases List.mem_cons.1 mem with first | later
        · exact firstCommits ⟨summary, first ▸ same⟩
        · exact quiet result later summary same
    · exact ⟨changeSet :: (first ++ [last]), rest, rfl, quiet,
        .inr ⟨changeSet :: first, last, summary, rfl, committed⟩⟩

/-- The outcome of a revision fed a second time skips it when the first feeding committed it. -/
def SkipsCommitted (first again : Except IndexError Outcome) : Prop :=
  ∀ summary, first = .ok (.committed summary) → again = .ok .skipped

/-- An indexer ready to write that resumes a revision skips it, when it is in range, and stays as
it is. -/
theorem indexRevision_of_resumed {indexer : Indexer} {changeSet : ChangeSet}
    (settled : indexer.diverged = false) (resumed : indexer.isResumed changeSet.revision = true) :
    (indexer.indexRevision changeSet).1 = indexer ∧
      (¬(changeSet.revision < 1 ∨ changeSet.revision = Revnum.head) →
        (indexer.indexRevision changeSet).2 = .ok .skipped) := by
  by_cases inRange : changeSet.revision < 1 ∨ changeSet.revision = Revnum.head
  · have refused : indexer.indexRevision changeSet =
        (indexer, .error (.fatal (.invalidRevision changeSet.revision))) := by
      unfold indexRevision
      simp only [inRange, if_true]
    rw [refused]
    exact ⟨rfl, fun outside => absurd inRange outside⟩
  · have skipped : indexer.indexRevision changeSet = (indexer, .ok .skipped) := by
      unfold indexRevision
      simp only [inRange, if_false, settled, Bool.false_eq_true, resumed, if_true]
    rw [skipped]
    exact ⟨rfl, fun _ => rfl⟩

/-- A ready indexer that resumes every revision of some change sets skips them all. -/
theorem indexEach_of_resumed {indexer : Indexer} (settled : indexer.diverged = false) :
    ∀ (changeSets : List ChangeSet) (other : Indexer),
      (∀ changeSet ∈ changeSets, indexer.isResumed changeSet.revision = true) →
      (indexer.indexEach changeSets).1 = indexer ∧
        List.Forall₂ SkipsCommitted (other.indexEach changeSets).2 (indexer.indexEach changeSets).2
  | [], _, _ => ⟨rfl, .nil⟩
  | changeSet :: rest, other, resumed => by
    obtain ⟨stays, skips⟩ := indexRevision_of_resumed settled (resumed changeSet List.mem_cons_self)
    obtain ⟨staysRest, skipsRest⟩ := indexEach_of_resumed settled rest
      (other.indexRevision changeSet).1 fun later mem => resumed later (List.mem_cons_of_mem _ mem)
    rw [indexEach_cons, indexEach_cons, stays]
    refine ⟨staysRest, .cons (fun summary committed => skips ?_) skipsRest⟩
    have step : other.indexRevision changeSet =
        ((other.indexRevision changeSet).1, .ok (.committed summary)) := Prod.ext rfl committed
    exact (lastRevision_of_committed step).2

/-- Feeding the whole sequence again after a reopening skips every revision committed before it
and then goes on alike: the reopened indexer skips everything up to the last commit, and from
there is renumbered from the first indexer as it was at that commit. -/
theorem refeeding_skips_committed {start reopened : Indexer} {before : List ChangeSet}
    {history : History} {spent capacity : Nat} {pre post : List ChangeSet}
    (journal : Journal lawful start before []) (reach : Reachable lawful start history spent)
    (increasing : (pre ++ post).Pairwise (·.revision < ·.revision))
    (bounded : ∀ changeSet ∈ pre ++ post, changeSet.revision ≤ Revnum.head)
    (budget : spent + start.idCost (pre ++ post) ≤ Revnum.head)
    (opened : ofStore (start.indexEach pre).1.store capacity = .ok reopened) :
    List.Forall₂ SkipsCommitted (start.indexEach pre).2
        ((reopened.indexEach (pre ++ post)).2.take pre.length) ∧
      (reopened.indexEach (pre ++ post)).2.drop pre.length =
        ((start.indexEach pre).1.indexEach post).2 ∧
      ∃ gap, 0 ≤ gap ∧ ∃ t, (reopened.indexEach (pre ++ post)).1.store.Holds lawful t false ∧
        ((start.indexEach pre).1.indexEach post).1.store.Holds lawful
          (t.relabel (NodeId.shift reopened.ingestor.lastId gap)
            (Predecessor.follow (NodeId.shift reopened.ingestor.lastId gap))) false := by
  obtain ⟨done, rest, rfl, quiet, lastCommit⟩ := exists_lastCommit start pre
  rw [List.append_assoc] at increasing bounded budget ⊢
  rw [idCost_append] at budget
  have boundedDone := fun changeSet mem => bounded changeSet (List.mem_append_left _ mem)
  have boundedRest := fun changeSet mem => bounded changeSet (List.mem_append_right done mem)
  -- The run up to the last commit ends reachable and journaled, on the store reopened.
  obtain ⟨historyDone, reachDone⟩ := reach.indexEach done boundedDone
  obtain ⟨committed, committedSub, journalDone⟩ := journal.indexEach done boundedDone
  rw [List.nil_append] at journalDone
  have budgetDone : spent + start.idCost done ≤ Revnum.head := by
    push_cast at budget ⊢
    linarith [Int.natCast_nonneg ((start.indexEach done).1.idCost (rest ++ post))]
  have midEq := indexEach_append start done rest
  rw [midEq, store_of_indexEach rest quiet] at opened
  have renumbered := renumbered_of_reopened journalDone reachDone (by exact_mod_cast budgetDone)
    opened
  have reachReopened : Reachable lawful reopened historyDone (spent + start.idCost done) :=
    Reachable.reopened reachDone opened
  have journalReopened : Journal lawful reopened (before ++ committed) [] :=
    Journal.reopened journalDone opened
  -- The reopened indexer resumes after the last commit, so it skips everything up to it.
  obtain ⟨t, holds, records⟩ := reachDone.consistent.stored
  obtain ⟨tree, -, -, openedEq⟩ :=
    ofStore_eq_ok holds records reachDone.consistent.valid capacity
  have shape := Except.ok.inj (openedEq.symm.trans opened)
  have resumes : ∀ changeSet ∈ done, reopened.isResumed changeSet.revision = true := by
    rcases lastCommit with rfl | ⟨first, last, summary, rfl, committedLast⟩
    · exact fun _ mem => absurd mem List.not_mem_nil
    have step : (start.indexEach first).1.indexRevision last =
        ((start.indexEach (first ++ [last])).1, .ok (.committed summary)) := by
      rw [indexEach_append]
      exact Prod.ext rfl committedLast
    have lastStored : (revisions historyDone).max? = some last.revision :=
      reachDone.consistent.lastRevision.symm.trans (lastRevision_of_committed step).1
    intro changeSet mem
    have atMost : changeSet.revision ≤ last.revision := by
      rcases List.mem_append.1 mem with earlier | isLast
      · exact le_of_lt (List.pairwise_append.1 (List.pairwise_append.1 increasing).1 |>.2.2
          changeSet earlier last List.mem_cons_self)
      · rw [List.mem_singleton.1 isLast]
    rw [← shape]
    simp [isResumed, lastStored, atMost]
  obtain ⟨stays, skipsDone⟩ := indexEach_of_resumed (by rw [← shape]) done start resumes
  -- From there on it is renumbered from the first indexer at the last commit.
  have alike := skipsAlike_of_reopened journalDone fun changeSet mem old oldMem =>
    List.pairwise_append.1 increasing |>.2.2 old (committedSub.subset oldMem) changeSet mem
  obtain ⟨sameOutcomes, renumberedEnd⟩ := indexEach_renumbered (rest ++ post) renumbered
    reachReopened reachDone journalReopened journalDone alike
    (List.pairwise_append.1 increasing).2.1 boundedRest (by push_cast at budget ⊢; linarith)
  obtain ⟨ready, ready', -, -, -, rel⟩ := renumbered.ready
  rw [indexEach_append (start.indexEach done).1 rest post] at renumberedEnd sameOutcomes
  dsimp only at renumberedEnd sameOutcomes
  rw [indexEach_append reopened done, stays, indexEach_append start done rest]
  dsimp only
  rw [← sameOutcomes]
  have lengths : ((reopened.indexEach done).2 ++ ((start.indexEach done).1.indexEach rest).2).length =
      (done ++ rest).length := by simp
  rw [← List.append_assoc, List.take_left' lengths, List.drop_left' lengths]
  refine ⟨List.rel_append skipsDone (List.forall₂_same.2 fun result mem summary committed =>
    absurd committed (quiet result mem summary)), rfl, _, rel.nonneg, renumberedEnd.stored⟩

/-! ## Reopening part-way through a run -/

/-- Reopening the indexer part-way through a run changes nothing the run goes on to do. After
indexing `pre`, a new indexer opens on the store; indexing `post` with it gives every revision the
outcome it has when the first indexer goes on, and tables that are that indexer's up to
renumbering the ids handed out after the reopening, strictly increasing, fixing every id up to the
reopened counter, and the identity when the last id handed out before the reopening was stored.
Feeding it `pre` again first skips every revision of `pre` the first indexer committed and goes on
alike. All this while the run stays within its id budget. -/
theorem reopening_resumes_alike {start : Indexer} {before : List ChangeSet} {history : History}
    {spent : Nat} {pre post : List ChangeSet}
    (journal : Journal lawful start before []) (reach : Reachable lawful start history spent)
    (increasing : (pre ++ post).Pairwise (·.revision < ·.revision))
    (bounded : ∀ changeSet ∈ pre ++ post, changeSet.revision ≤ Revnum.head)
    (budget : spent + start.idCost (pre ++ post) ≤ Revnum.head) (capacity : Nat) :
    ∃ reopened, ofStore (start.indexEach pre).1.store capacity = .ok reopened ∧
      ((reopened.indexEach post).2 = ((start.indexEach pre).1.indexEach post).2 ∧
        (∃ t, (reopened.indexEach post).1.store.Holds lawful t false ∧
          ((start.indexEach pre).1.indexEach post).1.store.Holds lawful
            (t.relabel (renumbering reopened (start.indexEach pre).1)
              (Predecessor.follow (renumbering reopened (start.indexEach pre).1))) false) ∧
        StrictMono (renumbering reopened (start.indexEach pre).1) ∧
        (∀ id ≤ reopened.ingestor.lastId, renumbering reopened (start.indexEach pre).1 id = id) ∧
        ((∃ t, (start.indexEach pre).1.store.Holds lawful t false ∧
            ∃ row ∈ t.nodes, row.id = (start.indexEach pre).1.ingestor.lastId) →
          ∀ id, renumbering reopened (start.indexEach pre).1 id = id)) ∧
      (List.Forall₂ SkipsCommitted (start.indexEach pre).2
          ((reopened.indexEach (pre ++ post)).2.take pre.length) ∧
        (reopened.indexEach (pre ++ post)).2.drop pre.length =
          ((start.indexEach pre).1.indexEach post).2 ∧
        ∃ gap, 0 ≤ gap ∧ ∃ t, (reopened.indexEach (pre ++ post)).1.store.Holds lawful t false ∧
          ((start.indexEach pre).1.indexEach post).1.store.Holds lawful
            (t.relabel (NodeId.shift reopened.ingestor.lastId gap)
              (Predecessor.follow (NodeId.shift reopened.ingestor.lastId gap))) false) := by
  obtain ⟨reopened, opened, goesOn⟩ :=
    reopened_indexes_alike journal reach increasing bounded budget capacity
  exact ⟨reopened, opened, goesOn,
    refeeding_skips_committed journal reach increasing bounded budget opened⟩

/-- Revision 1 adds "/a"; the indexer is reopened, and revision 2 adds "/b", which the reopened
indexer commits as the first one would. -/
theorem reopening_after_first_revision :
    Journal Reference.lawful openedEmpty [] [] ∧ Reachable Reference.lawful openedEmpty [] 0 ∧
      ([addsDirA] ++ [addsDirB]).Pairwise (·.revision < ·.revision) ∧
      (∀ changeSet ∈ [addsDirA] ++ [addsDirB], changeSet.revision ≤ Revnum.head) ∧
      0 + openedEmpty.idCost ([addsDirA] ++ [addsDirB]) ≤ Revnum.head ∧
      ∃ reopened, ofStore (openedEmpty.indexEach [addsDirA]).1.store 1000 = .ok reopened ∧
        (reopened.indexEach [addsDirB]).2 =
          ((openedEmpty.indexEach [addsDirA]).1.indexEach [addsDirB]).2 := by
  have journal : Journal Reference.lawful openedEmpty [] [] :=
    Journal.opened (Reference.holds {}) (ofStore_empty (Reference.holds {}) 1000)
  have reach : Reachable Reference.lawful openedEmpty [] 0 :=
    Reachable.opened (Reference.holds {}) (ofStore_empty (Reference.holds {}) 1000)
  have increasing : ([addsDirA] ++ [addsDirB]).Pairwise (·.revision < ·.revision) := by decide
  have bounded : ∀ changeSet ∈ [addsDirA] ++ [addsDirB], changeSet.revision ≤ Revnum.head := by
    decide
  have budget : 0 + openedEmpty.idCost ([addsDirA] ++ [addsDirB]) ≤ Revnum.head := by
    decide +kernel
  obtain ⟨reopened, opened, ⟨same, -⟩, -⟩ :=
    reopening_resumes_alike journal reach increasing bounded budget 1000
  exact ⟨journal, reach, increasing, bounded, budget, reopened, opened, same⟩

/-- A store whose one row, the directory "/big" of revision 1, has the id just below the
largest. -/
def nearLimitTables : Tables where
  revisions := [{ id := 1, author := none, dateMs := 0, message := "" }]
  nodes := [
    { id := 9223372036854775806, revMin := 1, revMax := Revnum.head, parent := NodeId.root,
      predecessor := none, name := "big", path := "/big", kind := .dir }]

/-- The revision that adds the directory at `path`. -/
def addsDirAt (revision : Revnum) (path : String) : ChangeSet :=
  { info := { id := revision, author := none, dateMs := 0, message := "" },
    changes := [{ path := path, action := .added, kind := .dir }] }

/-- Past the id budget, reopening changes what the run does: with "/big" near the largest id,
"/b" takes the id the counter wraps to, and the reopened indexer hands it out once more, so
revision 4 fails on a taken id where the indexer that went on commits it. -/
theorem reopening_past_budget_reuses_id :
    (do
      let start ← ofStore (Reference.store nearLimitTables) 1000
      let mid := (start.indexEach [addsDirAt 2 "/a", addsDirAt 3 "/b"]).1
      let reopened ← ofStore mid.store 1000
      pure ((mid.indexEach [addsDirAt 4 "/c"]).2, (reopened.indexEach [addsDirAt 4 "/c"]).2)) =
    (Except.ok ([.ok (.committed
        { revision := 4, events := 1, nodesCreated := 1, nodesOutdated := 0,
          contentsModified := 0, discarded := 0,
          rows := { nodeInserts := 1, nodeOutdates := 0, contentInserts := 0,
                    contentOutdates := 0 } })],
      [.error (.fatal (.tree (.duplicateId (-9223372036854775808))))]) :
      Except IndexError (List (Except IndexError Outcome) × List (Except IndexError Outcome))) := by
  decide +kernel

end Indexer

end TreeHistory
